import DnscryptProxy.ObliviousDoH

/-! `parseODoHTargetConfigs`: the configurations that a target publishes, as a list of entries
with a version, a length and a body. `readEntries` says which entries lie inside the list.

The body of an entry is sliced before its length is compared with anything. Go checks the end of
a slice against the capacity of the buffer, so what follows the list in the buffer is a
parameter, `spare`. `parse_iff_not_overrun` says when it does not matter. -/

namespace DnscryptProxy

/-- The functions of HPKE that are called with the numbers of a suite. -/
structure SuiteLibrary where
  hpke : HPKE
  newSuite : UInt16 → UInt16 → UInt16 → Except String Suite
  hashSize : Suite → Nat

def odohVersion : Nat := 0x0001
def odohTestVersion : Nat := 0xff06
def maxODoHConfigs : Nat := 10

def parseODoHTargetConfig (lib : SuiteLibrary) (config : Bytes) : Except String ODoHTargetConfig :=
  match config with
  | kem₁ :: kem₀ :: kdf₁ :: kdf₀ :: aead₁ :: aead₀ :: length₁ :: length₀ :: publicKey =>
    if publicKey.length ≠ uint16 length₁ length₀ then .error "Malformed config"
    else do
      let suite ← lib.newSuite (.ofNat (uint16 kem₁ kem₀)) (.ofNat (uint16 kdf₁ kdf₀))
        (.ofNat (uint16 aead₁ aead₀))
      let _ ← lib.hpke.newClientContext suite publicKey (asciiBytes "odoh query")
      let keyID ← lib.hpke.expand suite (lib.hpke.extract suite config [])
        (asciiBytes "odoh key id") (lib.hashSize suite % 65536)
      return ⟨suite, encodeLengthValue keyID, publicKey⟩
  | _ => .error "Malformed config"

def supportedVersion (version : Nat) : Bool := version = odohVersion || version = odohTestVersion

/-- The loop of `parseODoHTargetConfigs`. -/
def parseFrom (lib : SuiteLibrary) (configs spare : Bytes) (offset : Nat)
    (targets : List ODoHTargetConfig) : Except Panic (List ODoHTargetConfig) :=
  if offset + 4 > configs.length ∨ targets.length ≥ maxODoHConfigs then .ok targets
  else
    let configVersion := uint16 (configs.getD offset 0) (configs.getD (offset + 1) 0)
    let configLength := uint16 (configs.getD (offset + 2) 0) (configs.getD (offset + 3) 0)
    if supportedVersion configVersion then do
      let config ← slice (configs ++ spare) (offset + 4) (offset + 4 + configLength)
      match parseODoHTargetConfig lib config with
      | .ok target => parseFrom lib configs spare (offset + configLength + 4) (targets ++ [target])
      | .error _ => parseFrom lib configs spare (offset + configLength + 4) targets
    else parseFrom lib configs spare (offset + configLength + 4) targets
termination_by configs.length - offset

def parseODoHTargetConfigs (lib : SuiteLibrary) (configs spare : Bytes) :
    Except Panic (Except String (List ODoHTargetConfig)) :=
  if configs.length ≤ 2 then .ok (.error "Server didn't return any ODoH configurations")
  else if configs.length ≠ uint16 (configs.getD 0 0) (configs.getD 1 0) + 2 then
    .ok (.error "Malformed configs")
  else do
    let targets ← parseFrom lib configs spare 2 []
    return .ok targets

/-! ## Entries -/

structure ODoHEntry where
  version : Nat
  body : Bytes
  deriving DecidableEq, Repr

theorem length_drop_lt (version₁ version₀ length₁ length₀ : UInt8) (rest : Bytes) (n : Nat) :
    (rest.drop n).length < (version₁ :: version₀ :: length₁ :: length₀ :: rest).length := by
  simp only [List.length_drop, List.length_cons]
  omega

/-- The entries that lie inside the bytes, and what is left after the last of them. -/
def readEntries : Bytes → List ODoHEntry × Bytes
  | version₁ :: version₀ :: length₁ :: length₀ :: rest =>
    if uint16 length₁ length₀ ≤ rest.length then
      let more := readEntries (rest.drop (uint16 length₁ length₀))
      (⟨uint16 version₁ version₀, rest.take (uint16 length₁ length₀)⟩ :: more.1, more.2)
    else ([], version₁ :: version₀ :: length₁ :: length₀ :: rest)
  | rest => ([], rest)
termination_by bytes => bytes.length
decreasing_by exact length_drop_lt _ _ _ _ _ _

section Entries

variable (lib : SuiteLibrary)

def ODoHEntry.config (e : ODoHEntry) : Option ODoHTargetConfig :=
  if supportedVersion e.version then (parseODoHTargetConfig lib e.body).toOption else none

/-- The configurations of the entries inside the bytes. -/
def configurations (bytes : Bytes) : List ODoHTargetConfig :=
  (readEntries bytes).1.filterMap (·.config lib)

/-- What is left begins with an entry of a supported version, which is too long. -/
def CutOff (bytes : Bytes) : Prop :=
  ∃ version₁ version₀ length₁ length₀ rest, (readEntries bytes).2 =
    version₁ :: version₀ :: length₁ :: length₀ :: rest ∧
      supportedVersion (uint16 version₁ version₀) = true

end Entries

/-! ## The loop -/

section Loop

variable {lib : SuiteLibrary} {configs spare bytes rest : Bytes} {offset : Nat}
  {version₁ version₀ length₁ length₀ : UInt8} {targets : List ODoHTargetConfig}

theorem length_lt_four
    (h : ∀ version₁ version₀ length₁ length₀ rest,
      bytes = version₁ :: version₀ :: length₁ :: length₀ :: rest → False) : bytes.length < 4 := by
  rcases bytes with _ | ⟨_, _ | ⟨_, _ | ⟨_, _ | ⟨_, _⟩⟩⟩⟩
  · decide
  · simp
  · simp
  · simp
  · exact (h _ _ _ _ _ rfl).elim

theorem readEntries_short (h : bytes.length < 4) : readEntries bytes = ([], bytes) := by
  unfold readEntries
  split
  · simp only [List.length_cons] at h
    omega
  · rfl

theorem configurations_inside (h : uint16 length₁ length₀ ≤ rest.length) :
    configurations lib (version₁ :: version₀ :: length₁ :: length₀ :: rest) =
      (ODoHEntry.config lib ⟨uint16 version₁ version₀, rest.take (uint16 length₁ length₀)⟩).toList ++
        configurations lib (rest.drop (uint16 length₁ length₀)) := by
  unfold configurations
  rw [readEntries, if_pos h, List.filterMap_cons]
  split
  · next hnone => rw [hnone]; rfl
  · next hsome => rw [hsome]; rfl

theorem cutOff_inside (h : uint16 length₁ length₀ ≤ rest.length) :
    CutOff (version₁ :: version₀ :: length₁ :: length₀ :: rest) ↔
      CutOff (rest.drop (uint16 length₁ length₀)) := by
  unfold CutOff
  rw [readEntries, if_pos h]

theorem configurations_outside (h : ¬ uint16 length₁ length₀ ≤ rest.length) :
    configurations lib (version₁ :: version₀ :: length₁ :: length₀ :: rest) = [] := by
  unfold configurations
  rw [readEntries, if_neg h]
  rfl

theorem cutOff_outside (h : ¬ uint16 length₁ length₀ ≤ rest.length) :
    CutOff (version₁ :: version₀ :: length₁ :: length₀ :: rest) ↔
      supportedVersion (uint16 version₁ version₀) = true := by
  unfold CutOff
  rw [readEntries, if_neg h]
  constructor
  · rintro ⟨_, _, _, _, _, heq, hsupported⟩
    cases heq
    exact hsupported
  · exact fun hsupported => ⟨_, _, _, _, _, rfl, hsupported⟩

theorem not_cutOff_short (h : bytes.length < 4) : ¬ CutOff bytes := by
  rintro ⟨_, _, _, _, rest, heq, -⟩
  rw [readEntries_short h] at heq
  subst heq
  simp only [List.length_cons] at h
  omega

theorem parseFrom_ends (h : offset + 4 > configs.length ∨ targets.length ≥ maxODoHConfigs) :
    parseFrom lib configs spare offset targets = .ok targets := by
  rw [parseFrom, if_pos h]

theorem parseFrom_turn
    (hdrop : configs.drop offset = version₁ :: version₀ :: length₁ :: length₀ :: rest)
    (htargets : targets.length < maxODoHConfigs) :
    parseFrom lib configs spare offset targets =
      if supportedVersion (uint16 version₁ version₀) then do
        let config ← slice (configs ++ spare) (offset + 4) (offset + 4 + uint16 length₁ length₀)
        parseFrom lib configs spare (offset + uint16 length₁ length₀ + 4)
          (targets ++ (parseODoHTargetConfig lib config).toOption.toList)
      else parseFrom lib configs spare (offset + uint16 length₁ length₀ + 4) targets := by
  have hlength := congrArg List.length hdrop
  simp only [List.length_drop, List.length_cons] at hlength
  have hget (i : Nat) : configs[offset + i]? =
      (version₁ :: version₀ :: length₁ :: length₀ :: rest)[i]? := by
    rw [← hdrop, List.getElem?_drop]
  have h₀ : configs.getD offset 0 = version₁ := by simpa using congrArg (·.getD 0) (hget 0)
  have h₁ : configs.getD (offset + 1) 0 = version₀ := by simpa using congrArg (·.getD 0) (hget 1)
  have h₂ : configs.getD (offset + 2) 0 = length₁ := by simpa using congrArg (·.getD 0) (hget 2)
  have h₃ : configs.getD (offset + 3) 0 = length₀ := by simpa using congrArg (·.getD 0) (hget 3)
  rw [parseFrom, if_neg (by omega)]
  simp only [h₀, h₁, h₂, h₃]
  split
  · congr 1
    funext config
    cases parseODoHTargetConfig lib config with
    | ok target => rfl
    | error e => simp [Except.toOption]
  · rfl

theorem slice_inside
    (hdrop : configs.drop offset = version₁ :: version₀ :: length₁ :: length₀ :: rest)
    {n : Nat} (hn : n ≤ rest.length) :
    slice (configs ++ spare) (offset + 4) (offset + 4 + n) = .ok (rest.take n) := by
  have hlength := congrArg List.length hdrop
  simp only [List.length_drop, List.length_cons] at hlength
  have hrest : (configs ++ spare).drop (offset + 4) = rest ++ spare := by
    rw [List.drop_append_of_le_length (by omega), ← List.drop_drop, hdrop]
    rfl
  rw [slice_ok (by omega) (by rw [List.length_append]; omega), ← List.take_drop, hrest,
    List.take_append_of_le_length hn]

theorem drop_next
    (hdrop : configs.drop offset = version₁ :: version₀ :: length₁ :: length₀ :: rest) (n : Nat) :
    configs.drop (offset + n + 4) = rest.drop n := by
  rw [show offset + n + 4 = offset + (4 + n) by omega, ← List.drop_drop, hdrop, ← List.drop_drop]
  rfl

theorem parseFrom_inside
    (hdrop : configs.drop offset = version₁ :: version₀ :: length₁ :: length₀ :: rest)
    (htargets : targets.length < maxODoHConfigs) (hfit : uint16 length₁ length₀ ≤ rest.length) :
    parseFrom lib configs spare offset targets =
      parseFrom lib configs spare (offset + uint16 length₁ length₀ + 4)
        (targets ++ (ODoHEntry.config lib
          ⟨uint16 version₁ version₀, rest.take (uint16 length₁ length₀)⟩).toList) := by
  rw [parseFrom_turn hdrop htargets, slice_inside hdrop hfit]
  unfold ODoHEntry.config
  split
  · rfl
  · simp

theorem length_toList_le {α : Type} (o : Option α) : o.toList.length ≤ 1 := by
  cases o <;> simp

theorem parseFrom_eq (hdrop : configs.drop offset = bytes)
    (htargets : targets.length ≤ maxODoHConfigs)
    (h : CutOff bytes → maxODoHConfigs ≤ targets.length + (configurations lib bytes).length) :
    parseFrom lib configs spare offset targets =
      .ok ((targets ++ configurations lib bytes).take maxODoHConfigs) := by
  induction bytes using readEntries.induct generalizing offset targets with
  | case1 version₁ version₀ length₁ length₀ rest hfit ih =>
    rw [configurations_inside hfit] at h ⊢
    rw [cutOff_inside hfit] at h
    by_cases hfull : targets.length < maxODoHConfigs
    · have hone := length_toList_le (ODoHEntry.config lib
        ⟨uint16 version₁ version₀, rest.take (uint16 length₁ length₀)⟩)
      rw [parseFrom_inside hdrop hfull hfit, ih (drop_next hdrop _), List.append_assoc]
      · rw [List.length_append]
        omega
      · simpa [Nat.add_assoc] using h
    · rw [parseFrom_ends (.inr (by omega)), List.take_append_of_le_length (by omega),
        List.take_of_length_le htargets]
  | case2 version₁ version₀ length₁ length₀ rest hfit =>
    rw [cutOff_outside hfit, configurations_outside hfit] at h
    rw [configurations_outside hfit, List.append_nil, List.take_of_length_le htargets]
    by_cases hfull : targets.length < maxODoHConfigs
    · have hversion : ¬ supportedVersion (uint16 version₁ version₀) = true := fun hs => by
        have := h hs
        simp only [List.length_nil] at this
        omega
      have hlength := congrArg List.length hdrop
      simp only [List.length_drop, List.length_cons] at hlength
      rw [parseFrom_turn hdrop hfull, if_neg hversion]
      exact parseFrom_ends (.inl (by omega))
    · exact parseFrom_ends (.inr (by omega))
  | case3 bytes hshort =>
    have hlength := length_lt_four hshort
    have hnone : configurations lib bytes = [] := by
      rw [configurations, readEntries_short hlength]
      rfl
    rw [hnone, List.append_nil, List.take_of_length_le htargets]
    rw [← hdrop, List.length_drop] at hlength
    exact parseFrom_ends (.inl (by omega))

theorem parseFrom_panics (hdrop : configs.drop offset = bytes) (hcut : CutOff bytes)
    (h : targets.length + (configurations lib bytes).length < maxODoHConfigs) :
    parseFrom lib configs [] offset targets = .error .indexOutOfRange := by
  induction bytes using readEntries.induct generalizing offset targets with
  | case1 version₁ version₀ length₁ length₀ rest hfit ih =>
    rw [configurations_inside hfit, List.length_append] at h
    rw [parseFrom_inside hdrop (by omega) hfit]
    refine ih (drop_next hdrop _) ((cutOff_inside hfit).mp hcut) ?_
    rw [List.length_append]
    omega
  | case2 version₁ version₀ length₁ length₀ rest hfit =>
    have hlength := congrArg List.length hdrop
    simp only [List.length_drop, List.length_cons] at hlength
    rw [parseFrom_turn hdrop (by omega), if_pos ((cutOff_outside hfit).mp hcut),
      slice_error (by simp only [List.append_nil]; omega)]
    rfl
  | case3 bytes hshort => exact absurd hcut (not_cutOff_short (length_lt_four hshort))

end Loop

/-! ## The whole list -/

/-- The list has the length that it declares. -/
def Declared (configs : Bytes) : Prop :=
  2 < configs.length ∧ configs.length = uint16 (configs.getD 0 0) (configs.getD 1 0) + 2

/-- An entry of a supported version runs past the end of the list, and fewer than
`maxODoHConfigs` configurations come before it. -/
def Overrun (lib : SuiteLibrary) (configs : Bytes) : Prop :=
  Declared configs ∧ CutOff (configs.drop 2) ∧
    (configurations lib (configs.drop 2)).length < maxODoHConfigs

theorem parse_of_declared {lib : SuiteLibrary} {configs spare : Bytes} (h : Declared configs) :
    parseODoHTargetConfigs lib configs spare = (parseFrom lib configs spare 2 []).map .ok := by
  unfold parseODoHTargetConfigs
  rw [if_neg (Nat.not_le.mpr h.1), if_neg (not_not.mpr h.2)]
  cases parseFrom lib configs spare 2 [] <;> rfl

/-- **The configurations of a target** are those of the entries inside the list, and nothing
outside of it is read, exactly unless an entry runs past its end. -/
theorem parse_iff_not_overrun (lib : SuiteLibrary) (configs : Bytes) :
    (∀ spare, ∃ result, parseODoHTargetConfigs lib configs spare = .ok result ∧
      ∀ targets, result = .ok targets →
        targets = (configurations lib (configs.drop 2)).take maxODoHConfigs) ↔
      ¬ Overrun lib configs := by
  constructor
  · rintro h ⟨hdeclared, hcut, hfew⟩
    obtain ⟨result, hparse, -⟩ := h []
    rw [parse_of_declared hdeclared,
      parseFrom_panics rfl hcut (by simpa using hfew)] at hparse
    cases hparse
  · intro h spare
    by_cases hdeclared : Declared configs
    · have hparse : parseFrom lib configs spare 2 [] =
          .ok ((configurations lib (configs.drop 2)).take maxODoHConfigs) := by
        refine parseFrom_eq rfl (Nat.zero_le _) fun hcut => ?_
        by_contra hfew
        exact h ⟨hdeclared, hcut, by simpa using hfew⟩
      refine ⟨_, by rw [parse_of_declared hdeclared, hparse]; rfl, ?_⟩
      rintro targets ⟨⟩
      rfl
    · unfold parseODoHTargetConfigs
      split
      · exact ⟨_, rfl, nofun⟩
      · split
        · exact ⟨_, rfl, nofun⟩
        · next hlong hlength =>
          exact absurd ⟨Nat.lt_of_not_le hlong, not_not.mp hlength⟩ hdeclared

namespace Sample

/-- One suite, and every key is taken. -/
def suites : SuiteLibrary where
  hpke :=
    { newClientContext := fun _ publicKey _ => .ok (publicKey, [])
      encryptToServer := fun _ plaintext _ => .ok plaintext
      exportSecret := fun _ _ _ => .ok []
      extract := fun _ secret _ => secret
      expand := fun _ _ _ _ => .ok [1]
      keyBytes := fun _ => 16
      nonceBytes := fun _ => 12
      newRawCipher := fun _ key => .ok key
      openRaw := fun _ _ ct _ => .ok ct }
  newSuite := fun kem kdf aead => .ok ⟨kem, kdf, aead⟩
  hashSize := fun _ => 32

/-- The only entry declares 65535 bytes, of which there are none. -/
theorem long_entry_panics :
    parseODoHTargetConfigs suites [0, 4, 0, 1, 0xff, 0xff] [] = .error .indexOutOfRange := by
  have hdrop : List.drop 2 ([0, 4, 0, 1, 0xff, 0xff] : Bytes) = [0, 1, 0xff, 0xff] := rfl
  have hlong : ¬ uint16 0xff 0xff ≤ ([] : Bytes).length := by decide
  have hfew : (configurations suites [0, 1, 0xff, 0xff]).length < maxODoHConfigs := by
    rw [configurations_outside hlong]
    decide
  rw [parse_of_declared ⟨by decide, by decide⟩,
    parseFrom_panics hdrop ((cutOff_outside hlong).mpr (by decide)) (by simpa using hfew)]
  rfl

end Sample

end DnscryptProxy
