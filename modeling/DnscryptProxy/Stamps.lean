import DnscryptProxy.Library.Base64
import DnscryptProxy.Library.Chain
import DnscryptProxy.Library.Words
import DnscryptProxy.Fetching

/-! The package `go-dnsstamps`: how a server, with its address, keys and names, is read from a
text and written as one. Strings are lists of bytes here, as the stamp has them.

* `newServerStampFromString_ends`: no text makes the reader go out of its range, and what it
  accepts is well formed.
* `string_read_iff`: when a stamp that was written is read back.
* `string_eq_iff`: when stamps with the same text are the same. `updateRegisteredServers`
  compares texts, and a relay is looked up by its text. -/

namespace DnscryptProxy.Stamps

open Library

/-- An error of the package, one of the base64 decoder, or an index out of range. -/
inductive Failure where
  | invalid (text : String)
  | corruptInput
  | panic
  deriving DecidableEq, Repr

abbrev Parsed (α : Type) := Except Failure α

structure Stamp where
  serverAddrStr : Bytes
  serverPk : Bytes
  hashes : List Bytes
  providerName : Bytes
  path : Bytes
  props : UInt64
  proto : StampProtoType
  deriving DecidableEq, Repr

/-! ## Addresses -/

/-- `":" + strconv.Itoa(DefaultPort)` -/
def portSuffix : Bytes := [0x3a, 0x34, 0x34, 0x33]

/-- Where the last colon stands, unless a bracket comes after it. -/
def portIndex (addr : Bytes) : Option Nat :=
  (lastIndex 0x3a addr).filter fun colIndex =>
    (lastIndex 0x5d addr).all fun bracketIndex => !decide (colIndex < bracketIndex)

/-- An address has the default port unless it has another one. -/
def withPort (addr : Bytes) : Nat × Bytes :=
  match portIndex addr with
  | none => (addr.length, addr ++ portSuffix)
  | some colIndex => (colIndex, addr)

/-- `strings.TrimRight(strings.TrimLeft(ipOnly, "["), "]")` -/
def trimBrackets (ipOnly : Bytes) : Bytes :=
  ((ipOnly.dropWhile (· = 0x5b)).reverse.dropWhile (· = 0x5d)).reverse

/-- Which texts `net.ParseIP` takes for addresses; the empty one is none. -/
structure IPParser where
  accepts : Bytes → Bool
  empty : accepts [] = false

section Address

variable (ip : IPParser)

def validAddr (colIndex : Nat) (addr : Bytes) : Parsed Bytes :=
  if colIndex ≥ addr.length - 1 then .error (.invalid "Invalid stamp (empty port)")
  else if (parseUint16 ((addr.drop (colIndex + 1)).map Char.ofUInt8)).isNone then
    .error (.invalid "Invalid stamp (port range)")
  else if !ip.accepts (trimBrackets (addr.take colIndex)) then
    .error (.invalid "Invalid stamp (IP address)")
  else .ok addr

def checkAddr (addr : Bytes) : Parsed Bytes := validAddr ip (withPort addr).1 (withPort addr).2

/-- Some kinds of stamps need not have an address. -/
def checkOptionalAddr (addr : Bytes) : Parsed Bytes :=
  if addr.length > 0 then checkAddr ip addr else .ok addr

end Address

/-! ## Reading -/

/-- A field with its length before it. All fields but the last one need a byte after them. -/
def readField (more : Bool) (bin : Bytes) : Parsed (Bytes × Bytes) :=
  match bin with
  | [] => .error .panic
  | n :: rest =>
    if (if more then 1 + n.toNat else n.toNat) ≥ bin.length then
      .error (.invalid "Invalid stamp")
    else .ok (rest.take n.toNat, rest.drop n.toNat)

def readHashes : Nat → Bytes → Parsed (List Bytes × Bytes)
  | 0, _ => .error .panic
  | _ + 1, [] => .error .panic
  | fuel + 1, vlen :: rest =>
    let length := (vlen &&& 0x7f).toNat
    if 1 + length ≥ rest.length + 1 then .error (.invalid "Invalid stamp")
    else
      let hashes := if length > 0 then [rest.take length] else []
      if vlen &&& 0x80 ≠ 0x80 then .ok (hashes, rest.drop length)
      else do
        let (more, rest) ← readHashes fuel (rest.drop length)
        .ok (hashes ++ more, rest)

def atEnd (rest : Bytes) : Parsed Unit :=
  if rest ≠ [] then .error (.invalid "Invalid stamp (garbage after end)") else .ok ()

/-- `binary.LittleEndian.Uint64` -/
def uint64 (bytes : Bytes) : UInt64 := .ofNat (bytes.foldr (fun b n => n * 256 + b.toNat) 0)

def readProps (bin : Bytes) : UInt64 := uint64 ((bin.drop 1).take 8)

def tooShort {α : Type} : Parsed α := .error (.invalid "Stamp is too short")

section Read

variable (ip : IPParser)

def readDNSCrypt (bin : Bytes) : Parsed Stamp := do
  let (addr, rest) ← readField true (bin.drop 9)
  let serverAddrStr ← checkAddr ip addr
  let (serverPk, rest) ← readField true rest
  let (providerName, rest) ← readField false rest
  atEnd rest
  .ok ⟨serverAddrStr, serverPk, [], providerName, [], readProps bin, .dnscrypt⟩

/-- DoH servers and ODoH relays. -/
def readHashed (proto : StampProtoType) (bin : Bytes) : Parsed Stamp := do
  let (addr, rest) ← readField true (bin.drop 9)
  let (hashes, rest) ← readHashes rest.length rest
  let (providerName, rest) ← readField true rest
  let (path, rest) ← readField false rest
  atEnd rest
  let serverAddrStr ← checkOptionalAddr ip addr
  .ok ⟨serverAddrStr, [], hashes, providerName, path, readProps bin, proto⟩

def readODoHTarget (bin : Bytes) : Parsed Stamp := do
  let (providerName, rest) ← readField true (bin.drop 9)
  let (path, rest) ← readField false rest
  atEnd rest
  .ok ⟨[], [], [], providerName, path, readProps bin, .odohTarget⟩

def readDNSCryptRelay (bin : Bytes) : Parsed Stamp := do
  let (addr, rest) ← readField false (bin.drop 1)
  let serverAddrStr ← checkAddr ip addr
  atEnd rest
  .ok ⟨serverAddrStr, [], [], [], [], 0, .dnscryptRelay⟩

/-- The shortest stamp of each kind that is looked at. -/
def minLength : StampProtoType → Nat
  | .dnscrypt => 66
  | .doh => 15
  | .odohTarget => 12
  | .dnscryptRelay => 9
  | .odohRelay => 13
  | _ => 0

def newDNSCryptServerStamp (bin : Bytes) : Parsed Stamp :=
  if bin.length < minLength .dnscrypt then tooShort else readDNSCrypt ip bin

def newDoHServerStamp (bin : Bytes) : Parsed Stamp :=
  if bin.length < minLength .doh then tooShort else readHashed ip .doh bin

def newODoHTargetStamp (bin : Bytes) : Parsed Stamp :=
  if bin.length < minLength .odohTarget then tooShort else readODoHTarget bin

def newDNSCryptRelayStamp (bin : Bytes) : Parsed Stamp :=
  if bin.length < minLength .dnscryptRelay then tooShort else readDNSCryptRelay ip bin

def newODoHRelayStamp (bin : Bytes) : Parsed Stamp :=
  if bin.length < minLength .odohRelay then tooShort else readHashed ip .odohRelay bin

def ofBinary (bin : Bytes) : Parsed Stamp :=
  match bin with
  | [] => tooShort
  | kind :: _ =>
    if kind = 0x01 then newDNSCryptServerStamp ip bin
    else if kind = 0x02 then newDoHServerStamp ip bin
    else if kind = 0x05 then newODoHTargetStamp bin
    else if kind = 0x81 then newDNSCryptRelayStamp ip bin
    else if kind = 0x85 then newODoHRelayStamp ip bin
    else .error (.invalid "Unsupported stamp version or protocol")

/-- `sdns:` -/
def scheme : Bytes := [0x73, 0x64, 0x6e, 0x73, 0x3a]

def slashes : Bytes := [0x2f, 0x2f]

def newServerStampFromString (stampStr : Bytes) : Parsed Stamp :=
  if ¬ scheme <+: stampStr then
    .error (.invalid "Stamps are expected to start with \"sdns:\"")
  else
    let stampStr := stampStr.drop scheme.length
    let stampStr := if slashes <+: stampStr then stampStr.drop slashes.length else stampStr
    match Base64.decode stampStr with
    | none => .error .corruptInput
    | some bin => ofBinary ip bin

end Read

/-! ## Writing -/

/-- `binary.LittleEndian.PutUint64`, for `n` bytes. -/
def putUint : Nat → Nat → Bytes
  | 0, _ => []
  | n + 1, v => UInt8.ofNat v :: putUint n (v / 256)

def header (kind : UInt8) (props : UInt64) : Bytes := kind :: putUint 8 props.toNat

/-- `uint8(len(field))` and the field. -/
def prefixed (field : Bytes) : Bytes := UInt8.ofNat field.length :: field

/-- The default port is not written. -/
def stripPort (addr : Bytes) : Bytes :=
  if portSuffix <:+ addr then addr.take (addr.length - portSuffix.length) else addr

def hashList : List Bytes → Bytes
  | [] => [0]
  | [hash] => prefixed hash
  | hash :: hashes => (UInt8.ofNat hash.length ||| 0x80) :: hash ++ hashList hashes

namespace Stamp

def dnscryptBinary (s : Stamp) : Bytes :=
  header 0x01 s.props ++ (prefixed (stripPort s.serverAddrStr) ++
    (prefixed s.serverPk ++ prefixed s.providerName))

def hashedBinary (kind : UInt8) (s : Stamp) : Bytes :=
  header kind s.props ++ (prefixed (stripPort s.serverAddrStr) ++
    (hashList s.hashes ++ (prefixed s.providerName ++ prefixed s.path)))

def odohTargetBinary (s : Stamp) : Bytes :=
  header 0x05 s.props ++ (prefixed s.providerName ++ prefixed s.path)

def dnscryptRelayBinary (s : Stamp) : Bytes := 0x81 :: prefixed (stripPort s.serverAddrStr)

/-- `none` is the panic for the other kinds. -/
def binary (s : Stamp) : Option Bytes :=
  match s.proto with
  | .dnscrypt => some s.dnscryptBinary
  | .doh => some (s.hashedBinary 0x02)
  | .odohTarget => some s.odohTargetBinary
  | .dnscryptRelay => some s.dnscryptRelayBinary
  | .odohRelay => some (s.hashedBinary 0x85)
  | _ => none

def string (s : Stamp) : Option Bytes :=
  s.binary.map fun bin => scheme ++ slashes ++ Base64.encode bin

end Stamp

/-! ## What is accepted -/

section WellFormed

variable (ip : IPParser)

/-- An address with its port, of which at most 255 bytes are written. -/
structure GoodAddr (addr : Bytes) : Prop where
  checked : checkAddr ip addr = .ok addr
  length : (stripPort addr).length ≤ 255

namespace Stamp

structure DNSCrypt (s : Stamp) : Prop where
  addr : GoodAddr ip s.serverAddrStr
  serverPk : s.serverPk.length ≤ 255
  hashes : s.hashes = []
  providerName : s.providerName.length ≤ 255
  path : s.path = []

structure Hashed (s : Stamp) : Prop where
  addr : s.serverAddrStr = [] ∨ GoodAddr ip s.serverAddrStr
  serverPk : s.serverPk = []
  hashes : ∀ hash ∈ s.hashes, 0 < hash.length ∧ hash.length ≤ 127
  providerName : s.providerName.length ≤ 255
  path : s.path.length ≤ 255

structure ODoHTarget (s : Stamp) : Prop where
  addr : s.serverAddrStr = []
  serverPk : s.serverPk = []
  hashes : s.hashes = []
  providerName : s.providerName.length ≤ 255
  path : s.path.length ≤ 255

structure DNSCryptRelay (s : Stamp) : Prop where
  addr : GoodAddr ip s.serverAddrStr
  serverPk : s.serverPk = []
  hashes : s.hashes = []
  providerName : s.providerName = []
  path : s.path = []
  props : s.props = 0

/-- The fields that the kind of the stamp has fit into it, and it has no others. -/
def WellFormed (s : Stamp) : Prop :=
  match s.proto with
  | .dnscrypt => s.DNSCrypt ip
  | .doh => s.Hashed ip
  | .odohTarget => s.ODoHTarget
  | .dnscryptRelay => s.DNSCryptRelay ip
  | .odohRelay => s.Hashed ip
  | _ => False

end Stamp

end WellFormed

variable {ip : IPParser}

/-! ### Addresses -/

theorem portIndex_append (addr : Bytes) : portIndex (addr ++ portSuffix) = some addr.length := by
  have hcolon : lastIndex 0x3a (addr ++ portSuffix) = some addr.length :=
    lastIndex_append (by decide) addr
  have hbracket : lastIndex 0x5d (addr ++ portSuffix) = lastIndex 0x5d addr :=
    lastIndex_append_of_not_mem (by decide) addr
  rw [portIndex, hcolon, hbracket, Option.filter_some]
  cases hlast : lastIndex 0x5d addr with
  | none => rfl
  | some i =>
    have hlt := lastIndex_lt hlast
    have hge : ¬ addr.length < i := by omega
    simp [hge]

theorem stripPort_append (addr : Bytes) : stripPort (addr ++ portSuffix) = addr := by
  rw [stripPort, if_pos (List.suffix_append addr portSuffix), List.length_append, Nat.add_sub_cancel,
    List.take_left]

theorem length_stripPort_le (addr : Bytes) : (stripPort addr).length ≤ addr.length := by
  unfold stripPort
  split
  · exact List.length_take_le' _ _
  · exact le_rfl

theorem validAddr_ends (colIndex : Nat) (addr : Bytes) :
    Ends (validAddr ip colIndex addr) (fun r => r = addr ∧ validAddr ip colIndex addr = .ok addr)
      (· ≠ .panic) := by
  cases h : validAddr ip colIndex addr with
  | ok r =>
    have hr : r = addr := by
      unfold validAddr at h
      split at h
      · cases h
      · split at h
        · cases h
        · split at h
          · cases h
          · cases h
            rfl
    exact ⟨hr, by rw [hr]⟩
  | error e =>
    rintro rfl
    unfold validAddr at h
    split at h
    · cases h
    · split at h
      · cases h
      · split at h <;> cases h

variable {addr bin : Bytes} {n : Nat}

theorem checkAddr_ends (hlen : addr.length ≤ 255) :
    Ends (checkAddr ip addr) (GoodAddr ip) (· ≠ .panic) := by
  refine (validAddr_ends _ _).mono ?_ fun _ h => h
  rintro _ - ⟨rfl, hvalid⟩
  cases hport : portIndex addr with
  | none =>
    have hwith : withPort addr = (addr.length, addr ++ portSuffix) := by simp [withPort, hport]
    have hagain : withPort (addr ++ portSuffix) = (addr.length, addr ++ portSuffix) := by
      simp [withPort, portIndex_append]
    rw [hwith] at hvalid ⊢
    refine ⟨?_, ?_⟩
    · rw [checkAddr, hagain]
      exact hvalid
    · rw [stripPort_append]
      exact hlen
  | some i =>
    have hwith : withPort addr = (i, addr) := by simp [withPort, hport]
    rw [hwith] at hvalid ⊢
    refine ⟨?_, (length_stripPort_le addr).trans hlen⟩
    rw [checkAddr, hwith]
    exact hvalid

theorem checkOptionalAddr_ends (hlen : addr.length ≤ 255) :
    Ends (checkOptionalAddr ip addr) (fun a => a = [] ∨ GoodAddr ip a) (· ≠ .panic) := by
  unfold checkOptionalAddr
  split
  · exact (checkAddr_ends hlen).mono (fun _ _ hgood => .inr hgood) fun _ he => he
  · next hempty => exact .inl (List.length_eq_zero_iff.mp (by omega))

/-! ### Fields -/

theorem readField_ends {more : Bool} (h : bin ≠ []) :
    Ends (readField more bin) (fun r => r.1.length ≤ 255 ∧ (more = true → r.2 ≠ [])) (· ≠ .panic) := by
  cases bin with
  | nil => exact absurd rfl h
  | cons n rest =>
    have hn := n.toNat_lt
    have htake : (rest.take n.toNat).length ≤ 255 := by
      rw [List.length_take]
      omega
    by_cases hlen : (if more then 1 + n.toNat else n.toNat) ≥ (n :: rest).length
    · rw [readField, if_pos hlen]
      exact nofun
    · rw [readField, if_neg hlen]
      refine ⟨htake, fun hmore hnil => hlen ?_⟩
      have hle := List.drop_eq_nil_iff.mp hnil
      rw [if_pos hmore, List.length_cons]
      omega

theorem readHashes_ends {fuel : Nat} (h : bin ≠ []) (hfuel : bin.length ≤ fuel) :
    Ends (readHashes fuel bin)
      (fun r => (∀ hash ∈ r.1, 0 < hash.length ∧ hash.length ≤ 127) ∧ r.2 ≠ []) (· ≠ .panic) := by
  induction fuel generalizing bin with
  | zero => exact absurd (List.length_eq_zero_iff.mp (Nat.le_zero.mp hfuel)) h
  | succ fuel ih =>
    cases bin with
    | nil => exact absurd rfl h
    | cons vlen rest =>
      have hseven : (vlen &&& 0x7f).toNat ≤ 127 := by
        rw [UInt8.toNat_and]
        exact Nat.and_le_right
      unfold readHashes
      dsimp only
      generalize (vlen &&& 0x7f).toNat = length at *
      split
      · exact nofun
      · next hlen =>
        have hlt : length < rest.length := by omega
        have hhashes : ∀ hash ∈ (if length > 0 then [rest.take length] else []),
            0 < hash.length ∧ hash.length ≤ 127 := by
          intro hash hmem
          split at hmem
          · rw [List.mem_singleton.mp hmem, List.length_take]
            omega
          · cases hmem
        have hrest : rest.drop length ≠ [] := by
          rw [Ne, List.drop_eq_nil_iff]
          omega
        split
        · exact ⟨hhashes, hrest⟩
        · rw [List.length_cons] at hfuel
          have hdrop : (rest.drop length).length ≤ fuel := by
            rw [List.length_drop]
            omega
          refine (ih hrest hdrop).bind ?_
          rintro ⟨more, tail⟩ - ⟨hmore, htail⟩
          refine ⟨fun hash hmem => ?_, htail⟩
          rcases List.mem_append.mp hmem with hmem | hmem
          · exact hhashes hash hmem
          · exact hmore hash hmem

theorem atEnd_ends (rest : Bytes) : Ends (atEnd rest) (fun _ => rest = []) (· ≠ .panic) := by
  unfold atEnd
  split
  · exact nofun
  · next h => exact not_not.mp h

/-! ### Stamps -/

theorem drop_ne_nil (h : n < bin.length) : bin.drop n ≠ [] := by
  rw [Ne, List.drop_eq_nil_iff]
  omega

theorem readDNSCrypt_ends (h : 9 < bin.length) :
    Ends (readDNSCrypt ip bin) (fun s => s.WellFormed ip) (· ≠ .panic) := by
  refine (readField_ends (drop_ne_nil h)).bind ?_
  rintro ⟨addr, rest⟩ - ⟨haddr, hrest⟩
  refine (checkAddr_ends haddr).bind fun serverAddrStr _ hgood => ?_
  refine (readField_ends (hrest rfl)).bind ?_
  rintro ⟨serverPk, rest⟩ - ⟨hpk, hrest⟩
  refine (readField_ends (hrest rfl)).bind ?_
  rintro ⟨providerName, rest⟩ - ⟨hname, -⟩
  refine (atEnd_ends rest).bind fun _ _ _ => ?_
  exact Stamp.DNSCrypt.mk hgood hpk rfl hname rfl

theorem readHashed_ends {proto : StampProtoType} (h : 9 < bin.length) :
    Ends (readHashed ip proto bin) (fun s => s.proto = proto ∧ s.Hashed ip) (· ≠ .panic) := by
  refine (readField_ends (drop_ne_nil h)).bind ?_
  rintro ⟨addr, rest⟩ - ⟨haddr, hrest⟩
  refine (readHashes_ends (hrest rfl) le_rfl).bind ?_
  rintro ⟨hashes, rest⟩ - ⟨hhashes, hrest⟩
  refine (readField_ends hrest).bind ?_
  rintro ⟨providerName, rest⟩ - ⟨hname, hrest⟩
  refine (readField_ends (hrest rfl)).bind ?_
  rintro ⟨path, rest⟩ - ⟨hpath, -⟩
  refine (atEnd_ends rest).bind fun _ _ _ => ?_
  refine (checkOptionalAddr_ends haddr).bind fun serverAddrStr _ hgood => ?_
  exact ⟨rfl, hgood, rfl, hhashes, hname, hpath⟩

theorem readODoHTarget_ends (h : 9 < bin.length) :
    Ends (readODoHTarget bin) (fun s => s.WellFormed ip) (· ≠ .panic) := by
  refine (readField_ends (drop_ne_nil h)).bind ?_
  rintro ⟨providerName, rest⟩ - ⟨hname, hrest⟩
  refine (readField_ends (hrest rfl)).bind ?_
  rintro ⟨path, rest⟩ - ⟨hpath, -⟩
  refine (atEnd_ends rest).bind fun _ _ _ => ?_
  exact Stamp.ODoHTarget.mk (s := ⟨[], [], [], providerName, path, readProps bin, .odohTarget⟩)
    rfl rfl rfl hname hpath

theorem readDNSCryptRelay_ends (h : 1 < bin.length) :
    Ends (readDNSCryptRelay ip bin) (fun s => s.WellFormed ip) (· ≠ .panic) := by
  refine (readField_ends (drop_ne_nil h)).bind ?_
  rintro ⟨addr, rest⟩ - ⟨haddr, -⟩
  refine (checkAddr_ends haddr).bind fun serverAddrStr _ hgood => ?_
  refine (atEnd_ends rest).bind fun _ _ _ => ?_
  exact Stamp.DNSCryptRelay.mk hgood rfl rfl rfl rfl rfl

theorem ends_of_length {x : Parsed Stamp}
    (h : n ≤ bin.length → Ends x (fun s => s.WellFormed ip) (· ≠ .panic)) :
    Ends (if bin.length < n then tooShort else x) (fun s => s.WellFormed ip) (· ≠ .panic) := by
  split
  · exact nofun
  · next hlen => exact h (Nat.le_of_not_lt hlen)

theorem ofBinary_ends (bin : Bytes) :
    Ends (ofBinary ip bin) (fun s => s.WellFormed ip) (· ≠ .panic) := by
  cases bin with
  | nil => exact nofun
  | cons kind rest =>
    unfold ofBinary
    dsimp only
    split
    · exact ends_of_length fun h => readDNSCrypt_ends (Nat.lt_of_lt_of_le (by decide) h)
    · split
      · refine ends_of_length fun h => (readHashed_ends (Nat.lt_of_lt_of_le (by decide) h)).mono ?_ ?_
        · rintro s - ⟨hproto, hs⟩
          rw [Stamp.WellFormed, hproto]
          exact hs
        · exact fun _ he => he
      · split
        · exact ends_of_length fun h => readODoHTarget_ends (Nat.lt_of_lt_of_le (by decide) h)
        · split
          · exact ends_of_length fun h => readDNSCryptRelay_ends (Nat.lt_of_lt_of_le (by decide) h)
          · split
            · refine ends_of_length fun h => (readHashed_ends (Nat.lt_of_lt_of_le (by decide) h)).mono ?_ ?_
              · rintro s - ⟨hproto, hs⟩
                rw [Stamp.WellFormed, hproto]
                exact hs
              · exact fun _ he => he
            · exact nofun

/-- Whatever text is given: an index is never out of range, and what is accepted is well formed. -/
theorem newServerStampFromString_ends (ip : IPParser) (stampStr : Bytes) :
    Ends (newServerStampFromString ip stampStr) (fun s => s.WellFormed ip) (· ≠ .panic) := by
  unfold newServerStampFromString
  split
  · exact nofun
  · dsimp only
    split
    · exact nofun
    · exact ofBinary_ends _

/-! ## Reading back -/

/-- An address that is written without its port does not look as if it had another one. -/
def Unambiguous (addr : Bytes) : Prop :=
  portSuffix <:+ addr → portIndex (stripPort addr) = none

instance (addr : Bytes) : Decidable (Unambiguous addr) :=
  inferInstanceAs (Decidable (portSuffix <:+ addr → portIndex (stripPort addr) = none))

theorem unambiguous_nil : Unambiguous [] := by
  decide

theorem checkAddr_stripPort_iff (h : GoodAddr ip addr) :
    checkAddr ip (stripPort addr) = .ok addr ↔ Unambiguous addr := by
  by_cases hsuffix : portSuffix <:+ addr
  · obtain ⟨host, rfl⟩ := hsuffix
    have hwith : withPort (host ++ portSuffix) = (host.length, host ++ portSuffix) := by
      simp [withPort, portIndex_append]
    have hchecked := h.checked
    rw [checkAddr, hwith] at hchecked
    rw [Unambiguous, stripPort_append, checkAddr]
    cases hport : portIndex host with
    | none =>
      have hhost : withPort host = (host.length, host ++ portSuffix) := by simp [withPort, hport]
      rw [hhost]
      exact ⟨fun _ _ => rfl, fun _ => hchecked⟩
    | some i =>
      have hhost : withPort host = (i, host) := by simp [withPort, hport]
      rw [hhost]
      constructor
      · -- the result of the check would be the address as it is
        intro hvalid
        have hsame := (validAddr_ends i host).of_ok hvalid
        have hlen := congrArg List.length hsame.1
        simp [portSuffix] at hlen
      · intro hnone
        exact absurd (hnone (List.suffix_append _ _)) (by simp)
  · have hstrip : stripPort addr = addr := if_neg hsuffix
    rw [hstrip]
    exact ⟨fun _ hsuffix' => absurd hsuffix' hsuffix, fun _ => h.checked⟩

theorem GoodAddr.stripPort_ne_nil (h : GoodAddr ip addr) : stripPort addr ≠ [] := by
  intro hnil
  have hchecked := h.checked
  by_cases hsuffix : portSuffix <:+ addr
  · obtain ⟨host, rfl⟩ := hsuffix
    rw [stripPort_append] at hnil
    subst hnil
    have hwith : withPort ([] ++ portSuffix) = (0, portSuffix) := by
      rw [withPort, portIndex_append]
      rfl
    have hempty : trimBrackets (portSuffix.take 0) = [] := rfl
    rw [checkAddr, hwith, validAddr, hempty, ip.empty] at hchecked
    cases hchecked
  · have hstrip : stripPort addr = addr := if_neg hsuffix
    rw [hstrip] at hnil
    subst hnil
    have hwith : withPort [] = (0, portSuffix) := rfl
    have hsame := (validAddr_ends 0 portSuffix).of_ok (by rw [← hchecked, checkAddr, hwith])
    cases hsame.1

theorem readField_prefixed {more : Bool} {field rest : Bytes} (hlen : field.length ≤ 255)
    (hrest : more = true → rest ≠ []) : readField more (prefixed field ++ rest) = .ok (field, rest) := by
  have hnat : (UInt8.ofNat field.length).toNat = field.length := by
    rw [UInt8.toNat_ofNat']
    omega
  have hshort : ¬ (if more then 1 + field.length else field.length) ≥
      (prefixed field ++ rest).length := by
    rw [List.length_append, prefixed, List.length_cons]
    cases more with
    | false =>
      rw [if_neg Bool.false_ne_true]
      omega
    | true =>
      have hpos := List.length_pos_iff.mpr (hrest rfl)
      rw [if_pos rfl]
      omega
  rw [prefixed, List.cons_append] at hshort ⊢
  rw [readField, hnat, if_neg hshort, List.take_left, List.drop_left]

theorem readField_last {field : Bytes} (hlen : field.length ≤ 255) :
    readField false (prefixed field) = .ok (field, []) := by
  have h : readField false (prefixed field ++ []) = .ok (field, []) :=
    readField_prefixed hlen nofun
  rwa [List.append_nil] at h

theorem prefixed_ne_nil (field : Bytes) : prefixed field ≠ [] := List.cons_ne_nil _ _

theorem hashList_ne_nil (hashes : List Bytes) : hashList hashes ≠ [] := by
  unfold hashList
  split
  · exact List.cons_ne_nil _ _
  · exact prefixed_ne_nil _
  · exact List.cons_ne_nil _ _

theorem vlen_bits (h : n ≤ 127) :
    (UInt8.ofNat n &&& 0x7f).toNat = n ∧ UInt8.ofNat n &&& 0x80 ≠ 0x80 ∧
      ((UInt8.ofNat n ||| 0x80) &&& 0x7f).toNat = n ∧ (UInt8.ofNat n ||| 0x80) &&& 0x80 = 0x80 := by
  have hall : ∀ n < 128, (UInt8.ofNat n &&& 0x7f).toNat = n ∧ UInt8.ofNat n &&& 0x80 ≠ 0x80 ∧
      ((UInt8.ofNat n ||| 0x80) &&& 0x7f).toNat = n ∧ (UInt8.ofNat n ||| 0x80) &&& 0x80 = 0x80 := by
    decide +kernel
  exact hall n (by omega)

theorem readHashes_hashList {hashes : List Bytes} {rest : Bytes} {fuel : Nat}
    (hhashes : ∀ hash ∈ hashes, 0 < hash.length ∧ hash.length ≤ 127) (hrest : rest ≠ [])
    (hfuel : (hashList hashes).length ≤ fuel) :
    readHashes fuel (hashList hashes ++ rest) = .ok (hashes, rest) := by
  have hpos := List.length_pos_iff.mpr hrest
  induction hashes generalizing fuel with
  | nil =>
    obtain ⟨fuel, rfl⟩ : ∃ n, fuel = n + 1 := ⟨fuel - 1, by simp [hashList] at hfuel; omega⟩
    simp [hashList, readHashes, hrest]
  | cons hash hashes ih =>
    obtain ⟨hhash, hle⟩ := hhashes hash List.mem_cons_self
    obtain ⟨hlast, hlast', hbits, hbits'⟩ := vlen_bits hle
    cases hashes with
    | nil =>
      rw [hashList, prefixed, List.length_cons] at hfuel
      obtain ⟨fuel, rfl⟩ : ∃ n, fuel = n + 1 := ⟨fuel - 1, by omega⟩
      have hshort : ¬ 1 + hash.length ≥ (hash ++ rest).length + 1 := by
        rw [List.length_append]
        omega
      rw [hashList, prefixed, List.cons_append, readHashes]
      rw [hlast, if_neg hshort, if_pos hhash, if_pos hlast', List.take_left, List.drop_left]
    | cons next hashes =>
      rw [hashList, List.cons_append, List.length_cons, List.length_append] at hfuel
      · obtain ⟨fuel, rfl⟩ : ∃ n, fuel = n + 1 := ⟨fuel - 1, by omega⟩
        have htail : readHashes fuel (hashList (next :: hashes) ++ rest) = .ok (next :: hashes, rest) :=
          ih (fun h hh => hhashes h (List.mem_cons_of_mem _ hh)) (by omega)
        have hshort : ¬ 1 + hash.length ≥ (hash ++ (hashList (next :: hashes) ++ rest)).length + 1 := by
          rw [List.length_append, List.length_append]
          omega
        rw [hashList, List.cons_append, List.cons_append, List.append_assoc, readHashes]
        · dsimp only
          rw [hbits, if_neg hshort, if_pos hhash, if_neg (not_not.mpr hbits'), List.take_left,
            List.drop_left, htail]
          rfl
        · exact nofun
      · exact nofun

theorem foldr_putUint (n v : Nat) :
    (putUint n v).foldr (fun b n => n * 256 + b.toNat) 0 = v % 256 ^ n := by
  induction n generalizing v with
  | zero => rw [putUint, List.foldr_nil, Nat.pow_zero, Nat.mod_one]
  | succ n ih =>
    have hbyte : (UInt8.ofNat v).toNat = v % 256 := UInt8.toNat_ofNat'
    rw [putUint, List.foldr_cons, ih, hbyte, Nat.pow_succ', Nat.mod_mul, Nat.mul_comm, Nat.add_comm]

theorem length_putUint (n v : Nat) : (putUint n v).length = n := by
  induction n generalizing v with
  | zero => rfl
  | succ n ih => rw [putUint, List.length_cons, ih]

theorem length_header (kind : UInt8) (props : UInt64) : (header kind props).length = 9 := by
  rw [header, List.length_cons, length_putUint]

theorem drop_header (kind : UInt8) (props : UInt64) (rest : Bytes) :
    (header kind props ++ rest).drop 9 = rest := List.drop_left' (length_header kind props)

theorem readProps_header (kind : UInt8) (props : UInt64) (rest : Bytes) :
    readProps (header kind props ++ rest) = props := by
  have hlt : props.toNat < 256 ^ 8 := props.toNat_lt
  rw [readProps, header, List.cons_append, List.drop_succ_cons, List.drop_zero,
    List.take_left' (length_putUint 8 _), uint64, foldr_putUint, Nat.mod_eq_of_lt hlt,
    UInt64.ofNat_toNat]

/-- The reader of each kind, without its check of the length. -/
def readKind (ip : IPParser) : StampProtoType → Bytes → Parsed Stamp
  | .dnscrypt, bin => readDNSCrypt ip bin
  | .doh, bin => readHashed ip .doh bin
  | .odohTarget, bin => readODoHTarget bin
  | .dnscryptRelay, bin => readDNSCryptRelay ip bin
  | .odohRelay, bin => readHashed ip .odohRelay bin
  | _, _ => .error (.invalid "Unsupported stamp version or protocol")

theorem ok_bind {α β : Type} (a : α) (f : α → Parsed β) : ((Except.ok a : Parsed α) >>= f) = f a :=
  rfl

theorem atEnd_nil : atEnd [] = .ok () :=
  rfl

namespace Stamp

variable {s : Stamp} {bin : Bytes}

theorem map_serverAddrStr_iff {x : Parsed Bytes} :
    (x.map fun addr => { s with serverAddrStr := addr }) = .ok s ↔ x = .ok s.serverAddrStr := by
  cases x with
  | error e => exact ⟨nofun, nofun⟩
  | ok addr =>
    constructor
    · intro h
      have haddr := congrArg serverAddrStr (Except.ok.inj h)
      exact congrArg Except.ok haddr
    · intro h
      cases h
      rfl

theorem DNSCrypt.read (h : s.DNSCrypt ip) (hproto : s.proto = .dnscrypt) :
    readDNSCrypt ip s.dnscryptBinary = (checkAddr ip (stripPort s.serverAddrStr)).map fun addr =>
      { s with serverAddrStr := addr } := by
  have hfirst : prefixed s.serverPk ++ prefixed s.providerName ≠ [] :=
    List.append_ne_nil_of_left_ne_nil (prefixed_ne_nil _) _
  rw [readDNSCrypt, dnscryptBinary, drop_header, readProps_header,
    readField_prefixed h.addr.length fun _ => hfirst]
  simp only [ok_bind]
  cases checkAddr ip (stripPort s.serverAddrStr) with
  | error e => rfl
  | ok addr =>
    rw [ok_bind, readField_prefixed h.serverPk fun _ => prefixed_ne_nil _]
    simp only [ok_bind]
    rw [readField_last h.providerName]
    simp only [ok_bind, atEnd_nil, Except.map, h.hashes, h.path, hproto]

theorem Hashed.read {proto : StampProtoType} (h : s.Hashed ip) (hproto : s.proto = proto)
    (kind : UInt8) :
    readHashed ip proto (s.hashedBinary kind) =
      (checkOptionalAddr ip (stripPort s.serverAddrStr)).map fun addr =>
        { s with serverAddrStr := addr } := by
  subst hproto
  have hlen : (stripPort s.serverAddrStr).length ≤ 255 := by
    rcases h.addr with hnil | hgood
    · rw [hnil]
      exact Nat.zero_le _
    · exact hgood.length
  have hnames : prefixed s.providerName ++ prefixed s.path ≠ [] :=
    List.append_ne_nil_of_left_ne_nil (prefixed_ne_nil _) _
  have hfirst : hashList s.hashes ++ (prefixed s.providerName ++ prefixed s.path) ≠ [] :=
    List.append_ne_nil_of_left_ne_nil (hashList_ne_nil _) _
  rw [readHashed, hashedBinary, drop_header, readProps_header,
    readField_prefixed hlen fun _ => hfirst]
  simp only [ok_bind]
  rw [readHashes_hashList h.hashes hnames (by rw [List.length_append]; omega)]
  simp only [ok_bind]
  rw [readField_prefixed h.providerName fun _ => prefixed_ne_nil _]
  simp only [ok_bind]
  rw [readField_last h.path]
  cases checkOptionalAddr ip (stripPort s.serverAddrStr) with
  | error e => rfl
  | ok addr => simp only [ok_bind, atEnd_nil, Except.map, h.serverPk]

theorem ODoHTarget.read (h : s.ODoHTarget) (hproto : s.proto = .odohTarget) :
    readODoHTarget s.odohTargetBinary = .ok s := by
  obtain ⟨serverAddrStr, serverPk, hashes, providerName, path, props, proto⟩ := s
  obtain ⟨rfl, rfl, rfl, hname, hpath⟩ := h
  obtain rfl := hproto
  rw [readODoHTarget, odohTargetBinary, drop_header, readProps_header,
    readField_prefixed hname fun _ => prefixed_ne_nil _]
  simp only [ok_bind]
  rw [readField_last hpath]
  rfl

theorem DNSCryptRelay.read (h : s.DNSCryptRelay ip) (hproto : s.proto = .dnscryptRelay) :
    readDNSCryptRelay ip s.dnscryptRelayBinary =
      (checkAddr ip (stripPort s.serverAddrStr)).map fun addr => { s with serverAddrStr := addr } := by
  rw [readDNSCryptRelay, dnscryptRelayBinary, List.drop_succ_cons, List.drop_zero,
    readField_last h.addr.length]
  simp only [ok_bind]
  cases checkAddr ip (stripPort s.serverAddrStr) with
  | error e => rfl
  | ok addr =>
    simp only [ok_bind, atEnd_nil, Except.map, h.serverPk, h.hashes, h.providerName, h.path, h.props,
      hproto]

theorem Hashed.checkOptionalAddr_iff (h : s.Hashed ip) :
    checkOptionalAddr ip (stripPort s.serverAddrStr) = .ok s.serverAddrStr ↔
      Unambiguous s.serverAddrStr := by
  rcases h.addr with hnil | hgood
  · rw [hnil]
    exact iff_of_true rfl unambiguous_nil
  · rw [checkOptionalAddr, if_pos (List.length_pos_iff.mpr hgood.stripPort_ne_nil)]
    exact checkAddr_stripPort_iff hgood

theorem readKind_binary_iff (h : s.WellFormed ip) (hbin : s.binary = some bin) :
    readKind ip s.proto bin = .ok s ↔ Unambiguous s.serverAddrStr := by
  unfold WellFormed at h
  unfold binary at hbin
  cases hproto : s.proto with
  | dnscrypt =>
    rw [hproto] at h hbin
    cases hbin
    rw [readKind, h.read hproto, map_serverAddrStr_iff]
    exact checkAddr_stripPort_iff h.addr
  | doh =>
    rw [hproto] at h hbin
    cases hbin
    rw [readKind, Hashed.read h hproto 0x02, map_serverAddrStr_iff]
    exact h.checkOptionalAddr_iff
  | odohTarget =>
    rw [hproto] at h hbin
    cases hbin
    rw [readKind, h.read hproto, h.addr]
    exact iff_of_true rfl unambiguous_nil
  | dnscryptRelay =>
    rw [hproto] at h hbin
    cases hbin
    rw [readKind, h.read hproto, map_serverAddrStr_iff]
    exact checkAddr_stripPort_iff h.addr
  | odohRelay =>
    rw [hproto] at h hbin
    cases hbin
    rw [readKind, Hashed.read h hproto 0x85, map_serverAddrStr_iff]
    exact h.checkOptionalAddr_iff
  | plain => rw [hproto] at h; exact h.elim
  | tls => rw [hproto] at h; exact h.elim
  | doq => rw [hproto] at h; exact h.elim

theorem ofBinary_binary (hbin : s.binary = some bin) :
    ofBinary ip bin = if bin.length < minLength s.proto then tooShort else readKind ip s.proto bin := by
  unfold binary at hbin
  cases hproto : s.proto <;> rw [hproto] at hbin <;> cases hbin <;> rfl

theorem binary_isSome (h : s.WellFormed ip) : ∃ bin, s.binary = some bin := by
  unfold WellFormed at h
  unfold binary
  cases hproto : s.proto <;> rw [hproto] at h <;> first | exact ⟨_, rfl⟩ | exact h.elim

theorem newServerStampFromString_string (bin : Bytes) :
    newServerStampFromString ip (scheme ++ slashes ++ Base64.encode bin) = ofBinary ip bin := by
  have hscheme : scheme <+: scheme ++ slashes ++ Base64.encode bin := by
    rw [List.append_assoc]
    exact List.prefix_append _ _
  rw [newServerStampFromString, if_neg (not_not.mpr hscheme)]
  dsimp only
  rw [List.append_assoc, List.drop_left, if_pos (List.prefix_append _ _), List.drop_left,
    Base64.decode_encode]

/-- A stamp that is written is read back exactly when its address is unambiguous without the
default port and what is written is not too short for its kind. -/
theorem string_read_iff (ip : IPParser) (s : Stamp) (h : s.WellFormed ip) :
    ∃ bin, s.binary = some bin ∧ ∃ text, s.string = some text ∧
      (newServerStampFromString ip text = .ok s ↔
        Unambiguous s.serverAddrStr ∧ minLength s.proto ≤ bin.length) := by
  obtain ⟨bin, hbin⟩ := binary_isSome h
  refine ⟨bin, hbin, _, by rw [string, hbin]; rfl, ?_⟩
  rw [newServerStampFromString_string, ofBinary_binary hbin]
  split
  · next hlen =>
    constructor
    · intro hshort
      cases hshort
    · rintro ⟨-, hge⟩
      omega
  · next hlen =>
    rw [readKind_binary_iff h hbin]
    exact (and_iff_left (Nat.le_of_not_lt hlen)).symm

end Stamp

namespace Sample

def bytes (text : String) : Bytes := text.toList.map Char.toUInt8

/-- Takes only the addresses used here. -/
def parser : IPParser where
  accepts text := text ∈ ["192.168.0.1", "fe80:0:0::1", "fe80:0:0::1:53"].map bytes
  empty := by decide

def relay (addr : String) : Stamp where
  serverAddrStr := bytes addr
  serverPk := []
  hashes := []
  providerName := []
  path := []
  props := 0
  proto := .dnscryptRelay

theorem relay_wellFormed {addr : String} (h : GoodAddr parser (bytes addr)) :
    (relay addr).WellFormed parser :=
  ⟨h, rfl, rfl, rfl, rfl, rfl⟩

theorem good_v4 : GoodAddr parser (bytes "192.168.0.1:443") := ⟨by decide, by decide⟩

theorem good_v6 : GoodAddr parser (bytes "fe80:0:0::1:443") := ⟨by decide, by decide⟩

/-- Without brackets around it, an IPv6 address loses its last group to the port. -/
theorem relay_read :
    (∃ text, (relay "192.168.0.1:443").string = some text ∧
      newServerStampFromString parser text = .ok (relay "192.168.0.1:443")) ∧
    ∃ text, (relay "fe80:0:0::1:443").string = some text ∧
      newServerStampFromString parser text ≠ .ok (relay "fe80:0:0::1:443") := by
  constructor
  · obtain ⟨bin, hbin, text, htext, hread⟩ :=
      Stamp.string_read_iff parser _ (relay_wellFormed good_v4)
    cases hbin
    exact ⟨text, htext, hread.mpr (by decide)⟩
  · obtain ⟨bin, hbin, text, htext, hread⟩ :=
      Stamp.string_read_iff parser _ (relay_wellFormed good_v6)
    exact ⟨text, htext, fun h => absurd (hread.mp h).1 (by decide)⟩

end Sample

namespace Stamp

variable {s : Stamp} {bin : Bytes}

/-- The number of a kind, which is the first byte of its stamps. -/
def kindByte : StampProtoType → UInt8
  | .plain => 0x00
  | .dnscrypt => 0x01
  | .doh => 0x02
  | .tls => 0x03
  | .doq => 0x04
  | .odohTarget => 0x05
  | .dnscryptRelay => 0x81
  | .odohRelay => 0x85

theorem kindByte_injective : Function.Injective kindByte := by
  intro p q
  cases p <;> cases q <;> decide

theorem head?_binary (hbin : s.binary = some bin) : bin.head? = some (kindByte s.proto) := by
  unfold binary at hbin
  cases hproto : s.proto <;> rw [hproto] at hbin <;> cases hbin <;> rfl

/-- Stamps with unambiguous addresses have the same text only if they are the same. -/
theorem string_eq_iff (ip : IPParser) (s s' : Stamp) (h : s.WellFormed ip) (h' : s'.WellFormed ip)
    (haddr : Unambiguous s.serverAddrStr) (haddr' : Unambiguous s'.serverAddrStr) :
    s.string = s'.string ↔ s = s' := by
  refine ⟨fun htext => ?_, fun hsame => hsame ▸ rfl⟩
  obtain ⟨bin, hbin⟩ := binary_isSome h
  obtain ⟨bin', hbin'⟩ := binary_isSome h'
  have hsame : bin = bin' := by
    simp only [string, hbin, hbin', Option.map_some, Option.some.injEq, List.append_cancel_left_eq]
      at htext
    have hdecode := congrArg Base64.decode htext
    rw [Base64.decode_encode, Base64.decode_encode] at hdecode
    exact Option.some.inj hdecode
  subst hsame
  have hproto : s.proto = s'.proto :=
    kindByte_injective (Option.some.inj ((head?_binary hbin).symm.trans (head?_binary hbin')))
  have hread := (readKind_binary_iff h hbin).mpr haddr
  have hread' := (readKind_binary_iff h' hbin').mpr haddr'
  rw [hproto, hread'] at hread
  exact (Except.ok.inj hread).symm

end Stamp

namespace Sample

theorem relay_differs :
    (relay "192.168.0.1:443").string ≠ (relay "192.168.0.1:8443").string := by
  have hother : GoodAddr parser (bytes "192.168.0.1:8443") := ⟨by decide, by decide⟩
  refine (Stamp.string_eq_iff parser _ _ (relay_wellFormed good_v4) (relay_wellFormed hother)
    (by decide) (by decide)).not.mpr ?_
  decide

/-- The condition is needed: of these two addresses the first one is ambiguous. -/
example : GoodAddr parser (bytes "fe80:0:0::1:53:443") ∧ GoodAddr parser (bytes "fe80:0:0::1:53") ∧
    (relay "fe80:0:0::1:53:443").string = (relay "fe80:0:0::1:53").string :=
  ⟨⟨by decide, by decide⟩, ⟨by decide, by decide⟩, by decide⟩

/-- The table of stamps of the other samples has what the package reads. -/
example : ∀ e ∈ DnscryptProxy.Sample.stampTable,
    newServerStampFromString ⟨(· ∈ ["192.0.2.1", "198.51.100.1"].map bytes), by decide⟩
        (e.1.map Char.toUInt8) =
      .ok ⟨e.2.serverAddrStr.map Char.toUInt8, e.2.serverPk, e.2.hashes,
        e.2.providerName.map Char.toUInt8, e.2.path.map Char.toUInt8, e.2.props, e.2.proto⟩ := by
  decide +kernel

end Sample

end DnscryptProxy.Stamps
