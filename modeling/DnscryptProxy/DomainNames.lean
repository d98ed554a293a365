import DnscryptProxy.Library.Buffers
import DnscryptProxy.Library.PrefixMap
import DnscryptProxy.Library.WireNames
import DnscryptProxy.TXTRecords

/-! Domain names on the wire, as `msg.go` of the DNS library writes and reads them.

* `unpackDomainName_iff`: what is accepted, and what is returned for it.
* `packDomainName_reads`: what is written, with a map of the names that stand in the message
  already, is read as the labels of the name. -/

namespace DnscryptProxy

open Library WireNames

namespace DNSWire

/-- `2 << 13` -/
def maxCompressionOffset : Nat := 16384
def maxDomainNameWireOctets : Nat := 255
def maxCompressionPointers : Nat := (maxDomainNameWireOctets + 1) / 2 - 2

def errBuf : GoError := .plain "dns: buffer size too small"
def errFqdn : GoError := .plain "dns: domain must be fully qualified"
def errLongDomain : GoError := .plain "dns: domain name exceeded 255 wire-format octets"
def errPointers : GoError := .plain "dns: too many compression pointers"
def errRdata : GoError := .plain "dns: bad rdata"

/-! ## Reading -/

def isDomainNameLabelSpecial (b : UInt8) : Bool :=
  b ∈ [0x2e, 0x20, 0x27, 0x40, 0x3b, 0x28, 0x29, 0x22, 0x5c]

/-- A byte of a label, in the presentation form of names. -/
def presentLabelByte (b : UInt8) : Bytes :=
  if isDomainNameLabelSpecial b then [0x5c, b]
  else if b < 0x20 ∨ 0x7e < b then escapeByte b
  else [b]

def presentLabel (l : Bytes) : Bytes := l.flatMap presentLabelByte ++ [0x2e]

/-- Without a label, the name is that of the root. -/
def orRoot (s : Bytes) : Bytes := if s = [] then [0x2e] else s

def pointerOffset (c c1 : UInt8) : Nat := (c ^^^ 0xc0).toNat <<< 8 ||| c1.toNat

/-- The loop of `UnpackDomainName`. A step uses up a part of the budget or one of the pointers. -/
def unpackFrom (msg : Bytes) (off budget ptr off1 : Nat) (s : Bytes) : Except GoError (Bytes × Nat) :=
  match msg[off]? with
  | none => .error errBuf
  | some c =>
    if c &&& 0xc0 = 0x00 then
      if c = 0x00 then .ok (orRoot s, if ptr = 0 then off + 1 else off1)
      else if off + 1 + c.toNat > msg.length then .error errBuf
      else if budget ≤ c.toNat + 1 then .error errLongDomain
      else unpackFrom msg (off + 1 + c.toNat) (budget - (c.toNat + 1)) ptr off1
        (s ++ presentLabel ((msg.drop (off + 1)).take c.toNat))
    else if c &&& 0xc0 = 0xc0 then
      match msg[off + 1]? with
      | none => .error errBuf
      | some c1 =>
        if ptr + 1 > maxCompressionPointers then .error errPointers
        else unpackFrom msg (pointerOffset c c1) budget (ptr + 1) (if ptr = 0 then off + 2 else off1) s
    else .error errRdata
termination_by maxCompressionPointers - ptr + budget
decreasing_by all_goals omega

def unpackDomainName (msg : Bytes) (off : Nat) : Except GoError (Bytes × Nat) :=
  unpackFrom msg off maxDomainNameWireOctets 0 0 []

theorem highBits (c : UInt8) : (c &&& 0xc0 = 0x00 ↔ c.toNat < 64) ∧
    (c &&& 0xc0 = 0xc0 ↔ 192 ≤ c.toNat) ∧ (192 ≤ c.toNat → (c ^^^ 0xc0).toNat = c.toNat - 192) := by
  refine forall_byte ?_ c
  decide +kernel

theorem pointerOffset_eq {c : UInt8} (h : 192 ≤ c.toNat) (c1 : UInt8) :
    pointerOffset c c1 = target c c1 := by
  unfold pointerOffset target
  rw [(highBits c).2.2 h, ← Nat.shiftLeft_add_eq_or_of_lt (by exact c1.toNat_lt), Nat.shiftLeft_eq]

section Unpack

variable {msg : Bytes} {off hops stop : Nat} {labels : List Bytes}

theorem unpackFrom_of_reads (h : Reads msg off labels hops stop) (budget ptr off1 : Nat) (s : Bytes)
    (hptr : ptr + hops ≤ maxCompressionPointers) (hbudget : wireLength labels < budget) :
    unpackFrom msg off budget ptr off1 s =
      .ok (orRoot (s ++ labels.flatMap presentLabel), if ptr = 0 then stop else off1) := by
  induction h generalizing budget ptr off1 s with
  | root here =>
    rw [unpackFrom, at_singleton.mp here]
    simp
  | @label off hops stop labels l pos short here next ih =>
    obtain ⟨hc, hl⟩ := at_cons.mp here
    have hn := toNat_ofNat_length short
    have hzero : UInt8.ofNat l.length ≠ 0 := by
      intro hz
      rw [hz] at hn
      simp at hn
      omega
    have hle := here.le (by simp)
    rw [List.length_cons] at hle
    rw [wireLength_cons] at hbudget
    rw [unpackFrom, hc]
    simp only [(highBits _).1, hn, short, if_pos, hzero, if_false]
    rw [if_neg (by omega), if_neg (by omega), hl.take, ih _ _ _ _ hptr (by omega)]
    simp
  | @pointer off hops stop labels hi lo mark here next ih =>
    obtain ⟨hc, hl⟩ := at_cons.mp here
    have hfar : ¬hi.toNat < 64 := by omega
    rw [unpackFrom, hc]
    simp only [(highBits _).1, (highBits _).2.1, hfar, mark, if_pos, if_false, at_singleton.mp hl]
    rw [if_neg (by omega), pointerOffset_eq mark, ih _ _ _ _ (by omega) hbudget]
    simp

theorem reads_of_unpackFrom {budget ptr off1 : Nat} {s name : Bytes}
    (h : unpackFrom msg off budget ptr off1 s = .ok (name, stop))
    (hptr : ptr ≤ maxCompressionPointers) (hbudget : 0 < budget) :
    ∃ labels hops next, Reads msg off labels hops next ∧ ptr + hops ≤ maxCompressionPointers ∧
      wireLength labels < budget ∧ name = orRoot (s ++ labels.flatMap presentLabel) ∧
      stop = if ptr = 0 then next else off1 := by
  fun_induction unpackFrom msg off budget ptr off1 s with
  | case1 => cases h
  | case2 off budget ptr off1 s hc =>
    cases h
    exact ⟨[], 0, off + 1, .root (at_singleton.mpr hc), hptr, hbudget, by simp, rfl⟩
  | case3 => cases h
  | case4 => cases h
  | case5 off budget ptr off1 s c hc hbits hzero hle hlong ih =>
    obtain ⟨labels, hops, next, hreads, hhops, hlen, hname, hstop⟩ := ih h hptr (by omega)
    have hlabel : ((msg.drop (off + 1)).take c.toNat).length = c.toNat := by
      rw [List.length_take, List.length_drop]
      omega
    have hshort : c.toNat < 64 := (highBits c).1.mp hbits
    have hpos : 0 < c.toNat := Nat.pos_of_ne_zero fun h0 => hzero (UInt8.toNat_inj.mp h0)
    generalize hl : (msg.drop (off + 1)).take c.toNat = l at hlabel hname
    have hhere : At msg off (UInt8.ofNat l.length :: l) := by
      rw [hlabel, UInt8.ofNat_toNat]
      exact at_cons.mpr ⟨hc, hl ▸ List.take_prefix _ _⟩
    rw [← hlabel] at hreads hshort hpos
    refine ⟨l :: labels, hops, next, .label l hpos hshort hhere hreads, hhops, ?_, ?_, hstop⟩
    · rw [wireLength_cons, hlabel]
      omega
    · rw [hname, List.flatMap_cons, List.append_assoc]
  | case6 => cases h
  | case7 => cases h
  | case8 off budget ptr off1 s c hc hlow hbits c1 hc1 hmore ih =>
    obtain ⟨labels, hops, next, hreads, hhops, hlen, hname, hstop⟩ := ih h (by omega) hbudget
    have hmark := (highBits c).2.1.mp hbits
    rw [pointerOffset_eq hmark] at hreads
    have hhere : At msg off [c, c1] := at_cons.mpr ⟨hc, at_singleton.mpr hc1⟩
    refine ⟨labels, hops + 1, off + 2, .pointer c c1 hmark hhere hreads, by omega, hlen, hname, ?_⟩
    simpa using hstop
  | case9 => cases h

theorem unpackDomainName_of_reads (h : Reads msg off labels hops stop)
    (hhops : hops ≤ maxCompressionPointers) (hlen : wireLength labels < maxDomainNameWireOctets) :
    unpackDomainName msg off = .ok (orRoot (labels.flatMap presentLabel), stop) := by
  rw [unpackDomainName, unpackFrom_of_reads h _ _ _ _ (by omega) hlen]
  simp

/-- **What `UnpackDomainName` accepts**, for every message and offset: labels of at most 254 bytes
with their lengths, behind at most 126 pointers that may lead anywhere. It returns their
presentation form, and where the name ends or the first pointer does. -/
theorem unpackDomainName_iff (msg : Bytes) (off : Nat) (name : Bytes) (stop : Nat) :
    unpackDomainName msg off = .ok (name, stop) ↔
      ∃ labels hops, Reads msg off labels hops stop ∧ hops ≤ maxCompressionPointers ∧
        wireLength labels < maxDomainNameWireOctets ∧ name = orRoot (labels.flatMap presentLabel) := by
  constructor
  · intro h
    obtain ⟨labels, hops, next, hreads, hhops, hlen, hname, hstop⟩ :=
      reads_of_unpackFrom h (Nat.zero_le _) (by decide)
    rw [if_pos rfl] at hstop
    exact ⟨labels, hops, hstop ▸ hreads, by omega, hlen, hname⟩
  · rintro ⟨labels, hops, hreads, hhops, hlen, rfl⟩
    exact unpackDomainName_of_reads hreads hhops hlen

end Unpack

/-! ## Writing -/

/-- `IsFqdn`, for ASCII names: the last byte is a dot that is not escaped. -/
def isFqdn (s : Bytes) : Bool :=
  match s.reverse with
  | c :: r => c = 0x2e && (r.takeWhile (· = 0x5c)).length % 2 = 0
  | [] => false

/-- What the loop of `packDomainName` sees of a name: dots, and the bytes of labels. -/
inductive Token where
  | dot
  | plain (b : UInt8)
  | escaped (b : UInt8)
  deriving DecidableEq

/-- The tokens of a name, each with the string that follows it. -/
def tokens : Bytes → List (Token × Bytes)
  | [] => []
  | [c] => if c = 0x5c then [] else [(if c = 0x2e then .dot else .plain c, [])]
  | c :: d :: rest =>
    if c ≠ 0x5c then (if c = 0x2e then .dot else .plain c, d :: rest) :: tokens (d :: rest)
    else match rest with
      | e :: f :: rest =>
        if isDigit d && isDigit e && isDigit f then (.escaped (dddToByte d e f), rest) :: tokens rest
        else (.escaped d, e :: f :: rest) :: tokens (e :: f :: rest)
      | rest => (.escaped d, rest) :: tokens rest

/-- `msg[:off]`, and the compression map, which is `nil` where nothing is to be compressed. -/
abbrev Packing := Buffer (Option (List (Bytes × Nat)))

def Packing.entries (st : Packing) : List (Bytes × Nat) := st.table.getD []

/-- Looks for the rest of a name in the map, for the offset to point to, or adds it there. -/
def compressName (compress isRootLabel : Bool) (s : Bytes) (st : Packing) : Option Nat × Packing :=
  match st.table with
  | none => (none, st)
  | some m =>
    if isRootLabel then (none, st)
    else match m.lookup s with
      | some p => (if compress then some p else none, st)
      | none =>
        if st.msg.length < maxCompressionOffset then
          (none, { st with table := some ((s, st.msg.length) :: m) })
        else (none, st)

section Pack

variable (size : Nat) (compress : Bool)

def packTokens : List (Token × Bytes) → (s label : Bytes) → (first wasDot : Bool) → Packing →
    Except GoError (Option Nat × Packing)
  | [], _, _, _, _, st => .ok (none, st)
  | (.plain b, _) :: ts, s, label, _, _, st => packTokens ts s (label ++ [b]) false false st
  | (.escaped b, _) :: ts, s, label, _, _, st =>
    if st.msg.length + 1 > size then .error errBuf
    else packTokens ts s (label ++ [b]) false false st
  | (.dot, rest) :: ts, s, label, first, wasDot, st =>
    -- leading dots are not legal except for the root zone
    if first ∧ rest ≠ [] then .error errRdata
    else if wasDot then .error errRdata
    else if label.length ≥ 64 then .error errRdata
    else if st.msg.length + 1 + label.length > size then .error errBuf
    else match compressName compress (label = [] && rest = []) s st with
      | (some p, st) => .ok (some p, st)
      | (none, st) =>
        packTokens ts rest [] false true (st.write (UInt8.ofNat label.length :: label))

def terminator : Option Nat → Bytes
  | some p => putUint16 (p ^^^ 0xc000)
  | none => [0]

def packDomainName (s : Bytes) (st : Packing) : Except GoError Packing :=
  if s = [] then .ok st
  else if !isFqdn s then .error errFqdn
  else do
    let (pointer, st) ← packTokens size compress (tokens s) s [] true false st
    return if s = [0x2e] then st else st.write (terminator pointer)

end Pack

/-! ### Labels -/

def labelsFrom : List (Token × Bytes) → Bytes → List Bytes
  | [], _ => []
  | (.dot, _) :: ts, label => label :: labelsFrom ts []
  | (.plain b, _) :: ts, label => labelsFrom ts (label ++ [b])
  | (.escaped b, _) :: ts, label => labelsFrom ts (label ++ [b])

/-- The labels that a name spells. -/
def labelsOf (s : Bytes) : List Bytes := if s = [0x2e] then [] else labelsFrom (tokens s) []

section Tokens

variable {c d e f : UInt8} {rest : Bytes}

theorem tokens_dot : tokens (0x2e :: rest) = (.dot, rest) :: tokens rest := by
  cases rest with
  | nil => rfl
  | cons d rest =>
    rw [tokens.eq_def]
    simp

theorem tokens_plain (hc : c ≠ 0x5c) (hdot : c ≠ 0x2e) :
    tokens (c :: rest) = (.plain c, rest) :: tokens rest := by
  cases rest with
  | nil => simp [tokens, hc, hdot]
  | cons d rest =>
    rw [tokens.eq_def]
    simp [hc, hdot]

theorem tokens_backslash (hd : isDigit d = false) :
    tokens (0x5c :: d :: rest) = (.escaped d, rest) :: tokens rest := by
  rcases rest with _ | ⟨e, _ | ⟨f, rest⟩⟩
  · simp [tokens]
  · simp [tokens]
  · simp [tokens, hd]

theorem tokens_digits (hd : isDigit d = true) (he : isDigit e = true) (hf : isDigit f = true) :
    tokens (0x5c :: d :: e :: f :: rest) = (.escaped (dddToByte d e f), rest) :: tokens rest := by
  simp [tokens, hd, he, hf]

theorem tokens_tail {s : Bytes} {t : Token} {ts : List (Token × Bytes)}
    (h : tokens s = (t, rest) :: ts) : tokens rest = ts ∧ rest.length < s.length := by
  rcases s with _ | ⟨c, _ | ⟨d, s⟩⟩
  · simp [tokens] at h
  · simp only [tokens] at h
    split at h
    · cases h
    · cases h
      simp [tokens]
  · rw [tokens.eq_def] at h
    dsimp only at h
    split at h
    · cases h
      simp
    · split at h
      · split at h
        · cases h
          simp only [List.length_cons, true_and]
          omega
        · cases h
          simp
      · cases h
        simp only [List.length_cons, true_and]
        omega

theorem tokens_eq_dot {s : Bytes} {ts : List (Token × Bytes)} (h : tokens s = (.dot, rest) :: ts) :
    s = 0x2e :: rest := by
  have hplain (c : UInt8) (hc : (if c = 0x2e then Token.dot else .plain c) = .dot) : c = 0x2e := by
    split at hc
    · next heq => exact heq
    · cases hc
  rcases s with _ | ⟨c, _ | ⟨d, s⟩⟩
  · simp [tokens] at h
  · simp only [tokens] at h
    split at h
    · cases h
    · obtain ⟨hc, hrest⟩ := Prod.mk.inj (List.cons.inj h).1
      rw [hplain c hc, hrest]
  · rw [tokens.eq_def] at h
    dsimp only at h
    split at h
    · obtain ⟨hc, hrest⟩ := Prod.mk.inj (List.cons.inj h).1
      rw [hplain c hc, hrest]
    · split at h
      · split at h <;> cases h
      · cases h

end Tokens

/-- The rest of a name stands in the message, at an offset to which one can point. -/
structure Stands (msg : Bytes) (s : Bytes) (pos : Nat) : Prop where
  pos_lt : pos < maxCompressionOffset
  reads : ∃ hops stop, Reads msg pos (labelsFrom (tokens s) []) hops stop ∧
    hops < (labelsFrom (tokens s) []).length

theorem Stands.extend {msg more s : Bytes} {pos : Nat} (h : Stands msg s pos) :
    Stands (msg ++ more) s pos := by
  obtain ⟨hops, stop, hreads, hlt⟩ := h.reads
  exact ⟨h.pos_lt, hops, stop, hreads.extend, hlt⟩

/-- The names of the map that are no longer than `n` stand in the message. -/
def Packing.SoundUpTo (st : Packing) (n : Nat) : Prop :=
  ∀ e ∈ st.entries, e.1.length ≤ n → Stands st.msg e.1 e.2

theorem compressName_cases (compress isRootLabel : Bool) (s : Bytes) (st : Packing) :
    (∃ p, (s, p) ∈ st.entries ∧ compressName compress isRootLabel s st = (some p, st)) ∨
      ∃ st', compressName compress isRootLabel s st = (none, st') ∧ st'.msg = st.msg ∧
        (st'.entries = st.entries ∨
          st.msg.length < maxCompressionOffset ∧ st'.entries = (s, st.msg.length) :: st.entries) := by
  unfold compressName Packing.entries
  split
  · exact .inr ⟨st, rfl, rfl, .inl rfl⟩
  · next m hm =>
    rw [hm, Option.getD_some]
    split
    · exact .inr ⟨st, rfl, rfl, .inl (by rw [hm, Option.getD_some])⟩
    · split
      · next p hp =>
        by_cases hc : compress
        · exact .inl ⟨p, PrefixMap.mem_of_lookup hp, by rw [if_pos hc]⟩
        · exact .inr ⟨st, by rw [if_neg hc], rfl, .inl (by rw [hm, Option.getD_some])⟩
      · split
        · next hlt => exact .inr ⟨_, rfl, rfl, .inr ⟨hlt, rfl⟩⟩
        · exact .inr ⟨st, rfl, rfl, .inl (by rw [hm, Option.getD_some])⟩

theorem putUint16_pointer {p : Nat} (h : p < maxCompressionOffset) :
    ∃ hi lo, putUint16 (p ^^^ 0xc000) = [hi, lo] ∧ 192 ≤ hi.toNat ∧ target hi lo = p := by
  refine ⟨_, _, rfl, ?_, ?_⟩
  · rw [xor_mark h]
    simp only [UInt8.toNat_ofNat', maxCompressionOffset] at *
    omega
  · rw [xor_mark h]
    simp only [target, UInt8.toNat_ofNat', maxCompressionOffset] at *
    omega

structure Written (st st' : Packing) (labels : List Bytes) (last : Bytes) : Prop where
  grows : st.msg <+: st'.msg
  reads : ∃ hops, hops ≤ labels.length ∧
    Reads (st'.msg ++ last) st.msg.length labels hops (st'.msg ++ last).length
  stands : ∀ e ∈ st'.entries, e ∈ st.entries ∨ Stands (st'.msg ++ last) e.1 e.2

section Loop

variable {size : Nat} {compress : Bool} {st st' : Packing} {pointer : Option Nat} {s : Bytes}

theorem written_pointer {p : Nat} (h : Stands st.msg s p) :
    Written st st (labelsFrom (tokens s) []) (terminator (some p)) := by
  obtain ⟨hops, stop, hreads, hlt⟩ := h.reads
  obtain ⟨hi, lo, hbytes, hmark, htarget⟩ := putUint16_pointer h.pos_lt
  refine ⟨List.prefix_rfl, ⟨hops + 1, hlt, ?_⟩, fun e he => .inl he⟩
  have hnext : Reads (st.msg ++ [hi, lo]) (target hi lo) (labelsFrom (tokens s) []) hops stop := by
    rw [htarget]
    exact hreads.extend
  have hhere : At (st.msg ++ [hi, lo]) st.msg.length [hi, lo] := by
    simpa using at_length st.msg [hi, lo] []
  rw [terminator, hbytes, List.length_append]
  exact .pointer hi lo hmark hhere hnext

theorem written_root : Written st st [] (terminator none) := by
  refine ⟨List.prefix_rfl, ⟨0, le_rfl, ?_⟩, fun e he => .inl he⟩
  have hhere : At (st.msg ++ [0]) st.msg.length [0] := by
    simpa using at_length st.msg [0] []
  rw [terminator, List.length_append]
  exact .root hhere

theorem Written.label {l s : Bytes} {labels : List Bytes} {last : Bytes} {mid : Packing}
    (hpos : 0 < l.length) (hshort : l.length < 64) (hmsg : mid.msg = st.msg)
    (hentries : mid.entries = st.entries ∨ st.msg.length < maxCompressionOffset ∧
      mid.entries = (s, st.msg.length) :: st.entries)
    (hs : labelsFrom (tokens s) [] = l :: labels)
    (h : Written (mid.write (UInt8.ofNat l.length :: l)) st' labels last) :
    Written st st' (l :: labels) last := by
  obtain ⟨hgrows, ⟨hops, hle, hreads⟩, hstands⟩ := h
  have hwrite : (mid.write (UInt8.ofNat l.length :: l)).msg = st.msg ++ UInt8.ofNat l.length :: l := by
    rw [Buffer.write, hmsg]
  rw [hwrite] at hgrows hreads
  obtain ⟨more, hmore⟩ := hgrows
  have hhere : At (st'.msg ++ last) st.msg.length (UInt8.ofNat l.length :: l) := by
    rw [← hmore, List.append_assoc, List.append_assoc]
    exact at_length _ _ _
  have hlabel : Reads (st'.msg ++ last) st.msg.length (l :: labels) hops (st'.msg ++ last).length := by
    refine .label l hpos hshort hhere ?_
    have hoff : (st.msg ++ UInt8.ofNat l.length :: l).length = st.msg.length + 1 + l.length := by
      rw [List.length_append, List.length_cons]
      omega
    rw [← hoff]
    exact hreads
  refine ⟨⟨UInt8.ofNat l.length :: l ++ more, by rw [← List.append_assoc, hmore]⟩,
    ⟨hops, Nat.le_succ_of_le hle, hlabel⟩, fun e he => ?_⟩
  rcases hstands e he with hold | hnew
  · have hmid : e ∈ mid.entries := hold
    rcases hentries with heq | ⟨hlt, heq⟩
    · exact .inl (heq ▸ hmid)
    · rw [heq] at hmid
      rcases List.mem_cons.mp hmid with rfl | hmid
      · refine .inr ⟨hlt, hops, (st'.msg ++ last).length, ?_, ?_⟩
        · rw [hs]
          exact hlabel
        · rw [hs]
          exact Nat.lt_succ_of_le hle
      · exact .inl hmid
  · exact .inr hnew

theorem soundUpTo_write {mid : Packing} {n : Nat} (hsound : st.SoundUpTo s.length)
    (hmsg : mid.msg = st.msg)
    (hentries : mid.entries = st.entries ∨ st.msg.length < maxCompressionOffset ∧
      mid.entries = (s, st.msg.length) :: st.entries) (hn : n < s.length) (bs : Bytes) :
    Packing.SoundUpTo (mid.write bs) n := by
  intro e he hle
  have hmid : e ∈ mid.entries := he
  have hold : e ∈ st.entries := by
    rcases hentries with heq | ⟨-, heq⟩
    · exact heq ▸ hmid
    · rw [heq] at hmid
      rcases List.mem_cons.mp hmid with rfl | hmid
      · exact absurd hle (not_le.mpr hn)
      · exact hmid
  rw [Buffer.write, hmsg]
  exact (hsound e hold (by omega)).extend

theorem packTokens_written {ts : List (Token × Bytes)} {r label : Bytes} {first wasDot : Bool}
    (hts : tokens r = ts) (hle : r.length ≤ s.length)
    (hs : labelsFrom (tokens s) [] = labelsFrom ts label) (hsound : st.SoundUpTo s.length)
    (hempty : label = [] → wasDot = true ∨ first = true ∧ r ≠ [0x2e])
    (h : packTokens size compress ts s label first wasDot st = .ok (pointer, st')) :
    Written st st' (labelsFrom ts label) (terminator pointer) := by
  induction ts generalizing s r label first wasDot st with
  | nil =>
    simp only [packTokens, Except.ok.injEq, Prod.mk.injEq] at h
    obtain ⟨rfl, rfl⟩ := h
    exact written_root
  | cons token ts ih =>
    obtain ⟨t, rest⟩ := token
    obtain ⟨hrest, hlt⟩ := tokens_tail hts
    cases t with
    | plain b =>
      simp only [packTokens] at h
      exact ih hrest (by omega) hs hsound (by simp) h
    | escaped b =>
      simp only [packTokens] at h
      split at h
      · cases h
      · exact ih hrest (by omega) hs hsound (by simp) h
    | dot =>
      simp only [packTokens] at h
      split at h
      · cases h
      · next hfirst =>
        split at h
        · cases h
        · next hdot =>
          split at h
          · cases h
          · next hlong =>
            split at h
            · cases h
            · have hlabel : label ≠ [] := by
                intro hnil
                rcases hempty hnil with hwas | ⟨hisFirst, hroot⟩
                · exact hdot hwas
                · refine hroot ?_
                  rw [tokens_eq_dot hts]
                  by_contra hne
                  exact hfirst ⟨hisFirst, fun hnone => hne (by rw [hnone])⟩
              rcases compressName_cases compress (label = [] && rest = []) s st with
                ⟨p, hp, heq⟩ | ⟨mid, heq, hmsg, hentries⟩
              · rw [heq] at h
                cases h
                rw [← hs]
                exact written_pointer (hsound _ hp le_rfl)
              · rw [heq] at h
                have hmid : Packing.SoundUpTo (mid.write (UInt8.ofNat label.length :: label)) rest.length :=
                  soundUpTo_write hsound hmsg hentries (by omega) _
                refine Written.label (List.length_pos_iff.mpr hlabel) (by omega) hmsg hentries hs ?_
                exact ih hrest le_rfl (by rw [hrest]) hmid (by simp) h

theorem packTokens_root (s : Bytes) :
    packTokens size compress (tokens [0x2e]) s [] true false st =
      if st.msg.length + 1 > size then .error errBuf else .ok (none, st.write [0]) := by
  have hname : compressName compress true s st = (none, st) := by
    unfold compressName
    split
    · rfl
    · rfl
  simp [tokens, packTokens, hname]

theorem packDomainName_of_tokens {last : Packing} (hs : s ≠ []) (hfqdn : isFqdn s = true)
    (h : packTokens size compress (tokens s) s [] true false st = .ok (pointer, last)) :
    packDomainName size compress s st =
      .ok (if s = [0x2e] then last else last.write (terminator pointer)) := by
  rw [packDomainName, if_neg hs, hfqdn, h]
  rfl

theorem packDomainName_ok (hs : s ≠ []) (h : packDomainName size compress s st = .ok st') :
    ∃ pointer last, isFqdn s = true ∧
      packTokens size compress (tokens s) s [] true false st = .ok (pointer, last) ∧
      st' = if s = [0x2e] then last else last.write (terminator pointer) := by
  have hfqdn : isFqdn s = true := by
    rw [packDomainName, if_neg hs] at h
    cases hf : isFqdn s with
    | true => rfl
    | false =>
      rw [hf] at h
      cases h
  cases hloop : packTokens size compress (tokens s) s [] true false st with
  | error e =>
    rw [packDomainName, if_neg hs, hfqdn, hloop] at h
    cases h
  | ok out =>
    obtain ⟨pointer, last⟩ := out
    rw [packDomainName_of_tokens hs hfqdn hloop] at h
    cases h
    exact ⟨pointer, last, hfqdn, rfl, rfl⟩

/-- All names of the map stand in the message. -/
def Packing.Sound (st : Packing) : Prop := ∀ e ∈ st.entries, Stands st.msg e.1 e.2

theorem packDomainName_reads (hs : s ≠ []) (hsound : st.Sound)
    (h : packDomainName size compress s st = .ok st') :
    st.msg <+: st'.msg ∧ st'.Sound ∧ ∃ hops, hops ≤ (labelsOf s).length ∧
      Reads st'.msg st.msg.length (labelsOf s) hops st'.msg.length := by
  obtain ⟨pointer, last, -, hloop, rfl⟩ := packDomainName_ok hs h
  by_cases hroot : s = [0x2e]
  · subst hroot
    rw [packTokens_root] at hloop
    split at hloop
    · cases hloop
    · cases hloop
      have hwritten : Written st st [] [0] := written_root
      exact ⟨List.prefix_append _ _, fun e he => (hsound e he).extend, hwritten.reads⟩
  · have hwritten := packTokens_written rfl le_rfl rfl (fun e he _ => hsound e he)
      (fun _ => .inr ⟨rfl, hroot⟩) hloop
    obtain ⟨hgrows, ⟨hops, hle, hreads⟩, hstands⟩ := hwritten
    rw [labelsOf, if_neg hroot, if_neg hroot]
    refine ⟨hgrows.trans (List.prefix_append _ _), fun e he => ?_, hops, hle, hreads⟩
    rcases hstands e he with hold | hnew
    · obtain ⟨more, hmore⟩ := hgrows
      have hstand := hsound e hold
      rw [Buffer.write, ← hmore, List.append_assoc]
      exact hstand.extend
    · exact hnew

end Loop

/-! ### Packing looks at the length of the message only -/

section Local

variable {size : Nat} {compress : Bool} {st st' : Packing}

theorem compressName_msg (isRootLabel : Bool) (s : Bytes) (st : Packing) :
    (compressName compress isRootLabel s st).2.msg = st.msg := by
  rcases compressName_cases compress isRootLabel s st with ⟨p, -, heq⟩ | ⟨mid, heq, hmsg, -⟩
  · rw [heq]
  · rw [heq]
    exact hmsg

theorem compressName_before (isRootLabel : Bool) (s : Bytes) {before : Bytes}
    (h : before.length = st.msg.length) :
    compressName compress isRootLabel s ⟨before, st.table⟩ =
      ((compressName compress isRootLabel s st).1,
        ⟨before, (compressName compress isRootLabel s st).2.table⟩) := by
  obtain ⟨msg, table⟩ := st
  unfold compressName
  cases table with
  | none => rfl
  | some m =>
    dsimp only at h ⊢
    rw [h]
    cases isRootLabel with
    | true => rfl
    | false =>
      cases m.lookup s with
      | some p => rfl
      | none =>
        by_cases hlt : msg.length < maxCompressionOffset
        · simp [hlt]
        · simp [hlt]

theorem packTokens_before {ts : List (Token × Bytes)} {s label : Bytes} {first wasDot : Bool}
    {pointer : Option Nat}
    (h : packTokens size compress ts s label first wasDot st = .ok (pointer, st')) :
    ∃ out, st'.msg = st.msg ++ out ∧ ∀ before : Bytes, before.length = st.msg.length →
      packTokens size compress ts s label first wasDot ⟨before, st.table⟩ =
        .ok (pointer, ⟨before ++ out, st'.table⟩) := by
  induction ts generalizing s label first wasDot st with
  | nil =>
    cases h
    exact ⟨[], by simp, by simp [packTokens]⟩
  | cons token ts ih =>
    obtain ⟨t, rest⟩ := token
    cases t with
    | plain b =>
      simp only [packTokens] at h ⊢
      exact ih h
    | escaped b =>
      simp only [packTokens] at h ⊢
      split at h
      · cases h
      · next hroom =>
        obtain ⟨out, hout, hbefore⟩ := ih h
        refine ⟨out, hout, fun before hlen => ?_⟩
        rw [hlen, if_neg hroom]
        exact hbefore before hlen
    | dot =>
      simp only [packTokens] at h ⊢
      split at h
      · cases h
      · next hfirst =>
        split at h
        · cases h
        · next hdot =>
          split at h
          · cases h
          · next hlong =>
            split at h
            · cases h
            · next hroom =>
              have hname (before : Bytes) (hlen : before.length = st.msg.length) :
                  compressName compress (label = [] && rest = []) s ⟨before, st.table⟩ = (_, ⟨_, _⟩) :=
                compressName_before (label = [] && rest = []) s hlen
              have hmsg : (compressName compress (label = [] && rest = []) s st).2.msg = st.msg :=
                compressName_msg _ s st
              generalize compressName compress (label = [] && rest = []) s st = found at h hname hmsg
              obtain ⟨p, mid⟩ := found
              dsimp only at hname hmsg
              cases p with
              | some p =>
                cases h
                refine ⟨[], by simp [hmsg], fun before hlen => ?_⟩
                rw [hname before hlen, hlen]
                simp [hfirst, hdot, hlong, hroom]
              | none =>
                obtain ⟨out, hout, hbefore⟩ := ih h
                rw [Buffer.write_msg, hmsg] at hout hbefore
                refine ⟨UInt8.ofNat label.length :: label ++ out, by rw [hout, List.append_assoc],
                  fun before hlen => ?_⟩
                rw [hname before hlen, hlen, if_neg hfirst, if_neg hdot, if_neg hlong, if_neg hroom,
                  ← List.append_assoc]
                exact hbefore _ (by simp [hlen])

theorem packDomainName_local (s : Bytes) : Buffer.Local (packDomainName size compress s) := by
  by_cases hs : s = []
  · have hnothing : packDomainName size compress s = fun st => .ok st := by
      funext st
      rw [packDomainName, if_pos hs]
    rw [hnothing]
    exact Buffer.local_ok
  · intro st st' h
    obtain ⟨pointer, last, hfqdn, hloop, rfl⟩ := packDomainName_ok hs h
    obtain ⟨out, hout, hbefore⟩ := packTokens_before hloop
    by_cases hroot : s = [0x2e]
    · refine ⟨out, by rw [if_pos hroot, hout], fun before hlen => ?_⟩
      rw [packDomainName_of_tokens hs hfqdn (hbefore before hlen), if_pos hroot, if_pos hroot]
    · refine ⟨out ++ terminator pointer, ?_, fun before hlen => ?_⟩
      · rw [if_neg hroot, Buffer.write_msg, hout, List.append_assoc]
      · rw [packDomainName_of_tokens hs hfqdn (hbefore before hlen), if_neg hroot, if_neg hroot,
          Buffer.write, List.append_assoc]
        rfl

end Local

/-! ### Names in presentation form -/

/-- The name of some labels, as `UnpackDomainName` returns it. -/
def presentName (labels : List Bytes) : Bytes := orRoot (labels.flatMap presentLabel)

theorem presentName_ne_nil (labels : List Bytes) : presentName labels ≠ [] := by
  unfold presentName orRoot
  split
  · simp
  · next hne => exact hne

theorem presentLabelByte_cases (b : UInt8) :
    (presentLabelByte b = [b] ∧ b ≠ 0x5c ∧ b ≠ 0x2e) ∨
      (presentLabelByte b = [0x5c, b] ∧ isDigit b = false) ∨ presentLabelByte b = ddd b := by
  unfold presentLabelByte
  by_cases hspecial : isDomainNameLabelSpecial b = true
  · rw [if_pos hspecial]
    refine .inr (.inl ⟨rfl, ?_⟩)
    revert hspecial
    refine forall_byte ?_ b
    decide +kernel
  · rw [if_neg hspecial]
    split
    · next hbyte => exact .inr (.inr (escapeByte_eq hbyte))
    · refine .inl ⟨rfl, ?_, ?_⟩
      · rintro rfl
        exact hspecial rfl
      · rintro rfl
        exact hspecial rfl

theorem tokens_presentLabelByte (b : UInt8) (rest : Bytes) :
    ∃ t, (t = .plain b ∨ t = .escaped b) ∧
      tokens (presentLabelByte b ++ rest) = (t, rest) :: tokens rest := by
  rcases presentLabelByte_cases b with ⟨heq, hc, hdot⟩ | ⟨heq, hdigit⟩ | heq
  · exact ⟨_, .inl rfl, by rw [heq]; exact tokens_plain hc hdot⟩
  · exact ⟨_, .inr rfl, by rw [heq]; exact tokens_backslash hdigit⟩
  · obtain ⟨hd, he, hf, hbyte⟩ := dddToByte_digits b
    have hread : tokens (ddd b ++ rest) = (.escaped (dddToByte _ _ _), rest) :: tokens rest :=
      tokens_digits hd he hf
    rw [hbyte] at hread
    exact ⟨_, .inr rfl, by rw [heq, hread]⟩

theorem labelsFrom_present (l label rest : Bytes) :
    labelsFrom (tokens (l.flatMap presentLabelByte ++ rest)) label =
      labelsFrom (tokens rest) (label ++ l) := by
  induction l generalizing label with
  | nil => simp
  | cons b l ih =>
    obtain ⟨t, ht, htokens⟩ := tokens_presentLabelByte b (l.flatMap presentLabelByte ++ rest)
    rw [List.flatMap_cons, List.append_assoc, htokens]
    rcases ht with rfl | rfl
    · rw [labelsFrom, ih, List.append_assoc, List.singleton_append]
    · rw [labelsFrom, ih, List.append_assoc, List.singleton_append]

theorem labelsFrom_presentLabels (labels : List Bytes) :
    labelsFrom (tokens (labels.flatMap presentLabel)) [] = labels := by
  induction labels with
  | nil => rfl
  | cons l labels ih =>
    rw [List.flatMap_cons, presentLabel, List.append_assoc, labelsFrom_present, List.nil_append,
      List.singleton_append, tokens_dot, labelsFrom, ih]

theorem presentLabelByte_ne_nil (b : UInt8) : presentLabelByte b ≠ [] := by
  rcases presentLabelByte_cases b with ⟨heq, -⟩ | ⟨heq, -⟩ | heq
  · simp [heq]
  · simp [heq]
  · simp [heq, ddd]

theorem presentName_cons {l : Bytes} (labels : List Bytes) (hl : 0 < l.length) :
    presentName (l :: labels) = (l :: labels).flatMap presentLabel ∧
      presentName (l :: labels) ≠ [0x2e] := by
  obtain ⟨b, l, rfl⟩ := List.exists_cons_of_length_pos hl
  obtain ⟨c, cs, hc⟩ := List.exists_cons_of_ne_nil (presentLabelByte_ne_nil b)
  have heq : ((b :: l) :: labels).flatMap presentLabel =
      c :: (cs ++ l.flatMap presentLabelByte ++ [0x2e] ++ labels.flatMap presentLabel) := by
    simp [presentLabel, hc]
  rw [presentName, orRoot, if_neg (by rw [heq]; simp)]
  refine ⟨rfl, ?_⟩
  rw [heq]
  simp

theorem labelsOf_presentName {labels : List Bytes} (h : ValidLabels labels) :
    labelsOf (presentName labels) = labels := by
  cases labels with
  | nil => rfl
  | cons l labels =>
    obtain ⟨heq, hne⟩ := presentName_cons labels (h l (by simp)).1
    rw [labelsOf, if_neg hne, heq, labelsFrom_presentLabels]

theorem even_backslashes {before : Bytes} (h : before.getLast? ≠ some 0x5c) (l : Bytes) :
    ((before ++ l.flatMap presentLabelByte).reverse.takeWhile (· = 0x5c)).length % 2 = 0 := by
  induction l using List.reverseRecOn with
  | nil =>
    rw [List.flatMap_nil, List.append_nil]
    cases hrev : before.reverse with
    | nil => rfl
    | cons c r =>
      have hc : c ≠ 0x5c := by
        rintro rfl
        rw [List.getLast?_eq_head?_reverse, hrev] at h
        exact h rfl
      simp [hc]
  | append_singleton l b ih =>
    have hflat : (l ++ [b]).flatMap presentLabelByte =
        l.flatMap presentLabelByte ++ presentLabelByte b := by simp
    rw [hflat, ← List.append_assoc, List.reverse_append]
    rcases presentLabelByte_cases b with ⟨heq, hc, -⟩ | ⟨heq, -⟩ | heq
    · simp [heq, hc]
    · by_cases hc : b = 0x5c
      · subst hc
        simp only [heq, List.reverse_cons, List.reverse_nil, List.nil_append, List.cons_append,
          List.takeWhile_cons, decide_true, if_true, List.length_cons]
        omega
      · simp [heq, hc]
    · have hdigit : (0x30 + b % 10 : UInt8) ≠ 0x5c := by
        refine forall_byte ?_ b
        decide +kernel
      simp [heq, ddd, hdigit]

theorem isFqdn_presentName (labels : List Bytes) : isFqdn (presentName labels) = true := by
  cases labels using List.reverseRecOn with
  | nil => rfl
  | append_singleton labels l =>
    have hname : presentName (labels ++ [l]) =
        labels.flatMap presentLabel ++ l.flatMap presentLabelByte ++ [0x2e] := by
      simp [presentName, orRoot, presentLabel]
    have hlast : (labels.flatMap presentLabel).getLast? ≠ some 0x5c := by
      cases labels using List.reverseRecOn with
      | nil => simp
      | append_singleton labels l' => simp [presentLabel]
    have heven := even_backslashes hlast l
    rw [List.reverse_append] at heven
    rw [isFqdn, hname]
    simpa using heven

/-! ### Packing succeeds -/

section Success

variable {size : Nat}

theorem packTokens_succeeds (compress : Bool) {ts : List (Token × Bytes)} (s : Bytes) {label : Bytes}
    {first wasDot : Bool} {st : Packing} (hvalid : ValidLabels (labelsFrom ts label))
    (hflags : first = true ∨ wasDot = true → label = [])
    (hsize : st.msg.length + wireLength (labelsFrom ts label) + 1 ≤ size) :
    ∃ pointer st', packTokens size compress ts s label first wasDot st = .ok (pointer, st') ∧
      st'.msg.length + (terminator pointer).length ≤
        st.msg.length + wireLength (labelsFrom ts label) + 1 := by
  induction ts generalizing s label first wasDot st with
  | nil => exact ⟨none, st, rfl, by simp [terminator, labelsFrom]⟩
  | cons token ts ih =>
    obtain ⟨t, rest⟩ := token
    cases t with
    | plain b =>
      simp only [packTokens]
      exact ih s hvalid (by simp) hsize
    | escaped b =>
      simp only [packTokens]
      rw [if_neg (by omega)]
      exact ih s hvalid (by simp) hsize
    | dot =>
      rw [labelsFrom] at hvalid hsize
      obtain ⟨hpos, hshort⟩ := hvalid label (by simp)
      rw [wireLength_cons] at hsize
      have hlabel : label ≠ [] := List.length_pos_iff.mp hpos
      have hfirst : first = false := Bool.eq_false_iff.mpr fun h => hlabel (hflags (.inl h))
      have hdot : wasDot = false := Bool.eq_false_iff.mpr fun h => hlabel (hflags (.inr h))
      simp only [packTokens, hfirst, hdot, Bool.false_eq_true, false_and, if_false, labelsFrom,
        wireLength_cons]
      rw [if_neg (by omega), if_neg (by omega)]
      rcases compressName_cases compress (label = [] && rest = []) s st with
        ⟨p, -, heq⟩ | ⟨mid, heq, hmsg, -⟩
      · rw [heq]
        refine ⟨some p, st, rfl, ?_⟩
        simp only [terminator, putUint16, List.length_cons, List.length_nil]
        omega
      · rw [heq]
        have hlen : (mid.write (UInt8.ofNat label.length :: label)).msg.length =
            st.msg.length + (label.length + 1) := by
          rw [Buffer.write, List.length_append, hmsg, List.length_cons]
        have hroom : (mid.write (UInt8.ofNat label.length :: label)).msg.length +
            wireLength (labelsFrom ts []) + 1 ≤ size := by
          rw [hlen]
          omega
        obtain ⟨pointer, st', hok, hle⟩ :=
          ih rest (fun l hl => hvalid l (by simp [hl])) (fun _ => rfl) hroom
        refine ⟨pointer, st', hok, ?_⟩
        rw [hlen] at hle
        omega

variable {labels : List Bytes}

theorem packDomainName_succeeds (compress : Bool) {st : Packing} (hvalid : ValidLabels labels)
    (hsize : st.msg.length + wireLength labels + 1 ≤ size) :
    ∃ st', packDomainName size compress (presentName labels) st = .ok st' ∧
      st'.msg.length ≤ st.msg.length + wireLength labels + 1 := by
  cases labels with
  | nil =>
    rw [wireLength_nil] at hsize
    have hloop : packTokens size compress (tokens (presentName [])) (presentName []) [] true false st =
        .ok (none, st.write [0]) := by
      rw [show presentName [] = [0x2e] from rfl, packTokens_root, if_neg (by omega)]
    refine ⟨st.write [0], ?_, by simp⟩
    rw [packDomainName_of_tokens (presentName_ne_nil _) (isFqdn_presentName _) hloop]
    rfl
  | cons l labels =>
    obtain ⟨heq, hroot⟩ := presentName_cons labels (hvalid l (by simp)).1
    have hlabels : labelsFrom (tokens (presentName (l :: labels))) [] = l :: labels := by
      rw [heq, labelsFrom_presentLabels]
    obtain ⟨pointer, st', hok, hle⟩ := packTokens_succeeds compress (presentName (l :: labels))
      (hlabels.symm ▸ hvalid) (fun _ : true = true ∨ false = true => rfl) (hlabels.symm ▸ hsize)
    rw [hlabels] at hle
    refine ⟨st'.write (terminator pointer), ?_, ?_⟩
    · rw [packDomainName_of_tokens (presentName_ne_nil _) (isFqdn_presentName _) hok, if_neg hroot]
    · rw [Buffer.write, List.length_append]
      exact hle

/-- A name as `UnpackDomainName` returns it, with fewer labels than it may have. -/
structure IsName (s : Bytes) (labels : List Bytes) : Prop where
  eq : s = presentName labels
  valid : ValidLabels labels
  fits : wireLength labels < maxDomainNameWireOctets
  few : labels.length ≤ maxCompressionPointers

/-- How many bytes the name takes without compression. An escape sequence counts once. -/
def domainNameLen (s : Bytes) : Nat :=
  if s = [] ∨ s = [0x2e] then 1 else (tokens s).length + 1

theorem length_tokens_present (l rest : Bytes) :
    (tokens (l.flatMap presentLabelByte ++ rest)).length = l.length + (tokens rest).length := by
  induction l with
  | nil => simp
  | cons b l ih =>
    obtain ⟨t, -, htokens⟩ := tokens_presentLabelByte b (l.flatMap presentLabelByte ++ rest)
    rw [List.flatMap_cons, List.append_assoc, htokens, List.length_cons, ih, List.length_cons]
    omega

theorem length_tokens_presentLabels (labels : List Bytes) :
    (tokens (labels.flatMap presentLabel)).length = wireLength labels := by
  induction labels with
  | nil => rfl
  | cons l labels ih =>
    rw [List.flatMap_cons, presentLabel, List.append_assoc, length_tokens_present,
      List.singleton_append, tokens_dot, List.length_cons, ih, wireLength_cons]
    omega

theorem domainNameLen_presentName (h : ValidLabels labels) :
    domainNameLen (presentName labels) = wireLength labels + 1 := by
  cases labels with
  | nil => rfl
  | cons l labels =>
    obtain ⟨heq, hroot⟩ := presentName_cons labels (h l (by simp)).1
    rw [domainNameLen, if_neg (by simp [presentName_ne_nil, hroot]), heq,
      length_tokens_presentLabels]

theorem packDomainName_codes (compress : Bool) {s : Bytes} (h : IsName s labels) :
    Buffer.Codes Packing.Sound size (packDomainName size compress s) unpackDomainName s 1
      (domainNameLen s) := by
  obtain ⟨rfl, hvalid, hfits, hfew⟩ := h
  refine Buffer.Codes.ofLocal (packDomainName_local _) fun st hsound hroom => ?_
  rw [domainNameLen_presentName hvalid] at hroom ⊢
  have hsize : st.msg.length + wireLength labels + 1 ≤ size := by omega
  obtain ⟨st', hok, hle⟩ := packDomainName_succeeds compress hvalid hsize
  obtain ⟨-, hsound', hops, hhops, hreads⟩ :=
    packDomainName_reads (presentName_ne_nil labels) hsound hok
  rw [labelsOf_presentName hvalid] at hhops hreads
  refine ⟨st', hok, hsound', hreads.off_lt_stop, hle, fun more => ?_⟩
  exact unpackDomainName_of_reads hreads.extend (by omega) hfits

end Success

end DNSWire

end DnscryptProxy
