import DnscryptProxy.DomainNames

/-! The fields of resource records, as `msg_helpers.go` of the DNS library packs and unpacks them.

A record type is a list of fields, and a record's data has a value for each of them. `Field.Lawful`
says what holds for all kinds of fields: a value is packed where there is room for it and unpacked as
it was. `packData_codes` has the same for the data of a record. -/

namespace DnscryptProxy

open Library

namespace DNSWire

/-- The errors of the library that have no name. -/
def dnsError (e : String) : GoError := .plain ("dns: " ++ e)

/-! ## Bytes and numbers -/

/-- The bytes are copied if there is room for them. -/
def packBytes (what : String) (size : Nat) (bs : Bytes) (st : Packing) : Except GoError Packing :=
  if st.msg.length + bs.length > size then .error (dnsError ("overflow packing " ++ what))
  else .ok (st.write bs)

def unpackBytes (what : String) (n : Nat) (msg : Bytes) (off : Nat) : Except GoError (Bytes × Nat) :=
  if off + n > msg.length then .error (dnsError ("overflow unpacking " ++ what))
  else .ok ((msg.drop off).take n, off + n)

variable {st : Packing} {what : String} {size : Nat}

theorem Packing.Sound.write (h : Packing.Sound st) (bs : Bytes) : Packing.Sound (st.write bs) :=
  fun e he => (h e he).extend

theorem packBytes_local (what : String) (size : Nat) (bs : Bytes) :
    Buffer.Local (packBytes what size bs) :=
  Buffer.local_if (· + bs.length > size) (Buffer.local_error _) (Buffer.local_write bs)

theorem packBytes_ok {bs : Bytes} (h : st.msg.length + bs.length < size) :
    packBytes what size bs st = .ok (st.write bs) := by
  rw [packBytes, if_neg (by omega)]

theorem unpackBytes_append (what : String) (before bs more : Bytes) :
    unpackBytes what bs.length (before ++ bs ++ more) before.length =
      .ok (bs, (before ++ bs).length) := by
  rw [unpackBytes, if_neg (by simp), List.append_assoc, List.drop_left' rfl,
    List.take_left' rfl, List.length_append]

/-- `binary.BigEndian.PutUint16` and the like, for `n` bytes. -/
def putUint : (n i : Nat) → Bytes
  | 0, _ => []
  | n + 1, i => putUint n (i / 256) ++ [UInt8.ofNat i]

def getUint (bs : Bytes) : Nat := bs.foldl (fun i b => i * 256 + b.toNat) 0

@[simp] theorem length_putUint (n i : Nat) : (putUint n i).length = n := by
  induction n generalizing i with
  | zero => rfl
  | succ n ih => rw [putUint, List.length_append, ih, List.length_singleton]

theorem getUint_putUint {n i : Nat} (h : i < 256 ^ n) : getUint (putUint n i) = i := by
  induction n generalizing i with
  | zero =>
    rw [Nat.pow_zero] at h
    simp only [putUint, getUint, List.foldl_nil]
    omega
  | succ n ih =>
    have hdiv : i / 256 < 256 ^ n := by
      rw [Nat.pow_succ] at h
      omega
    have hread := ih hdiv
    unfold getUint at hread ⊢
    rw [putUint, List.foldl_append, hread]
    simp only [List.foldl_cons, List.foldl_nil, UInt8.toNat_ofNat']
    omega

def packUint (what : String) (n size i : Nat) : Packing → Except GoError Packing :=
  packBytes what size (putUint n i)

def unpackUint (what : String) (n : Nat) (msg : Bytes) (off : Nat) : Except GoError (Nat × Nat) :=
  (unpackBytes what n msg off).map fun (bs, off) => (getUint bs, off)

def packUint16 : (size i : Nat) → Packing → Except GoError Packing := packUint "uint16" 2
def packUint32 : (size i : Nat) → Packing → Except GoError Packing := packUint "uint32" 4
def unpackUint16 : Bytes → Nat → Except GoError (Nat × Nat) := unpackUint "uint16" 2
def unpackUint32 : Bytes → Nat → Except GoError (Nat × Nat) := unpackUint "uint32" 4

/-! ## Fields -/

structure Field where
  Value : Type
  zero : Value
  isRest : Bool
  len : Value → Nat
  pack : (size : Nat) → (compress : Bool) → Value → Packing → Except GoError Packing
  unpack : Bytes → Nat → Except GoError (Value × Nat)
  Good : Value → Prop

/-- What packing a good value does. -/
structure Field.Packs (f : Field) (v : f.Value) (st st' : Packing) : Prop where
  sound : Packing.Sound st'
  length_le : st'.msg.length ≤ st.msg.length + f.len v
  zero : st'.msg.length = st.msg.length → v = f.zero
  unpack : ∀ more, (f.isRest = true → more = []) → st.msg.length < (st'.msg ++ more).length →
    f.unpack (st'.msg ++ more) st.msg.length = .ok (v, st'.msg.length)

structure Field.Lawful (f : Field) : Prop where
  appends : ∀ size compress v, Buffer.Local (f.pack size compress v)
  packs : ∀ size compress v st, f.Good v → Packing.Sound st → st.msg.length + f.len v < size →
    ∃ st', f.pack size compress v st = .ok st' ∧ f.Packs v st st'

/-! ### Names and numbers -/

/-- `domain-name`, or `cdomain-name` if the name may be compressed -/
def domainName (compressible : Bool) : Field where
  Value := Bytes
  zero := []
  isRest := false
  len := domainNameLen
  pack size compress := packDomainName size (compressible && compress)
  unpack := unpackDomainName
  Good s := ∃ labels, IsName s labels

theorem domainName_lawful (compressible : Bool) : (domainName compressible).Lawful := by
  refine ⟨fun size compress s => packDomainName_local s, ?_⟩
  rintro size compress s st ⟨labels, hname⟩ hsound hroom
  obtain ⟨out, t, happends, hsound', hlo, hhi, hread⟩ :=
    packDomainName_codes (compressible && compress) hname st hsound hroom
  refine ⟨_, happends.ok, hsound', ?_, fun hlen => ?_, fun more _ _ => hread more⟩
  · rw [List.length_append]
    exact Nat.add_le_add_left hhi _
  · rw [List.length_append] at hlen
    omega

theorem packBytes_packs {f : Field} {v : f.Value} {bs : Bytes} (hsound : Packing.Sound st)
    (hroom : st.msg.length + f.len v < size) (hlen : bs.length ≤ f.len v)
    (hzero : bs = [] → v = f.zero)
    (hread : ∀ more, (f.isRest = true → more = []) → st.msg.length < (st.msg ++ bs ++ more).length →
      f.unpack (st.msg ++ bs ++ more) st.msg.length = .ok (v, (st.msg ++ bs).length)) :
    ∃ st', packBytes what size bs st = .ok st' ∧ f.Packs v st st' := by
  refine ⟨st.write bs, packBytes_ok (by omega), hsound.write bs, ?_, fun h => hzero ?_, hread⟩
  · simpa using hlen
  · simpa using h

def uint (what : String) (n : Nat) : Field where
  Value := BitVec (8 * n)
  zero := 0
  isRest := false
  len _ := n
  pack size _ i := packUint what n size i.toNat
  unpack msg off := (unpackUint what n msg off).map fun (i, off) => (BitVec.ofNat (8 * n) i, off)
  Good _ := True

def uint8 : Field := uint "uint8" 1
def uint16Field : Field := uint "uint16" 2
def uint32 : Field := uint "uint32" 4
def uint48 : Field := uint "uint64 as uint48" 6
def uint64 : Field := uint "uint64" 8

theorem uint_lawful (what : String) (n : Nat) : (uint what n).Lawful := by
  refine ⟨fun size compress i => packBytes_local _ _ _, ?_⟩
  intro size compress (i : BitVec (8 * n)) st _ hsound hroom
  have hlt : i.toNat < 256 ^ n := by
    rw [show 256 = 2 ^ 8 from rfl, ← Nat.pow_mul]
    exact i.isLt
  refine packBytes_packs hsound hroom (le_of_eq (length_putUint n i.toNat)) (fun hnil => ?_)
    fun more _ _ => ?_
  · have hn : n = 0 := by
      rw [← length_putUint n i.toNat, hnil]
      rfl
    subst hn
    exact BitVec.eq_nil i
  · have hread := unpackBytes_append what st.msg (putUint n i.toNat) more
    rw [length_putUint] at hread
    have hi : BitVec.ofNat (8 * n) (getUint (putUint n i.toNat)) = i := by
      rw [getUint_putUint hlt]
      simp
    change Except.map _ (unpackUint _ _ _ _) = _
    rw [unpackUint, hread]
    exact congrArg (fun i => Except.ok (i, _)) hi

/-! ### Addresses -/

/-- `To4`, or the zeros of a new buffer where there is nothing to copy. -/
def to4 (a : Bytes) : Bytes :=
  if a.length = 4 then a
  else if a.take 12 = List.replicate 10 0 ++ [0xff, 0xff] then a.drop 12
  else List.replicate 4 0

def packAddress (what : String) (accepted : List Nat) (bytes : Bytes → Bytes) (size : Nat) (a : Bytes)
    (st : Packing) : Except GoError Packing :=
  if a.length ∈ accepted then packBytes what size (bytes a) st
  else if a.length = 0 then .ok st
  else .error (dnsError ("overflow packing " ++ what))

def packDataA : (size : Nat) → Bytes → Packing → Except GoError Packing :=
  packAddress "a" [4, 16] to4
def packDataAAAA : (size : Nat) → Bytes → Packing → Except GoError Packing :=
  packAddress "aaaa" [16] id

def address (n : Nat) (pack : (size : Nat) → Bytes → Packing → Except GoError Packing)
    (unpack : Bytes → Nat → Except GoError (Bytes × Nat)) : Field where
  Value := Bytes
  zero := []
  isRest := false
  len a := if a.length = 0 then 0 else n
  pack size _ := pack size
  unpack := unpack
  Good a := a.length = n

def dataA : Field := address 4 packDataA (unpackBytes "a" 4)
def dataAAAA : Field := address 16 packDataAAAA (unpackBytes "aaaa" 16)

theorem address_lawful {accepted : List Nat} {bytes : Bytes → Bytes} {n : Nat} (hpos : 0 < n)
    (haccepted : n ∈ accepted) (hbytes : ∀ a, a.length = n → bytes a = a) :
    (address n (packAddress what accepted bytes) (unpackBytes what n)).Lawful := by
  constructor
  · intro size compress (a : Bytes)
    exact Buffer.local_if (fun _ => a.length ∈ accepted) (packBytes_local _ _ _)
      (Buffer.local_if (fun _ => a.length = 0) Buffer.local_ok (Buffer.local_error _))
  · intro size compress (a : Bytes) st (hgood : a.length = n) hsound hroom
    have hne : a.length ≠ 0 := by omega
    have hpack : packAddress what accepted bytes size a st = packBytes what size a st := by
      rw [packAddress, if_pos (hgood ▸ haccepted), hbytes a hgood]
    refine (packBytes_packs hsound hroom ?_ ?_ fun more _ _ => ?_).imp fun st' h => ⟨hpack.trans h.1, h.2⟩
    · exact le_of_eq (hgood.trans (if_neg hne).symm)
    · rintro rfl
      rfl
    · have hread := unpackBytes_append what st.msg a more
      rw [hgood] at hread
      exact hread

theorem dataA_lawful : dataA.Lawful := by
  refine address_lawful (by decide) (by decide) fun a ha => ?_
  rw [to4, if_pos ha]

theorem dataAAAA_lawful : dataAAAA.Lawful := address_lawful (by decide) (by decide) fun _ _ => rfl

/-! ### The rest of a record -/

inductive Encoding where
  | hex
  | base64
  | anything
  deriving DecidableEq

def Encoding.name : Encoding → String
  | .hex => "hex"
  | .base64 => "base64"
  | .anything => "anything"

/-- For base64, `DecodedLen` of the text of `n` bytes. -/
def Encoding.len (n : Nat) : Encoding → Nat
  | .base64 => (n + 2) / 3 * 3
  | _ => n

def rest (encoding : Encoding) : Field where
  Value := Bytes
  zero := []
  isRest := true
  len bs := encoding.len bs.length
  pack size _ := packBytes encoding.name size
  -- the message ends with the record
  unpack msg off := .ok (msg.drop off, msg.length)
  Good _ := True

theorem rest_lawful (encoding : Encoding) : (rest encoding).Lawful := by
  refine ⟨fun size compress bs => packBytes_local _ _ _, ?_⟩
  intro size compress (bs : Bytes) st _ hsound hroom
  refine packBytes_packs hsound hroom ?_ id fun more hmore _ => ?_
  · change bs.length ≤ encoding.len bs.length
    cases encoding <;> simp only [Encoding.len] <;> omega
  · have hnone := hmore rfl
    subst hnone
    change Except.ok _ = _
    rw [List.append_nil, List.drop_left' rfl]
    rfl

/-! ### Strings -/

/-- The loop of `packTxtString` and of `packOctetString`, from an offset on. -/
def packEscaped (size : Nat) : Bytes → (off : Nat) → Except GoError Bytes
  | [], _ => .ok []
  | [c], off =>
    if size ≤ off then .error errBuf
    else .ok (if c = 0x5c then [] else [c])
  | c :: d :: rest, off =>
    if size ≤ off then .error errBuf
    else if c ≠ 0x5c then (packEscaped size (d :: rest) (off + 1)).map (c :: ·)
    else match rest with
      | e :: f :: rest =>
        if isDigit d && isDigit e && isDigit f then
          (packEscaped size rest (off + 1)).map (dddToByte d e f :: ·)
        else (packEscaped size (e :: f :: rest) (off + 1)).map (d :: ·)
      | rest => (packEscaped size rest (off + 1)).map (d :: ·)

/-- `len(txtTmp)` -/
def txtTmpLen : Nat := 256 * 4 + 1

def txtStringAt (size : Nat) (s : Bytes) (off : Nat) : Except GoError Bytes :=
  if off ≥ size ∨ s.length > txtTmpLen then .error errBuf
  else do
    let bs ← packEscaped size s (off + 1)
    if bs.length > 255 then .error (dnsError "string exceeded 255 bytes in txt")
    else .ok (withLength bs)

def octetStringAt (size : Nat) (s : Bytes) (off : Nat) : Except GoError Bytes :=
  if off ≥ size ∨ s.length > txtTmpLen then .error errBuf
  else packEscaped size s off

def packTxtString (size : Nat) (s : Bytes) (st : Packing) : Except GoError Packing :=
  (txtStringAt size s st.msg.length).map st.write

def packOctetString (size : Nat) (s : Bytes) (st : Packing) : Except GoError Packing :=
  (octetStringAt size s st.msg.length).map st.write

def packTxt (size : Nat) (txt : List Bytes) (st : Packing) : Except GoError Packing :=
  if txt = [] then
    -- the zero that is written here is behind the offset that is returned
    if st.msg.length ≥ size then .error errBuf else .ok st
  else txt.foldlM (fun st s => packTxtString size s st) st

section Escaped

variable {size off : Nat} {c d e f : UInt8} {rest : Bytes}

theorem packEscaped_plain (hc : c ≠ 0x5c) (hroom : off < size) :
    packEscaped size (c :: rest) off = (packEscaped size rest (off + 1)).map (c :: ·) := by
  cases rest with
  | nil => simp [packEscaped, hc, hroom, Except.map]
  | cons d rest =>
    rw [packEscaped.eq_def]
    simp [hc, hroom]

theorem packEscaped_backslash (hd : isDigit d = false) (hroom : off < size) :
    packEscaped size (0x5c :: d :: rest) off = (packEscaped size rest (off + 1)).map (d :: ·) := by
  rcases rest with _ | ⟨e, _ | ⟨f, rest⟩⟩
  · simp [packEscaped, hroom]
  · simp [packEscaped, hroom]
  · simp [packEscaped, hd, hroom]

theorem packEscaped_digits (hd : isDigit d = true) (he : isDigit e = true) (hf : isDigit f = true)
    (hroom : off < size) :
    packEscaped size (0x5c :: d :: e :: f :: rest) off =
      (packEscaped size rest (off + 1)).map (dddToByte d e f :: ·) := by
  simp [packEscaped, hd, he, hf, hroom]

theorem packEscaped_presentByte (b : UInt8) (hroom : off < size) :
    packEscaped size (presentByte b ++ rest) off = (packEscaped size rest (off + 1)).map (b :: ·) := by
  unfold presentByte
  split
  · next hquote =>
    have hd : isDigit b = false := by
      rcases hquote with rfl | rfl
      · decide
      · decide
    exact packEscaped_backslash hd hroom
  · next hquote =>
    split
    · obtain ⟨hd, he, hf, hbyte⟩ := dddToByte_digits b
      have hread : packEscaped size (ddd b ++ rest) off =
          (packEscaped size rest (off + 1)).map (dddToByte _ _ _ :: ·) := packEscaped_digits hd he hf hroom
      rw [hbyte] at hread
      exact hread
    · exact packEscaped_plain (fun hb => hquote (.inr hb)) hroom

theorem packEscaped_presentation (data : Bytes) (hroom : off + data.length ≤ size) :
    packEscaped size (presentation data) off = .ok data := by
  induction data generalizing off with
  | nil => rfl
  | cons b data ih =>
    rw [List.length_cons] at hroom
    have hread : packEscaped size (presentByte b ++ presentation data) off = _ :=
      packEscaped_presentByte b (by omega)
    rw [ih (by omega)] at hread
    exact hread

theorem packEscaped_plainString {s : Bytes} (h : 0x5c ∉ s) (hroom : off + s.length ≤ size) :
    packEscaped size s off = .ok s := by
  induction s generalizing off with
  | nil => rfl
  | cons c s ih =>
    rw [List.mem_cons, not_or] at h
    obtain ⟨hc, hs⟩ := h
    rw [List.length_cons] at hroom
    rw [packEscaped_plain (Ne.symm hc) (by omega), ih hs (by omega)]
    rfl

end Escaped

theorem length_le_presentation (data : Bytes) : data.length ≤ (presentation data).length := by
  induction data with
  | nil => rfl
  | cons b data ih =>
    have hpos : 0 < (presentByte b).length := by
      unfold presentByte
      split
      · simp
      · split
        · simp [ddd]
        · simp
    rw [presentation, List.flatMap_cons, List.length_append, List.length_cons]
    rw [presentation] at ih
    omega

theorem presentation_length_le (data : Bytes) : (presentation data).length ≤ 4 * data.length := by
  induction data with
  | nil => rfl
  | cons b data ih =>
    have hle : (presentByte b).length ≤ 4 := by
      unfold presentByte
      split
      · simp
      · split
        · simp [ddd]
        · simp
    rw [presentation, List.flatMap_cons, List.length_append, List.length_cons]
    rw [presentation] at ih
    omega

theorem packTxtString_ok {data : Bytes} (hdata : data.length < 256)
    (hroom : st.msg.length + (data.length + 1) < size) :
    packTxtString size (txtString data) st = .ok (st.write (withLength data)) := by
  have htmp : ¬ (st.msg.length ≥ size ∨ (presentation data).length > txtTmpLen) := by
    have hle := presentation_length_le data
    rw [txtTmpLen]
    omega
  rw [packTxtString, txtStringAt, txtString_eq, if_neg htmp, packEscaped_presentation data (by omega)]
  change Except.map _ (if data.length > 255 then _ else _) = _
  rw [if_neg (by omega)]
  rfl

/-- `packString` and `unpackString` -/
def string : Field where
  Value := Bytes
  zero := []
  isRest := false
  len s := s.length + 1
  pack size _ := packTxtString size
  unpack msg off := (unpackString (msg.drop off)).map fun (s, rest) => (s, msg.length - rest.length)
  Good s := ∃ data, data.length < 256 ∧ s = txtString data

theorem string_lawful : string.Lawful := by
  refine ⟨fun size compress s => Buffer.local_append _, ?_⟩
  rintro size compress s st ⟨data, hdata, rfl⟩ hsound hroom
  change st.msg.length + ((txtString data).length + 1) < size at hroom
  have hle := length_le_presentation data
  rw [← txtString_eq] at hle
  refine ⟨_, packTxtString_ok hdata (by omega), hsound.write _, ?_, ?_, fun more _ _ => ?_⟩
  · change _ ≤ st.msg.length + ((txtString data).length + 1)
    simp [withLength]
    omega
  · simp [withLength]
  · change Except.map _ (unpackString _) = _
    rw [Buffer.write_msg, List.append_assoc, List.drop_left' rfl, unpackString_withLength hdata]
    refine congrArg (fun off => Except.ok (txtString data, off)) ?_
    simp only [List.length_append]
    omega

def txt : Field where
  Value := List Bytes
  zero := []
  isRest := true
  len strings := (strings.map fun s => s.length + 1).sum
  pack size _ := packTxt size
  unpack msg off := (unpackTxt (msg.drop off)).map fun strings => (strings, msg.length)
  Good strings := ∃ datas : List Bytes, (∀ data ∈ datas, data.length < 256) ∧
    strings = datas.map txtString

theorem packTxtStrings_ok {datas : List Bytes} (hdatas : ∀ data ∈ datas, data.length < 256)
    (hroom : st.msg.length + (datas.flatMap withLength).length < size) :
    (datas.map txtString).foldlM (fun st s => packTxtString size s st) st =
      .ok (st.write (datas.flatMap withLength)) := by
  induction datas generalizing st with
  | nil => simp [Buffer.write, pure, Except.pure]
  | cons data datas ih =>
    obtain ⟨hdata, hrest⟩ := List.forall_mem_cons.mp hdatas
    have hlen : (withLength data).length = data.length + 1 := rfl
    rw [List.flatMap_cons, List.length_append, hlen] at hroom
    rw [List.map_cons, List.foldlM_cons, packTxtString_ok hdata (by omega)]
    change List.foldlM _ (st.write (withLength data)) _ = _
    have hnext : (st.write (withLength data)).msg.length + (datas.flatMap withLength).length < size := by
      rw [Buffer.write_msg, List.length_append, hlen]
      omega
    rw [ih hrest hnext, List.flatMap_cons]
    simp [Buffer.write]

theorem length_flatMap_withLength (datas : List Bytes) :
    (datas.flatMap withLength).length ≤ ((datas.map txtString).map fun s => s.length + 1).sum := by
  induction datas with
  | nil => simp
  | cons data datas ih =>
    have hle := length_le_presentation data
    rw [← txtString_eq] at hle
    have hlen : (withLength data).length = data.length + 1 := rfl
    rw [List.flatMap_cons, List.length_append, hlen, List.map_cons, List.map_cons, List.sum_cons]
    omega

theorem txt_lawful : txt.Lawful := by
  constructor
  · intro size compress (strings : List Bytes)
    exact Buffer.local_if (fun _ => strings = [])
      (Buffer.local_if (· ≥ size) (Buffer.local_error _) Buffer.local_ok)
      (Buffer.local_foldlM (fun s => Buffer.local_append _) _)
  · rintro size compress strings st ⟨datas, hdatas, rfl⟩ hsound hroom
    have hlen := length_flatMap_withLength datas
    change st.msg.length + ((datas.map txtString).map fun s => s.length + 1).sum < size at hroom
    have hok : packTxt size (datas.map txtString) st = .ok (st.write (datas.flatMap withLength)) := by
      rw [packTxt]
      split
      · next hnil =>
        have hdatas : datas = [] := List.map_eq_nil_iff.mp hnil
        rw [if_neg (by omega), hdatas]
        simp [Buffer.write]
      · exact packTxtStrings_ok hdatas (by omega)
    refine ⟨_, hok, hsound.write _, ?_, fun hsame => ?_, fun more hmore _ => ?_⟩
    · change _ ≤ st.msg.length + ((datas.map txtString).map fun s => s.length + 1).sum
      rw [Buffer.write_msg, List.length_append]
      omega
    · rw [Buffer.write_msg, List.length_append] at hsame
      have hnil : datas = [] := by
        cases datas with
        | nil => rfl
        | cons data datas => simp [withLength] at hsame
      rw [hnil]
      rfl
    · have hnone := hmore rfl
      subst hnone
      change Except.map _ (unpackTxt _) = _
      rw [List.append_nil, Buffer.write_msg, List.drop_left' rfl,
        unpackTxt_iff.mpr ⟨datas, hdatas, rfl, rfl⟩]
      rfl

def octet : Field where
  Value := Bytes
  zero := []
  isRest := true
  len s := s.length
  pack size _ := packOctetString size
  unpack msg off := .ok (msg.drop off, msg.length)
  Good s := 0x5c ∉ s ∧ s.length ≤ txtTmpLen

theorem octet_lawful : octet.Lawful := by
  refine ⟨fun size compress s => Buffer.local_append _, ?_⟩
  rintro size compress (s : Bytes) st ⟨hplain, htmp⟩ hsound hroom
  change st.msg.length + s.length < size at hroom
  have hok : packOctetString size s st = .ok (st.write s) := by
    rw [packOctetString, octetStringAt, if_neg (by omega), packEscaped_plainString hplain (by omega)]
    rfl
  refine ⟨_, hok, hsound.write _, ?_, fun hsame => ?_, fun more hmore _ => ?_⟩
  · rw [Buffer.write_msg, List.length_append]
    exact le_rfl
  · have hnil : s = [] := by simpa using hsame
    exact hnil
  · have hnone := hmore rfl
    subst hnone
    change Except.ok _ = _
    rw [List.append_nil, Buffer.write_msg, List.drop_left' rfl]
    rfl

/-! ### Options -/

/-- The data of an option is what its own `pack` makes of it. -/
abbrev EDNS0 := UInt16 × Bytes

def packDataOpt (size : Nat) : List EDNS0 → Packing → Except GoError Packing
  | [], st => .ok st
  | (code, b) :: options, st =>
    if st.msg.length + 4 > size then .error (dnsError "overflow packing opt")
    else if st.msg.length + 4 + b.length > size then .error (dnsError "overflow packing opt")
    else packDataOpt size options (st.write (putUint 2 code.toNat ++ putUint 2 b.length ++ b))

def unpackDataOpt (unpackOption : UInt16 → Bytes → Option GoError) (msg : Bytes) :
    Except GoError (List EDNS0) :=
  match msg with
  | c :: c' :: l :: l' :: msg =>
    let code := UInt16.ofNat (getUint [c, c'])
    let optlen := getUint [l, l']
    if msg.length < optlen then .error (dnsError "overflow unpacking opt")
    else match unpackOption code (msg.take optlen) with
      | some e => .error e
      | none =>
        if msg.drop optlen = [] then .ok [(code, msg.take optlen)]
        else (unpackDataOpt unpackOption (msg.drop optlen)).map ((code, msg.take optlen) :: ·)
  | _ => .error (dnsError "overflow unpacking opt")
termination_by msg.length
decreasing_by
  rw [List.length_drop]
  simp only [List.length_cons]
  omega

def optionBytes (o : EDNS0) : Bytes := putUint 2 o.1.toNat ++ (putUint 2 o.2.length ++ o.2)

theorem packDataOpt_local (size : Nat) (options : List EDNS0) :
    Buffer.Local (packDataOpt size options) := by
  induction options with
  | nil => exact Buffer.local_ok
  | cons o options ih =>
    have hwrite : Buffer.Local fun st : Packing => (.ok (st.write (optionBytes o)) : Except GoError _) :=
      Buffer.local_write _
    exact Buffer.local_if (· + 4 > size) (Buffer.local_error _)
      (Buffer.local_if (· + 4 + o.2.length > size) (Buffer.local_error _) (hwrite.bind ih))

theorem length_optionBytes (o : EDNS0) : (optionBytes o).length = 4 + o.2.length := by
  simp [optionBytes]
  omega

def optionsLen (options : List EDNS0) : Nat := (options.map fun o => 4 + o.2.length).sum

theorem length_optionsBytes (options : List EDNS0) :
    (options.flatMap optionBytes).length = optionsLen options := by
  induction options with
  | nil => rfl
  | cons o options ih =>
    rw [List.flatMap_cons, List.length_append, ih, length_optionBytes]
    rfl

theorem packDataOpt_ok {options : List EDNS0} (hroom : st.msg.length + optionsLen options < size) :
    packDataOpt size options st = .ok (st.write (options.flatMap optionBytes)) := by
  induction options generalizing st with
  | nil => simp [packDataOpt, Buffer.write]
  | cons o options ih =>
    have hlen : optionsLen (o :: options) = 4 + o.2.length + optionsLen options := rfl
    rw [hlen] at hroom
    have hnext : (st.write (optionBytes o)).msg.length + optionsLen options < size := by
      rw [Buffer.write_msg, List.length_append, length_optionBytes]
      omega
    rw [packDataOpt, if_neg (by omega), if_neg (by omega)]
    refine (ih hnext).trans ?_
    simp [Buffer.write]

theorem unpackDataOpt_options {unpackOption : UInt16 → Bytes → Option GoError} {options : List EDNS0}
    (hgood : ∀ o ∈ options, o.2.length < 65536 ∧ unpackOption o.1 o.2 = none) (hne : options ≠ []) :
    unpackDataOpt unpackOption (options.flatMap optionBytes) = .ok options := by
  induction options with
  | nil => exact absurd rfl hne
  | cons o options ih =>
    obtain ⟨⟨hlen, haccepted⟩, hrest⟩ := List.forall_mem_cons.mp hgood
    obtain ⟨code, b⟩ := o
    have hcode : getUint (putUint 2 code.toNat) = code.toNat := getUint_putUint code.toNat_lt
    have hbytes : getUint (putUint 2 b.length) = b.length := getUint_putUint hlen
    have hshape : ((code, b) :: options).flatMap optionBytes =
        UInt8.ofNat (code.toNat / 256) :: UInt8.ofNat code.toNat :: UInt8.ofNat (b.length / 256) ::
          UInt8.ofNat b.length :: (b ++ options.flatMap optionBytes) := by
      simp [optionBytes, putUint]
    simp only [putUint, List.nil_append, List.singleton_append] at hcode hbytes
    rw [hshape, unpackDataOpt]
    simp only [hcode, hbytes, UInt16.ofNat_toNat, List.take_left', List.drop_left', haccepted]
    rw [if_neg (by simp)]
    by_cases hnil : options = []
    · simp [hnil]
    · have hmore : options.flatMap optionBytes ≠ [] := by
        obtain ⟨o', options, rfl⟩ := List.exists_cons_of_ne_nil hnil
        simp [optionBytes, putUint]
      rw [if_neg hmore, ih hrest hnil]
      rfl

def opt (unpackOption : UInt16 → Bytes → Option GoError) : Field where
  Value := List EDNS0
  zero := []
  isRest := true
  len := optionsLen
  pack size _ := packDataOpt size
  unpack msg off := (unpackDataOpt unpackOption (msg.drop off)).map fun options => (options, msg.length)
  Good options := ∀ o ∈ options, o.2.length < 65536 ∧ unpackOption o.1 o.2 = none

theorem opt_lawful (unpackOption : UInt16 → Bytes → Option GoError) : (opt unpackOption).Lawful := by
  refine ⟨fun size compress options => packDataOpt_local _ _, ?_⟩
  intro size compress (options : List EDNS0) st hgood hsound hroom
  change st.msg.length + optionsLen options < size at hroom
  refine ⟨_, packDataOpt_ok hroom, hsound.write _, ?_, fun hsame => ?_, fun more hmore hlt => ?_⟩
  · rw [Buffer.write_msg, List.length_append, length_optionsBytes]
    exact le_rfl
  · cases options with
    | nil => rfl
    | cons o options =>
      rw [Buffer.write_msg, List.length_append, List.flatMap_cons, List.length_append,
        length_optionBytes] at hsame
      omega
  · have hnone := hmore rfl
    subst hnone
    have hne : options ≠ [] := by
      rintro rfl
      simp at hlt
    change Except.map _ (unpackDataOpt _ _) = _
    rw [List.append_nil, Buffer.write_msg, List.drop_left' rfl, unpackDataOpt_options hgood hne]
    rfl

/-! ## The data of a record -/

/-- Only the last field is read to the end of the record. -/
def RestLast : List Field → Prop
  | [] => True
  | f :: fs => (fs ≠ [] → f.isRest = false) ∧ RestLast fs

/-- A record type of the library: the fields of its Go type. -/
structure RecordType where
  fields : List Field
  lawful : ∀ f ∈ fields, f.Lawful
  restLast : RestLast fields

def Data : List Field → Type
  | [] => Unit
  | f :: fs => f.Value × Data fs

namespace Data

def zero : (fs : List Field) → Data fs
  | [] => ()
  | f :: fs => (f.zero, zero fs)

def len : (fs : List Field) → Data fs → Nat
  | [], _ => 0
  | f :: fs, (v, vs) => f.len v + len fs vs

def Good : (fs : List Field) → Data fs → Prop
  | [], _ => True
  | f :: fs, (v, vs) => f.Good v ∧ Good fs vs

end Data

def packData (size : Nat) (compress : Bool) : (fs : List Field) → Data fs → Packing →
    Except GoError Packing
  | [], _, st => .ok st
  | f :: fs, (v, vs), st => f.pack size compress v st >>= packData size compress fs vs

/-- The fields that are left at the end of the message stay as they were. -/
def unpackData : (fs : List Field) → (msg : Bytes) → (off : Nat) → Except GoError (Data fs × Nat)
  | [], _, off => .ok ((), off)
  | f :: fs, msg, off => do
    let (v, off) ← f.unpack msg off
    if off = msg.length then return ((v, Data.zero fs), off)
    else
      let (vs, off) ← unpackData fs msg off
      return ((v, vs), off)

section Data

variable {size : Nat} {fs : List Field}

theorem packData_local {compress : Bool} (hlawful : ∀ f ∈ fs, f.Lawful) (data : Data fs) :
    Buffer.Local (packData size compress fs data) := by
  induction fs with
  | nil => exact Buffer.local_ok
  | cons f fs ih =>
    obtain ⟨hf, hfs⟩ := List.forall_mem_cons.mp hlawful
    exact (hf.appends size compress data.1).bind (ih hfs data.2)

theorem packData_codes (compress : Bool) (hlawful : ∀ f ∈ fs, f.Lawful) (hrest : RestLast fs)
    {data : Data fs} (hgood : Data.Good fs data) {st : Packing} (hsound : Packing.Sound st)
    (hroom : st.msg.length + Data.len fs data < size) :
    ∃ st', packData size compress fs data st = .ok st' ∧ Packing.Sound st' ∧
      st'.msg.length ≤ st.msg.length + Data.len fs data ∧
      (st'.msg.length = st.msg.length → data = Data.zero fs) ∧
      (st.msg.length < st'.msg.length →
        unpackData fs st'.msg st.msg.length = .ok (data, st'.msg.length)) := by
  induction fs generalizing st with
  | nil => exact ⟨st, rfl, hsound, le_rfl, fun _ => rfl, fun h => absurd h (lt_irrefl _)⟩
  | cons f fs ih =>
    obtain ⟨v, vs⟩ := data
    obtain ⟨hf, hfs⟩ := List.forall_mem_cons.mp hlawful
    obtain ⟨hlast, hrest⟩ := hrest
    obtain ⟨hv, hvs⟩ := hgood
    have hlen : Data.len (f :: fs) (v, vs) = f.len v + Data.len fs vs := rfl
    rw [hlen] at hroom ⊢
    obtain ⟨mid, hmid, hpacks⟩ := hf.packs size compress v st hv hsound (by omega)
    have hmidLe := hpacks.length_le
    obtain ⟨st', hok, hsound', hle, hzero, hread⟩ := ih hfs hrest hvs hpacks.sound (by omega)
    obtain ⟨out, hout, -⟩ := packData_local hfs vs hok
    have hgrow := (hf.appends size compress v).length_le hmid
    have hgrow' := (packData_local hfs vs).length_le hok
    refine ⟨st', ?_, hsound', by omega, fun hsame => ?_, fun hlt => ?_⟩
    · change f.pack size compress v st >>= _ = _
      rw [hmid]
      exact hok
    · rw [hpacks.zero (by omega), hzero (by omega)]
      rfl
    · have hfirst : f.unpack st'.msg st.msg.length = .ok (v, mid.msg.length) := by
        rw [hout]
        refine hpacks.unpack out (fun hisRest => ?_) (by rw [← hout]; exact hlt)
        cases fs with
        | nil =>
          cases hok
          simpa using hout
        | cons g fs => simp [hlast (by simp)] at hisRest
      rw [unpackData, hfirst]
      change (if mid.msg.length = st'.msg.length then _ else _) = _
      split
      · next hend =>
        rw [hzero hend.symm, hend]
        rfl
      · rw [hread (by omega)]
        rfl

theorem packData_appends (compress : Bool) (hlawful : ∀ f ∈ fs, f.Lawful) (hrest : RestLast fs)
    {data : Data fs} (hgood : Data.Good fs data) {st : Packing} (hsound : Packing.Sound st)
    (hroom : st.msg.length + Data.len fs data < size) :
    ∃ out t, Buffer.Appends (packData size compress fs data) st out t ∧
      Packing.Sound ⟨st.msg ++ out, t⟩ ∧ out.length ≤ Data.len fs data ∧
      (out = [] → data = Data.zero fs) ∧
      (out ≠ [] → unpackData fs (st.msg ++ out) st.msg.length = .ok (data, (st.msg ++ out).length)) := by
  obtain ⟨st', hok, hsound', hle, hzero, hread⟩ :=
    packData_codes compress hlawful hrest hgood hsound hroom
  obtain ⟨out, hout, happends⟩ := packData_local hlawful data hok
  have hst' : ⟨st.msg ++ out, st'.table⟩ = st' := by rw [← hout]
  rw [hout, List.length_append] at hle hzero hread
  refine ⟨out, st'.table, happends, hst'.symm ▸ hsound', by omega, fun hnil => hzero (by simp [hnil]), ?_⟩
  intro hne
  have hpos := List.length_pos_iff.mpr hne
  rw [List.length_append]
  exact hread (by omega)

end Data

end DNSWire

end DnscryptProxy
