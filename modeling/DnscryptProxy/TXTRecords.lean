import DnscryptProxy.Library.Words
import DnscryptProxy.Certificates

/-! The text of TXT records. A server sends a certificate as the bytes of a few strings. The DNS
library hands the strings out in presentation form, and `PackTXTRR` reads the bytes back from it.

* `packTXTRR_txtString`: it reads back what was sent, for any bytes and wherever they are cut into
  strings.
* `unpackTxt_iff`: the data of a record that the library accepts. -/

namespace DnscryptProxy

open Library

/-! ## The library -/

def escapedByteSmall : String :=
  "" ++
  "\\000\\001\\002\\003\\004\\005\\006\\007\\008\\009" ++
  "\\010\\011\\012\\013\\014\\015\\016\\017\\018\\019" ++
  "\\020\\021\\022\\023\\024\\025\\026\\027\\028\\029" ++
  "\\030\\031"

def escapedByteLarge : String :=
  "\\127\\128\\129" ++
  "\\130\\131\\132\\133\\134\\135\\136\\137\\138\\139" ++
  "\\140\\141\\142\\143\\144\\145\\146\\147\\148\\149" ++
  "\\150\\151\\152\\153\\154\\155\\156\\157\\158\\159" ++
  "\\160\\161\\162\\163\\164\\165\\166\\167\\168\\169" ++
  "\\170\\171\\172\\173\\174\\175\\176\\177\\178\\179" ++
  "\\180\\181\\182\\183\\184\\185\\186\\187\\188\\189" ++
  "\\190\\191\\192\\193\\194\\195\\196\\197\\198\\199" ++
  "\\200\\201\\202\\203\\204\\205\\206\\207\\208\\209" ++
  "\\210\\211\\212\\213\\214\\215\\216\\217\\218\\219" ++
  "\\220\\221\\222\\223\\224\\225\\226\\227\\228\\229" ++
  "\\230\\231\\232\\233\\234\\235\\236\\237\\238\\239" ++
  "\\240\\241\\242\\243\\244\\245\\246\\247\\248\\249" ++
  "\\250\\251\\252\\253\\254\\255"

def escapeByte (b : UInt8) : Bytes :=
  if b < 0x20 then ((byteString escapedByteSmall).drop (b * 4).toNat).take 4
  else ((byteString escapedByteLarge).drop ((b - 0x7f).toNat * 4)).take 4

/-- What the loop of `unpackString` has written, and where the bytes that it has not written yet
begin. -/
structure Unpacking where
  s : Bytes
  consumed : Nat

namespace Unpacking

def step (data : Bytes) (u : Unpacking) (i : Nat) (b : UInt8) : Unpacking :=
  -- `s.Write(msg[off+consumed : off+i])`
  let s := u.s ++ (data.take i).drop u.consumed
  if b = 0x22 ∨ b = 0x5c then ⟨s ++ [0x5c, b], i + 1⟩
  else if b < 0x20 ∨ 0x7e < b then ⟨s ++ escapeByte b, i + 1⟩
  else u

def loop (data : Bytes) : Unpacking → Nat → Bytes → Unpacking
  | u, _, [] => u
  | u, i, b :: bs => loop data (u.step data i b) (i + 1) bs

end Unpacking

/-- The text that `unpackString` makes of the bytes of a string. -/
def txtString (data : Bytes) : Bytes :=
  let u := Unpacking.loop data ⟨[], 0⟩ 0 data
  if u.consumed = 0 then data -- no escaping needed
  else u.s ++ data.drop u.consumed

/-- The text of the first string, and what comes after the string. -/
def unpackString : Bytes → Except GoError (Bytes × Bytes)
  | [] => .error (.plain "dns: overflow unpacking txt")
  | l :: msg =>
    if msg.length < l.toNat then .error (.plain "dns: overflow unpacking txt")
    else .ok (txtString (msg.take l.toNat), msg.drop l.toNat)

variable {msg s rest : Bytes}

theorem unpackString_shorter (h : unpackString msg = .ok (s, rest)) : rest.length < msg.length := by
  cases msg with
  | nil => cases h
  | cons l msg =>
    by_cases hl : msg.length < l.toNat
    · rw [unpackString, if_pos hl] at h
      cases h
    · rw [unpackString, if_neg hl] at h
      cases h
      rw [List.length_drop, List.length_cons]
      omega

def unpackTxt (msg : Bytes) : Except GoError (List Bytes) :=
  if msg = [] then .ok []
  else match h : unpackString msg with
    | .error e => .error e
    | .ok (s, rest) =>
      have := unpackString_shorter h
      (unpackTxt rest).map (s :: ·)
termination_by msg.length

/-- The strings of the library have ASCII characters only. -/
def asciiText (s : Bytes) : Text := s.map Char.ofUInt8

@[elab_as_elim]
theorem forall_byte {P : UInt8 → Prop} (h : ∀ n < 256, P (UInt8.ofNat n)) (b : UInt8) : P b := by
  have hb := h b.toNat b.toNat_lt
  rw [UInt8.ofNat_toNat] at hb
  exact hb

/-! ## Presentation form -/

/-- A backslash and three digits. -/
def ddd (b : UInt8) : Bytes := [0x5c, 0x30 + b / 100, 0x30 + b / 10 % 10, 0x30 + b % 10]

def presentByte (b : UInt8) : Bytes :=
  if b = 0x22 ∨ b = 0x5c then [0x5c, b] else if b < 0x20 ∨ 0x7e < b then ddd b else [b]

def presentation (data : Bytes) : Bytes := data.flatMap presentByte

theorem presentation_append (data rest : Bytes) :
    presentation (data ++ rest) = presentation data ++ presentation rest :=
  List.flatMap_append

theorem escapedByteSmall_eq : byteString escapedByteSmall =
    (List.range' 0 32).flatMap fun n => ddd (UInt8.ofNat n) := by
  decide +kernel

theorem escapedByteLarge_eq : byteString escapedByteLarge =
    (List.range' 127 129).flatMap fun n => ddd (UInt8.ofNat n) := by
  decide +kernel

theorem escapeByte_eq {b : UInt8} (h : b < 0x20 ∨ 0x7e < b) : escapeByte b = ddd b := by
  have hlength (n : Nat) : (ddd (UInt8.ofNat n)).length = 4 := rfl
  have hlt : b.toNat < 256 := b.toNat_lt
  unfold escapeByte
  split
  · next hsmall =>
    have hsmall : b.toNat < 32 := hsmall
    have hpos : (b * 4).toNat = b.toNat * 4 := by
      rw [UInt8.toNat_mul]
      change b.toNat * 4 % 256 = b.toNat * 4
      omega
    rw [hpos, escapedByteSmall_eq,
      take_drop_flatMap hlength (i := b.toNat) (a := b.toNat) (by simp [hsmall]), UInt8.ofNat_toNat]
  · next hlarge =>
    have hlarge : ¬ b.toNat < 32 := hlarge
    have hb : 126 < b.toNat := by
      rcases h with h | h
      · exact absurd h hlarge
      · exact h
    have hle : 0x7f ≤ b := hb
    have hpos : (b - 0x7f).toNat = b.toNat - 127 := UInt8.toNat_sub_of_le _ _ hle
    have hsum : 127 + 1 * (b.toNat - 127) = b.toNat := by omega
    have hget : (List.range' 127 129)[b.toNat - 127]? = some b.toNat := by
      rw [List.getElem?_range' (by omega), hsum]
    rw [hpos, escapedByteLarge_eq, take_drop_flatMap hlength hget, UInt8.ofNat_toNat]

structure Unpacking.Through (done : Bytes) (u : Unpacking) : Prop where
  written : u.s ++ done.drop u.consumed = presentation done
  consumed_le : u.consumed ≤ done.length
  nothing : u.consumed = 0 → u.s = []

theorem Unpacking.Through.step {done : Bytes} {u : Unpacking} {b : UInt8} (h : Through done u) :
    Through (done ++ [b]) (u.step (done ++ b :: rest) done.length b) := by
  have hlast : presentation (done ++ [b]) = presentation done ++ presentByte b := by
    rw [presentation_append]
    simp [presentation]
  -- an escaped byte is written with all bytes before it
  have hescaped (text : Bytes) (htext : presentByte b = text) :
      Through (done ++ [b]) ⟨u.s ++ done.drop u.consumed ++ text, done.length + 1⟩ := by
    refine ⟨?_, by simp, by simp⟩
    rw [hlast, h.written, htext]
    simp
  unfold Unpacking.step
  rw [List.take_left]
  split
  · next hquote => exact hescaped _ (if_pos hquote)
  · next hquote =>
    split
    · next hunprintable =>
      refine hescaped _ ?_
      rw [presentByte, if_neg hquote, if_pos hunprintable, escapeByte_eq hunprintable]
    · next hprintable =>
      refine ⟨?_, ?_, h.nothing⟩
      · rw [List.drop_append_of_le_length h.consumed_le, ← List.append_assoc, h.written, hlast,
          presentByte, if_neg hquote, if_neg hprintable]
      · rw [List.length_append]
        exact h.consumed_le.trans (Nat.le_add_right _ _)

theorem Unpacking.Through.loop {done : Bytes} {u : Unpacking} (h : Through done u) :
    Through (done ++ rest) (Unpacking.loop (done ++ rest) u done.length rest) := by
  induction rest generalizing done u with
  | nil =>
    rw [List.append_nil]
    exact h
  | cons b rest ih =>
    have hstep : Through (done ++ [b]) (u.step (done ++ b :: rest) done.length b) := h.step
    have hnext := ih hstep
    rw [List.append_assoc, List.length_append] at hnext
    exact hnext

theorem txtString_eq (data : Bytes) : txtString data = presentation data := by
  have hstart : Unpacking.Through [] ⟨[], 0⟩ := ⟨rfl, le_rfl, fun _ => rfl⟩
  have hend : Unpacking.Through data (Unpacking.loop data ⟨[], 0⟩ 0 data) := hstart.loop
  unfold txtString
  dsimp only
  split
  · next hconsumed =>
    have hwritten := hend.written
    rw [hend.nothing hconsumed, hconsumed] at hwritten
    exact hwritten
  · exact hend.written

-- the texts of the certificates of a provider
example : ∀ cert ∈ Sample.certs, asciiText (presentation cert) = Sample.certText cert := by
  decide +kernel

/-! ## Reading it back -/

section Reading

variable {b c d e : UInt8} {rest : Bytes}

theorem packTXTRR_cons (hb : b ≠ 0x5c) : packTXTRR (b :: rest) = b :: packTXTRR rest := by
  cases rest with
  | nil => rw [packTXTRR.eq_2, if_neg hb, packTXTRR.eq_1]
  | cons c rest =>
    rw [packTXTRR.eq_def]
    exact if_pos hb

theorem packTXTRR_backslash (hc : isDigit c = false) :
    packTXTRR (0x5c :: c :: rest) = unescape c :: packTXTRR rest := by
  rcases rest with _ | ⟨d, _ | ⟨e, rest⟩⟩
  · simp [packTXTRR]
  · simp [packTXTRR]
  · simp [packTXTRR, hc]

theorem packTXTRR_digits (hc : isDigit c = true) (hd : isDigit d = true) (he : isDigit e = true) :
    packTXTRR (0x5c :: c :: d :: e :: rest) = dddToByte c d e :: packTXTRR rest := by
  simp [packTXTRR, hc, hd, he]

theorem dddToByte_digits (b : UInt8) :
    isDigit (0x30 + b / 100) = true ∧ isDigit (0x30 + b / 10 % 10) = true ∧
      isDigit (0x30 + b % 10) = true ∧
      dddToByte (0x30 + b / 100) (0x30 + b / 10 % 10) (0x30 + b % 10) = b := by
  refine forall_byte ?_ b
  decide +kernel

theorem packTXTRR_presentByte (b : UInt8) (rest : Bytes) :
    packTXTRR (presentByte b ++ rest) = b :: packTXTRR rest := by
  unfold presentByte
  split
  · next hquote =>
    have hc : isDigit b = false ∧ unescape b = b := by
      rcases hquote with rfl | rfl
      · decide
      · decide
    have hread : packTXTRR (0x5c :: b :: rest) = unescape b :: packTXTRR rest :=
      packTXTRR_backslash hc.1
    rw [hc.2] at hread
    exact hread
  · next hquote =>
    split
    · obtain ⟨hc, hd, he, hbyte⟩ := dddToByte_digits b
      have hread : packTXTRR (ddd b ++ rest) = _ :: packTXTRR rest := packTXTRR_digits hc hd he
      rw [hbyte] at hread
      exact hread
    · exact packTXTRR_cons fun hb => hquote (.inr hb)

theorem packTXTRR_presentation (data : Bytes) : packTXTRR (presentation data) = data :=
  flatMap_decode packTXTRR.eq_1 packTXTRR_presentByte data

end Reading

theorem presentByte_ascii (b : UInt8) : ((presentByte b).all fun c => c < 0x80) = true := by
  refine forall_byte ?_ b
  decide +kernel

theorem presentation_ascii {data : Bytes} {c : UInt8} (h : c ∈ presentation data) : c < 0x80 := by
  obtain ⟨b, -, hc⟩ := List.mem_flatMap.mp h
  exact of_decide_eq_true (List.all_eq_true.mp (presentByte_ascii b) c hc)

theorem utf8EncodeChar_ofUInt8 (b : UInt8) :
    b < 0x80 → String.utf8EncodeChar (Char.ofUInt8 b) = [b] := by
  refine forall_byte ?_ b
  decide +kernel

theorem asciiText_bytes (h : ∀ b ∈ s, b < 0x80) :
    (asciiText s).flatMap String.utf8EncodeChar = s := by
  unfold asciiText
  induction s with
  | nil => rfl
  | cons b s ih =>
    rw [List.map_cons, List.flatMap_cons, utf8EncodeChar_ofUInt8 b (h b List.mem_cons_self),
      ih fun c hc => h c (List.mem_cons_of_mem b hc)]
    rfl

theorem presentation_flatten (strings : List Bytes) :
    strings.flatMap presentation = presentation strings.flatten := by
  induction strings with
  | nil => rfl
  | cons data strings ih => rw [List.flatMap_cons, List.flatten_cons, presentation_append, ih]

/-- A TXT record whose strings were these bytes. -/
def txtRecord (rr : RR) (strings : List Bytes) : RR :=
  { rr with data := .txt (strings.map fun data => asciiText (txtString data)) }

theorem binCert_txtRecord (strings : List Bytes) (rr : RR) :
    binCert (txtRecord rr strings) = some strings.flatten := by
  have htext : (strings.map fun data => asciiText (txtString data)).flatten =
      asciiText (presentation strings.flatten) := by
    rw [← List.flatMap_def, ← presentation_flatten, funext txtString_eq]
    exact List.map_flatMap.symm
  unfold txtRecord binCert
  dsimp only
  rw [htext, asciiText_bytes fun b hb => presentation_ascii hb, packTXTRR_presentation]

/-- The library writes each string in presentation form, and `PackTXTRR` gets the bytes of all of them
back from that text. So a certificate is what the strings of its record were. -/
theorem packTXTRR_txtString (strings : List Bytes) (rr : RR) :
    strings.map txtString = strings.map presentation ∧
      packTXTRR (strings.flatMap txtString) = strings.flatten ∧
      binCert (txtRecord rr strings) = some strings.flatten := by
  have htext : txtString = presentation := funext txtString_eq
  refine ⟨by rw [htext], ?_, binCert_txtRecord strings rr⟩
  rw [htext, presentation_flatten, packTXTRR_presentation]

-- a backslash and digits are not what stands for a byte, if the backslash was sent
example : txtString (byteString "\\065") = byteString "\\\\065" := by decide +kernel

/-! ## The data of a record -/

/-- A string on the wire. -/
def withLength (data : Bytes) : Bytes := UInt8.ofNat data.length :: data

theorem unpackString_withLength {data : Bytes} (h : data.length < 256) (rest : Bytes) :
    unpackString (withLength data ++ rest) = .ok (txtString data, rest) := by
  have hl : (UInt8.ofNat data.length).toNat = data.length := UInt8.toNat_ofNat_of_lt' h
  have hfits : ¬ (data ++ rest).length < (UInt8.ofNat data.length).toNat := by
    rw [hl, List.length_append]
    omega
  rw [withLength, List.cons_append, unpackString, if_neg hfits, hl, List.take_left, List.drop_left]

theorem unpackString_ok (h : unpackString msg = .ok (s, rest)) :
    ∃ data, data.length < 256 ∧ msg = withLength data ++ rest ∧ s = txtString data := by
  cases msg with
  | nil => cases h
  | cons l msg =>
    by_cases hl : msg.length < l.toNat
    · rw [unpackString, if_pos hl] at h
      cases h
    · rw [unpackString, if_neg hl] at h
      cases h
      have hlength : (msg.take l.toNat).length = l.toNat := by
        rw [List.length_take]
        omega
      refine ⟨msg.take l.toNat, hlength.trans_lt l.toNat_lt, ?_, rfl⟩
      rw [withLength, hlength, UInt8.ofNat_toNat, List.cons_append, List.take_append_drop]

theorem unpackTxt_of_ok (h : unpackString msg = .ok (s, rest)) :
    unpackTxt msg = (unpackTxt rest).map (s :: ·) := by
  have hne : msg ≠ [] := by
    rintro rfl
    cases h
  rw [unpackTxt, if_neg hne]
  split
  · next e herror =>
    rw [h] at herror
    cases herror
  · next s' rest' hok =>
    rw [h] at hok
    cases hok
    rfl

theorem unpackTxt_iff {txt : List Bytes} :
    unpackTxt msg = .ok txt ↔ ∃ strings : List Bytes, (∀ data ∈ strings, data.length < 256) ∧
      msg = strings.flatMap withLength ∧ txt = strings.map txtString := by
  constructor
  · intro h
    fun_induction unpackTxt msg generalizing txt with
    | case1 =>
      cases h
      exact ⟨[], by simp, rfl, rfl⟩
    | case2 => cases h
    | case3 msg hne s rest hstring _ ih =>
      obtain ⟨data, hdata, rfl, rfl⟩ := unpackString_ok hstring
      cases hrest : unpackTxt rest with
      | error e =>
        rw [hrest] at h
        cases h
      | ok txt' =>
        rw [hrest] at h
        cases h
        obtain ⟨strings, hstrings, rfl, rfl⟩ := ih hrest
        exact ⟨data :: strings, List.forall_mem_cons.mpr ⟨hdata, hstrings⟩, rfl, rfl⟩
  · rintro ⟨strings, hstrings, rfl, rfl⟩
    induction strings with
    | nil => rw [List.flatMap_nil, unpackTxt, if_pos rfl, List.map_nil]
    | cons data strings ih =>
      obtain ⟨hdata, hrest⟩ := List.forall_mem_cons.mp hstrings
      rw [List.flatMap_cons, unpackTxt_of_ok (unpackString_withLength hdata _), ih hrest]
      rfl

end DnscryptProxy
