import Mathlib.Data.List.Infix
import Mathlib.Tactic.Common

/-! Texts as bytes. UTF-8 is a code none of whose words begins another, so that a
text begins another text exactly when its bytes begin those of the other
(`encode_prefix_iff`); and a byte below 0x80 stands only for the character it is
(`getElem?_encode_length`, `mem_encode_iff`). -/

namespace DnscryptProxy.Library.UTF8

def encode (t : List Char) : List UInt8 := t.flatMap String.utf8EncodeChar

def decodeChar (s : List UInt8) : Option Char := s.toByteArray.utf8DecodeChar? 0

def runesFrom : Nat → List UInt8 → List Char
  | 0, _ => []
  | _ + 1, [] => []
  | fuel + 1, b :: rest =>
    match decodeChar (b :: rest) with
    | some c => c :: runesFrom fuel ((b :: rest).drop c.utf8Size)
    | none => Char.ofNat 0xfffd :: runesFrom fuel rest

/-- No word is empty, so there are no more words than bytes. -/
def runes (s : List UInt8) : List Char := runesFrom s.length s

variable {t p : List Char} {c : Char} {b : UInt8} {s rest : List UInt8}

@[simp] theorem encode_nil : encode [] = [] := rfl

theorem encode_cons : encode (c :: t) = String.utf8EncodeChar c ++ encode t := by
  rw [encode, List.flatMap_cons]
  rfl

theorem encode_append : encode (p ++ t) = encode p ++ encode t := by
  simp [encode]

theorem decodeChar_encodeChar : decodeChar (String.utf8EncodeChar c ++ rest) = some c := by
  rw [decodeChar, List.toByteArray_append]
  exact ByteArray.utf8DecodeChar?_utf8EncodeChar_append

theorem encode_eq_nil_iff : encode t = [] ↔ t = [] := by
  cases t with
  | nil => simp
  | cons c t => simp [encode_cons]

theorem encode_prefix_iff : encode p <+: encode t ↔ p <+: t := by
  constructor
  · intro h
    induction p generalizing t with
    | nil => exact List.nil_prefix
    | cons c p ih =>
      rw [encode_cons] at h
      obtain ⟨rest, h⟩ := h
      rw [List.append_assoc] at h
      cases t with
      | nil => simp at h
      | cons d t =>
        rw [encode_cons] at h
        have hcd : some c = some d := by
          rw [← decodeChar_encodeChar, h, decodeChar_encodeChar]
        obtain rfl : c = d := Option.some.inj hcd
        exact List.cons_prefix_cons.mpr ⟨rfl, ih ⟨rest, List.append_cancel_left h⟩⟩
  · rintro ⟨rest, rfl⟩
    exact ⟨encode rest, encode_append.symm⟩

theorem encode_injective : Function.Injective encode := by
  intro p t h
  have hpt : p <+: t := encode_prefix_iff.mp (h ▸ List.prefix_rfl)
  have htp : t <+: p := encode_prefix_iff.mp (h ▸ List.prefix_rfl)
  exact hpt.eq_of_length_le htp.length_le

theorem runesFrom_encode {fuel : Nat} (h : (encode t).length ≤ fuel) :
    runesFrom fuel (encode t) = t := by
  induction t generalizing fuel with
  | nil => cases fuel <;> rfl
  | cons c t ih =>
    rw [encode_cons, List.length_append] at h
    have hlen := String.length_utf8EncodeChar c
    have hpos := c.utf8Size_pos
    obtain ⟨b, word, hword⟩ := List.exists_cons_of_ne_nil (String.utf8EncodeChar_ne_nil (c := c))
    obtain ⟨fuel, rfl⟩ : ∃ n, fuel = n + 1 := ⟨fuel - 1, by omega⟩
    have hdecode : decodeChar (String.utf8EncodeChar c ++ encode t) = some c :=
      decodeChar_encodeChar
    have hdrop : (String.utf8EncodeChar c ++ encode t).drop c.utf8Size = encode t :=
      List.drop_left' hlen
    rw [encode_cons]
    rw [hword] at hdecode hdrop ⊢
    rw [List.cons_append] at hdecode hdrop ⊢
    simp only [runesFrom, hdecode, hdrop]
    rw [ih (by omega)]

theorem runes_encode : runes (encode t) = t := runesFrom_encode le_rfl

/-! ## ASCII -/

theorem encodeChar_of_mem (h : b ∈ String.utf8EncodeChar c) (hb : b < 0x80) :
    String.utf8EncodeChar c = [b] := by
  have hb : b.toNat < 128 := hb
  unfold String.utf8EncodeChar at h ⊢
  dsimp only at h ⊢
  split
  · next hle =>
    rw [if_pos hle] at h
    rw [List.mem_singleton.mp h]
  · next hgt =>
    exfalso
    simp only [hgt, ↓reduceIte] at h
    split at h
    · simp only [List.mem_cons, List.not_mem_nil, or_false] at h
      rcases h with rfl | rfl <;> simp only [UInt8.toNat_ofNat'] at hb <;> omega
    · split at h
      · simp only [List.mem_cons, List.not_mem_nil, or_false] at h
        rcases h with rfl | rfl | rfl <;> simp only [UInt8.toNat_ofNat'] at hb <;> omega
      · simp only [List.mem_cons, List.not_mem_nil, or_false] at h
        rcases h with rfl | rfl | rfl | rfl <;> simp only [UInt8.toNat_ofNat'] at hb <;> omega

variable {sep : Char}

theorem mem_encodeChar_iff (hsep : String.utf8EncodeChar sep = [b]) (hb : b < 0x80) :
    b ∈ String.utf8EncodeChar c ↔ c = sep := by
  constructor
  · intro h
    have hsame : encode [c] = encode [sep] := by
      simp [encode, encodeChar_of_mem h hb, hsep]
    exact List.singleton_inj.mp (encode_injective hsame)
  · rintro rfl
    simp [hsep]

theorem mem_encode_iff (hsep : String.utf8EncodeChar sep = [b]) (hb : b < 0x80) :
    b ∈ encode t ↔ sep ∈ t := by
  simp [encode, List.mem_flatMap, mem_encodeChar_iff hsep hb]

theorem getElem?_encode_length (hsep : String.utf8EncodeChar sep = [b]) (hb : b < 0x80)
    (hp : p <+: t) : (encode t)[(encode p).length]? = some b ↔ t[p.length]? = some sep := by
  obtain ⟨rest, rfl⟩ := hp
  rw [encode_append, List.getElem?_append_right le_rfl, List.getElem?_append_right le_rfl,
    Nat.sub_self, Nat.sub_self]
  cases rest with
  | nil => simp
  | cons c rest =>
    rw [encode_cons]
    have hc := mem_encodeChar_iff (c := c) hsep hb
    obtain ⟨d, word, hword⟩ := List.exists_cons_of_ne_nil (String.utf8EncodeChar_ne_nil (c := c))
    rw [hword] at hc ⊢
    simp only [List.cons_append, List.getElem?_cons_zero, Option.some.injEq]
    constructor
    · rintro rfl
      exact hc.mp List.mem_cons_self
    · rintro rfl
      rw [hsep] at hword
      exact (List.cons.inj hword).1.symm

theorem length_encode_of_ascii (h : ∀ c ∈ t, c.toNat < 128) : (encode t).length = t.length := by
  induction t with
  | nil => rfl
  | cons c t ih =>
    have hc : c.utf8Size = 1 := by
      rw [Char.utf8Size_eq_one_iff, UInt32.le_iff_toNat_le]
      exact Nat.le_of_lt_succ (h c List.mem_cons_self)
    rw [encode_cons, List.length_append, String.length_utf8EncodeChar, hc,
      ih fun d hd => h d (List.mem_cons_of_mem _ hd), List.length_cons, Nat.add_comm]

end DnscryptProxy.Library.UTF8
