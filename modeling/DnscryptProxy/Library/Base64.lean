import Mathlib.Data.List.Basic
import Mathlib.Tactic.Common

/-! Base64 with the alphabet for URLs and without padding, read strictly: the bits
that are left over at the end of a text have to be zero. Line breaks are passed
over. `decode_encode` is the round trip. -/

namespace DnscryptProxy.Library.Base64

/-- The character for six bits. -/
def char (n : Nat) : UInt8 :=
  if n < 26 then UInt8.ofNat (65 + n)
  else if n < 52 then UInt8.ofNat (97 + (n - 26))
  else if n < 62 then UInt8.ofNat (48 + (n - 52))
  else if n = 62 then 0x2d
  else 0x5f

/-- The six bits of a character of the alphabet. -/
def value (c : UInt8) : Option Nat :=
  if 65 ≤ c ∧ c ≤ 90 then some (c.toNat - 65)
  else if 97 ≤ c ∧ c ≤ 122 then some (c.toNat - 97 + 26)
  else if 48 ≤ c ∧ c ≤ 57 then some (c.toNat - 48 + 52)
  else if c = 0x2d then some 62
  else if c = 0x5f then some 63
  else none

def isBreak (c : UInt8) : Bool := c = 0x0d || c = 0x0a

/-- Bytes in groups of six bits, with zeros at the end. -/
def split : List UInt8 → List Nat
  | a :: b :: c :: rest =>
    a.toNat / 4 :: (a.toNat % 4 * 16 + b.toNat / 16) :: (b.toNat % 16 * 4 + c.toNat / 64) ::
      c.toNat % 64 :: split rest
  | [a, b] => [a.toNat / 4, a.toNat % 4 * 16 + b.toNat / 16, b.toNat % 16 * 4]
  | [a] => [a.toNat / 4, a.toNat % 4 * 16]
  | [] => []

/-- The bytes that such groups stand for. -/
def join : List Nat → Option (List UInt8)
  | w :: x :: y :: z :: rest => (join rest).map fun bytes =>
    UInt8.ofNat (w * 4 + x / 16) :: UInt8.ofNat (x % 16 * 16 + y / 4) ::
      UInt8.ofNat (y % 4 * 64 + z) :: bytes
  | [w, x, y] =>
    if y % 4 = 0 then some [UInt8.ofNat (w * 4 + x / 16), UInt8.ofNat (x % 16 * 16 + y / 4)]
    else none
  | [w, x] => if x % 16 = 0 then some [UInt8.ofNat (w * 4 + x / 16)] else none
  | [_] => none
  | [] => some []

def encode (bytes : List UInt8) : List UInt8 := (split bytes).map char

def decode (text : List UInt8) : Option (List UInt8) :=
  ((text.filter fun c => !isBreak c).mapM value).bind join

theorem value_char {n : Nat} (h : n < 64) : value (char n) = some n := by
  have hall : ∀ n < 64, value (char n) = some n := by decide +kernel
  exact hall n h

theorem not_isBreak_char {n : Nat} (h : n < 64) : isBreak (char n) = false := by
  have hall : ∀ n < 64, isBreak (char n) = false := by decide +kernel
  exact hall n h

/-! ## Groups -/

theorem split_lt {bytes : List UInt8} {n : Nat} (h : n ∈ split bytes) : n < 64 := by
  fun_induction split bytes with
  | case1 a b c rest ih =>
    have ha := a.toNat_lt
    have hb := b.toNat_lt
    have hc := c.toNat_lt
    simp only [List.mem_cons] at h
    rcases h with rfl | rfl | rfl | rfl | h
    · omega
    · omega
    · omega
    · omega
    · exact ih h
  | case2 a b =>
    have ha := a.toNat_lt
    have hb := b.toNat_lt
    simp only [List.mem_cons, List.not_mem_nil, or_false] at h
    omega
  | case3 a =>
    have ha := a.toNat_lt
    simp only [List.mem_cons, List.not_mem_nil, or_false] at h
    omega
  | case4 => cases h

theorem join_split (bytes : List UInt8) : join (split bytes) = some bytes := by
  have hbyte {b : UInt8} {n : Nat} (h : n = b.toNat) : UInt8.ofNat n = b := by
    rw [h, UInt8.ofNat_toNat]
  fun_induction split bytes with
  | case1 a b c rest ih =>
    have ha := a.toNat_lt
    have hb := b.toNat_lt
    have hc := c.toNat_lt
    rw [join, ih, Option.map_some]
    rw [hbyte (b := a) (by omega), hbyte (b := b) (by omega), hbyte (b := c) (by omega)]
  | case2 a b =>
    have ha := a.toNat_lt
    have hb := b.toNat_lt
    rw [join, if_pos (by omega), hbyte (b := a) (by omega), hbyte (b := b) (by omega)]
  | case3 a =>
    have ha := a.toNat_lt
    rw [join, if_pos (by omega), hbyte (b := a) (by omega)]
  | case4 => rfl

/-! ## Texts -/

theorem mapM_value_map {groups : List Nat} (h : ∀ n ∈ groups, n < 64) :
    (groups.map char).mapM value = some groups := by
  induction groups with
  | nil => rfl
  | cons n groups ih =>
    rw [List.map_cons, List.mapM_cons, value_char (h n List.mem_cons_self),
      ih fun m hm => h m (List.mem_cons_of_mem _ hm)]
    rfl

theorem filter_encode (bytes : List UInt8) :
    ((encode bytes).filter fun c => !isBreak c) = encode bytes := by
  refine List.filter_eq_self.mpr fun c hc => ?_
  obtain ⟨n, hn, rfl⟩ := List.mem_map.mp hc
  rw [not_isBreak_char (split_lt hn)]
  rfl

theorem decode_encode (bytes : List UInt8) : decode (encode bytes) = some bytes := by
  rw [decode, filter_encode, encode, mapM_value_map fun n => split_lt, Option.bind_some, join_split]

end DnscryptProxy.Library.Base64
