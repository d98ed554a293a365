import Mathlib.Data.List.Basic
import Mathlib.Data.List.Infix

/-! Names in a message: labels, each behind its length, up to an empty label or to a pointer to
where the rest of the name stands (RFC 1035, section 4.1.4).

`Reads` says which labels are at an offset, how many pointers lead to them and where the next item
begins. It does not change when bytes are appended (`Reads.extend`). -/

namespace DnscryptProxy.Library.WireNames

variable {msg more bs : List UInt8} {off : Nat}

/-- `bs` stands in the message at `off`. -/
def At (msg : List UInt8) (off : Nat) (bs : List UInt8) : Prop := bs <+: msg.drop off

theorem at_cons {b : UInt8} : At msg off (b :: bs) ↔ msg[off]? = some b ∧ At msg (off + 1) bs := by
  unfold At
  rw [← List.drop_drop, List.getElem?_eq_some_iff]
  constructor
  · rintro ⟨rest, hrest⟩
    have hlt : off < msg.length := by
      by_contra hge
      rw [List.drop_of_length_le (not_lt.mp hge)] at hrest
      cases hrest
    rw [List.drop_eq_getElem_cons hlt] at hrest ⊢
    obtain ⟨hb, hbs⟩ := List.cons.inj hrest
    exact ⟨⟨hlt, hb.symm⟩, rest, hbs⟩
  · rintro ⟨⟨hlt, hb⟩, hbs⟩
    rw [List.drop_eq_getElem_cons hlt, hb] at hbs ⊢
    exact List.cons_prefix_cons.mpr ⟨rfl, hbs⟩

theorem at_singleton {b : UInt8} : At msg off [b] ↔ msg[off]? = some b := by
  rw [at_cons]
  exact ⟨fun h => h.1, fun h => ⟨h, List.nil_prefix⟩⟩

theorem At.take (h : At msg off bs) : (msg.drop off).take bs.length = bs :=
  (List.prefix_iff_eq_take.mp h).symm

theorem At.le (h : At msg off bs) (hne : bs ≠ []) : off + bs.length ≤ msg.length := by
  have hlen := h.length_le
  rw [List.length_drop] at hlen
  have hpos := List.length_pos_iff.mpr hne
  omega

theorem At.extend (h : At msg off bs) : At (msg ++ more) off bs := by
  unfold At at *
  rw [List.drop_append]
  exact h.trans (List.prefix_append _ _)

theorem at_length (msg bs more : List UInt8) : At (msg ++ (bs ++ more)) msg.length bs := by
  unfold At
  rw [List.drop_left' rfl]
  exact List.prefix_append _ _

/-- Where a pointer leads to. -/
def target (hi lo : UInt8) : Nat := (hi.toNat - 192) * 256 + lo.toNat

theorem xor_mark {p : Nat} (h : p < 16384) : p ^^^ 0xc000 = p + 0xc000 := by
  have hadd : 3 <<< 14 + p = 3 <<< 14 ||| p := Nat.shiftLeft_add_eq_or_of_lt h 3
  have hxor : p ^^^ 0xc000 = 3 <<< 14 ||| p := by
    refine Nat.eq_of_testBit_eq fun i => ?_
    rw [Nat.testBit_xor, Nat.testBit_or]
    by_cases hi : i < 14
    · have hmark : (0xc000 : Nat).testBit i = false := by
        have hshift : (3 <<< 14 : Nat).testBit i = false := by
          rw [Nat.testBit_shiftLeft]
          simp
          omega
        exact hshift
      simp [hmark]
    · have hle : 2 ^ 14 ≤ 2 ^ i := Nat.pow_le_pow_right (by decide) (Nat.le_of_not_lt hi)
      have hoffset : p.testBit i = false := Nat.testBit_lt_two_pow (Nat.lt_of_lt_of_le h hle)
      simp [hoffset]
  rw [hxor, ← hadd]
  exact Nat.add_comm _ _

/-- At an offset there are these labels, behind so many pointers, and the next item is at `stop`. -/
inductive Reads (msg : List UInt8) : Nat → List (List UInt8) → Nat → Nat → Prop where
  | root {off : Nat} (here : At msg off [0]) : Reads msg off [] 0 (off + 1)
  | label {off hops stop : Nat} {labels : List (List UInt8)} (l : List UInt8) (pos : 0 < l.length)
      (short : l.length < 64) (here : At msg off (UInt8.ofNat l.length :: l))
      (next : Reads msg (off + 1 + l.length) labels hops stop) : Reads msg off (l :: labels) hops stop
  | pointer {off hops stop : Nat} {labels : List (List UInt8)} (hi lo : UInt8) (mark : 192 ≤ hi.toNat)
      (here : At msg off [hi, lo]) (next : Reads msg (target hi lo) labels hops stop) :
      Reads msg off labels (hops + 1) (off + 2)

/-- How many bytes the labels take, each with its length. -/
def wireLength : List (List UInt8) → Nat
  | [] => 0
  | l :: labels => l.length + 1 + wireLength labels

@[simp] theorem wireLength_nil : wireLength [] = 0 := rfl

@[simp] theorem wireLength_cons (l : List UInt8) (labels : List (List UInt8)) :
    wireLength (l :: labels) = l.length + 1 + wireLength labels := rfl

/-- A label is not empty and leaves the two bits of a pointer clear. -/
def ValidLabels (labels : List (List UInt8)) : Prop := ∀ l ∈ labels, 0 < l.length ∧ l.length < 64

theorem toNat_ofNat_length {l : List UInt8} (h : l.length < 64) :
    (UInt8.ofNat l.length).toNat = l.length := by
  rw [UInt8.toNat_ofNat']
  exact Nat.mod_eq_of_lt (by omega)

namespace Reads

variable {labels : List (List UInt8)} {hops stop : Nat}

theorem extend (h : Reads msg off labels hops stop) : Reads (msg ++ more) off labels hops stop := by
  induction h with
  | root here => exact .root here.extend
  | label l pos short here next ih => exact .label l pos short here.extend ih
  | pointer hi lo mark here next ih => exact .pointer hi lo mark here.extend ih

theorem off_lt_stop (h : Reads msg off labels hops stop) : off < stop := by
  induction h with
  | root here => omega
  | label l pos short here next ih => omega
  | pointer hi lo mark here next ih => omega

end Reads

end DnscryptProxy.Library.WireNames
