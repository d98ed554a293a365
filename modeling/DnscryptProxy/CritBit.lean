import Mathlib.Data.Nat.Size
import Mathlib.Data.Nat.Bitwise
import Mathlib.Data.List.Nodup
import DnscryptProxy.Library.PrefixMap
import DnscryptProxy.Basic

/-! The crit-bit trie of `critbitgo/critbit.go`, which holds the rules of the
pattern matcher and the undelegated names. A node branches at a bit of a byte; a
node with `cont` branches on whether there is a byte at all. The two kinds of
nodes are kept in one order, by offset and by the value of the bit, although a
`cont` node does not look at its bit.

`Node.WellFormed` is what every insertion keeps, `entries_insert` says that a
trie holds what a list of entries would hold, and `longestPrefix_entries` that it
is searched like one. -/

namespace DnscryptProxy.CritBit

open Library

/-! ## Critical bits -/

/-- An entry of `msbMatrix`: the most significant bit of `i`. -/
def msbMatrix (i : UInt8) : UInt8 :=
  let b := i ||| i >>> 1
  let b := b ||| b >>> 2
  let b := b ||| b >>> 4
  b &&& ~~~(b >>> 1)

theorem msbMatrix_toNat (i : UInt8) : (msbMatrix i).toNat = 2 ^ i.toNat.size / 2 := by
  have hall : ∀ n < 256, (msbMatrix (UInt8.ofNat n)).toNat = 2 ^ (UInt8.ofNat n).toNat.size / 2 := by
    decide +kernel
  have hi := hall i.toNat i.toNat_lt
  rwa [UInt8.ofNat_toNat] at hi

/-- The most significant bit at which two bytes differ; `0` for equal bytes. -/
def critical (a b : UInt8) : UInt8 := msbMatrix (a ^^^ b)

variable {a b : UInt8} {nkey key : Bytes}

theorem msbMatrix_le_iff : msbMatrix a ≤ msbMatrix b ↔ a.toNat.size ≤ b.toNat.size := by
  rw [UInt8.le_iff_toNat_le, msbMatrix_toNat, msbMatrix_toNat]
  cases a.toNat.size with
  | zero => simp
  | succ m =>
    cases b.toNat.size with
    | zero => simp [Nat.pow_succ]
    | succ n => simp [Nat.pow_succ, Nat.pow_le_pow_iff_right]

theorem critical_comm (a b : UInt8) : critical a b = critical b a := by
  unfold critical
  rw [UInt8.xor_comm]

theorem critical_self (a : UInt8) : critical a a = 0 := by
  unfold critical
  rw [UInt8.xor_self]
  rfl

theorem critical_zero (a : UInt8) : critical a 0 = msbMatrix a := by
  unfold critical
  rw [UInt8.xor_zero]

theorem zero_lt_critical (h : a ≠ b) : 0 < critical a b := by
  have hne : (a ^^^ b).toNat ≠ 0 := by
    intro hzero
    exact h (UInt8.xor_eq_zero_iff.mp (UInt8.toNat_inj.mp hzero))
  rw [UInt8.lt_iff_toNat_lt, critical, msbMatrix_toNat]
  cases hsize : (a ^^^ b).toNat.size with
  | zero => exact absurd (Nat.size_eq_zero.mp hsize) hne
  | succ n =>
    rw [Nat.pow_succ, Nat.mul_div_cancel _ Nat.two_pos]
    exact Nat.two_pow_pos n

theorem critical_le {c d : UInt8} (hab : critical a b ≤ d) (hbc : critical b c ≤ d) :
    critical a c ≤ d := by
  have hxor : a ^^^ c = (a ^^^ b) ^^^ (b ^^^ c) := by
    rw [UInt8.xor_assoc, ← UInt8.xor_assoc b b c, UInt8.xor_self, UInt8.zero_xor]
  have hsize : (a ^^^ c).toNat.size ≤ max (a ^^^ b).toNat.size (b ^^^ c).toNat.size := by
    rw [hxor, UInt8.toNat_xor, Nat.size_le]
    refine Nat.xor_lt_two_pow ?_ ?_
    · exact Nat.size_le.mp (le_max_left _ _)
    · exact Nat.size_le.mp (le_max_right _ _)
  rcases le_max_iff.mp hsize with h | h
  · exact UInt8.le_trans (msbMatrix_le_iff.mpr h) hab
  · exact UInt8.le_trans (msbMatrix_le_iff.mpr h) hbc

theorem and_msbMatrix_ne_zero {m : UInt8} {j : Nat} (hm : m.toNat.size = j + 1) :
    a &&& msbMatrix m ≠ 0 ↔ a.toNat.testBit j = true := by
  have hbit : (msbMatrix m).toNat = 2 ^ j := by
    rw [msbMatrix_toNat, hm, Nat.pow_succ, Nat.mul_div_cancel _ (by decide)]
  rw [Ne, ← UInt8.toNat_inj, UInt8.toNat_and, hbit, Nat.and_two_pow]
  cases a.toNat.testBit j <;> simp

theorem and_msbMatrix_iff {m : UInt8} (h : critical a b < msbMatrix m) :
    a &&& msbMatrix m ≠ 0 ↔ b &&& msbMatrix m ≠ 0 := by
  have hlt : (a ^^^ b).toNat.size < m.toNat.size := by
    by_contra hge
    exact absurd h (UInt8.not_lt.mpr (msbMatrix_le_iff.mpr (Nat.le_of_not_lt hge)))
  obtain ⟨j, hj⟩ : ∃ j, m.toNat.size = j + 1 := ⟨m.toNat.size - 1, by omega⟩
  have hfalse : (a ^^^ b).toNat.testBit j = false :=
    Nat.testBit_lt_two_pow (Nat.size_le.mp (by omega))
  rw [UInt8.toNat_xor, Nat.testBit_xor] at hfalse
  rw [and_msbMatrix_ne_zero hj, and_msbMatrix_ne_zero hj, bne_eq_false_iff_eq.mp hfalse]

theorem and_critical_iff (h : a ≠ b) : a &&& critical a b ≠ 0 ↔ ¬ b &&& critical a b ≠ 0 := by
  have hpos : (a ^^^ b).toNat.size ≠ 0 := by
    intro hzero
    exact h (UInt8.xor_eq_zero_iff.mp (UInt8.toNat_inj.mp (Nat.size_eq_zero.mp hzero)))
  obtain ⟨j, hj⟩ : ∃ j, (a ^^^ b).toNat.size = j + 1 := ⟨_, (Nat.succ_pred_eq_of_ne_zero hpos).symm⟩
  have htrue : (a ^^^ b).toNat.testBit j = true := by
    have hlt : (a ^^^ b).toNat < 2 ^ (j + 1) := Nat.size_le.mp (by omega)
    have hge : 2 ^ j ≤ (a ^^^ b).toNat := Nat.lt_size.mp (by omega)
    exact Nat.testBit_of_two_pow_le_and_two_pow_add_one_gt hge hlt
  rw [UInt8.toNat_xor, Nat.testBit_xor] at htrue
  rw [critical, and_msbMatrix_ne_zero hj, and_msbMatrix_ne_zero hj]
  cases ha : a.toNat.testBit j <;> cases hb : b.toNat.testBit j <;> simp [ha, hb] at htrue ⊢

/-! ## Branches -/

/-- Where an `internal` node branches. -/
structure Branch where
  offset : Nat
  bit : UInt8
  cont : Bool
  deriving DecidableEq, Repr

def criticalBitFrom (offset : Nat) : Bytes → Bytes → Option Branch
  | n :: nkey, k :: key =>
    if k ≠ n then some ⟨offset, msbMatrix (k ^^^ n), false⟩
    else criticalBitFrom (offset + 1) nkey key
  | [], k :: _ => some ⟨offset, msbMatrix k, true⟩
  | n :: _, [] => some ⟨offset, msbMatrix n, true⟩
  | [], [] => none

def criticalBit (nkey key : Bytes) : Option Branch := criticalBitFrom 0 nkey key

/-- The byte at an offset, with zeros after the end of the key. -/
def byteAt (key : Bytes) (offset : Nat) : UInt8 := key.getD offset 0

namespace Branch

/-- `true` is the direction 1. -/
def direction (n : Branch) (key : Bytes) : Bool :=
  n.offset < key.length && (byteAt key n.offset &&& n.bit ≠ 0 || n.cont)

/-- `in.offset > newOffset || (in.offset == newOffset && in.bit < newBit)` -/
def later (b new : Branch) : Bool :=
  b.offset > new.offset || (b.offset = new.offset && b.bit < new.bit)

/-- Two keys agree on all that comes before the branch. -/
structure Shared (b : Branch) (k k' : Bytes) : Prop where
  le : b.offset ≤ k.length
  le' : b.offset ≤ k'.length
  take : k.take b.offset = k'.take b.offset
  above : critical (byteAt k b.offset) (byteAt k' b.offset) ≤ b.bit

variable {b new : Branch} {k k' k'' key : Bytes}

theorem direction_iff : b.direction key = true ↔
    b.offset < key.length ∧ (byteAt key b.offset &&& b.bit ≠ 0 ∨ b.cont = true) := by
  simp [direction]

theorem direction_cont (h : b.cont = true) : b.direction key = decide (b.offset < key.length) := by
  simp [direction, h]

theorem direction_bit (h : b.cont = false) :
    b.direction key = true ↔ byteAt key b.offset &&& b.bit ≠ 0 := by
  rw [direction_iff, h]
  constructor
  · rintro ⟨-, hbit | hcont⟩
    · exact hbit
    · exact absurd hcont Bool.false_ne_true
  · intro hbit
    refine ⟨?_, .inl hbit⟩
    by_contra hge
    have hzero : byteAt key b.offset = 0 := by
      rw [byteAt, List.getD_eq_getElem?_getD, List.getElem?_eq_none (Nat.le_of_not_lt hge)]
      rfl
    rw [hzero, UInt8.zero_and] at hbit
    exact hbit rfl

theorem lt_length_of_direction (h : b.direction key = true) : b.offset < key.length :=
  (direction_iff.mp h).1

theorem Shared.symm (h : b.Shared k k') : b.Shared k' k :=
  ⟨h.le', h.le, h.take.symm, critical_comm _ _ ▸ h.above⟩

theorem Shared.trans (h : b.Shared k k') (h' : b.Shared k' k'') : b.Shared k k'' :=
  ⟨h.le, h'.le', h.take.trans h'.take, critical_le h.above h'.above⟩

theorem Shared.refl (h : b.offset ≤ k.length) : b.Shared k k := by
  refine ⟨h, h, rfl, ?_⟩
  rw [critical_self]
  exact UInt8.zero_le

theorem byteAt_take {offset n : Nat} (h : offset < n) : byteAt (key.take n) offset = byteAt key offset := by
  rw [byteAt, byteAt, List.getD_eq_getElem?_getD, List.getD_eq_getElem?_getD, List.getElem?_take_of_lt h]

theorem Shared.byteAt_eq (h : b.Shared k k') {offset : Nat} (hlt : offset < b.offset) :
    byteAt k offset = byteAt k' offset := by
  rw [← byteAt_take hlt, h.take, byteAt_take hlt]

theorem Shared.mono (h : b.Shared k k')
    (hle : new.offset < b.offset ∨ new.offset = b.offset ∧ b.bit ≤ new.bit) : new.Shared k k' := by
  have hoffset : new.offset ≤ b.offset := by
    rcases hle with hlt | ⟨heq, -⟩
    · exact hlt.le
    · exact heq.le
  refine ⟨hoffset.trans h.le, hoffset.trans h.le', ?_, ?_⟩
  · rw [← Nat.min_eq_left hoffset, ← List.take_take, ← List.take_take, h.take]
  · rcases hle with hlt | ⟨heq, hbit⟩
    · rw [h.byteAt_eq hlt, critical_self]
      exact UInt8.zero_le
    · rw [heq]
      exact UInt8.le_trans h.above hbit

theorem later_iff :
    b.later new = true ↔ new.offset < b.offset ∨ new.offset = b.offset ∧ b.bit < new.bit := by
  simp [later, @eq_comm _ b.offset new.offset]

theorem Shared.of_later (h : b.Shared k k') (hlater : b.later new = true) : new.Shared k k' := by
  refine h.mono ?_
  rcases later_iff.mp hlater with hlt | ⟨heq, hbit⟩
  · exact .inl hlt
  · exact .inr ⟨heq, UInt8.le_of_lt hbit⟩

theorem Shared.of_not_later (h : new.Shared k k') (hlater : ¬ b.later new = true) :
    b.Shared k k' := by
  refine h.mono ?_
  rw [later_iff, not_or, not_and] at hlater
  rcases Nat.lt_or_eq_of_le (Nat.le_of_not_lt hlater.1) with hlt | heq
  · exact .inl hlt
  · exact .inr ⟨heq, UInt8.not_lt.mp (hlater.2 heq.symm)⟩

theorem direction_of_later {m : UInt8} (hm : new.bit = msbMatrix m) (hpos : 0 < new.bit)
    (hcont : new.cont = false) (hlater : b.later new = true) (h : b.Shared k k') :
    new.direction k = new.direction k' := by
  have hlt : critical (byteAt k new.offset) (byteAt k' new.offset) < new.bit := by
    rcases later_iff.mp hlater with hlt | ⟨heq, hbit⟩
    · rw [h.byteAt_eq hlt, critical_self]
      exact hpos
    · rw [heq]
      exact UInt8.lt_of_le_of_lt h.above hbit
  rw [Bool.eq_iff_iff, direction_bit hcont, direction_bit hcont, hm]
  exact and_msbMatrix_iff (hm ▸ hlt)

end Branch

/-- What `criticalBit` finds: the keys differ in a byte, or one is the beginning
of the other. -/
structure Critical (nkey key : Bytes) (new : Branch) : Prop where
  shared : new.Shared nkey key
  bit : new.bit = critical (byteAt key new.offset) (byteAt nkey new.offset)
  cases : new.cont = false ∧ new.offset < nkey.length ∧ new.offset < key.length ∧
      byteAt key new.offset ≠ byteAt nkey new.offset ∨
    new.cont = true ∧ new.offset = nkey.length ∧ nkey.length < key.length ∨
    new.cont = true ∧ new.offset = key.length ∧ key.length < nkey.length

theorem criticalBitFrom_offset (offset : Nat) (nkey key : Bytes) :
    criticalBitFrom offset nkey key =
      (criticalBit nkey key).map fun b => { b with offset := offset + b.offset } := by
  unfold criticalBit
  induction nkey generalizing key offset with
  | nil => cases key <;> rfl
  | cons n nkey ih =>
    cases key with
    | nil => rfl
    | cons k key =>
      unfold criticalBitFrom
      split
      · rfl
      · rw [ih (offset + 1), ih (0 + 1), Option.map_map]
        refine congrArg (Option.map · _) (funext fun b => ?_)
        simp [Nat.add_assoc]

theorem criticalBit_cons_self (k : UInt8) (nkey key : Bytes) :
    criticalBit (k :: nkey) (k :: key) =
      (criticalBit nkey key).map fun b => { b with offset := b.offset + 1 } := by
  rw [criticalBit, criticalBitFrom, if_neg (not_not.mpr rfl), criticalBitFrom_offset]
  simp [Nat.add_comm]

theorem byteAt_cons_succ (k : UInt8) (key : Bytes) (offset : Nat) :
    byteAt (k :: key) (offset + 1) = byteAt key offset := rfl

theorem Critical.cons {new : Branch} (h : Critical nkey key new) (k : UInt8) :
    Critical (k :: nkey) (k :: key) { new with offset := new.offset + 1 } := by
  obtain ⟨⟨hle, hle', htake, habove⟩, hbit, hcases⟩ := h
  refine ⟨⟨?_, ?_, ?_, habove⟩, hbit, ?_⟩
  · exact Nat.succ_le_succ hle
  · exact Nat.succ_le_succ hle'
  · simpa using htake
  · simpa [byteAt_cons_succ] using hcases

theorem critical_criticalBit {new : Branch} (h : criticalBit nkey key = some new) :
    Critical nkey key new := by
  induction nkey generalizing key new with
  | nil =>
    cases key with
    | nil => cases h
    | cons k key =>
      cases h
      refine ⟨⟨le_rfl, Nat.zero_le _, rfl, ?_⟩, ?_, .inr (.inl ⟨rfl, rfl, by simp⟩)⟩
      · change critical 0 k ≤ msbMatrix k
        rw [critical_comm, critical_zero]
        exact UInt8.le_refl _
      · exact (critical_zero k).symm
  | cons n nkey ih =>
    cases key with
    | nil =>
      cases h
      refine ⟨⟨Nat.zero_le _, le_rfl, rfl, ?_⟩, ?_, .inr (.inr ⟨rfl, rfl, by simp⟩)⟩
      · change critical n 0 ≤ msbMatrix n
        rw [critical_zero]
        exact UInt8.le_refl _
      · change msbMatrix n = critical 0 n
        rw [critical_comm, critical_zero]
    | cons k key =>
      by_cases hne : k = n
      · subst hne
        rw [criticalBit_cons_self] at h
        obtain ⟨b, hb, rfl⟩ := Option.map_eq_some_iff.mp h
        exact (ih hb).cons k
      · rw [criticalBit, criticalBitFrom, if_pos hne] at h
        cases h
        refine ⟨⟨Nat.zero_le _, Nat.zero_le _, rfl, ?_⟩, rfl, .inl ⟨rfl, by simp, by simp, hne⟩⟩
        change critical n k ≤ critical k n
        rw [critical_comm]
        exact UInt8.le_refl _

theorem criticalBit_eq_none : criticalBit nkey key = none ↔ nkey = key := by
  induction nkey generalizing key with
  | nil => cases key <;> simp [criticalBit, criticalBitFrom]
  | cons n nkey ih =>
    cases key with
    | nil => simp [criticalBit, criticalBitFrom]
    | cons k key =>
      by_cases hne : k = n
      · subst hne
        rw [criticalBit_cons_self, Option.map_eq_none_iff, ih, List.cons_inj_right]
      · rw [criticalBit, criticalBitFrom, if_pos hne]
        simp [Ne.symm hne]

namespace Critical

variable {nkey key : Bytes} {new : Branch}

theorem direction_ne (h : Critical nkey key new) : new.direction nkey ≠ new.direction key := by
  rcases h.cases with ⟨hcont, -, -, hne⟩ | ⟨hcont, hoffset, hlt⟩ | ⟨hcont, hoffset, hlt⟩
  · have hiff := and_critical_iff hne
    rw [← h.bit, ← Branch.direction_bit hcont, ← Branch.direction_bit hcont] at hiff
    intro heq
    rw [heq] at hiff
    cases hdir : new.direction key <;> simp [hdir] at hiff
  · rw [Branch.direction_cont hcont, Branch.direction_cont hcont, hoffset]
    simp [hlt]
  · rw [Branch.direction_cont hcont, Branch.direction_cont hcont, hoffset]
    simp [hlt]

theorem cont_of_length (h : Critical nkey key new) (hlen : key.length ≤ new.offset) :
    new.cont = true ∧ new.offset = key.length := by
  rcases h.cases with ⟨-, -, hlt, -⟩ | ⟨-, hoffset, hlt⟩ | ⟨hcont, hoffset, -⟩
  · omega
  · omega
  · exact ⟨hcont, hoffset⟩

end Critical

/-! ## Nodes -/

/-- A `node` of which one of the two parts is set. -/
inductive Node (β : Type) where
  | external (key : Bytes) (value : β)
  | internal (branch : Branch) (child0 child1 : Node β)

namespace Node

variable {β : Type}

/-- The `external` node at which `search` ends. -/
def search : Node β → Bytes → Bytes × β
  | external k v, _ => (k, v)
  | internal b l r, key => if b.direction key then r.search key else l.search key

/-- A new node that has the key on one side and `n` on the other. -/
def join (new : Branch) (key : Bytes) (value : β) (n : Node β) : Node β :=
  if new.direction key then internal new n (external key value)
  else internal new (external key value) n

def place (new : Branch) (key : Bytes) (value : β) : Node β → Node β
  | external k v => join new key value (external k v)
  | internal b l r =>
    if b.later new then join new key value (internal b l r)
    else if b.direction key then internal b l (r.place new key value)
    else internal b (l.place new key value) r

def longestPrefix : Node β → Bytes → Option (Bytes × β)
  | external k v, key => if k <+: key then some (k, v) else none
  | internal b l r, key =>
    if b.direction key then (r.longestPrefix key).or (l.longestPrefix key)
    else l.longestPrefix key

def entries : Node β → List (Bytes × β)
  | external k v => [(k, v)]
  | internal _ l r => l.entries ++ r.entries

def keys (n : Node β) : List Bytes := n.entries.map Prod.fst

/-- A key of the given length stands alone before a branch on its end. -/
def Guarded (offset : Nat) : Node β → Prop
  | external k _ => k.length ≠ offset
  | internal b l r => (b.cont = true ∧ b.offset = offset ∨ l.Guarded offset) ∧ r.Guarded offset

/-- What insertions keep. -/
def WellFormed : Node β → Prop
  | external _ _ => True
  | internal b l r =>
    l.WellFormed ∧ r.WellFormed ∧
    (∀ k ∈ l.keys, b.direction k = false) ∧ (∀ k ∈ r.keys, b.direction k = true) ∧
    (∀ k ∈ (internal b l r).keys, ∀ k' ∈ (internal b l r).keys, b.Shared k k') ∧
    (b.cont = false → l.Guarded b.offset)

variable {b new : Branch} {n l r : Node β} {k key : Bytes} {v value : β} {offset : Nat}

theorem keys_internal : (internal b l r).keys = l.keys ++ r.keys := by
  simp [keys, entries]

theorem keys_external : (external k v).keys = [k] := rfl

theorem search_mem (n : Node β) (key : Bytes) : n.search key ∈ n.entries := by
  induction n with
  | external k v => exact List.mem_singleton_self _
  | internal b l r ihl ihr =>
    unfold search
    split
    · exact List.mem_append_right _ ihr
    · exact List.mem_append_left _ ihl

theorem search_mem_keys (n : Node β) (key : Bytes) : (n.search key).1 ∈ n.keys :=
  List.mem_map_of_mem (search_mem n key)

theorem search_of_mem (hn : n.WellFormed) (h : (k, v) ∈ n.entries) : n.search k = (k, v) := by
  induction n with
  | external k' v' => exact (List.mem_singleton.mp h).symm
  | internal b l r ihl ihr =>
    obtain ⟨hl, hr, hdirl, hdirr, -, -⟩ := hn
    unfold search
    rcases List.mem_append.mp h with h | h
    · rw [hdirl k (List.mem_map_of_mem (f := Prod.fst) h)]
      exact ihl hl h
    · rw [hdirr k (List.mem_map_of_mem (f := Prod.fst) h)]
      exact ihr hr h

theorem nodup_keys (hn : n.WellFormed) : n.keys.Nodup := by
  induction n with
  | external k v => exact List.nodup_singleton k
  | internal b l r ihl ihr =>
    obtain ⟨hl, hr, hdirl, hdirr, -, -⟩ := hn
    rw [keys_internal, List.nodup_append']
    refine ⟨ihl hl, ihr hr, fun k hkl hkr => ?_⟩
    exact absurd (hdirr k hkr) (by rw [hdirl k hkl]; decide)

/-! ### Insertion -/

theorem entries_place : (n.place new key value).entries.Perm ((key, value) :: n.entries) := by
  have hjoin (n : Node β) : (join new key value n).entries.Perm ((key, value) :: n.entries) := by
    unfold join
    split
    · exact List.perm_append_comm
    · exact List.Perm.refl _
  induction n with
  | external k v => exact hjoin _
  | internal b l r ihl ihr =>
    unfold place
    split
    · exact hjoin _
    · split
      · exact (ihr.append_left l.entries).trans List.perm_middle
      · exact ihl.append_right r.entries

theorem mem_keys_place : k ∈ (n.place new key value).keys ↔ k = key ∨ k ∈ n.keys := by
  rw [keys, (entries_place.map Prod.fst).mem_iff, List.map_cons, List.mem_cons]
  rfl

theorem guarded_of_length (h : ∀ k ∈ n.keys, k.length ≠ offset) : n.Guarded offset := by
  induction n with
  | external k v => exact h k (List.mem_singleton_self k)
  | internal b l r ihl ihr =>
    rw [keys_internal] at h
    exact ⟨.inr (ihl fun k hk => h k (List.mem_append_left _ hk)),
      ihr fun k hk => h k (List.mem_append_right _ hk)⟩

theorem Guarded.search_length_ne (hn : n.Guarded offset) (hkey : offset < key.length) :
    (n.search key).1.length ≠ offset := by
  induction n with
  | external k v => exact hn
  | internal b l r ihl ihr =>
    unfold search
    split
    · exact ihr hn.2
    · next hdir =>
      refine ihl (hn.1.resolve_left ?_)
      rintro ⟨hcont, rfl⟩
      rw [Branch.direction_cont hcont] at hdir
      exact hdir (decide_eq_true hkey)

theorem WellFormed.guarded (hn : (internal b l r).WellFormed) :
    (internal b l r).Guarded b.offset := by
  obtain ⟨-, -, -, hdirr, -, hguard⟩ := hn
  refine ⟨?_, guarded_of_length fun k hk => (Branch.lt_length_of_direction (hdirr k hk)).ne'⟩
  cases hcont : b.cont with
  | true => exact .inl ⟨rfl, rfl⟩
  | false => exact .inr (hguard hcont)

theorem Guarded.join (hn : n.Guarded offset)
    (hkey : key.length = offset → new.cont = true ∧ new.offset = offset) :
    (join new key value n).Guarded offset := by
  unfold Node.join
  split
  · next hdir =>
    refine ⟨.inr hn, fun hlen => ?_⟩
    have hlt := Branch.lt_length_of_direction hdir
    have hoffset := (hkey hlen).2
    omega
  · refine ⟨?_, hn⟩
    by_cases hlen : key.length = offset
    · exact .inl (hkey hlen)
    · exact .inr hlen

theorem Guarded.place (hn : n.Guarded offset)
    (hkey : key.length = offset → new.cont = true ∧ new.offset = offset) :
    (n.place new key value).Guarded offset := by
  induction n with
  | external k v => exact hn.join hkey
  | internal b l r ihl ihr =>
    unfold Node.place
    split
    · exact hn.join hkey
    · split
      · exact ⟨hn.1, ihr hn.2⟩
      · exact ⟨hn.1.imp_right ihl, hn.2⟩

theorem wellFormed_join (hn : n.WellFormed) (hdir : ∀ k ∈ n.keys, new.direction k ≠ new.direction key)
    (hshared : ∀ k ∈ n.keys, new.Shared key k) (hoffset : new.offset ≤ key.length)
    (hguard : new.cont = false → n.Guarded new.offset)
    (hend : key.length ≤ new.offset → new.cont = true) : (join new key value n).WellFormed := by
  have hall : ∀ k ∈ key :: n.keys, ∀ k' ∈ key :: n.keys, new.Shared k k' := by
    have hhub : ∀ k ∈ key :: n.keys, new.Shared key k := by
      intro k hk
      rcases List.mem_cons.mp hk with rfl | hk
      · exact Branch.Shared.refl hoffset
      · exact hshared k hk
    exact fun k hk k' hk' => (hhub k hk).symm.trans (hhub k' hk')
  unfold join
  split
  · next hkey =>
    have hleft : ∀ k ∈ n.keys, new.direction k = false := by
      intro k hk
      have hne := hdir k hk
      rw [hkey] at hne
      exact Bool.eq_false_iff.mpr hne
    refine ⟨hn, trivial, hleft, ?_, ?_, hguard⟩
    · rw [keys_external]
      exact fun k hk => List.mem_singleton.mp hk ▸ hkey
    · rw [keys_internal, keys_external]
      intro k hk k' hk'
      exact hall k (List.perm_append_comm.mem_iff.mp hk) k' (List.perm_append_comm.mem_iff.mp hk')
  · next hkey =>
    have hkey : new.direction key = false := Bool.eq_false_iff.mpr hkey
    have hright : ∀ k ∈ n.keys, new.direction k = true := by
      intro k hk
      have hne := hdir k hk
      rw [hkey] at hne
      exact Bool.eq_true_of_not_eq_false hne
    refine ⟨trivial, hn, ?_, hright, ?_, ?_⟩
    · rw [keys_external]
      exact fun k hk => List.mem_singleton.mp hk ▸ hkey
    · rw [keys_internal, keys_external]
      exact hall
    · intro hcont hlen
      have htrue := hend hlen.le
      rw [hcont] at htrue
      cases htrue

theorem wellFormed_join_later (hn : (internal b l r).WellFormed)
    (hcrit : Critical ((internal b l r).search key).1 key new) (hlater : b.later new = true)
    (hfresh : key ∉ (internal b l r).keys) : (join new key value (internal b l r)).WellFormed := by
  have hfound := search_mem_keys (internal b l r) key
  have hshared := hn.2.2.2.2.1
  have hoffset : new.offset ≤ b.offset := by
    rcases Branch.later_iff.mp hlater with hlt | ⟨heq, -⟩
    · exact hlt.le
    · exact heq.le
  refine wellFormed_join hn ?_ ?_ hcrit.shared.le' ?_ fun hlen => (hcrit.cont_of_length hlen).1
  · intro k hk
    rcases hcrit.cases with ⟨hcont, -, -, hne⟩ | ⟨-, hend, hlt⟩ | ⟨hcont, hend, -⟩
    · -- all keys of the node go the way of the one that was found
      have hpos : 0 < new.bit := hcrit.bit ▸ zero_lt_critical hne
      rw [Branch.direction_of_later hcrit.bit hpos hcont hlater (hshared k hk _ hfound)]
      exact hcrit.direction_ne
    · -- a key that was found at the end of another one is not below such a node
      have hle := (hshared _ hfound _ hfound).le
      have hkey : b.offset < key.length := by omega
      have hlen := hn.guarded.search_length_ne hkey
      omega
    · -- all keys of the node are longer
      rw [Branch.direction_cont hcont, Branch.direction_cont hcont]
      have hle := hoffset.trans (hshared k hk k hk).le
      have hne : k.length ≠ new.offset := by
        intro hlen
        have hsame := (hcrit.shared.symm.trans ((hshared _ hfound k hk).of_later hlater)).take
        rw [← hlen, List.take_length, hlen, hend, List.take_length] at hsame
        exact hfresh (hsame ▸ hk)
      have hlt : key.length < k.length := by omega
      simp [hend, hlt]
  · intro k hk
    exact hcrit.shared.symm.trans ((hshared _ hfound k hk).of_later hlater)
  · intro hcont
    rcases Nat.lt_or_eq_of_le hoffset with hlt | heq
    · refine guarded_of_length fun k hk => ?_
      have hle := (hshared k hk k hk).le
      omega
    · rw [heq]
      exact hn.guarded

theorem wellFormed_place (hn : n.WellFormed) (hcrit : Critical (n.search key).1 key new)
    (hfresh : key ∉ n.keys) : (n.place new key value).WellFormed := by
  induction n with
  | external k v =>
    refine wellFormed_join trivial ?_ ?_ hcrit.shared.le' ?_ fun hlen => (hcrit.cont_of_length hlen).1
    · intro k' hk'
      obtain rfl := List.mem_singleton.mp hk'
      exact hcrit.direction_ne
    · intro k' hk'
      obtain rfl := List.mem_singleton.mp hk'
      exact hcrit.shared.symm
    · intro hcont hlen
      rcases hcrit.cases with ⟨-, hlt, -⟩ | ⟨htrue, -⟩ | ⟨htrue, -⟩
      · exact absurd hlen hlt.ne'
      · exact absurd (hcont ▸ htrue) Bool.false_ne_true
      · exact absurd (hcont ▸ htrue) Bool.false_ne_true
  | internal b l r ihl ihr =>
    unfold place
    split
    · next hlater => exact wellFormed_join_later hn hcrit hlater hfresh
    · next hlater =>
      have hfound := search_mem_keys (internal b l r) key
      obtain ⟨hl, hr, hdirl, hdirr, hshared, hguard⟩ := hn
      have hhub : ∀ k, k = key ∨ k ∈ (internal b l r).keys →
          b.Shared ((internal b l r).search key).1 k := by
        rintro k (rfl | hk)
        · exact hcrit.shared.of_not_later hlater
        · exact hshared _ hfound k hk
      have hfresh' : key ∉ l.keys ∧ key ∉ r.keys := by
        rwa [keys_internal, List.mem_append, not_or] at hfresh
      split
      · next hdir =>
        rw [search, if_pos hdir] at hcrit
        refine ⟨hl, ihr hr hcrit hfresh'.2, hdirl, ?_, ?_, hguard⟩
        · intro k hk
          rcases mem_keys_place.mp hk with rfl | hk
          · exact hdir
          · exact hdirr k hk
        · have hmem {k : Bytes} (hk : k ∈ (internal b l (r.place new key value)).keys) :
              k = key ∨ k ∈ (internal b l r).keys := by
            rw [keys_internal, List.mem_append, mem_keys_place] at hk
            rw [keys_internal, List.mem_append]
            tauto
          exact fun k hk k' hk' => (hhub k (hmem hk)).symm.trans (hhub k' (hmem hk'))
      · next hdir =>
        have hlen : key.length = b.offset → new.cont = true ∧ new.offset = b.offset := by
          intro hlen
          have hle : b.offset ≤ new.offset := by
            rw [Branch.later_iff, not_or] at hlater
            omega
          rw [← hlen]
          exact hcrit.cont_of_length (hlen ▸ hle)
        rw [search, if_neg hdir] at hcrit
        refine ⟨ihl hl hcrit hfresh'.1, hr, ?_, hdirr, ?_, fun hcont => (hguard hcont).place hlen⟩
        · intro k hk
          rcases mem_keys_place.mp hk with rfl | hk
          · exact Bool.eq_false_iff.mpr hdir
          · exact hdirl k hk
        · have hmem {k : Bytes} (hk : k ∈ (internal b (l.place new key value) r).keys) :
              k = key ∨ k ∈ (internal b l r).keys := by
            rw [keys_internal, List.mem_append, mem_keys_place] at hk
            rw [keys_internal, List.mem_append]
            tauto
          exact fun k hk k' hk' => (hhub k (hmem hk)).symm.trans (hhub k' (hmem hk'))

/-! ### Lookup -/

theorem direction_along (h : k <+: key) (hlt : b.offset < k.length) :
    b.direction k = b.direction key := by
  have hlt' : b.offset < key.length := hlt.trans_le h.length_le
  have hbyte : byteAt k b.offset = byteAt key b.offset := by
    obtain ⟨rest, rfl⟩ := h
    rw [byteAt, byteAt, List.getD_eq_getElem?_getD, List.getD_eq_getElem?_getD,
      List.getElem?_append_left hlt]
  simp [Branch.direction, hbyte, hlt, hlt']

theorem longestPrefix_eq_none (hn : n.WellFormed) (h : n.longestPrefix key = none) :
    ∀ k ∈ n.keys, ¬ k <+: key := by
  induction n with
  | external k v =>
    intro k' hk' hpre
    obtain rfl := List.mem_singleton.mp hk'
    rw [longestPrefix, if_pos hpre] at h
    cases h
  | internal b l r ihl ihr =>
    obtain ⟨hl, hr, -, hdirr, -, -⟩ := hn
    rw [longestPrefix] at h
    intro k hk hpre
    rw [keys_internal, List.mem_append] at hk
    split at h
    · rw [Option.or_eq_none_iff] at h
      rcases hk with hk | hk
      · exact ihl hl h.2 k hk hpre
      · exact ihr hr h.1 k hk hpre
    · next hdir =>
      rcases hk with hk | hk
      · exact ihl hl h k hk hpre
      · have hk := hdirr k hk
        exact hdir (direction_along hpre (Branch.lt_length_of_direction hk) ▸ hk)

theorem longestPrefix_eq_some (hn : n.WellFormed) (h : n.longestPrefix key = some (k, v)) :
    (k, v) ∈ n.entries ∧ k <+: key ∧ ∀ k' ∈ n.keys, k' <+: key → k'.length ≤ k.length := by
  induction n with
  | external k' v' =>
    rw [longestPrefix] at h
    split at h
    · next hpre =>
      cases h
      refine ⟨List.mem_singleton_self _, hpre, fun k' hk' _ => ?_⟩
      obtain rfl := List.mem_singleton.mp hk'
      exact le_rfl
    · cases h
  | internal b l r ihl ihr =>
    obtain ⟨hl, hr, hdirl, hdirr, -, -⟩ := hn
    rw [longestPrefix] at h
    split at h
    · next hdir =>
      rcases Option.or_eq_some_iff.mp h with h | ⟨hnone, h⟩
      · obtain ⟨hmem, hpre, hmax⟩ := ihr hr h
        refine ⟨List.mem_append_right _ hmem, hpre, fun k' hk' hpre' => ?_⟩
        rw [keys_internal, List.mem_append] at hk'
        rcases hk' with hk' | hk'
        · -- a prefix on the left ends before the branch
          have hk := Branch.lt_length_of_direction (hdirr k (List.mem_map_of_mem (f := Prod.fst) hmem))
          by_contra hgt
          have hlt : b.offset < k'.length := by omega
          have hfalse := hdirl k' hk'
          rw [direction_along hpre' hlt, hdir] at hfalse
          cases hfalse
        · exact hmax k' hk' hpre'
      · obtain ⟨hmem, hpre, hmax⟩ := ihl hl h
        refine ⟨List.mem_append_left _ hmem, hpre, fun k' hk' hpre' => ?_⟩
        rw [keys_internal, List.mem_append] at hk'
        rcases hk' with hk' | hk'
        · exact hmax k' hk' hpre'
        · exact absurd hpre' (longestPrefix_eq_none hr hnone k' hk')
    · next hdir =>
      obtain ⟨hmem, hpre, hmax⟩ := ihl hl h
      refine ⟨List.mem_append_left _ hmem, hpre, fun k' hk' hpre' => ?_⟩
      rw [keys_internal, List.mem_append] at hk'
      rcases hk' with hk' | hk'
      · exact hmax k' hk' hpre'
      · have hk' := hdirr k' hk'
        exact absurd (direction_along hpre' (Branch.lt_length_of_direction hk') ▸ hk') hdir

theorem not_mem_keys (hn : n.WellFormed) (h : criticalBit (n.search key).1 key = some new) :
    key ∉ n.keys := by
  intro hmem
  obtain ⟨e, he, rfl⟩ := List.mem_map.mp hmem
  rw [search_of_mem hn he, criticalBit_eq_none.mpr rfl] at h
  cases h

end Node

/-! ## Tries -/

/-- `size` is 0 exactly when the root has neither part. -/
structure Trie (β : Type) where
  root : Option (Node β)
  size : Nat
  size_eq : size = (root.elim [] Node.entries).length
  wellFormed : ∀ n ∈ root, n.WellFormed

namespace Trie

variable {β : Type}

def new : Trie β := ⟨none, 0, rfl, nofun⟩

def entries (t : Trie β) : PrefixMap UInt8 β := t.root.elim [] Node.entries

/-- `Insert`; the result is `false` for a key that is there, which keeps its value. -/
def insert (t : Trie β) (key : Bytes) (value : β) : Trie β × Bool :=
  match hroot : t.root with
  | none => (⟨some (.external key value), 1, rfl, by simp [Node.WellFormed]⟩, true)
  | some n =>
    match hcrit : criticalBit (n.search key).1 key with
    | none => (t, false)
    | some new =>
      have hn : n.WellFormed := t.wellFormed n hroot
      (⟨some (n.place new key value), t.size + 1,
        by simp [t.size_eq, hroot, Node.entries_place.length_eq],
        by simpa using Node.wellFormed_place hn (critical_criticalBit hcrit) (Node.not_mem_keys hn hcrit)⟩,
        true)

def longestPrefix (t : Trie β) (given : Bytes) : Option (Bytes × β) :=
  t.root.bind fun n => n.longestPrefix given

theorem nodup_keys (t : Trie β) : (t.entries.map Prod.fst).Nodup := by
  unfold entries
  cases hroot : t.root with
  | none => exact List.nodup_nil
  | some n => exact Node.nodup_keys (t.wellFormed n hroot)

theorem entries_insert (t : Trie β) (key : Bytes) (value : β) :
    (t.insert key value).1.entries.Perm (t.entries.insert key value) ∧
      (t.insert key value).2 = !t.entries.any fun e => e.1 = key := by
  unfold insert
  split
  · next hroot => simp [entries, hroot, Node.entries, PrefixMap.insert]
  · next n hroot =>
    have hentries : t.entries = n.entries := by simp [entries, hroot]
    split
    · next hcrit =>
      have hany : (t.entries.any fun e => e.1 = key) = true := by
        rw [hentries]
        exact List.any_eq_true.mpr
          ⟨n.search key, Node.search_mem n key, decide_eq_true (criticalBit_eq_none.mp hcrit)⟩
      simp [PrefixMap.insert, hany]
    · next new hcrit =>
      have hany : (t.entries.any fun e => e.1 = key) = false := by
        rw [hentries, List.any_eq_false]
        intro e he hek
        exact Node.not_mem_keys (t.wellFormed n hroot) hcrit
          (of_decide_eq_true hek ▸ List.mem_map_of_mem he)
      refine ⟨?_, by rw [hany]; rfl⟩
      rw [PrefixMap.insert, hany, hentries]
      exact Node.entries_place.trans (List.perm_append_singleton (key, value) n.entries).symm

theorem longestPrefix_entries (t : Trie β) (given : Bytes) :
    t.longestPrefix given = t.entries.longestPrefix given := by
  have hnodup := t.nodup_keys
  unfold longestPrefix entries at *
  cases hroot : t.root with
  | none => rfl
  | some n =>
    have hn := t.wellFormed n hroot
    rw [hroot] at hnodup
    change n.longestPrefix given = PrefixMap.longestPrefix n.entries given
    cases hl : n.longestPrefix given with
    | none =>
      refine (PrefixMap.longestPrefix_eq_none.mpr fun e he => ?_).symm
      exact Node.longestPrefix_eq_none hn hl e.1 (List.mem_map_of_mem he)
    | some e =>
      obtain ⟨hmem, hpre, hmax⟩ := Node.longestPrefix_eq_some (k := e.1) (v := e.2) hn hl
      refine ((PrefixMap.longestPrefix_eq_some_iff hnodup).mpr ⟨hmem, hpre, fun e' he' => ?_⟩).symm
      exact hmax e'.1 (List.mem_map_of_mem he')

/-- The trie after a sequence of insertions. -/
def ofList (l : List (Bytes × β)) : Trie β := l.foldl (fun t e => (t.insert e.1 e.2).1) new

theorem entries_ofList (l : List (Bytes × β)) : (ofList l).entries.Perm (PrefixMap.ofList l) := by
  induction l using List.reverseRecOn with
  | nil => exact List.Perm.refl _
  | append_singleton l e ih =>
    rw [PrefixMap.ofList_snoc, ofList, List.foldl_append]
    exact (entries_insert _ e.1 e.2).1.trans (PrefixMap.perm_insert ih e.1 e.2)

/-- Whatever was inserted, and in whatever order: the trie answers with the
longest inserted key that is a prefix, and with the first value of that key. -/
theorem longestPrefix_inserted (l : List (Bytes × β)) (given : Bytes) :
    (ofList l).longestPrefix given = PrefixMap.longestPrefix l given := by
  rw [longestPrefix_entries, PrefixMap.longestPrefix_perm (entries_ofList l) (nodup_keys _),
    PrefixMap.longestPrefix_ofList]

end Trie

end DnscryptProxy.CritBit
