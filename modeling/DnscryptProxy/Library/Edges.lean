import Mathlib.Data.List.Nodup
import Mathlib.Data.List.Infix
import Mathlib.Tactic.Common

/-! Lists of labelled values in the order of their labels, which are searched by
bisection. `get_eq_some_iff` says what such a list is: the set of its entries,
with one entry for a label. -/

namespace DnscryptProxy.Library

/-! ## Bisection -/

def bisectFrom (f : Nat → Bool) : Nat → Nat → Nat → Nat
  | 0, i, _ => i
  | fuel + 1, i, j =>
    if i < j then
      if f ((i + j) / 2) then bisectFrom f fuel i ((i + j) / 2)
      else bisectFrom f fuel ((i + j) / 2 + 1) j
    else i

def bisect (n : Nat) (f : Nat → Bool) : Nat := bisectFrom f n 0 n

theorem bisectFrom_spec {f : Nat → Bool} (hmono : ∀ {a b}, a ≤ b → f a = true → f b = true)
    {fuel i j : Nat} (hij : i ≤ j) (hfuel : j - i ≤ fuel) :
    bisectFrom f fuel i j ≤ j ∧ (∀ k, i ≤ k → k < bisectFrom f fuel i j → f k = false) ∧
      ∀ k, bisectFrom f fuel i j ≤ k → k < j → f k = true := by
  induction fuel generalizing i j with
  | zero =>
    have hsame : i = j := by omega
    subst hsame
    refine ⟨Nat.le_refl _, ?_, ?_⟩
    · intro k hk hlt
      simp [bisectFrom] at hlt
      omega
    · intro k hk hlt
      simp [bisectFrom] at hk
      omega
  | succ fuel ih =>
    by_cases hlt : i < j
    · by_cases hmid : f ((i + j) / 2) = true
      · obtain ⟨hle, hbelow, habove⟩ := ih (i := i) (j := (i + j) / 2) (by omega) (by omega)
        simp only [bisectFrom, hlt, hmid, if_true]
        refine ⟨by omega, hbelow, fun k hk hkj => ?_⟩
        by_cases hkm : k < (i + j) / 2
        · exact habove k hk hkm
        · exact hmono (by omega) hmid
      · obtain ⟨hle, hbelow, habove⟩ := ih (i := (i + j) / 2 + 1) (j := j) (by omega) (by omega)
        simp only [bisectFrom, hlt, hmid, if_true, Bool.false_eq_true, if_false]
        refine ⟨hle, fun k hk hkr => ?_, habove⟩
        by_cases hkm : (i + j) / 2 < k
        · exact hbelow k (by omega) hkr
        · refine Bool.eq_false_iff.mpr fun hf => hmid (hmono (by omega) hf)
    · simp only [bisectFrom, hlt, if_false]
      refine ⟨hij, ?_, ?_⟩ <;> intro k _ _ <;> omega

/-! ## Labelled values -/

namespace Edges

variable {α β : Type} [LT α] [LE α] [DecidableLE α] [DecidableEq α] {l : List (α × β)} {a : α}
  {b b' : β} {e : α × β} {i : Nat}

def Increasing (l : List (α × β)) : Prop := l.Pairwise fun e e' => e.1 < e'.1

/-- The place of the first label that is not below `a`. -/
def index (l : List (α × β)) (a : α) : Nat :=
  bisect l.length fun i => l[i]?.all fun e => a ≤ e.1

def get (l : List (α × β)) (a : α) : Option (Nat × β) :=
  (l[index l a]?).bind fun e => if e.1 = a then some (index l a, e.2) else none

def add (l : List (α × β)) (e : α × β) : List (α × β) :=
  l.take (index l e.1) ++ e :: l.drop (index l e.1)

/-- There has to be a value with the label. -/
def replace (l : List (α × β)) (e : α × β) : Option (List (α × β)) :=
  (get l e.1).map fun found => l.set found.1 e

omit [LT α] in
theorem getElem?_of_get (h : get l a = some (i, b)) : l[i]? = some (a, b) := by
  simp only [get, Option.bind_eq_some_iff] at h
  obtain ⟨e, he, hfound⟩ := h
  split at hfound
  · next hlabel =>
    cases hfound
    rw [he, ← hlabel]
  · cases hfound

omit [LT α] [DecidableEq α] in
theorem mem_add {e' : α × β} : e' ∈ add l e ↔ e' = e ∨ e' ∈ l := by
  have hmem : e' ∈ l ↔ e' ∈ l.take (index l e.1) ∨ e' ∈ l.drop (index l e.1) := by
    rw [← List.mem_append, List.take_append_drop]
  simp only [add, List.mem_append, List.mem_cons, hmem]
  exact or_left_comm

omit [LT α] [LE α] [DecidableLE α] [DecidableEq α] in
theorem split_of_getElem? (hi : l[i]? = some (a, b)) :
    ∃ before after, l = before ++ (a, b) :: after ∧
      ∀ e, l.set i e = before ++ e :: after := by
  obtain ⟨hlen, hval⟩ := List.getElem?_eq_some_iff.mp hi
  refine ⟨l.take i, l.drop (i + 1), ?_, fun e => ?_⟩
  · rw [← hval, ← List.drop_eq_getElem_cons hlen, List.take_append_drop]
  · rw [List.set_eq_take_append_cons_drop, if_pos hlen]

omit [LE α] [DecidableLE α] [DecidableEq α] in
theorem increasing_set (h : Increasing l) (hi : l[i]? = some (a, b)) :
    Increasing (l.set i (a, b')) := by
  obtain ⟨before, after, rfl, hset⟩ := split_of_getElem? hi
  rw [hset]
  unfold Increasing at h ⊢
  simp only [List.pairwise_append, List.pairwise_cons, List.mem_cons, forall_eq_or_imp] at h ⊢
  exact h

section Order

variable [Std.IsLinearOrder α] [Std.LawfulOrderLT α]

/-! ### Finding -/

omit [DecidableEq α] in
theorem index_spec (h : Increasing l) (a : α) : ∀ i e, l[i]? = some e → (i < index l a ↔ e.1 < a) := by
  have hmono {i j : Nat} (hij : i ≤ j) (hi : (l[i]?.all fun e => a ≤ e.1) = true) :
      (l[j]?.all fun e => a ≤ e.1) = true := by
    rcases Nat.lt_or_eq_of_le hij with hij | rfl
    · cases hj : l[j]? with
      | none => rfl
      | some e' =>
        obtain ⟨hjlen, rfl⟩ := List.getElem?_eq_some_iff.mp hj
        have hless := List.pairwise_iff_getElem.mp h i j (by omega) hjlen hij
        rw [List.getElem?_eq_getElem (by omega)] at hi
        simp only [Option.all_some, decide_eq_true_eq] at hi ⊢
        exact Std.le_of_lt (Std.lt_of_le_of_lt hi hless)
    · exact hi
  obtain ⟨-, hbelow, habove⟩ := bisectFrom_spec hmono (Nat.zero_le l.length) (Nat.le_refl _)
  refine fun i e he => ⟨fun hi => ?_, fun hea => ?_⟩
  · have hfalse := hbelow i (Nat.zero_le i) hi
    rw [he] at hfalse
    simpa [Std.not_le] using hfalse
  · by_contra hi
    obtain ⟨hlen, -⟩ := List.getElem?_eq_some_iff.mp he
    have htrue := habove i (Nat.le_of_not_lt hi) hlen
    rw [he] at htrue
    simp only [Option.all_some, decide_eq_true_eq] at htrue
    exact absurd hea (Std.not_lt.mpr htrue)

omit [DecidableEq α] in
theorem lt_of_mem_take (h : Increasing l) (he : e ∈ l.take (index l a)) : e.1 < a := by
  obtain ⟨i, hi⟩ := List.mem_iff_getElem?.mp he
  rw [List.getElem?_take] at hi
  split at hi
  · next hlt => exact (index_spec h a i e hi).mp hlt
  · cases hi

omit [DecidableEq α] in
theorem le_of_mem_drop (h : Increasing l) (he : e ∈ l.drop (index l a)) : a ≤ e.1 := by
  obtain ⟨i, hi⟩ := List.mem_iff_getElem?.mp he
  rw [List.getElem?_drop] at hi
  refine Std.not_lt.mp fun hlt => ?_
  have hindex := (index_spec h a _ e hi).mpr hlt
  omega

omit [DecidableLE α] [DecidableEq α] [Std.IsLinearOrder α] in
theorem eq_of_label (h : Increasing l) (hb : (a, b) ∈ l) (hb' : (a, b') ∈ l) : b = b' := by
  have hlabels : (l.map Prod.fst).Nodup := List.pairwise_map.mpr (h.imp Std.ne_of_lt)
  exact (Prod.mk.inj (List.inj_on_of_nodup_map hlabels hb hb' rfl)).2

theorem get_eq_some_iff (h : Increasing l) : (∃ i, get l a = some (i, b)) ↔ (a, b) ∈ l := by
  constructor
  · rintro ⟨i, hget⟩
    exact List.mem_of_getElem? (getElem?_of_get hget)
  · intro hmem
    have hdrop : (a, b) ∈ l.drop (index l a) := by
      rw [← List.take_append_drop (index l a) l, List.mem_append] at hmem
      exact hmem.resolve_left fun htake => Std.lt_irrefl (lt_of_mem_take h htake)
    have hrest : Increasing (l.drop (index l a)) := h.sublist (List.drop_sublist _ _)
    have hleast := fun e => le_of_mem_drop (e := e) (a := a) h
    refine ⟨index l a, ?_⟩
    rw [get, ← List.head?_drop]
    -- the entry stands first: what stands before it would be below it, but nothing is
    cases htail : l.drop (index l a) with
    | nil => simp [htail] at hdrop
    | cons first rest =>
      rw [htail] at hdrop hrest hleast
      rcases List.mem_cons.mp hdrop with hfirst | hlater
      · simp [← hfirst]
      · have hlt := (List.pairwise_cons.mp hrest).1 _ hlater
        exact absurd (hleast first List.mem_cons_self) (Std.not_le.mpr hlt)

theorem get_eq_none_iff (h : Increasing l) : get l a = none ↔ ∀ b, (a, b) ∉ l := by
  constructor
  · intro hnone b hmem
    obtain ⟨i, hget⟩ := (get_eq_some_iff h).mpr hmem
    rw [hnone] at hget
    cases hget
  · intro hno
    cases hget : get l a with
    | none => rfl
    | some found => exact absurd ((get_eq_some_iff h).mp ⟨found.1, hget⟩) (hno found.2)

/-! ### Changing -/

omit [DecidableEq α] in
theorem increasing_add (h : Increasing l) (hnew : ∀ b, (e.1, b) ∉ l) : Increasing (add l e) := by
  have hparts : Increasing (l.take (index l e.1) ++ l.drop (index l e.1)) := by
    rwa [List.take_append_drop]
  obtain ⟨hbefore, hafter, hacross⟩ := List.pairwise_append.mp hparts
  refine List.pairwise_append.mpr ⟨hbefore, List.pairwise_cons.mpr ⟨fun e' he' => ?_, hafter⟩, ?_⟩
  · refine Std.lt_of_le_of_ne (le_of_mem_drop h he') fun hsame => hnew e'.2 ?_
    rw [hsame]
    exact List.mem_of_mem_drop he'
  · intro e' he' e'' he''
    rcases List.mem_cons.mp he'' with rfl | hlater
    · exact lt_of_mem_take h he'
    · exact hacross e' he' e'' hlater

omit [DecidableLE α] [Std.IsLinearOrder α] in
theorem mem_set (h : Increasing l) (hi : l[i]? = some (a, b)) {e : α × β} :
    e ∈ l.set i (a, b') ↔ e = (a, b') ∨ e.1 ≠ a ∧ e ∈ l := by
  obtain ⟨before, after, rfl, hset⟩ := split_of_getElem? hi
  rw [hset]
  unfold Increasing at h
  simp only [List.pairwise_append, List.pairwise_cons, List.mem_cons, forall_eq_or_imp] at h
  obtain ⟨-, ⟨hafter, -⟩, hbefore⟩ := h
  have hother : e ∈ before ∨ e ∈ after → e.1 ≠ a := by
    rintro (he | he)
    · exact Std.ne_of_lt (hbefore e he).1
    · exact (Std.ne_of_lt (hafter e he)).symm
  have hsame : e = (a, b) → e.1 = a := fun he => he ▸ rfl
  simp only [List.mem_append, List.mem_cons]
  tauto

theorem replace_eq_some (h : Increasing l) (hmem : (a, b) ∈ l) :
    ∃ i, l[i]? = some (a, b) ∧ replace l (a, b') = some (l.set i (a, b')) := by
  obtain ⟨i, hget⟩ := (get_eq_some_iff h).mpr hmem
  exact ⟨i, getElem?_of_get hget, by simp [replace, hget]⟩

end Order

end Edges

end DnscryptProxy.Library
