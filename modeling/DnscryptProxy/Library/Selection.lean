import Mathlib.Data.List.Induction
import Mathlib.Order.Lattice

/-! Loops that pass over a list once and select from it by a key.

* `keepLow` keeps every element whose key is at most that of the last one kept, and the
  elements before it as well. What was kept is minimal throughout exactly when the first
  element with a key is: `first_mem_keepLow` and `key_of_mem_keepLow`.
* `keepLast` keeps one element and gives it up for a later one whose key is not less. It ends
  with the last of the greatest (`keepLast_split`).
* `keepNew` keeps the elements whose keys were not seen before (`foldl_keepNew`).
* `keepShort` keeps the least element, with a marker for nothing kept so far that an element may
  be equal to. It ends with the least of the elements after the last one that is the marker
  (`foldl_keepShort`).
* `UpTo` is what a loop finds that goes on until something has another property. -/

namespace DnscryptProxy.Library

section Low

variable {α β : Type} [LinearOrder β] (key : α → Option β)

/-- What was kept, and the key of the last element of it. -/
def keepLow (kept : List α × β) (a : α) : List α × β :=
  match key a with
  | none => kept
  | some k => if k ≤ kept.2 then (kept.1 ++ [a], k) else kept

variable {key} {l : List α} {kept : List α × β} {a : α} {k top : β}

theorem keepLow_none (h : key a = none) : keepLow key kept a = kept := by
  simp [keepLow, h]

theorem keepLow_of_le (h : key a = some k) (hle : k ≤ kept.2) :
    keepLow key kept a = (kept.1 ++ [a], k) := by
  simp [keepLow, h, hle]

theorem keepLow_of_not_le (h : key a = some k) (hle : ¬ k ≤ kept.2) :
    keepLow key kept a = kept := by
  simp [keepLow, h, hle]

theorem keepLow_cases (key : α → Option β) (kept : List α × β) (a : α) :
    keepLow key kept a = kept ∨
      ∃ k, key a = some k ∧ k ≤ kept.2 ∧ keepLow key kept a = (kept.1 ++ [a], k) := by
  cases hk : key a with
  | none => exact .inl (keepLow_none hk)
  | some k =>
    by_cases hle : k ≤ kept.2
    · exact .inr ⟨k, rfl, hle, keepLow_of_le hk hle⟩
    · exact .inl (keepLow_of_not_le hk hle)

theorem subset_foldl_keepLow (l : List α) (kept : List α × β) :
    kept.1 ⊆ (l.foldl (keepLow key) kept).1 := by
  induction l generalizing kept with
  | nil => exact List.Subset.refl _
  | cons a l ih =>
    rcases keepLow_cases key kept a with h | ⟨k, -, -, h⟩
    · rw [List.foldl_cons, h]
      exact ih kept
    · rw [List.foldl_cons, h]
      exact List.Subset.trans (List.subset_append_left kept.1 [a]) (ih (kept.1 ++ [a], k))

theorem mem_foldl_keepLow (h : a ∈ (l.foldl (keepLow key) kept).1) :
    a ∈ kept.1 ∨ a ∈ l ∧ (key a).isSome := by
  induction l generalizing kept with
  | nil => exact .inl h
  | cons b l ih =>
    rw [List.foldl_cons] at h
    rcases ih h with hmem | ⟨hmem, hkey⟩
    · rcases keepLow_cases key kept b with hsame | ⟨k, hk, -, hadded⟩
      · rw [hsame] at hmem
        exact .inl hmem
      · rw [hadded] at hmem
        rcases List.mem_append.mp hmem with hmem | hmem
        · exact .inl hmem
        · cases List.mem_singleton.mp hmem
          exact .inr ⟨List.mem_cons_self, by simp [hk]⟩
    · exact .inr ⟨List.mem_cons_of_mem _ hmem, hkey⟩

theorem first_mem_keepLow (htop : ∀ b ∈ l, ∀ k, key b = some k → k ≤ top)
    (hfirst : l.find? (fun b => (key b).isSome) = some a) :
    a ∈ (l.foldl (keepLow key) ([], top)).1 := by
  induction l with
  | nil => cases hfirst
  | cons b l ih =>
    cases hk : key b with
    | none =>
      rw [List.foldl_cons, keepLow_none hk]
      rw [List.find?_cons_of_neg (by simp [hk])] at hfirst
      exact ih (fun c hc => htop c (List.mem_cons_of_mem _ hc)) hfirst
    | some k =>
      rw [List.find?_cons_of_pos (by simp [hk])] at hfirst
      cases hfirst
      rw [List.foldl_cons, keepLow_of_le hk (htop a List.mem_cons_self k hk)]
      exact subset_foldl_keepLow l _ (by simp)

theorem key_of_mem_foldl (hkept : kept.2 = k) (hmin : ∀ b ∈ l, ∀ k', key b = some k' → k ≤ k')
    (h : a ∈ (l.foldl (keepLow key) kept).1) : a ∈ kept.1 ∨ key a = some k := by
  induction l generalizing kept with
  | nil => exact .inl h
  | cons b l ih =>
    have hrest : ∀ c ∈ l, ∀ k', key c = some k' → k ≤ k' := fun c hc =>
      hmin c (List.mem_cons_of_mem _ hc)
    rw [List.foldl_cons] at h
    rcases keepLow_cases key kept b with hsame | ⟨k', hk', hle, hadded⟩
    · rw [hsame] at h
      exact ih hkept hrest h
    · have heq : k' = k := le_antisymm (hkept ▸ hle) (hmin b List.mem_cons_self k' hk')
      rw [hadded] at h
      rcases ih heq hrest h with hmem | hkey
      · rcases List.mem_append.mp hmem with hmem | hmem
        · exact .inl hmem
        · cases List.mem_singleton.mp hmem
          exact .inr (heq ▸ hk')
      · exact .inr hkey

theorem key_of_mem_keepLow (htop : ∀ b ∈ l, ∀ k, key b = some k → k ≤ top) {first : α}
    (hfirst : l.find? (fun b => (key b).isSome) = some first) (hk : key first = some k)
    (hmin : ∀ b ∈ l, ∀ k', key b = some k' → k ≤ k')
    (h : a ∈ (l.foldl (keepLow key) ([], top)).1) : key a = some k := by
  induction l with
  | nil => cases hfirst
  | cons b l ih =>
    have hrest : ∀ c ∈ l, ∀ k', key c = some k' → k ≤ k' := fun c hc =>
      hmin c (List.mem_cons_of_mem _ hc)
    rw [List.foldl_cons] at h
    cases hb : key b with
    | none =>
      rw [List.find?_cons_of_neg (by simp [hb])] at hfirst
      rw [keepLow_none hb] at h
      exact ih (fun c hc => htop c (List.mem_cons_of_mem _ hc)) hfirst hrest h
    | some k' =>
      rw [List.find?_cons_of_pos (by simp [hb])] at hfirst
      cases hfirst
      rw [keepLow_of_le hk (htop first List.mem_cons_self k hk)] at h
      rcases key_of_mem_foldl rfl hrest h with hmem | hkey
      · cases List.mem_singleton.mp hmem
        exact hk
      · exact hkey

end Low

section Last

variable {α β : Type} [LinearOrder β] (key : α → β)

def keepLast (best : Option α) (a : α) : Option α :=
  match best with
  | none => some a
  | some b => if key a < key b then some b else some a

variable {key} {l : List α} {a : α}

theorem keepLast_isSome (key : α → β) (best : Option α) (a : α) : (keepLast key best a).isSome := by
  cases best with
  | none => rfl
  | some b => by_cases h : key a < key b <;> simp [keepLast, h]

theorem foldl_keepLast_eq_none : l.foldl (keepLast key) none = none ↔ l = [] := by
  induction l using List.reverseRecOn with
  | nil => simp
  | append_singleton l a =>
    have hsome := keepLast_isSome key (l.foldl (keepLast key) none) a
    rw [List.foldl_append, List.foldl_cons, List.foldl_nil]
    constructor
    · intro hnone
      rw [hnone] at hsome
      cases hsome
    · intro hnil
      exact absurd hnil (by simp)

theorem keepLast_split (h : l.foldl (keepLast key) none = some a) :
    ∃ before after, l = before ++ a :: after ∧ (∀ b ∈ before, key b ≤ key a) ∧
      ∀ b ∈ after, key b < key a := by
  induction l using List.reverseRecOn generalizing a with
  | nil => cases h
  | append_singleton l x ih =>
    rw [List.foldl_append, List.foldl_cons, List.foldl_nil] at h
    cases hl : l.foldl (keepLast key) none with
    | none =>
      rw [hl] at h
      cases h
      rw [foldl_keepLast_eq_none.mp hl]
      exact ⟨[], [], rfl, nofun, nofun⟩
    | some b =>
      rw [hl] at h
      obtain ⟨before, after, rfl, hbefore, hafter⟩ := ih hl
      by_cases hlt : key x < key b
      · simp only [keepLast, hlt, if_true, Option.some.injEq] at h
        subst h
        refine ⟨before, after ++ [x], by simp, hbefore, ?_⟩
        intro c hc
        rcases List.mem_append.mp hc with hc | hc
        · exact hafter c hc
        · rw [List.mem_singleton.mp hc]
          exact hlt
      · simp only [keepLast, hlt, if_false, Option.some.injEq] at h
        subst h
        have hle : key b ≤ key x := not_lt.mp hlt
        refine ⟨before ++ b :: after, [], rfl, ?_, nofun⟩
        intro c hc
        rcases List.mem_append.mp hc with hc | hc
        · exact (hbefore c hc).trans hle
        · rcases List.mem_cons.mp hc with rfl | hc
          · exact hle
          · exact (hafter c hc).le.trans hle

end Last

section New

variable {α β : Type} [DecidableEq β] (key : α → β)

/-- What was kept, and the keys of it. -/
def keepNew (kept : List α × List β) (a : α) : List α × List β :=
  if kept.2.any (· = key a) then kept else (kept.1 ++ [a], key a :: kept.2)

variable {key} {l : List α}

theorem keepNew_of_mem {kept : List α × List β} {a : α} (h : key a ∈ kept.2) :
    keepNew key kept a = kept :=
  if_pos (by simpa using h)

theorem keepNew_of_not_mem {kept : List α × List β} {a : α} (h : key a ∉ kept.2) :
    keepNew key kept a = (kept.1 ++ [a], key a :: kept.2) :=
  if_neg (by simpa using h)

theorem foldl_keepNew_concat (l : List α) (a : α) (kept : List α × List β) :
    (l ++ [a]).foldl (keepNew key) kept = keepNew key (l.foldl (keepNew key) kept) a := by
  rw [List.foldl_append, List.foldl_cons, List.foldl_nil]

theorem mem_foldl_keepNew (b : β) :
    b ∈ (l.foldl (keepNew key) ([], [])).2 ↔ ∃ a ∈ l, key a = b := by
  induction l using List.reverseRecOn generalizing b with
  | nil => simp
  | append_singleton l a ih =>
    rw [foldl_keepNew_concat]
    by_cases hseen : key a ∈ (l.foldl (keepNew key) ([], [])).2
    · obtain ⟨a', ha', hkey⟩ := (ih (key a)).mp hseen
      rw [keepNew_of_mem hseen, ih]
      constructor
      · rintro ⟨c, hc, rfl⟩
        exact ⟨c, List.mem_append_left _ hc, rfl⟩
      · rintro ⟨c, hc, rfl⟩
        rcases List.mem_append.mp hc with hc | hc
        · exact ⟨c, hc, rfl⟩
        · rw [List.mem_singleton.mp hc]
          exact ⟨a', ha', hkey⟩
    · rw [keepNew_of_not_mem hseen, List.mem_cons, ih]
      simp [or_and_right, exists_or, or_comm, eq_comm]

theorem mem_of_mem_foldl_keepNew {a : α} (h : a ∈ (l.foldl (keepNew key) ([], [])).1) : a ∈ l := by
  induction l using List.reverseRecOn with
  | nil => cases h
  | append_singleton l b ih =>
    rw [foldl_keepNew_concat] at h
    by_cases hseen : key b ∈ (l.foldl (keepNew key) ([], [])).2
    · rw [keepNew_of_mem hseen] at h
      exact List.mem_append_left _ (ih h)
    · rw [keepNew_of_not_mem hseen] at h
      rcases List.mem_append.mp h with h | h
      · exact List.mem_append_left _ (ih h)
      · exact List.mem_append_right _ h

variable [DecidableEq α]

theorem eraseDups_concat (l : List α) (a : α) :
    (l ++ [a]).eraseDups = if a ∈ l then l.eraseDups else l.eraseDups ++ [a] := by
  have hone : [a].eraseDups = [a] := by
    rw [List.eraseDups_cons]
    rfl
  rw [List.eraseDups_append]
  by_cases h : a ∈ l <;> simp [List.removeAll, h, hone]

theorem foldl_keepNew (hinj : ∀ a ∈ l, ∀ b ∈ l, key a = key b → a = b) :
    (l.foldl (keepNew key) ([], [])).1 = l.eraseDups := by
  induction l using List.reverseRecOn with
  | nil => rfl
  | append_singleton l a ih =>
    have ih := ih fun b hb c hc => hinj b (List.mem_append_left _ hb) c (List.mem_append_left _ hc)
    have hseen : key a ∈ (l.foldl (keepNew key) ([], [])).2 ↔ a ∈ l := by
      rw [mem_foldl_keepNew]
      constructor
      · rintro ⟨b, hb, hkey⟩
        rw [← hinj b (List.mem_append_left _ hb) a (by simp) hkey]
        exact hb
      · exact fun ha => ⟨a, ha, rfl⟩
    rw [foldl_keepNew_concat, eraseDups_concat]
    by_cases ha : a ∈ l
    · rw [keepNew_of_mem (hseen.mpr ha), if_pos ha, ih]
    · rw [keepNew_of_not_mem (mt hseen.mp ha), if_neg ha, ih]

end New

section Short

variable {β : Type} [LinearOrder β] (marker : β)

def keepShort (kept b : β) : β := if kept = marker ∨ b < kept then b else kept

def afterLast (l : List β) : List β := (l.reverse.takeWhile (· ≠ marker)).reverse

variable {marker} {l : List β}

theorem afterLast_concat (l : List β) (b : β) :
    afterLast marker (l ++ [b]) = if b = marker then [] else afterLast marker l ++ [b] := by
  unfold afterLast
  rw [List.reverse_append, List.reverse_singleton, List.singleton_append, List.takeWhile_cons]
  by_cases h : b = marker <;> simp [h]

theorem foldl_keepShort (hge : ∀ b ∈ l, marker ≤ b) :
    (afterLast marker l = [] ∧ l.foldl (keepShort marker) marker = marker) ∨
      (l.foldl (keepShort marker) marker ∈ afterLast marker l ∧
        marker < l.foldl (keepShort marker) marker ∧
        ∀ b ∈ afterLast marker l, l.foldl (keepShort marker) marker ≤ b) := by
  induction l using List.reverseRecOn with
  | nil => exact .inl ⟨rfl, rfl⟩
  | append_singleton l b ih =>
    have ih := ih fun c hc => hge c (List.mem_append_left _ hc)
    have hb : marker ≤ b := hge b (by simp)
    rw [List.foldl_append, List.foldl_cons, List.foldl_nil, afterLast_concat]
    rcases hb.eq_or_lt with rfl | hlt
    · -- the marker comes again
      rw [if_pos rfl]
      refine .inl ⟨rfl, ?_⟩
      unfold keepShort
      rcases ih with ⟨-, h⟩ | ⟨-, h, -⟩
      · rw [if_pos (.inl h)]
      · rw [if_pos (.inr h)]
    · rw [if_neg hlt.ne']
      refine .inr ?_
      unfold keepShort
      rcases ih with ⟨hnil, h⟩ | ⟨hmem, hpos, hmin⟩
      · rw [hnil, if_pos (.inl h)]
        exact ⟨List.mem_singleton_self b, hlt, fun c hc => (List.mem_singleton.mp hc).ge⟩
      · split
        · next hless =>
          have hless := hless.resolve_left hpos.ne'
          refine ⟨by simp, hlt, fun c hc => ?_⟩
          rcases List.mem_append.mp hc with hc | hc
          · exact hless.le.trans (hmin c hc)
          · exact (List.mem_singleton.mp hc).ge
        · next hnot =>
          have hle := not_lt.mp (not_or.mp hnot).2
          refine ⟨List.mem_append_left _ hmem, hpos, fun c hc => ?_⟩
          rcases List.mem_append.mp hc with hc | hc
          · exact hmin c hc
          · rw [List.mem_singleton.mp hc]
            exact hle

end Short

section UpTo

variable {α β : Type} (P Q : α → Prop)

/-- The elements have the property `P` up to one that has the property `Q`. -/
def UpTo : List α → Prop
  | [] => False
  | a :: l => Q a ∨ (P a ∧ UpTo l)

variable {P Q}

theorem upTo_map {f : β → α} {l : List β} :
    UpTo P Q (l.map f) ↔ UpTo (fun b => P (f b)) (fun b => Q (f b)) l := by
  induction l with
  | nil => rfl
  | cons b l ih => exact or_congr_right (and_congr_right fun _ => ih)

end UpTo

end DnscryptProxy.Library
