import Mathlib.Data.List.Nodup

/-! Lists of entries that are looked up by a key.

* `replaceFirst` and `upsert` put an entry in the place of the first one with its key;
  both leave the keys as they are, up to one that is added at the end.
* A list is seen from outside as the partial function `lookup`; `lookup_foldl` says what
  becomes of it when entries are put into it one after another, key by key. -/

namespace DnscryptProxy.Library

section Keys

variable {α κ : Type} {key : α → κ} {e : α} {l : List α}

/-- The key of an entry determines it. -/
def Consistent (key : α → κ) (l : List α) : Prop := ∀ x ∈ l, ∀ y ∈ l, key x = key y → x = y

theorem Consistent.of_nodup (h : (l.map key).Nodup) : Consistent key l := by
  intro x hx y hy hk
  exact List.inj_on_of_nodup_map h hx hy hk

theorem nodup_append_new (hn : (l.map key).Nodup) (hne : ∀ x ∈ l, key x ≠ key e) :
    ((l ++ [e]).map key).Nodup := by
  rw [List.map_append, List.nodup_append]
  refine ⟨hn, List.nodup_singleton _, ?_⟩
  intro k hk k' hk'
  obtain ⟨x, hx, rfl⟩ := List.mem_map.mp hk
  rw [List.map_singleton, List.mem_singleton] at hk'
  rw [hk']
  exact hne x hx

end Keys

section KeyedList

variable {α κ : Type} [DecidableEq κ] (key : α → κ)

/-- The first entry with the given key. -/
def lookup (k : κ) (l : List α) : Option α := l.find? fun x => key x = k

/-- `e` in the place of the first entry with its key, if there is one. -/
def replaceFirst (e : α) : List α → Option (List α)
  | [] => none
  | x :: l => if key x = key e then some (e :: l) else (replaceFirst e l).map (x :: ·)

def upsert (e : α) (l : List α) : List α := (replaceFirst key e l).getD (l ++ [e])

variable {key} {e x : α} {l l' : List α} {k : κ}

theorem replaceFirst_eq_none : replaceFirst key e l = none ↔ ∀ x ∈ l, key x ≠ key e := by
  induction l with
  | nil => simp [replaceFirst]
  | cons x l ih =>
    by_cases h : key x = key e
    · simp [replaceFirst, h]
    · simp [replaceFirst, h, ih]

theorem replaceFirst_keys (h : replaceFirst key e l = some l') : l'.map key = l.map key := by
  induction l generalizing l' with
  | nil => simp [replaceFirst] at h
  | cons x l ih =>
    by_cases hx : key x = key e
    · simp only [replaceFirst, if_pos hx, Option.some.injEq] at h
      rw [← h, List.map_cons, List.map_cons, hx]
    · simp only [replaceFirst, if_neg hx, Option.map_eq_some_iff] at h
      obtain ⟨l₁, h₁, rfl⟩ := h
      rw [List.map_cons, List.map_cons, ih h₁]

theorem replaceFirst_mem (h : replaceFirst key e l = some l') (hx : x ∈ l') : x = e ∨ x ∈ l := by
  induction l generalizing l' with
  | nil => simp [replaceFirst] at h
  | cons y l ih =>
    by_cases hy : key y = key e
    · simp only [replaceFirst, if_pos hy, Option.some.injEq] at h
      subst h
      exact (List.mem_cons.mp hx).imp_right (List.mem_cons_of_mem _)
    · simp only [replaceFirst, if_neg hy, Option.map_eq_some_iff] at h
      obtain ⟨l₁, h₁, rfl⟩ := h
      rcases List.mem_cons.mp hx with rfl | hx
      · exact .inr List.mem_cons_self
      · exact (ih h₁ hx).imp_right (List.mem_cons_of_mem _)

theorem upsert_nodup (hn : (l.map key).Nodup) : ((upsert key e l).map key).Nodup := by
  unfold upsert
  cases h : replaceFirst key e l with
  | some l' =>
    rw [Option.getD_some, replaceFirst_keys h]
    exact hn
  | none => exact nodup_append_new hn (replaceFirst_eq_none.mp h)

/-! ## Lookups -/

theorem lookup_eq_none : lookup key k l = none ↔ ∀ x ∈ l, key x ≠ k := by
  simp [lookup]

theorem lookup_key (h : lookup key k l = some x) : key x = k := by
  have := List.find?_some h
  simpa using this

theorem lookup_mem (h : lookup key k l = some x) : x ∈ l := List.mem_of_find?_eq_some h

theorem Consistent.lookup_iff (h : Consistent key l) : lookup key (key x) l = some x ↔ x ∈ l := by
  constructor
  · exact lookup_mem
  · intro hx
    cases hl : lookup key (key x) l with
    | none => exact absurd rfl (lookup_eq_none.mp hl x hx)
    | some y => rw [h y (lookup_mem hl) x hx (lookup_key hl)]

theorem Consistent.foldl_some (h : Consistent key l) (found : Option α) :
    (l.filter fun e => key e = k).foldl (fun _ e => some e) found = (lookup key k l).or found := by
  rcases List.eq_nil_or_concat (l.filter fun e => key e = k) with hnil | ⟨before, last, hlast⟩
  · have hnone : lookup key k l = none := by
      rw [lookup_eq_none]
      intro x hx hk
      have : x ∈ l.filter fun e => key e = k := List.mem_filter.mpr ⟨hx, by simpa using hk⟩
      rw [hnil] at this
      cases this
    rw [hnil, hnone]
    rfl
  · have hmem : last ∈ l.filter fun e => key e = k := by
      rw [hlast]
      simp
    obtain ⟨hin, hk⟩ := List.mem_filter.mp hmem
    have hfound : lookup key k l = some last := by
      rw [← of_decide_eq_true hk]
      exact h.lookup_iff.mpr hin
    rw [hlast, hfound, List.concat_eq_append, List.foldl_append]
    rfl

theorem lookup_append_singleton :
    lookup key k (l ++ [e]) = (lookup key k l).or (if key e = k then some e else none) := by
  unfold lookup
  rw [List.find?_append]
  congr 1
  by_cases h : key e = k
  · simp [h]
  · simp [h]

theorem lookup_replaceFirst (h : replaceFirst key e l = some l') :
    lookup key k l' = if key e = k then some e else lookup key k l := by
  induction l generalizing l' with
  | nil => simp [replaceFirst] at h
  | cons x l ih =>
    by_cases hx : key x = key e
    · simp only [replaceFirst, if_pos hx, Option.some.injEq] at h
      subst h
      by_cases hk : key e = k
      · simp [lookup, hk]
      · simp [lookup, hx, hk]
    · simp only [replaceFirst, if_neg hx, Option.map_eq_some_iff] at h
      obtain ⟨l₁, h₁, rfl⟩ := h
      have ih := ih h₁
      by_cases hk : key x = k
      · have hek : key e ≠ k := fun h => hx (hk.trans h.symm)
        simp [lookup, hk, hek]
      · simp only [lookup, List.find?_cons, hk, decide_false] at ih ⊢
        exact ih

theorem lookup_upsert :
    lookup key k (upsert key e l) = if key e = k then some e else lookup key k l := by
  unfold upsert
  cases h : replaceFirst key e l with
  | some l' => exact lookup_replaceFirst h
  | none =>
    rw [Option.getD_none, lookup_append_singleton]
    by_cases hk : key e = k
    · have hnone : lookup key k l = none := by
        rw [← hk]
        exact lookup_eq_none.mpr (replaceFirst_eq_none.mp h)
      rw [hnone, if_pos hk, Option.none_or]
    · rw [if_neg hk, Option.or_none, if_neg hk]

end KeyedList

theorem lookup_foldl {α κ β : Type} (look : β → κ → Option α) {put : β → α → β}
    {concerns : α → κ → Bool} (merge : α → Option α → α)
    (hput : ∀ b e k, look (put b e) k =
      if concerns e k then some (merge e (look b k)) else look b k)
    (l : List α) (b : β) (k : κ) : look (l.foldl put b) k =
      (l.filter (concerns · k)).foldl (fun found e => some (merge e found)) (look b k) := by
  induction l generalizing b with
  | nil => rfl
  | cons e l ih =>
    rw [List.foldl_cons, ih, hput]
    by_cases h : concerns e k = true
    · simp [h]
    · simp [h]

end DnscryptProxy.Library
