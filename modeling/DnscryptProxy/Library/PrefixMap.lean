import Mathlib.Data.List.MinMax
import Mathlib.Data.List.Infix
import Mathlib.Data.List.Nodup

/-! Maps keyed by lists, asked for the longest stored key that is a prefix of
the argument. The map is the list of its entries in insertion order; a key that
is already stored keeps its first value. `longestPrefix_ofList` says what such a
map answers in terms of everything that was ever inserted. -/

namespace DnscryptProxy.Library

abbrev PrefixMap (α β : Type) := List (List α × β)

theorem exists_longest {α : Type} {P : List α → Prop} {l : List (List α)} {w : List α} (hw : w ∈ l)
    (hP : P w) : ∃ v ∈ l, P v ∧ ∀ u ∈ l, P u → u.length ≤ v.length := by
  classical
  cases hargmax : (l.filter fun v => P v).argmax List.length with
  | none =>
    rw [List.argmax_eq_none, List.filter_eq_nil_iff] at hargmax
    exact absurd hP (by simpa using hargmax w hw)
  | some v =>
    obtain ⟨hmem, hv⟩ := List.mem_filter.mp (List.argmax_mem hargmax)
    refine ⟨v, hmem, by simpa using hv, fun u hu hPu => ?_⟩
    exact List.le_of_mem_argmax (List.mem_filter.mpr ⟨hu, by simpa using hPu⟩) hargmax

namespace PrefixMap

variable {α β : Type} [DecidableEq α]

/-- Insertion does not replace: a stored key keeps its value. -/
def insert (k : List α) (v : β) (t : PrefixMap α β) : PrefixMap α β :=
  if t.any (fun e => e.1 = k) then t else t ++ [(k, v)]

/-- The stored key that is the longest prefix of `key`, with its value. -/
def longestPrefix (t : PrefixMap α β) (key : List α) : Option (List α × β) :=
  (t.filter fun e => e.1 <+: key).argmax fun e => e.1.length

/-- The map obtained by inserting the entries of a list in order. -/
def ofList (l : List (List α × β)) : PrefixMap α β :=
  l.foldl (fun t e => t.insert e.1 e.2) []

theorem ofList_snoc (l : List (List α × β)) (e : List α × β) :
    ofList (l ++ [e]) = (ofList l).insert e.1 e.2 := by
  simp [ofList]

variable {t : PrefixMap α β} {key k : List α} {v : β}

theorem longestPrefix_eq_some (h : t.longestPrefix key = some (k, v)) :
    (k, v) ∈ t ∧ k <+: key ∧ ∀ e ∈ t, e.1 <+: key → e.1.length ≤ k.length := by
  have hm := List.mem_filter.mp (List.argmax_mem (f := fun e : List α × β => e.1.length) h)
  refine ⟨hm.1, by simpa using hm.2, fun e he hp => ?_⟩
  exact List.le_of_mem_argmax (f := fun e : List α × β => e.1.length)
    (List.mem_filter.mpr ⟨he, by simpa using hp⟩) h

theorem longestPrefix_eq_none : t.longestPrefix key = none ↔ ∀ e ∈ t, ¬ e.1 <+: key := by
  simp [longestPrefix, List.argmax_eq_none, List.filter_eq_nil_iff]

theorem longestPrefix_append (t : PrefixMap α β) (k key : List α) (v : β) :
    longestPrefix (t ++ [(k, v)]) key =
      if k <+: key then
        match t.longestPrefix key with
        | none => some (k, v)
        | some c => if c.1.length < k.length then some (k, v) else some c
      else t.longestPrefix key := by
  unfold longestPrefix
  by_cases h : k <+: key
  · simp only [List.filter_append, List.filter_cons, h, decide_true, List.filter_nil,
      ↓reduceIte, List.argmax_concat]
    cases (t.filter fun e => e.1 <+: key).argmax fun e => e.1.length <;> rfl
  · simp [List.filter_append, h]

theorem longestPrefix_cons (v : β) (hk : k <+: key)
    (hmax : ∀ e ∈ t, e.1 <+: key → e.1.length ≤ k.length) :
    longestPrefix ((k, v) :: t) key = some (k, v) := by
  have hcons : longestPrefix ((k, v) :: t) key =
      List.argmax (fun e : List α × β => e.1.length) ((k, v) :: t.filter fun e => e.1 <+: key) := by
    simp [longestPrefix, hk]
  rw [hcons, List.argmax_cons]
  cases hl : (t.filter fun e => e.1 <+: key).argmax fun e => e.1.length with
  | none => rfl
  | some c =>
    have hc := longestPrefix_eq_some (k := c.1) (v := c.2) hl
    exact if_neg (Nat.not_lt.mpr (hmax c hc.1 hc.2.1))

theorem longestPrefix_insert (t : PrefixMap α β) (k key : List α) (v : β) :
    (t.insert k v).longestPrefix key = longestPrefix (t ++ [(k, v)]) key := by
  unfold insert
  split
  · next hk =>
    obtain ⟨e, he, hek⟩ := List.any_eq_true.mp hk
    have hek : e.1 = k := of_decide_eq_true hek
    rw [longestPrefix_append]
    split
    · next hp =>
      cases hl : t.longestPrefix key with
      | none => exact absurd (hek ▸ hp) (longestPrefix_eq_none.mp hl e he)
      | some c =>
        have hmax := (longestPrefix_eq_some (k := c.1) (v := c.2) hl).2.2 e he (hek ▸ hp)
        rw [hek] at hmax
        simp [Nat.not_lt.mpr hmax]
    · rfl
  · rfl

theorem find_of_longestPrefix (h : t.longestPrefix key = some (k, v)) :
    (t.find? fun e => e.1 = k) = some (k, v) := by
  induction t using List.reverseRecOn generalizing k v with
  | nil => cases h
  | append_singleton t e ih =>
    obtain ⟨k', v'⟩ := e
    rw [longestPrefix_append] at h
    -- an entry that is longer than all before it has a key of its own
    have hnew (hnone : ∀ e ∈ t, e.1 ≠ k') :
        ((t ++ [(k', v')]).find? fun e => e.1 = k') = some (k', v') := by
      have hfind : (t.find? fun e => e.1 = k') = none := by simpa using hnone
      rw [List.find?_append, hfind]
      simp
    split at h
    · next hpre =>
      cases hl : longestPrefix t key with
      | none =>
        rw [hl] at h
        cases h
        exact hnew fun e he heq => longestPrefix_eq_none.mp hl e he (heq ▸ hpre)
      | some c =>
        rw [hl] at h
        dsimp only at h
        split at h
        · next hlt =>
          cases h
          refine hnew fun e he heq => ?_
          have hle := (longestPrefix_eq_some hl).2.2 e he (heq ▸ hpre)
          rw [heq] at hle
          omega
        · cases h
          rw [List.find?_append, ih hl]
          rfl
    · rw [List.find?_append, ih h]
      rfl

theorem longestPrefix_ofList (l : List (List α × β)) (key : List α) :
    (ofList l).longestPrefix key = longestPrefix l key := by
  induction l using List.reverseRecOn with
  | nil => rfl
  | append_singleton l e ih =>
    rw [ofList_snoc, longestPrefix_insert, longestPrefix_append, longestPrefix_append, ih]

/-! ### Lists of entries with duplicates, where the first entry for a key counts -/

theorem mem_of_lookup (h : t.lookup k = some v) : (k, v) ∈ t := by
  obtain ⟨before, after, rfl, -⟩ := List.lookup_eq_some_iff.mp h
  exact List.mem_append_right _ List.mem_cons_self

theorem lookup_of_longestPrefix (h : t.longestPrefix key = some (k, v)) : t.lookup k = some v := by
  obtain ⟨-, before, after, rfl, hother⟩ :=
    List.find?_eq_some_iff_append.mp (find_of_longestPrefix h)
  refine List.lookup_eq_some_iff.mpr ⟨before, after, rfl, fun e he => ?_⟩
  have hne : e.1 ≠ k := by simpa using hother e he
  simpa using hne.symm

theorem longestPrefix_iff_lookup :
    t.longestPrefix key = some (k, v) ↔ t.lookup k = some v ∧ k <+: key ∧
      ∀ k' v', t.lookup k' = some v' → k' <+: key → k'.length ≤ k.length := by
  constructor
  · intro h
    obtain ⟨-, hpre, hmax⟩ := longestPrefix_eq_some h
    exact ⟨lookup_of_longestPrefix h, hpre, fun k' v' hk' => hmax _ (mem_of_lookup hk')⟩
  · rintro ⟨hk, hpre, hmax⟩
    cases hl : t.longestPrefix key with
    | none => exact absurd hpre (longestPrefix_eq_none.mp hl _ (mem_of_lookup hk))
    | some e =>
      obtain ⟨k', v'⟩ := e
      obtain ⟨-, hpre', hmax'⟩ := longestPrefix_eq_some hl
      have hk' := lookup_of_longestPrefix hl
      have hlen : k'.length = k.length :=
        le_antisymm (hmax k' v' hk' hpre') (hmax' _ (mem_of_lookup hk) hpre)
      obtain rfl : k' = k := (List.prefix_of_prefix_length_le hpre' hpre hlen.le).eq_of_length hlen
      rw [Option.some.inj (hk'.symm.trans hk)]

theorem longestPrefix_unit_iff {keys : List (List α)} :
    longestPrefix (keys.map fun k => (k, ())) key = some (k, ()) ↔
      k ∈ keys ∧ k <+: key ∧ ∀ k' ∈ keys, k' <+: key → k'.length ≤ k.length := by
  have hlookup (k : List α) : (keys.map fun k => (k, ())).lookup k = some () ↔ k ∈ keys := by
    induction keys with
    | nil => simp
    | cons k' keys ih =>
      rw [List.map_cons, List.lookup_cons, List.mem_cons]
      by_cases hk : k = k'
      · simp [hk]
      · have hbeq : (k == k') = false := by simpa using hk
        simp [hk, hbeq, ih]
  rw [longestPrefix_iff_lookup, hlookup]
  refine and_congr_right fun _ => and_congr_right fun _ => ⟨fun h k' hk' => ?_, fun h k' _ hk' => ?_⟩
  · exact h k' () ((hlookup k').mpr hk')
  · exact h k' ((hlookup k').mp hk')

/-! ### Maps with the same entries -/

theorem perm_insert {t' : PrefixMap α β} (h : t.Perm t') (k : List α) (v : β) :
    (t.insert k v).Perm (t'.insert k v) := by
  unfold insert
  rw [h.any_eq]
  split
  · exact h
  · exact h.append_right [(k, v)]

theorem longestPrefix_eq_some_iff (ht : (t.map Prod.fst).Nodup) :
    t.longestPrefix key = some (k, v) ↔
      (k, v) ∈ t ∧ k <+: key ∧ ∀ e ∈ t, e.1 <+: key → e.1.length ≤ k.length := by
  refine ⟨longestPrefix_eq_some, fun ⟨hmem, hpre, hmax⟩ => ?_⟩
  cases hl : t.longestPrefix key with
  | none => exact absurd hpre (longestPrefix_eq_none.mp hl _ hmem)
  | some e =>
    obtain ⟨hmem', hpre', hmax'⟩ := longestPrefix_eq_some (k := e.1) (v := e.2) hl
    have hlen : e.1.length = k.length := le_antisymm (hmax e hmem' hpre') (hmax' _ hmem hpre)
    have hkey : e.1 = k := (List.prefix_of_prefix_length_le hpre' hpre hlen.le).eq_of_length hlen
    have heq : e = (k, v) := List.inj_on_of_nodup_map ht hmem' hmem hkey
    rw [heq]

theorem longestPrefix_perm {t' : PrefixMap α β} (h : t.Perm t') (ht : (t.map Prod.fst).Nodup)
    (key : List α) : t.longestPrefix key = t'.longestPrefix key := by
  have ht' : (t'.map Prod.fst).Nodup := (h.map Prod.fst).nodup_iff.mp ht
  refine Option.ext fun e => ?_
  have hiff : t.longestPrefix key = some e ↔ _ :=
    longestPrefix_eq_some_iff (k := e.1) (v := e.2) ht
  have hiff' : t'.longestPrefix key = some e ↔ _ :=
    longestPrefix_eq_some_iff (k := e.1) (v := e.2) ht'
  simp only [h.mem_iff] at hiff
  exact hiff.trans hiff'.symm

/-! ### Maps whose keys are written in a code -/

section Coded

variable {γ : Type} [DecidableEq γ] {code : List α → List γ}

def mapKeys (code : List α → List γ) (t : PrefixMap α β) : PrefixMap γ β :=
  t.map fun e => (code e.1, e.2)

theorem mapKeys_insert (hcode : Function.Injective code) (t : PrefixMap α β) (k : List α) (v : β) :
    mapKeys code (t.insert k v) = (mapKeys code t).insert (code k) v := by
  have hany : ((mapKeys code t).any fun e => e.1 = code k) = t.any fun e => e.1 = k := by
    simp [mapKeys, List.any_map, Function.comp_def, hcode.eq_iff]
  unfold insert
  rw [hany]
  split
  · rfl
  · simp [mapKeys]

theorem longestPrefix_mapKeys (hcode : ∀ k key, code k <+: code key ↔ k <+: key)
    {t : PrefixMap α β} (ht : (t.map Prod.fst).Nodup) (key : List α) :
    (mapKeys code t).longestPrefix (code key) =
      (t.longestPrefix key).map fun e => (code e.1, e.2) := by
  have hinj : Function.Injective code := by
    intro k k' heq
    have hpre : k <+: k' := (hcode k k').mp (heq ▸ List.prefix_rfl)
    exact hpre.eq_of_length_le ((hcode k' k).mp (heq ▸ List.prefix_rfl)).length_le
  have ht' : ((mapKeys code t).map Prod.fst).Nodup := by
    rw [mapKeys, List.map_map]
    have hmap := ht.map hinj
    rwa [List.map_map] at hmap
  cases hl : t.longestPrefix key with
  | none =>
    refine longestPrefix_eq_none.mpr fun e he => ?_
    obtain ⟨e', he', rfl⟩ := List.mem_map.mp he
    rw [hcode]
    exact longestPrefix_eq_none.mp hl e' he'
  | some e =>
    obtain ⟨hmem, hpre, hmax⟩ := longestPrefix_eq_some (k := e.1) (v := e.2) hl
    refine (longestPrefix_eq_some_iff ht').mpr ⟨List.mem_map_of_mem hmem, (hcode _ _).mpr hpre, ?_⟩
    intro c hc hpre'
    obtain ⟨e', he', rfl⟩ := List.mem_map.mp hc
    have hpre' := (hcode _ _).mp hpre'
    have hle := hmax e' he' hpre'
    exact ((hcode _ _).mpr (List.prefix_of_prefix_length_le hpre' hpre hle)).length_le

end Coded

end PrefixMap

end DnscryptProxy.Library
