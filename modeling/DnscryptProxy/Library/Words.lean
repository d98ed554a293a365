import Mathlib.Data.List.Basic
import Mathlib.Data.Nat.Digits.Defs

/-! Texts that are made of words: numerals, words that are joined by a separator, and two joined
texts with a gap between them. Each of them can be read in one way only.

* `toDigits_injective`: a numeral.
* `intercalate_inj`: words with a separator between them.
* `gapped_inj`: two lists of words with a double separator in the middle, where either of the
  lists may be empty.
* `flatMap_inj`: code words none of which begins another.
* `flatMap_decode`: code words for which there is a reader.
* `lastIndex_append`: where the last separator stands. -/

namespace DnscryptProxy.Library

/-! ## Numerals -/

theorem digitChar_inj {d e : Nat} (hd : d < 16) (he : e < 16)
    (h : Nat.digitChar d = Nat.digitChar e) : d = e := by
  have hall : ∀ d e : Fin 16, Nat.digitChar d = Nat.digitChar e → d = e := by decide
  exact congrArg Fin.val (hall ⟨d, hd⟩ ⟨e, he⟩ h)

section Numerals

variable {b n m : Nat} {c : Char}

theorem mem_toDigits (hb : 1 < b) (h : c ∈ Nat.toDigits b n) : ∃ d < b, c = Nat.digitChar d := by
  induction n using Nat.strong_induction_on with
  | _ n ih =>
    rw [Nat.toDigits_eq_if hb] at h
    split at h
    · next hlt => exact ⟨n, hlt, List.mem_singleton.mp h⟩
    · next hge =>
      rcases List.mem_append.mp h with h | h
      · exact ih (n / b) (Nat.div_lt_self (by omega) hb) h
      · exact ⟨n % b, Nat.mod_lt n (by omega), List.mem_singleton.mp h⟩

theorem not_mem_toDigits (hb : 1 < b) (hb' : b ≤ 16) (hc : ∀ d : Fin 16, c ≠ Nat.digitChar d) :
    c ∉ Nat.toDigits b n := by
  intro h
  obtain ⟨d, hd, heq⟩ := mem_toDigits hb h
  exact hc ⟨d, by omega⟩ heq

theorem toDigits_injective (hb : 1 < b) (hb' : b ≤ 16) : Function.Injective (Nat.toDigits b) := by
  intro n m h
  induction n using Nat.strong_induction_on generalizing m with
  | _ n ih =>
    have hn := Nat.toDigits_eq_if (n := n) hb
    have hm := Nat.toDigits_eq_if (n := m) hb
    rw [hn, hm] at h
    by_cases hnb : n < b <;> by_cases hmb : m < b
    · rw [if_pos hnb, if_pos hmb] at h
      exact digitChar_inj (by omega) (by omega) (List.singleton_inj.mp h)
    · -- a single digit and more than one
      rw [if_pos hnb, if_neg hmb, List.singleton_eq_append_iff] at h
      simp [Nat.toDigits_ne_nil] at h
    · rw [if_neg hnb, if_pos hmb, List.append_eq_singleton_iff] at h
      simp [Nat.toDigits_ne_nil] at h
    · rw [if_neg hnb, if_neg hmb] at h
      obtain ⟨hdiv, hmod⟩ := List.append_inj' h rfl
      have hdiv := ih (n / b) (Nat.div_lt_self (by omega) hb) hdiv
      have hmod := digitChar_inj ((Nat.mod_lt n (by omega)).trans_le hb')
        ((Nat.mod_lt m (by omega)).trans_le hb') (List.singleton_inj.mp hmod)
      rw [← Nat.div_add_mod n b, hdiv, hmod, Nat.div_add_mod]

end Numerals

/-! ## Words -/

theorem drop_length_takeWhile {α : Type} (p : α → Bool) (l : List α) :
    l.drop (l.takeWhile p).length = l.dropWhile p := by
  have h := List.takeWhile_append_dropWhile (p := p) (l := l)
  calc l.drop (l.takeWhile p).length
      = (l.takeWhile p ++ l.dropWhile p).drop (l.takeWhile p).length := by rw [h]
    _ = l.dropWhile p := List.drop_left' rfl

section Words

variable {α : Type} {sep : α} {ls ms : List (List α)}

/-- Words can be told apart: none is empty, and none has the separator in it. -/
def Words (sep : α) (ls : List (List α)) : Prop := ∀ w ∈ ls, w ≠ [] ∧ sep ∉ w

theorem intercalate_append (hl : ls ≠ []) (hm : ms ≠ []) :
    [sep].intercalate (ls ++ ms) = [sep].intercalate ls ++ sep :: [sep].intercalate ms := by
  induction ls with
  | nil => exact absurd rfl hl
  | cons w ls ih =>
    cases ls with
    | nil =>
      cases ms with
      | nil => exact absurd rfl hm
      | cons v ms => simp [List.intercalate]
    | cons v ls =>
      have ih := ih (List.cons_ne_nil v ls)
      simp only [List.intercalate, List.cons_append, List.intersperse_cons_cons, List.flatten_cons] at ih ⊢
      simp [ih]

theorem mem_intercalate {c : α} (h : c ∈ [sep].intercalate ls) : c = sep ∨ ∃ w ∈ ls, c ∈ w := by
  induction ls with
  | nil => cases h
  | cons w ls ih =>
    cases ls with
    | nil =>
      have hw : c ∈ w := by simpa [List.intercalate] using h
      exact .inr ⟨w, List.mem_cons_self, hw⟩
    | cons v ls =>
      have hjoin := @intercalate_append α sep [w] (v :: ls) (List.cons_ne_nil _ _) (List.cons_ne_nil _ _)
      rw [List.singleton_append] at hjoin
      rw [hjoin, List.mem_append, List.mem_cons] at h
      rcases h with h | rfl | h
      · have hw : c ∈ w := by simpa [List.intercalate] using h
        exact .inr ⟨w, List.mem_cons_self, hw⟩
      · exact .inl rfl
      · rcases ih h with rfl | ⟨u, hu, hc⟩
        · exact .inl rfl
        · exact .inr ⟨u, List.mem_cons_of_mem _ hu, hc⟩

theorem sep_mem_intercalate (h : 2 ≤ ls.length) : sep ∈ [sep].intercalate ls := by
  obtain _ | ⟨w, _ | ⟨v, ls⟩⟩ := ls
  · simp at h
  · simp at h
  · simp [List.intercalate]

/-- A list of words as it is read back: nothing between separators is an empty word. -/
def read (ls : List (List α)) : List (List α) := if ls = [] then [[]] else ls

theorem read_ne_nil : read ls ≠ [] := by
  unfold read
  split
  · exact List.cons_ne_nil _ _
  · assumption

theorem intercalate_read : [sep].intercalate (read ls) = [sep].intercalate ls := by
  unfold read
  split
  · next h =>
    rw [h]
    rfl
  · rfl

theorem Words.not_mem_read (h : Words sep ls) : ∀ w ∈ read ls, sep ∉ w := by
  intro w hw
  unfold read at hw
  split at hw
  · rw [List.mem_singleton.mp hw]
    exact List.not_mem_nil
  · exact (h w hw).2

theorem Words.takeWhile_read (h : Words sep ls) (ms : List (List α)) :
    (read ls ++ [] :: ms).takeWhile (· ≠ []) = ls := by
  unfold read
  split
  · next hnil =>
    rw [hnil]
    rfl
  · rw [List.takeWhile_append_of_pos fun w hw => decide_eq_true (h w hw).1]
    simp

theorem read_inj (hl : Words sep ls) (hm : Words sep ms) (h : read ls = read ms) : ls = ms := by
  rw [← hl.takeWhile_read [], ← hm.takeWhile_read [], h]

variable [DecidableEq α] {l rest : List α}

theorem splitOn_of_not_mem (h : sep ∉ l) : l.splitOn sep = [l] := by
  rw [List.splitOn_eq_splitOnP]
  refine List.splitOnP_eq_singleton fun c hc => ?_
  exact beq_false_of_ne fun heq : c = sep => h (heq ▸ hc)

theorem splitOn_append_sep (h : sep ∉ l) (rest : List α) :
    (l ++ sep :: rest).splitOn sep = l :: rest.splitOn sep := by
  rw [List.splitOn_eq_splitOnP, List.splitOn_eq_splitOnP]
  refine List.splitOnP_append_cons_of_forall_mem (p := (· == sep)) (fun c hc => ?_) sep
    (beq_self_eq_true sep) rest
  exact beq_false_of_ne fun heq : c = sep => h (heq ▸ hc)

theorem takeWhile_append_sep (h : sep ∉ l) (rest : List α) :
    (l ++ sep :: rest).takeWhile (· ≠ sep) = l := by
  have hne : ∀ c ∈ l, decide (c ≠ sep) = true := by
    intro c hc
    rw [decide_eq_true_eq]
    rintro rfl
    exact h hc
  rw [List.takeWhile_append_of_pos hne]
  simp

theorem takeWhile_reverse_append (h : sep ∉ rest) (l : List α) :
    (l ++ sep :: rest).reverse.takeWhile (· ≠ sep) = rest.reverse := by
  have hrest : sep ∉ rest.reverse := fun hmem => h (List.mem_reverse.mp hmem)
  rw [List.reverse_append, List.reverse_cons, List.append_assoc]
  exact takeWhile_append_sep hrest l.reverse

/-- Where the last separator stands. -/
def lastIndex (sep : α) (l : List α) : Option Nat :=
  (l.reverse.findIdx? (· = sep)).map fun i => l.length - 1 - i

theorem lastIndex_eq_none (h : sep ∉ l) : lastIndex sep l = none := by
  unfold lastIndex
  rw [Option.map_eq_none_iff, List.findIdx?_eq_none_iff]
  intro c hc
  exact decide_eq_false fun heq => h (heq ▸ List.mem_reverse.mp hc)

theorem lastIndex_append (h : sep ∉ rest) (l : List α) :
    lastIndex sep (l ++ sep :: rest) = some l.length := by
  have hnone : rest.reverse.findIdx? (· = sep) = none := by
    rw [List.findIdx?_eq_none_iff]
    intro c hc
    exact decide_eq_false fun heq => h (heq ▸ List.mem_reverse.mp hc)
  unfold lastIndex
  rw [List.reverse_append, List.reverse_cons, List.append_assoc, List.findIdx?_append, hnone]
  simp [List.findIdx?_cons]

theorem lastIndex_lt {i : Nat} (h : lastIndex sep l = some i) : i < l.length := by
  obtain ⟨j, hj, rfl⟩ := Option.map_eq_some_iff.mp h
  have hlt := (List.findIdx?_eq_some_iff_getElem.mp hj).1
  rw [List.length_reverse] at hlt
  omega

theorem lastIndex_append_of_not_mem (h : sep ∉ rest) (l : List α) :
    lastIndex sep (l ++ rest) = lastIndex sep l := by
  have hnone : rest.reverse.findIdx? (· = sep) = none := by
    rw [List.findIdx?_eq_none_iff]
    intro c hc
    exact decide_eq_false fun heq => h (heq ▸ List.mem_reverse.mp hc)
  unfold lastIndex
  rw [List.reverse_append, List.findIdx?_append, hnone, Option.none_or, Option.map_map]
  refine congrArg (Option.map · _) (funext fun i => ?_)
  simp only [Function.comp_apply, List.length_append, List.length_reverse]
  omega

theorem splitOn_intercalate_read (h : Words sep ls) :
    ([sep].intercalate ls).splitOn sep = read ls := by
  rw [← intercalate_read, List.splitOn_intercalate sep h.not_mem_read read_ne_nil]

theorem intercalate_inj (hl : Words sep ls) (hm : Words sep ms)
    (h : [sep].intercalate ls = [sep].intercalate ms) : ls = ms := by
  refine read_inj hl hm ?_
  rw [← splitOn_intercalate_read hl, ← splitOn_intercalate_read hm, h]

end Words

/-! ## Two lists of words -/

section Gapped

variable {α : Type} {sep : α} {left right left' right' : List (List α)}

/-- The words of the two lists with a double separator between the lists. -/
def gapped (sep : α) (left right : List (List α)) : List α :=
  [sep].intercalate left ++ sep :: sep :: [sep].intercalate right

theorem mem_gapped {c : α} (h : c ∈ gapped sep left right) :
    c = sep ∨ ∃ w ∈ left ++ right, c ∈ w := by
  unfold gapped at h
  simp only [List.mem_append, List.mem_cons] at h ⊢
  rcases h with h | rfl | rfl | h
  · rcases mem_intercalate h with rfl | ⟨w, hw, hc⟩
    · exact .inl rfl
    · exact .inr ⟨w, .inl hw, hc⟩
  · exact .inl rfl
  · exact .inl rfl
  · rcases mem_intercalate h with rfl | ⟨w, hw, hc⟩
    · exact .inl rfl
    · exact .inr ⟨w, .inr hw, hc⟩

variable [DecidableEq α]

theorem splitOn_gapped (hl : Words sep left) (hr : Words sep right) :
    (gapped sep left right).splitOn sep = read left ++ [] :: read right := by
  have hjoin : gapped sep left right = [sep].intercalate (read left ++ [] :: read right) := by
    have hcons : [sep].intercalate ([] :: read right) = sep :: [sep].intercalate (read right) :=
      @intercalate_append α sep [[]] _ (List.cons_ne_nil _ _) read_ne_nil
    rw [intercalate_append read_ne_nil (List.cons_ne_nil _ _), hcons, intercalate_read,
      intercalate_read]
    rfl
  rw [hjoin]
  refine List.splitOn_intercalate sep ?_ (List.append_ne_nil_of_left_ne_nil read_ne_nil _)
  intro w hw
  rcases List.mem_append.mp hw with hw | hw
  · exact hl.not_mem_read w hw
  · rcases List.mem_cons.mp hw with rfl | hw
    · exact List.not_mem_nil
    · exact hr.not_mem_read w hw

theorem gapped_inj (hl : Words sep left) (hr : Words sep right) (hl' : Words sep left')
    (hr' : Words sep right') (h : gapped sep left right = gapped sep left' right') :
    left = left' ∧ right = right' := by
  have hsplit := congrArg (List.splitOn sep) h
  rw [splitOn_gapped hl hr, splitOn_gapped hl' hr'] at hsplit
  have hleft : left = left' := by
    rw [← hl.takeWhile_read (read right), ← hl'.takeWhile_read (read right'), hsplit]
  subst hleft
  exact ⟨rfl, read_inj hr hr' (List.cons.inj (List.append_cancel_left hsplit)).2⟩

theorem gapped_ne_intercalate (hl : Words sep left) (hr : Words sep right) {words : List (List α)}
    (hw : Words sep words) (hne : words ≠ []) : gapped sep left right ≠ [sep].intercalate words := by
  intro h
  have hsplit := congrArg (List.splitOn sep) h
  have hread : read words = words := if_neg hne
  rw [splitOn_gapped hl hr, splitOn_intercalate_read hw, hread] at hsplit
  have hempty : [] ∈ words := by
    rw [← hsplit]
    exact List.mem_append_right _ List.mem_cons_self
  exact (hw [] hempty).1 rfl

end Gapped

/-! ## Code words -/

section Codes

variable {α β : Type} {f : α → List β}

theorem flatMap_inj (hne : ∀ a, f a ≠ []) (hfree : ∀ a b, f a <+: f b → a = b) {l m : List α}
    (h : l.flatMap f = m.flatMap f) : l = m := by
  induction l generalizing m with
  | nil =>
    cases m with
    | nil => rfl
    | cons b m => simp [hne] at h
  | cons a l ih =>
    cases m with
    | nil => simp [hne] at h
    | cons b m =>
      rw [List.flatMap_cons, List.flatMap_cons] at h
      obtain rfl : a = b := by
        rcases List.prefix_or_prefix_of_prefix (h ▸ List.prefix_append (f a) _)
          (List.prefix_append (f b) _) with hab | hba
        · exact hfree a b hab
        · exact (hfree b a hba).symm
      rw [ih (List.append_cancel_left h)]

theorem flatMap_decode {decode : List β → List α} (hnil : decode [] = [])
    (hword : ∀ a rest, decode (f a ++ rest) = a :: decode rest) (l : List α) :
    decode (l.flatMap f) = l := by
  induction l with
  | nil => exact hnil
  | cons a l ih => rw [List.flatMap_cons, hword, ih]

theorem take_drop_flatMap {k : Nat} (hlength : ∀ a, (f a).length = k) {l : List α} {i : Nat} {a : α}
    (h : l[i]? = some a) : ((l.flatMap f).drop (i * k)).take k = f a := by
  induction l generalizing i with
  | nil => simp at h
  | cons b l ih =>
    rw [List.flatMap_cons]
    cases i with
    | zero =>
      obtain rfl : b = a := by simpa using h
      rw [Nat.zero_mul, List.drop_zero, List.take_left' (hlength b)]
    | succ i =>
      rw [Nat.succ_mul, Nat.add_comm, ← List.drop_drop, List.drop_left' (hlength b)]
      exact ih (by simpa using h)

theorem eq_of_prefix_sep {sep : β} {w v : List β} (hw : sep ∉ w) (hv : sep ∉ v)
    (h : w ++ [sep] <+: v ++ [sep]) : w = v := by
  induction w generalizing v with
  | nil =>
    cases v with
    | nil => rfl
    | cons c v =>
      obtain ⟨rfl, -⟩ := List.cons_prefix_cons.mp h
      exact absurd List.mem_cons_self hv
  | cons c w ih =>
    cases v with
    | nil =>
      obtain ⟨rfl, -⟩ := List.cons_prefix_cons.mp h
      exact absurd List.mem_cons_self hw
    | cons d v =>
      obtain ⟨rfl, hrest⟩ := List.cons_prefix_cons.mp h
      rw [ih (mt (List.mem_cons_of_mem _) hw) (mt (List.mem_cons_of_mem _) hv) hrest]

end Codes

end DnscryptProxy.Library
