import Mathlib.Data.List.DropRight
import DnscryptProxy.Cloaking
import DnscryptProxy.Library.Words

/-! Comments at the end of a rule. A comment begins with a `#` that stands first in its line or
after a blank, and the rule is the text before it, without the space around it. `TrimAndStripInlineComments`
looks at the last `#` of the line only. `stripped_iff` says for which lines it finds the rule. -/

namespace DnscryptProxy

open Library

/-! ## White space -/

section Trimming

variable {left right : Text}

theorem trimSpace_eq (str : Text) : trimSpace str = (str.dropWhile isSpace).rdropWhile isSpace := rfl

theorem trimSpace_split (str : Text) :
    ∃ left right, str = left ++ trimSpace str ++ right ∧ left.all isSpace ∧ right.all isSpace := by
  refine ⟨str.takeWhile isSpace, (str.dropWhile isSpace).rtakeWhile isSpace, ?_, ?_, ?_⟩
  · rw [trimSpace_eq, List.append_assoc, List.rdropWhile_append_rtakeWhile,
      List.takeWhile_append_dropWhile]
  · exact List.all_takeWhile
  · rw [List.all_eq_true]
    exact fun c hc => List.mem_rtakeWhile_imp hc

theorem trimSpace_cons {c : Char} (hc : isSpace c) (str : Text) :
    trimSpace (c :: str) = trimSpace str := by
  rw [trimSpace_eq, List.dropWhile_cons_of_pos hc, trimSpace_eq]

theorem trimSpace_concat {c : Char} (hc : isSpace c) (str : Text) :
    trimSpace (str ++ [c]) = trimSpace str := by
  rw [trimSpace_eq, trimSpace_eq, List.dropWhile_append]
  split
  · next h =>
    rw [List.isEmpty_iff.mp h]
    simp [hc]
  · exact List.rdropWhile_concat_pos _ _ _ hc

theorem trimSpace_append_left (hleft : left.all isSpace) (str : Text) :
    trimSpace (left ++ str) = trimSpace str := by
  induction left with
  | nil => rfl
  | cons c left ih =>
    simp only [List.all_cons, Bool.and_eq_true] at hleft
    rw [List.cons_append, trimSpace_cons hleft.1, ih hleft.2]

theorem trimSpace_append_right (hright : right.all isSpace) (str : Text) :
    trimSpace (str ++ right) = trimSpace str := by
  induction right using List.reverseRecOn with
  | nil => rw [List.append_nil]
  | append_singleton right c ih =>
    simp only [List.all_append, List.all_cons, List.all_nil, Bool.and_true,
      Bool.and_eq_true] at hright
    rw [← List.append_assoc, trimSpace_concat hright.2, ih hright.1]

theorem trimSpace_trimSpace (str : Text) : trimSpace (trimSpace str) = trimSpace str := by
  obtain ⟨left, right, hstr, hleft, hright⟩ := trimSpace_split str
  calc trimSpace (trimSpace str) = trimSpace (left ++ trimSpace str ++ right) := by
        rw [trimSpace_append_right hright, trimSpace_append_left hleft]
    _ = trimSpace str := by rw [← hstr]

theorem trimSpace_of_ends {str : Text} (hhead : ∀ c, str.head? = some c → isSpace c = false)
    (hlast : ∀ c, str.getLast? = some c → isSpace c = false) : trimSpace str = str := by
  have hleft : str.dropWhile isSpace = str := by
    cases str with
    | nil => rfl
    | cons c str => exact List.dropWhile_cons_of_neg (by simp [hhead c rfl])
  rw [trimSpace_eq, hleft, List.rdropWhile_eq_self_iff]
  intro hne
  simp [hlast _ (List.getLast?_eq_some_getLast hne)]

theorem count_trimSpace (str : Text) : (trimSpace str).count '#' = str.count '#' := by
  have hspace {space : Text} (h : space.all isSpace) : space.count '#' = 0 := by
    rw [List.count_eq_zero]
    intro hmem
    exact absurd (List.all_eq_true.mp h '#' hmem) (by decide)
  obtain ⟨left, right, hstr, hleft, hright⟩ := trimSpace_split str
  conv_rhs => rw [hstr]
  simp [hspace hleft, hspace hright]

end Trimming

/-! ## Comments -/

def isBlank (c : Char) : Bool := c = ' ' || c = '\t'

/-- The text before the first comment, where `blank` tells if a comment may begin at once. -/
def beforeCommentFrom (blank : Bool) : Text → Text
  | [] => []
  | c :: str => if blank && c = '#' then [] else c :: beforeCommentFrom (isBlank c) str

/-- The text before the first `#` that stands first in a line or after a blank. -/
def beforeComment (line : Text) : Text := beforeCommentFrom true line

/-- The comment itself, from its `#` on. -/
def commentOf (line : Text) : Text := line.drop (beforeComment line).length

/-- The rule in a line. -/
def ruleOf (line : Text) : Text := trimSpace (beforeComment line)

/-- After `pre` a comment may begin. -/
def opensComment (blank : Bool) (pre : Text) : Bool := (pre.getLast?.map isBlank).getD blank

example : ruleOf "ads.* # see #42".toList = "ads.*".toList := by decide

/-- No `#` of the text begins a comment. -/
def Uncommented (blank : Bool) (str : Text) : Prop :=
  ∀ pre rest, str = pre ++ '#' :: rest → opensComment blank pre = false

theorem opensComment_cons (blank : Bool) (c : Char) (pre : Text) :
    opensComment blank (c :: pre) = opensComment (isBlank c) pre := by
  cases pre <;> rfl

theorem uncommented_cons {blank : Bool} {c : Char} {str : Text} (hc : (blank && c = '#') = false)
    (hstr : Uncommented (isBlank c) str) : Uncommented blank (c :: str) := by
  intro pre rest h
  cases pre with
  | nil =>
    cases h
    exact (by simpa using hc : blank = false)
  | cons d pre =>
    cases h
    rw [opensComment_cons]
    exact hstr pre rest rfl

theorem uncommented_beforeCommentFrom (blank : Bool) (str : Text) :
    Uncommented blank (beforeCommentFrom blank str) := by
  induction str generalizing blank with
  | nil =>
    intro pre rest h
    simp [beforeCommentFrom] at h
  | cons c str ih =>
    rw [beforeCommentFrom]
    split
    · intro pre rest h
      simp at h
    · next hc => exact uncommented_cons (by simpa using hc) (ih (isBlank c))

theorem beforeCommentFrom_cases (blank : Bool) (str : Text) :
    beforeCommentFrom blank str = str ∨ ∃ rest, str = beforeCommentFrom blank str ++ '#' :: rest ∧
      opensComment blank (beforeCommentFrom blank str) := by
  induction str generalizing blank with
  | nil => exact .inl rfl
  | cons c str ih =>
    rw [beforeCommentFrom]
    split
    · next hc =>
      obtain ⟨hblank, rfl⟩ : blank = true ∧ c = '#' := by simpa using hc
      exact .inr ⟨str, rfl, hblank⟩
    · rcases ih (isBlank c) with h | ⟨rest, h, hopens⟩
      · rw [h]
        exact .inl rfl
      · refine .inr ⟨rest, ?_, ?_⟩
        · rw [List.cons_append, ← h]
        · rw [opensComment_cons]
          exact hopens

/-! ## The last `#` -/

theorem exists_last_pound {str : Text} (h : '#' ∈ str) :
    ∃ pre rest, str = pre ++ '#' :: rest ∧ '#' ∉ rest := by
  obtain ⟨rest, pre, hstr, hrest⟩ := List.eq_append_cons_of_mem (List.mem_reverse.mpr h)
  refine ⟨pre.reverse, rest.reverse, ?_, by simpa using hrest⟩
  rw [← List.reverse_reverse str, hstr]
  simp

theorem trimAndStripInlineComments_append {pre rest : Text} (hrest : '#' ∉ rest) :
    trimAndStripInlineComments (pre ++ '#' :: rest) =
      if pre = [] ∨ pre.head? = some '#' then []
      else if opensComment true pre then trimSpace pre
      else trimSpace (pre ++ '#' :: rest) := by
  have htake : ((pre ++ '#' :: rest).reverse.takeWhile (· ≠ '#')).length = rest.length := by
    rw [takeWhile_reverse_append hrest, List.length_reverse]
  have hidx : (pre ++ '#' :: rest).length - 1 - rest.length = pre.length := by
    simp only [List.length_append, List.length_cons]
    omega
  unfold trimAndStripInlineComments
  rw [if_pos (by simp)]
  simp only [htake, hidx]
  rcases List.eq_nil_or_concat' pre with rfl | ⟨start, c, rfl⟩
  · simp
  · have hhead : (start ++ [c] ++ '#' :: rest).head? = (start ++ [c]).head? := by simp
    have hprev : (start ++ [c] ++ '#' :: rest)[(start ++ [c]).length - 1]? = some c := by simp
    have hbefore : (start ++ [c] ++ '#' :: rest).take ((start ++ [c]).length - 1) = start := by simp
    have hopens : opensComment true (start ++ [c]) = isBlank c := by simp [opensComment]
    rw [hhead, hprev, hbefore, hopens]
    by_cases hblank : isBlank c = true
    · have hspace : isSpace c := by
        rcases (by simpa [isBlank] using hblank : c = ' ' ∨ c = '\t') with rfl | rfl <;> decide
      rw [trimSpace_concat hspace, if_pos hblank]
      have hc : (decide (some c = some ' ') || decide (some c = some '\t')) = true := by
        simpa [isBlank] using hblank
      rw [if_pos hc]
      simp
    · have hc : ¬ (decide (some c = some ' ') || decide (some c = some '\t')) = true := by
        simpa [isBlank] using hblank
      rw [if_neg hc, if_neg hblank]
      simp

theorem trimAndStripInlineComments_of_uncommented {str : Text} (h : Uncommented true str) :
    trimAndStripInlineComments str = trimSpace str := by
  by_cases hpound : '#' ∈ str
  · obtain ⟨pre, rest, rfl, hrest⟩ := exists_last_pound hpound
    have hopens := h pre rest rfl
    have hpre : ¬ (pre = [] ∨ pre.head? = some '#') := by
      rintro (rfl | hhead)
      · cases hopens
      · obtain ⟨tail, rfl⟩ := List.head?_eq_some_iff.mp hhead
        cases h [] _ rfl
    rw [trimAndStripInlineComments_append hrest, if_neg hpre, hopens]
    rfl
  · unfold trimAndStripInlineComments
    rw [if_neg (by simpa using hpound)]

theorem uncommented_trimSpace {str : Text} (h : Uncommented true str)
    (hhead : (trimSpace str).head? ≠ some '#') : Uncommented true (trimSpace str) := by
  intro pre rest heq
  obtain ⟨left, right, hstr, -, -⟩ := trimSpace_split str
  have hpre : pre ≠ [] := by
    rintro rfl
    exact hhead (by rw [heq]; rfl)
  have hopens := h (left ++ pre) (rest ++ right) (by rw [hstr, heq]; simp)
  obtain ⟨start, c, rfl⟩ := (List.eq_nil_or_concat' pre).resolve_left hpre
  simpa [opensComment] using hopens

/-! ## The rule of a line -/

theorem ruleOf_infix (line : Text) : ruleOf line <:+: beforeComment line := by
  obtain ⟨left, right, hstr, -, -⟩ := trimSpace_split (beforeComment line)
  exact ⟨left, right, hstr.symm⟩

theorem strip_eq_iff {pre rest : Text} (hpre : pre ≠ []) (hhead : pre.head? ≠ some '#')
    (hopens : opensComment true pre) :
    trimAndStripInlineComments (pre ++ '#' :: rest) = trimSpace pre ↔ '#' ∉ rest := by
  constructor
  · intro heq hrest
    obtain ⟨comment, last, rfl, hlast⟩ := exists_last_pound hrest
    -- the first `#` of the comment is still there
    have hassoc : pre ++ '#' :: (comment ++ '#' :: last) = (pre ++ '#' :: comment) ++ '#' :: last := by
      simp
    have hfirst : ¬ (pre ++ '#' :: comment = [] ∨ (pre ++ '#' :: comment).head? = some '#') := by
      rw [List.head?_append_of_ne_nil _ hpre]
      simp [hhead]
    rw [hassoc, trimAndStripInlineComments_append hlast, if_neg hfirst] at heq
    have hcount := congrArg (List.count '#') heq
    split at hcount
    · simp only [count_trimSpace, List.count_append, List.count_cons_self] at hcount
      omega
    · simp only [count_trimSpace, List.count_append, List.count_cons_self] at hcount
      omega
  · intro hrest
    rw [trimAndStripInlineComments_append hrest, if_neg (by simp [hpre, hhead]), if_pos hopens]

theorem strip_pound (rest : Text) : trimAndStripInlineComments ('#' :: rest) = [] := by
  unfold trimAndStripInlineComments
  simp

theorem strip_ruleOf_iff (line : Text) :
    trimAndStripInlineComments (ruleOf line) = ruleOf line ↔ (ruleOf line).head? ≠ some '#' := by
  constructor
  · intro h hhead
    obtain ⟨rest, hrest⟩ := List.head?_eq_some_iff.mp hhead
    rw [hrest, strip_pound] at h
    cases h
  · intro hhead
    have hrule : Uncommented true (ruleOf line) :=
      uncommented_trimSpace (uncommented_beforeCommentFrom true line) hhead
    rw [trimAndStripInlineComments_of_uncommented hrule]
    exact trimSpace_trimSpace _

theorem strip_ruleOf_eq_iff (line : Text) :
    trimAndStripInlineComments line = ruleOf line ↔
      line.head? = some '#' ∨ '#' ∉ (commentOf line).tail := by
  have hplain : Uncommented true (beforeComment line) := uncommented_beforeCommentFrom true line
  rcases beforeCommentFrom_cases true line with hall | ⟨rest, hline, hopens⟩
  · have hbefore : beforeComment line = line := hall
    have hcomment : commentOf line = [] := by rw [commentOf, hbefore, List.drop_length]
    rw [hbefore] at hplain
    rw [ruleOf, hbefore, hcomment, trimAndStripInlineComments_of_uncommented hplain]
    simp
  · have hcomment : commentOf line = '#' :: rest := by
      rw [commentOf]
      nth_rewrite 2 [hline]
      exact List.drop_left
    rw [hcomment, List.tail_cons, ruleOf]
    change line = beforeComment line ++ '#' :: rest at hline
    change opensComment true (beforeComment line) = true at hopens
    generalize beforeComment line = pre at *
    subst hline
    by_cases hpre : pre = []
    · subst hpre
      simp only [List.nil_append, strip_pound, List.head?_cons, true_or, iff_true]
      rfl
    · have hhead : pre.head? ≠ some '#' := by
        intro h
        obtain ⟨tail, rfl⟩ := List.head?_eq_some_iff.mp h
        cases hplain [] tail rfl
      rw [strip_eq_iff hpre hhead hopens, List.head?_append_of_ne_nil _ hpre]
      simp [hhead]

/-- The comment has no further `#`, unless it is the whole line, and the rule does not begin
with one. -/
def PlainlyCommented (line : Text) : Prop :=
  (line.head? = some '#' ∨ '#' ∉ (commentOf line).tail) ∧ (ruleOf line).head? ≠ some '#'

instance (line : Text) : Decidable (PlainlyCommented line) := inferInstanceAs (Decidable (_ ∧ _))

/-- The rule of a line is what is left of it, a second time as well, and without any part of the
comment, for plainly commented lines only. -/
theorem stripped_iff (line : Text) :
    (trimAndStripInlineComments line = ruleOf line ∧
      trimAndStripInlineComments (trimAndStripInlineComments line) =
        trimAndStripInlineComments line ∧
      trimAndStripInlineComments line <:+: beforeComment line) ↔ PlainlyCommented line := by
  constructor
  · rintro ⟨hrule, hagain, -⟩
    rw [hrule] at hagain
    exact ⟨(strip_ruleOf_eq_iff line).mp hrule, (strip_ruleOf_iff line).mp hagain⟩
  · rintro ⟨hcomment, hhead⟩
    have hrule := (strip_ruleOf_eq_iff line).mpr hcomment
    rw [hrule]
    exact ⟨rfl, (strip_ruleOf_iff line).mpr hhead, ruleOf_infix line⟩

-- after a carriage return, a `#` does not begin a comment until the line is trimmed
example : trimAndStripInlineComments "\r#ads".toList = "#ads".toList ∧
    trimAndStripInlineComments "#ads".toList = [] := by decide

namespace Sample

/-- Part of the comment stays in the rule. -/
theorem comment_kept :
    trimAndStripInlineComments "ads.* # see #42".toList = "ads.* # see".toList ∧
      ruleOf "ads.* # see #42".toList = "ads.*".toList := by decide

end Sample

end DnscryptProxy
