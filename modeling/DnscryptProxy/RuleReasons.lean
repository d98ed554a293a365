import DnscryptProxy.RuleOrder

/-! The reason and the value that `Eval` reports for a name. `explained_iff` says when both are
those of one rule that matches the name.

Where the longest stored suffix of the name begins inside a label, `Eval` looks for another one
without the first label of the name. It then reports the text of the second and the value of
the first (`Misattributed`). -/

namespace DnscryptProxy.PatternMatcher

open Library

/-! ## Lower case -/

/-- The characters that tell the kinds of rules apart. -/
def special : List Char := ['*', '?', '[']

/-- `strings.ToLower` maps character by character, and neither makes a special character nor
changes one. -/
structure LowerCase where
  lower : Char → Char
  special_iff : ∀ c d, d ∈ special → (lower c = d ↔ c = d)

def LowerCase.text (lc : LowerCase) (s : Text) : Text := s.map lc.lower

def Plain (t : Text) : Prop := ∀ c ∈ t, c ∉ special

variable {t p : Text} {c : Char}

theorem LowerCase.plain (lc : LowerCase) (h : Plain t) : Plain (lc.text t) := by
  intro c hc hspecial
  obtain ⟨d, hd, rfl⟩ := List.mem_map.mp hc
  have hself := (lc.special_iff d _ hspecial).mp rfl
  exact h d hd (hself ▸ hspecial)

theorem LowerCase.isGlobCandidate (lc : LowerCase) (t : Text) :
    isGlobCandidate (lc.text t) = isGlobCandidate t := by
  have hq (c : Char) : (lc.lower c = '?') = (c = '?') := propext (lc.special_iff c _ (by decide))
  have hb (c : Char) : (lc.lower c = '[') = (c = '[') := propext (lc.special_iff c _ (by decide))
  have hs (c : Char) : (lc.lower c = '*') = (c = '*') := propext (lc.special_iff c _ (by decide))
  unfold PatternMatcher.isGlobCandidate LowerCase.text
  simp [List.zipIdx_map, List.any_map, Function.comp_def, hq, hb, hs]

/-! ## Stored texts -/

theorem isGlobCandidate_iff :
    isGlobCandidate p = true ↔ ∃ i c, p[i]? = some c ∧
      (c = '?' ∨ c = '[' ∨ c = '*' ∧ i ≠ 0 ∧ i ≠ p.length - 1) := by
  unfold isGlobCandidate
  rw [List.any_eq_true]
  constructor
  · rintro ⟨⟨c, i⟩, hmem, h⟩
    rw [List.mem_zipIdx_iff_getElem?] at hmem
    refine ⟨i, c, hmem, ?_⟩
    simpa [or_assoc, and_assoc] using h
  · rintro ⟨i, c, hc, h⟩
    refine ⟨(c, i), List.mem_zipIdx_iff_getElem?.mpr hc, ?_⟩
    simpa [or_assoc, and_assoc] using h

theorem star_at_end (h : isGlobCandidate p = false) {i : Nat} (hc : p[i]? = some c)
    (hspecial : c ∈ special) : c = '*' ∧ (i = 0 ∨ i = p.length - 1) := by
  have hnot := mt isGlobCandidate_iff.mpr (Bool.not_eq_true _ ▸ h)
  simp only [not_exists, not_and, not_or] at hnot
  obtain ⟨hq, hb, hs⟩ := hnot i c hc
  have hstar : c = '*' := by simpa [special, hq, hb] using hspecial
  refine ⟨hstar, ?_⟩
  by_cases h0 : i = 0
  · exact .inl h0
  · exact .inr (not_not.mp (hs hstar h0))

theorem plain_inside (h : isGlobCandidate p = false) : Plain (p.drop 1).dropLast := by
  intro c hc hspecial
  obtain ⟨i, hi⟩ := List.mem_iff_getElem?.mp hc
  have hlt : i < (p.drop 1).dropLast.length := (List.getElem?_eq_some_iff.mp hi).1
  rw [List.length_dropLast, List.length_drop] at hlt
  rw [List.getElem?_dropLast, List.length_drop, if_pos (by omega), List.getElem?_drop] at hi
  have hend := (star_at_end h hi hspecial).2
  omega

theorem plain_of_no_trailing_star (h : isGlobCandidate p = false) (htrail : p.getLast? ≠ some '*') :
    Plain (p.drop 1) := by
  intro c hc hspecial
  obtain ⟨i, hi⟩ := List.mem_iff_getElem?.mp hc
  rw [List.getElem?_drop] at hi
  obtain ⟨rfl, hend⟩ := star_at_end h hi hspecial
  have hlast : 1 + i = p.length - 1 := by omega
  rw [hlast, ← List.getLast?_eq_getElem?] at hi
  exact htrail hi

theorem plain_of_no_star (h : isGlobCandidate p = false) (hlead : p.head? ≠ some '*')
    (htrail : p.getLast? ≠ some '*') : Plain p := by
  intro c hc hspecial
  cases p with
  | nil => cases hc
  | cons d p =>
    rcases List.mem_cons.mp hc with rfl | hc
    · have hzero : (c :: p)[0]? = some c := rfl
      obtain ⟨rfl, -⟩ := star_at_end h hzero hspecial
      exact hlead rfl
    · exact plain_of_no_trailing_star h htrail c hc hspecial

theorem Plain.drop_dot {text : Text} (h : Plain text) :
    Plain (if text.head? = some '.' then text.drop 1 else text) := by
  split
  · exact fun c hc => h c (List.mem_of_mem_drop hc)
  · exact h

theorem Plain.not_glob (h : Plain t) : isGlobCandidate t = false := by
  rw [← Bool.not_eq_true, isGlobCandidate_iff]
  rintro ⟨i, c, hc, hspecial⟩
  refine h c (List.mem_of_getElem? hc) ?_
  rcases hspecial with rfl | rfl | ⟨rfl, -⟩ <;> decide

theorem Plain.reason_not_glob (h : Plain t) : isGlobCandidate ('*' :: '.' :: t) = false := by
  rw [← Bool.not_eq_true, isGlobCandidate_iff]
  rintro ⟨i, c, hc, hspecial⟩
  obtain _ | _ | i := i
  · cases hc
    rcases hspecial with h | h | ⟨-, h, -⟩
    · cases h
    · cases h
    · exact h rfl
  · cases hc
    rcases hspecial with h | h | ⟨h, -⟩ <;> cases h
  · refine h c (List.mem_of_getElem? hc) ?_
    rcases hspecial with rfl | rfl | ⟨rfl, -⟩ <;> decide

/-- How the text of a rule looks, by its kind. -/
def Shape : PatternType → Text → Prop
  | .pattern, t => isGlobCandidate t = true
  | .substring, t => Plain t
  | .suffix, t => Plain t
  | .pre, _ => True
  | .exact, _ => True

theorem classify_shape {kind : PatternType} (h : classify p = some (kind, t)) : Shape kind t := by
  unfold classify at h
  dsimp only at h
  split at h
  · next hglob =>
    split at h <;> cases h
    exact hglob
  · next hglob =>
    have hglob : isGlobCandidate p = false := by simpa using hglob
    split at h
    · split at h <;> cases h
      exact plain_inside hglob
    · split at h
      · split at h <;> cases h
        trivial
      · next htrail =>
        split at h
        · split at h <;> cases h
          trivial
        · cases h
          -- a star in front and a dot after it are removed
          have hstar : Plain (if p.head? = some '*' then p.drop 1 else p) := by
            split
            · exact plain_of_no_trailing_star hglob htrail
            · next hlead => exact plain_of_no_star hglob hlead htrail
          exact hstar.drop_dot

theorem LowerCase.shape (lc : LowerCase) {kind : PatternType} (h : Shape kind t) :
    Shape kind (lc.text t) := by
  cases kind with
  | pattern => exact (lc.isGlobCandidate t).trans h
  | substring => exact lc.plain h
  | suffix => exact lc.plain h
  | pre => trivial
  | exact => trivial

section Stored

variable {V : Type} {lc : LowerCase} {r : Rule V} {text : Text}

theorem stored_shape {kind : PatternType} (h : r.stored lc.text = some (kind, text)) :
    Shape kind text := by
  obtain ⟨⟨kind', t⟩, hc, heq⟩ := Option.map_eq_some_iff.mp h
  cases heq
  exact lc.shape (classify_shape hc)

theorem same_kind_of_text {r' : Rule V} {kind kind' : PatternType} (hk : kind ∈ indirectKinds)
    (hk' : kind' ∈ indirectKinds) (h : r.stored lc.text = some (kind, text))
    (h' : r'.stored lc.text = some (kind', text)) : kind = kind' := by
  have hdiffer (hplain : Plain text) (hglob : isGlobCandidate text = true) : False :=
    absurd (hplain.not_glob.symm.trans hglob) Bool.false_ne_true
  rcases List.mem_pair.mp hk with rfl | rfl <;> rcases List.mem_pair.mp hk' with rfl | rfl
  · rfl
  · exact (hdiffer (stored_shape h) (stored_shape h')).elim
  · exact (hdiffer (stored_shape h') (stored_shape h)).elim
  · rfl

end Stored

/-! ## What is reported -/

/-- The reason and the value are those of the rule, and it matches the name. -/
def Rule.Explains {V : Type} (toLower : Text → Text) (r : Rule V) (name reason : Text)
    (val : Option V) : Prop :=
  ∃ kind text, r.stored toLower = some (kind, text) ∧ KindMatches name kind text ∧
    reason = kindReason kind text ∧ val = some r.val

/-- No exact rule has the name. The longest stored suffix of the name begins inside a label,
that of the name without its first label does not, and no rule of the second text has the value
of the first rule with the first. -/
def Misattributed {V : Type} (toLower : Text → Text) (rules : List (Rule V)) (name : Text) : Prop :=
  ¬ KindHits toLower .exact rules name ∧ ∃ p q v,
    LongestSuffix (kindTexts toLower .suffix rules) name p ∧ ¬ AtLabel p name ∧
    dropLabel name ≠ [] ∧ LongestSuffix (kindTexts toLower .suffix rules) (dropLabel name) q ∧
    AtLabel q (dropLabel name) ∧ lookupMap (ofKinds toLower [.suffix] rules) p = some v ∧
    ∀ r ∈ rules, r.stored toLower = some (.suffix, q) → r.val ≠ v

section Reported

variable {V : Type} {toLower : Text → Text} {lc : LowerCase} {rules : List (Rule V)}
  {m : PatternMatcher V} {name reason : Text} {val : Option V}

theorem probe_first {hit : Text}
    (h : PrefixMap.longestPrefix
      ((ofKinds toLower [.suffix] rules).map fun e => (e.1.reverse, some e.2)) name.reverse =
        some (hit, val)) :
    LongestSuffix (kindTexts toLower .suffix rules) name hit.reverse ∧
      ∃ v, lookupMap (ofKinds toLower [.suffix] rules) hit.reverse = some v ∧ val = some v := by
  refine ⟨longestPrefix_reverse h, ?_⟩
  have hfind := PrefixMap.find_of_longestPrefix h
  rw [List.find?_map] at hfind
  obtain ⟨e, he, heq⟩ := Option.map_eq_some_iff.mp hfind
  cases heq
  refine ⟨e.2, ?_, rfl⟩
  unfold lookupMap
  have hsame : (fun e' : Text × V => decide (e'.1 = e.1.reverse.reverse)) =
      (fun e' : Text × Option V => decide (e'.1 = e.1.reverse)) ∘
        fun e' : Text × V => (e'.1.reverse, some e'.2) := by
    funext e'
    simp
  rw [hsame, he]
  rfl

theorem evalSuffixes_cases (hm : Represents toLower rules m)
    (h : m.evalSuffixes name = some (reason, val)) :
    ∃ p v, LongestSuffix (kindTexts toLower .suffix rules) name p ∧
      lookupMap (ofKinds toLower [.suffix] rules) p = some v ∧ val = some v ∧
      (AtLabel p name ∧ reason = kindReason .suffix p ∨
        ¬ AtLabel p name ∧ dropLabel name ≠ [] ∧
          ∃ q, LongestSuffix (kindTexts toLower .suffix rules) (dropLabel name) q ∧
            AtLabel q (dropLabel name) ∧ reason = kindReason .suffix q) := by
  unfold evalSuffixes at h
  rw [hm.suffixes] at h
  simp only [PrefixMap.longestPrefix_ofList] at h
  split at h
  · cases h
  · next hit xval hl =>
    obtain ⟨hlongest, v, hv, hval⟩ := probe_first hl
    have hpre := (PrefixMap.longestPrefix_eq_some hl).2.1
    split at h
    · next hat =>
      cases h
      exact ⟨hit.reverse, v, hlongest, hv, hval, .inl ⟨(endsAtLabel_iff hpre).mp hat, rfl⟩⟩
    · next hat =>
      split at h
      · cases h
      · next hne =>
        split at h
        · cases h
        · next hit' xval' hl' =>
          split at h
          · next hat' =>
            cases h
            have hpre' := (PrefixMap.longestPrefix_eq_some hl').2.1
            refine ⟨hit.reverse, v, hlongest, hv, hval, .inr ⟨?_, ?_, hit'.reverse, ?_⟩⟩
            · exact mt (endsAtLabel_iff hpre).mpr hat
            · simpa using hne
            · exact ⟨(probe_first hl').1, (endsAtLabel_iff hpre').mp hat', rfl⟩
          · cases h

theorem evalKind_explained (hm : Represents lc.text rules m) {kind : PatternType}
    (hkind : kind ≠ .suffix) (h : m.evalKind name kind = some (reason, val)) :
    ∃ r ∈ rules, r.Explains lc.text name reason val := by
  obtain ⟨r, hr, hreason, hval⟩ := candidate_of_evalKind hm h
  rcases hreason with hsuffix | ⟨kind', text, hs, hshare, htext, hmatch, hreason⟩
  · exact absurd hsuffix hkind
  · have hsame : kind' = kind := by
      rcases hshare with heq | ⟨hk', hk⟩
      · exact heq
      · obtain ⟨r', -, hs'⟩ := mem_kindTexts.mp htext
        exact same_kind_of_text hk' hk hs hs'
    subst hsame
    exact ⟨r, hr.mem, kind', text, hs, hmatch, hreason, hval⟩

theorem suffix_of_reason {r : Rule V} {kind : PatternType} {text q : Text}
    (hs : r.stored lc.text = some (kind, text)) (hq : Plain q) (hexact : kind ≠ .exact)
    (h : kindReason .suffix q = kindReason kind text) : kind = .suffix ∧ text = q := by
  have hlast : (kindReason .suffix q).getLast? ≠ some '*' := by
    intro hl
    have hmem : '*' ∈ '.' :: q := List.mem_of_getLast? (by simpa [kindReason] using hl)
    rcases List.mem_cons.mp hmem with hdot | hmem
    · exact absurd hdot (by decide)
    · exact hq '*' hmem (by decide)
  cases kind with
  | exact => exact absurd rfl hexact
  | suffix => exact ⟨rfl, (List.append_cancel_left h).symm⟩
  | pre =>
    rw [h] at hlast
    exact absurd List.getLast?_concat hlast
  | substring =>
    rw [h] at hlast
    exact absurd List.getLast?_concat hlast
  | pattern =>
    have hglob : isGlobCandidate (kindReason .suffix q) = true := by
      rw [h]
      exact stored_shape hs
    exact absurd (hq.reason_not_glob.symm.trans hglob) Bool.false_ne_true

theorem evalSuffixes_explained (hm : Represents toLower rules m)
    (hexact : ¬ KindHits toLower .exact rules name) (hfit : ¬ Misattributed toLower rules name)
    (h : m.evalSuffixes name = some (reason, val)) :
    ∃ r ∈ rules, r.Explains toLower name reason val := by
  obtain ⟨p, v, hp, hv, hval, hcase⟩ := evalSuffixes_cases hm h
  rcases hcase with ⟨hat, hreason⟩ | ⟨hinside, hne, q, hq, hat, hreason⟩
  · obtain ⟨r, hr, hs, hrv⟩ := mem_ofKinds_singleton.mp (mem_of_lookupMap hv)
    exact ⟨r, hr, .suffix, p, hs, hat, hreason, hval.trans (congrArg some hrv.symm)⟩
  · by_contra hnone
    refine hfit ⟨hexact, p, q, v, hp, hinside, hne, hq, hat, hv, ?_⟩
    intro r hr hs hrv
    refine hnone ⟨r, hr, .suffix, q, hs, ?_, hreason, hval.trans (congrArg some hrv.symm)⟩
    exact atLabel_of_atLabel_dropLabel hne hat

theorem Misattributed.not_explained (hm : Represents lc.text rules m)
    (h : Misattributed lc.text rules name) (hfind : m.find name = some (reason, val)) :
    ¬ ∃ r ∈ rules, r.Explains lc.text name reason val := by
  obtain ⟨hexact, p, q, v, hp, hinside, hne, hq, hat, hv, hother⟩ := h
  have hnone : m.evalExact name = none := by
    rw [← Option.not_isSome_iff_eq_none, evalExact_isSome hm]
    exact hexact
  have hsome : (m.evalSuffixes name).isSome :=
    (evalSuffixes_isSome hm name).mpr (.inr ⟨hne, q, hq, hat⟩)
  obtain ⟨⟨reason', val'⟩, hsuffix⟩ := Option.isSome_iff_exists.mp hsome
  have hfound : some (reason', val') = some (reason, val) := by
    rw [← hfind, find, hnone, hsuffix]
    rfl
  cases hfound
  obtain ⟨p', v', hp', hv', hval, hcase⟩ := evalSuffixes_cases hm hsuffix
  obtain rfl := hp.unique hp'
  obtain rfl := Option.some.inj (hv.symm.trans hv')
  rcases hcase with ⟨hat', -⟩ | ⟨-, -, q', hq', -, hreason⟩
  · exact absurd hat' hinside
  obtain rfl := hq.unique hq'
  rintro ⟨r, hr, kind, text, hs, hmatch, hr', hrv⟩
  obtain ⟨r₀, -, hs₀⟩ := mem_kindTexts.mp hq.1
  have hk : kind ≠ .exact := by
    rintro rfl
    exact hexact ⟨(text, r.val), mem_ofKinds_singleton.mpr ⟨r, hr, hs, rfl⟩, hmatch⟩
  obtain ⟨rfl, rfl⟩ := suffix_of_reason hs (stored_shape hs₀) hk (hreason.symm.trans hr')
  exact hother r hr hs (Option.some.inj (hrv.symm.trans hval))

theorem find_of_reject (h : (m.eval name).reject = true) :
    m.find name = some ((m.eval name).reason, (m.eval name).val) := by
  unfold eval at *
  split at h
  · cases h
  · next hlen =>
    rw [if_neg hlen]
    split at h
    · next hfind => rw [hfind]
    · cases h

/-- A matching rule explains the answer exactly unless the two probes of the suffix trie end at
different rules. -/
theorem explained_iff (h : new.addAll lc.text rules = .ok m)
    (hreject : (m.eval name).reject = true) :
    (∃ r ∈ rules, r.Explains lc.text name (m.eval name).reason (m.eval name).val) ↔
      ¬ Misattributed lc.text rules name := by
  have hm : Represents lc.text rules m := represents_addAll lc.text (represents_new lc.text) h
  have hfind := find_of_reject hreject
  constructor
  · exact fun hexpl hmix => hmix.not_explained hm hfind hexpl
  · intro hfit
    rw [find_eq_findSome, List.findSome?_eq_some_iff] at hfind
    obtain ⟨before, kind, after, hsplit, hkind, hbefore⟩ := hfind
    by_cases hsuffix : kind = .suffix
    · subst hsuffix
      have hfirst : PatternType.exact ∈ before := by
        cases before with
        | nil => cases hsplit
        | cons k before =>
          rw [(List.cons.inj hsplit).1]
          exact List.mem_cons_self
      have hexact : ¬ KindHits lc.text .exact rules name := by
        have hnone : m.evalExact name = none := hbefore .exact hfirst
        rw [← evalExact_isSome hm, hnone]
        exact Bool.false_ne_true
      exact evalSuffixes_explained hm hexact hfit hkind
    · exact evalKind_explained hm hsuffix hkind

end Reported

theorem asciiLower_upper (h : c.val ≥ 'A'.val ∧ c.val ≤ 'Z'.val) :
    c.toLower.val.toNat = c.val.toNat + 32 := by
  have hZ : c.val.toNat ≤ 90 := h.2
  unfold Char.toLower
  rw [dif_pos h]
  show (c.val + ('a'.val - 'A'.val)).toNat = _
  rw [UInt32.toNat_add]
  exact Nat.mod_eq_of_lt (by show c.val.toNat + 32 < _; omega)

theorem asciiLower_special {d : Char} (hd : d ∈ special) : c.toLower = d ↔ c = d := by
  by_cases h : c.val ≥ 'A'.val ∧ c.val ≤ 'Z'.val
  · have hA : 65 ≤ c.val.toNat := h.1
    have hZ : c.val.toNat ≤ 90 := h.2
    have hsum := asciiLower_upper h
    have hd : d.val.toNat = 42 ∨ d.val.toNat = 63 ∨ d.val.toNat = 91 := by
      simp only [special, List.mem_cons, List.not_mem_nil, or_false] at hd
      rcases hd with rfl | rfl | rfl <;> decide
    constructor
    · rintro rfl
      omega
    · rintro rfl
      omega
  · have hsame : c.toLower = c := dif_neg h
    rw [hsame]

/-- `asciiLower` is a lower case. -/
def asciiCase : LowerCase := ⟨Char.toLower, fun _ _ => asciiLower_special⟩

def addressRules : List (Rule Nat) :=
  [⟨"b.example.com".toList, 1, 1⟩, ⟨"example.com".toList, 2, 2⟩]

theorem www_example_com_explained :
    ∃ m, new.addAll asciiCase.text addressRules = .ok m ∧
      (m.eval "www.example.com".toList).reject = true ∧
      ¬ Misattributed asciiCase.text addressRules "www.example.com".toList ∧
      ∃ r ∈ addressRules, r.Explains asciiCase.text "www.example.com".toList
        (m.eval "www.example.com".toList).reason (m.eval "www.example.com".toList).val := by
  have hfit : ¬ Misattributed asciiCase.text addressRules "www.example.com".toList := by
    rintro ⟨-, p, q, v, ⟨hp, hsuffix, -⟩, hinside, -⟩
    exact hinside ((by decide : ∀ p ∈ kindTexts asciiCase.text .suffix addressRules,
      p <:+ "www.example.com".toList → AtLabel p "www.example.com".toList) p hp hsuffix)
  exact ⟨_, rfl, by decide, hfit, (explained_iff rfl (by decide)).mpr hfit⟩

/-- `b.example.com` ends `ab.example.com` inside a label. The reason is that of `example.com`,
the value that of `b.example.com`, which does not match the name. -/
theorem value_of_other_rule :
    ∃ m, new.addAll asciiCase.text addressRules = .ok m ∧
      (m.eval "ab.example.com".toList).reject = true ∧
      ¬ ∃ r ∈ addressRules, r.Explains asciiCase.text "ab.example.com".toList
        (m.eval "ab.example.com".toList).reason (m.eval "ab.example.com".toList).val := by
  refine ⟨_, rfl, by decide, ?_⟩
  rintro ⟨r, hr, kind, text, hs, hmatch, hreason, hval⟩
  have hval : some 1 = some r.val := hval
  rcases List.mem_pair.mp hr with rfl | rfl
  · have hs : some (PatternType.suffix, "b.example.com".toList) = some (kind, text) := hs
    cases hs
    exact absurd hmatch (by decide)
  · cases hval

end DnscryptProxy.PatternMatcher
