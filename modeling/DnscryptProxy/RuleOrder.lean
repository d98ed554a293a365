import DnscryptProxy.PatternMatcher

/-! Which rules decide what `Eval` returns for a name, over all the orders in which the same
rules can be added. A kind of rules is asked after those before it have no answer. Of rules
with the same stored text the last one counts for exact rules, substrings and patterns, and
the first one for prefixes and suffixes; of several substrings or patterns that match, the
first one added is found.

* `find_decides`: what is found is the value of a rule that `Decides`.
* `Decides.selected`: for every such rule there is an order in which its value is found.
* `eval_order_iff`: the order does not matter for a name exactly when these rules agree. -/

namespace DnscryptProxy

namespace PatternMatcher

open Library

variable {V : Type} (toLower : Text → Text)

/-! ## Lookups by kind -/

def evalKind (m : PatternMatcher V) (name : Text) : PatternType → Option (Text × Option V)
  | .exact => m.evalExact name
  | .suffix => m.evalSuffixes name
  | .pre => m.evalPrefixes name
  | .substring => m.evalSubstrings name
  | .pattern => m.evalPatterns name

def lookupOrder : List PatternType := [.exact, .suffix, .pre, .substring, .pattern]

theorem find_eq_findSome (m : PatternMatcher V) (name : Text) :
    m.find name = lookupOrder.findSome? (m.evalKind name) := by
  unfold find lookupOrder
  simp only [List.findSome?, evalKind]
  cases m.evalExact name with
  | some _ => rfl
  | none =>
    cases m.evalSuffixes name with
    | some _ => rfl
    | none =>
      cases m.evalPrefixes name with
      | some _ => rfl
      | none => cases m.evalSubstrings name <;> cases m.evalPatterns name <;> rfl

instance (name : Text) : ∀ kind text, Decidable (KindMatches name kind text)
  | .exact, p => inferInstanceAs (Decidable (name = p))
  | .suffix, p => inferInstanceAs (Decidable (AtLabel p name))
  | .pre, p => inferInstanceAs (Decidable (p <+: name))
  | .substring, p => inferInstanceAs (Decidable (p <:+: name))
  | .pattern, p => inferInstanceAs (Decidable (Glob.globMatch p name = some true))

/-- The texts of the rules of a kind. -/
def kindTexts (kind : PatternType) (rules : List (Rule V)) : List Text :=
  (ofKinds toLower [kind] rules).map (·.1)

/-- The kinds whose values are in `indirectVals`, under their texts. -/
def indirectKinds : List PatternType := [.substring, .pattern]

section Texts

variable {toLower} {rules rules' : List (Rule V)} {kind : PatternType}

theorem mem_ofKinds_singleton {e : Text × V} :
    e ∈ ofKinds toLower [kind] rules ↔
      ∃ r ∈ rules, r.stored toLower = some (kind, e.1) ∧ r.val = e.2 := by
  rw [mem_ofKinds]
  constructor
  · rintro ⟨r, hr, k, hk, hs, hval⟩
    rw [List.mem_singleton.mp hk] at hs
    exact ⟨r, hr, hs, hval⟩
  · rintro ⟨r, hr, hs, hval⟩
    exact ⟨r, hr, kind, List.mem_singleton_self _, hs, hval⟩

theorem mem_kindTexts {p : Text} :
    p ∈ kindTexts toLower kind rules ↔ ∃ r ∈ rules, r.stored toLower = some (kind, p) := by
  unfold kindTexts
  rw [List.mem_map]
  constructor
  · rintro ⟨e, he, rfl⟩
    obtain ⟨r, hr, hs, -⟩ := mem_ofKinds_singleton.mp he
    exact ⟨r, hr, hs⟩
  · rintro ⟨r, hr, hs⟩
    exact ⟨(p, r.val), mem_ofKinds_singleton.mpr ⟨r, hr, hs, rfl⟩, rfl⟩

theorem mem_kindTexts_congr (h : ∀ r, r ∈ rules ↔ r ∈ rules') (p : Text) :
    p ∈ kindTexts toLower kind rules ↔ p ∈ kindTexts toLower kind rules' := by
  rw [mem_kindTexts, mem_kindTexts]
  simp only [h]

theorem ofKinds_append (kinds : List PatternType) :
    ofKinds toLower kinds (rules ++ rules') =
      ofKinds toLower kinds rules ++ ofKinds toLower kinds rules' := by
  unfold ofKinds
  exact List.filterMap_append

theorem ofKinds_cons {kinds : List PatternType} {r : Rule V} {text : Text}
    (hs : r.stored toLower = some (kind, text)) (hk : kind ∈ kinds) :
    ofKinds toLower kinds (r :: rules) = (text, r.val) :: ofKinds toLower kinds rules := by
  simp [ofKinds, hs, hk]

end Texts

/-- The text that is reported for a rule. -/
def kindReason : PatternType → Text → Text
  | .exact, p => p
  | .suffix, p => ['*', '.'] ++ p
  | .pre, p => p ++ ['*']
  | .substring, p => ['*'] ++ p ++ ['*']
  | .pattern, p => p

theorem evalKind_listed {rules : List (Rule V)} {m : PatternMatcher V}
    (hm : Represents toLower rules m) {kind : PatternType} (hkind : kind ∈ indirectKinds)
    (name : Text) : m.evalKind name kind =
      ((kindTexts toLower kind rules).find? fun p => KindMatches name kind p).map fun p =>
        (kindReason kind p, lookupMap (ofKinds toLower indirectKinds rules).reverse p) := by
  rcases List.mem_pair.mp hkind with rfl | rfl
  · show m.evalSubstrings name = _
    rw [evalSubstrings, hm.substrings, hm.indirect]
    rfl
  · show m.evalPatterns name = _
    rw [evalPatterns, hm.patterns, hm.indirect]
    rfl

theorem longestPrefix_of_evalSuffixes {m : PatternMatcher V} {name reason : Text} {val : Option V}
    (h : m.evalSuffixes name = some (reason, val)) :
    ∃ hit, m.blockedSuffixes.longestPrefix name.reverse = some (hit, val) := by
  unfold evalSuffixes at h
  dsimp only at h
  split at h
  · cases h
  · next hit xval hl =>
    refine ⟨hit, hl.trans ?_⟩
    split at h
    · cases h
      rfl
    · split at h
      · cases h
      · split at h
        · cases h
        · split at h <;> cases h
          rfl

/-! ## The rules that decide -/

/-- One of the two probes of the suffix trie ends at a label. -/
def SuffixFound (rules : List (Rule V)) (name : Text) : Prop :=
  LongestAtLabel (kindTexts toLower .suffix rules) name ∨
    dropLabel name ≠ [] ∧ LongestAtLabel (kindTexts toLower .suffix rules) (dropLabel name)

/-- `p` is the longest of the texts `ps` that begin the name. -/
def LongestPrefix (ps : List Text) (name p : Text) : Prop :=
  p ∈ ps ∧ p <+: name ∧ ∀ q ∈ ps, q <+: name → q.length ≤ p.length

/-- A rule whose value the lookup of a kind may return. -/
inductive Candidate (rules : List (Rule V)) (name : Text) : PatternType → Rule V → Prop where
  | exact {r : Rule V} (mem : r ∈ rules) (stored : r.stored toLower = some (.exact, name)) :
      Candidate rules name .exact r
  | suffix {r : Rule V} {p : Text} (found : SuffixFound toLower rules name)
      (longest : LongestSuffix (kindTexts toLower .suffix rules) name p) (mem : r ∈ rules)
      (stored : r.stored toLower = some (.suffix, p)) : Candidate rules name .suffix r
  | pre {r : Rule V} {p : Text} (longest : LongestPrefix (kindTexts toLower .pre rules) name p)
      (mem : r ∈ rules) (stored : r.stored toLower = some (.pre, p)) : Candidate rules name .pre r
  | listed {r : Rule V} {kind kind' : PatternType} {p : Text} (listed : kind ∈ indirectKinds)
      (hit : p ∈ kindTexts toLower kind rules) (matched : KindMatches name kind p)
      (mem : r ∈ rules) (shares : kind' ∈ indirectKinds)
      (stored : r.stored toLower = some (kind', p)) : Candidate rules name kind r

/-- A candidate of the first kind that has any. -/
def Decides (rules : List (Rule V)) (name : Text) (r : Rule V) : Prop :=
  ∃ before kind after, lookupOrder = before ++ kind :: after ∧
    Candidate toLower rules name kind r ∧
    ∀ kind' ∈ before, ∀ r', ¬ Candidate toLower rules name kind' r'

section Congr

variable {toLower} {rules rules' : List (Rule V)} {name : Text}

theorem LongestAtLabel.congr {ps ps' : List Text} (h : ∀ p, p ∈ ps ↔ p ∈ ps')
    (hl : LongestAtLabel ps name) : LongestAtLabel ps' name := by
  obtain ⟨p, ⟨hmem, hsuffix, hmax⟩, hat⟩ := hl
  exact ⟨p, ⟨(h p).mp hmem, hsuffix, fun q hq => hmax q ((h q).mpr hq)⟩, hat⟩

theorem Candidate.mem {kind : PatternType} {r : Rule V}
    (h : Candidate toLower rules name kind r) : r ∈ rules := by
  cases h <;> assumption

theorem Candidate.congr (h : ∀ r, r ∈ rules ↔ r ∈ rules') {kind : PatternType} {r : Rule V}
    (hr : Candidate toLower rules name kind r) : Candidate toLower rules' name kind r := by
  have htexts {kind : PatternType} (p : Text) :
      p ∈ kindTexts toLower kind rules ↔ p ∈ kindTexts toLower kind rules' :=
    mem_kindTexts_congr h p
  cases hr with
  | exact mem stored => exact .exact ((h r).mp mem) stored
  | suffix found longest mem stored =>
    obtain ⟨hp, hsuffix, hmax⟩ := longest
    refine .suffix ?_ ⟨(htexts _).mp hp, hsuffix, fun q hq => hmax q ((htexts q).mpr hq)⟩
      ((h r).mp mem) stored
    rcases found with hl | ⟨hd, hl⟩
    · exact .inl (hl.congr htexts)
    · exact .inr ⟨hd, hl.congr htexts⟩
  | pre longest mem stored =>
    obtain ⟨hp, hpre, hmax⟩ := longest
    exact .pre ⟨(htexts _).mp hp, hpre, fun q hq => hmax q ((htexts q).mpr hq)⟩ ((h r).mp mem) stored
  | listed hkind hit matched mem shares stored =>
    exact .listed hkind ((htexts _).mp hit) matched ((h r).mp mem) shares stored

end Congr

/-! ## What is found -/

def HasReason (rules : List (Rule V)) (kind : PatternType) (r : Rule V) (name reason : Text) :
    Prop :=
  kind = .suffix ∨ ∃ kind' text, r.stored toLower = some (kind', text) ∧
    (kind' = kind ∨ kind' ∈ indirectKinds ∧ kind ∈ indirectKinds) ∧
    text ∈ kindTexts toLower kind rules ∧ KindMatches name kind text ∧
    reason = kindReason kind text

section Found

variable {toLower} {rules : List (Rule V)} {m : PatternMatcher V} {name : Text} {reason : Text}
  {val : Option V} {kind : PatternType}

theorem candidate_of_evalExact (hm : Represents toLower rules m)
    (h : m.evalExact name = some (reason, val)) :
    ∃ r, Candidate toLower rules name .exact r ∧
      HasReason toLower rules .exact r name reason ∧ val = some r.val := by
  unfold evalExact at h
  split at h
  · next v hv =>
    cases h
    have hmem := mem_of_lookupMap hv
    rw [hm.exacts] at hmem
    obtain ⟨e, he, heq⟩ := List.mem_map.mp (List.mem_reverse.mp hmem)
    cases heq
    obtain ⟨r, hr, hs, hval⟩ := mem_ofKinds_singleton.mp he
    refine ⟨r, .exact hr hs, ?_, congrArg some hval.symm⟩
    exact .inr ⟨.exact, _, hs, .inl rfl, mem_kindTexts.mpr ⟨r, hr, hs⟩, rfl, rfl⟩
  · cases h

theorem candidate_of_evalSuffixes (hm : Represents toLower rules m)
    (h : m.evalSuffixes name = some (reason, val)) :
    ∃ r, Candidate toLower rules name .suffix r ∧ val = some r.val := by
  have hfound := (evalSuffixes_isSome hm name).mp (Option.isSome_of_eq_some h)
  obtain ⟨hit, hl⟩ := longestPrefix_of_evalSuffixes h
  rw [hm.suffixes, PrefixMap.longestPrefix_ofList] at hl
  obtain ⟨e, he, heq⟩ := List.mem_map.mp (PrefixMap.longestPrefix_eq_some hl).1
  cases heq
  have hlongest := longestPrefix_reverse hl
  rw [List.reverse_reverse] at hlongest
  obtain ⟨r, hr, hs, hval⟩ := mem_ofKinds_singleton.mp he
  exact ⟨r, .suffix hfound hlongest hr hs, congrArg some hval.symm⟩

theorem candidate_of_evalPrefixes (hm : Represents toLower rules m)
    (h : m.evalPrefixes name = some (reason, val)) :
    ∃ r, Candidate toLower rules name .pre r ∧
      HasReason toLower rules .pre r name reason ∧ val = some r.val := by
  obtain ⟨⟨hit, xval⟩, hl, heq⟩ := Option.map_eq_some_iff.mp h
  cases heq
  rw [hm.prefixes, PrefixMap.longestPrefix_ofList] at hl
  obtain ⟨hmem, hpre, hmax⟩ := PrefixMap.longestPrefix_eq_some hl
  obtain ⟨e, he, heq⟩ := List.mem_map.mp hmem
  cases heq
  obtain ⟨r, hr, hs, hval⟩ := mem_ofKinds_singleton.mp he
  refine ⟨r, .pre ⟨List.mem_map.mpr ⟨e, he, rfl⟩, hpre, ?_⟩ hr hs,
    .inr ⟨.pre, e.1, hs, .inl rfl, mem_kindTexts.mpr ⟨r, hr, hs⟩, hpre, rfl⟩, congrArg some hval.symm⟩
  intro q hq hqpre
  obtain ⟨e', he', rfl⟩ := List.mem_map.mp hq
  exact hmax _ (List.mem_map.mpr ⟨e', he', rfl⟩) hqpre

theorem candidate_of_listed (hm : Represents toLower rules m) (hkind : kind ∈ indirectKinds)
    (h : m.evalKind name kind = some (reason, val)) :
    ∃ r, Candidate toLower rules name kind r ∧
      HasReason toLower rules kind r name reason ∧ val = some r.val := by
  rw [evalKind_listed toLower hm hkind name, Option.map_eq_some_iff] at h
  obtain ⟨p, hp, hval⟩ := h
  obtain ⟨hreason, hval⟩ := Prod.mk.inj hval
  have hmem := List.mem_of_find?_eq_some hp
  have hmatched : KindMatches name kind p := by
    have hfound := List.find?_some hp
    exact of_decide_eq_true hfound
  obtain ⟨r, hr, hs⟩ := mem_kindTexts.mp hmem
  cases hv : lookupMap (ofKinds toLower indirectKinds rules).reverse p with
  | none =>
    -- the text is there with the rule's own value at least
    refine absurd rfl (lookupMap_eq_none_iff.mp hv (p, r.val) (List.mem_reverse.mpr ?_))
    exact (mem_ofKinds toLower).mpr ⟨r, hr, kind, hkind, hs, rfl⟩
  | some v =>
    obtain ⟨r', hr', kind', hkind', hs', hv'⟩ :=
      (mem_ofKinds toLower).mp (List.mem_reverse.mp (mem_of_lookupMap hv))
    refine ⟨r', .listed hkind hmem hmatched hr' hkind' hs', ?_, ?_⟩
    · exact .inr ⟨kind', p, hs', .inr ⟨hkind', hkind⟩, hmem, hmatched, hreason.symm⟩
    · rw [← hval, hv, hv']

theorem candidate_of_evalKind (hm : Represents toLower rules m)
    (h : m.evalKind name kind = some (reason, val)) :
    ∃ r, Candidate toLower rules name kind r ∧
      HasReason toLower rules kind r name reason ∧ val = some r.val := by
  cases kind with
  | exact => exact candidate_of_evalExact hm h
  | suffix =>
    obtain ⟨r, hr, hval⟩ := candidate_of_evalSuffixes hm h
    exact ⟨r, hr, .inl rfl, hval⟩
  | pre => exact candidate_of_evalPrefixes hm h
  | substring => exact candidate_of_listed hm (by decide) h
  | pattern => exact candidate_of_listed hm (by decide) h

theorem Candidate.evalKind_isSome (hm : Represents toLower rules m) {r : Rule V}
    (h : Candidate toLower rules name kind r) : (m.evalKind name kind).isSome := by
  cases h with
  | exact mem stored =>
    refine (evalExact_isSome hm name).mpr ⟨(name, r.val), ?_, rfl⟩
    exact mem_ofKinds_singleton.mpr ⟨r, mem, stored, rfl⟩
  | suffix found longest mem stored => exact (evalSuffixes_isSome hm name).mpr found
  | @pre _ p longest mem stored =>
    refine (evalPrefixes_isSome hm name).mpr ⟨(p, r.val), ?_, longest.2.1⟩
    exact mem_ofKinds_singleton.mpr ⟨r, mem, stored, rfl⟩
  | listed hkind hit matched mem shares stored =>
    rw [evalKind_listed toLower hm hkind name, Option.isSome_map, List.find?_isSome]
    exact ⟨_, hit, decide_eq_true matched⟩

theorem find_decides (hm : Represents toLower rules m) (h : m.find name = some (reason, val)) :
    ∃ r, Decides toLower rules name r ∧ val = some r.val := by
  rw [find_eq_findSome, List.findSome?_eq_some_iff] at h
  obtain ⟨before, kind, after, hsplit, hkind, hbefore⟩ := h
  obtain ⟨r, hr, -, hval⟩ := candidate_of_evalKind hm hkind
  refine ⟨r, ⟨before, kind, after, hsplit, hr, ?_⟩, hval⟩
  intro kind' hkind' r' hr'
  have hsome := hr'.evalKind_isSome hm
  rw [hbefore kind' hkind'] at hsome
  cases hsome

end Found

/-! ## Orders -/

section Orders

variable {toLower} {rules : List (Rule V)} {name : Text} {r : Rule V} {others : List (Rule V)}
  {m : PatternMatcher V} {p : Text}

theorem perm_cons_of_mem (h : r ∈ rules) : ∃ others, (r :: others).Perm rules := by
  obtain ⟨before, after, rfl⟩ := List.append_of_mem h
  exact ⟨before ++ after, List.perm_middle.symm⟩

theorem mem_iff_of_perm {order : List (Rule V)} (h : order.Perm rules) (r : Rule V) :
    r ∈ rules ↔ r ∈ order :=
  h.mem_iff.symm

theorem evalExact_snoc (hm : Represents toLower (others ++ [r]) m)
    (stored : r.stored toLower = some (.exact, name)) :
    m.evalExact name = some (name, some r.val) := by
  have hlookup : lookupMap m.blockedExact name = some (some r.val) := by
    rw [hm.exacts, ofKinds_snoc toLower _ _ _ stored, if_pos (List.mem_singleton_self _)]
    simp only [List.map_append, List.map_cons, List.map_nil, List.reverse_append,
      List.reverse_singleton, List.singleton_append]
    exact lookupMap_cons_self _
  unfold evalExact
  rw [hlookup]

theorem evalPrefixes_cons (hm : Represents toLower (r :: others) m)
    (stored : r.stored toLower = some (.pre, p))
    (longest : LongestPrefix (kindTexts toLower .pre (r :: others)) name p) :
    m.evalPrefixes name = some (p ++ ['*'], some r.val) := by
  have hlongest : m.blockedPrefixes.longestPrefix name = some (p, some r.val) := by
    rw [hm.prefixes, PrefixMap.longestPrefix_ofList,
      ofKinds_cons stored (List.mem_singleton_self _), List.map_cons]
    refine PrefixMap.longestPrefix_cons _ longest.2.1 ?_
    intro e he hpre
    obtain ⟨e', he', rfl⟩ := List.mem_map.mp he
    obtain ⟨r', hr', hs, -⟩ := mem_ofKinds_singleton.mp he'
    exact longest.2.2 _ (mem_kindTexts.mpr ⟨r', List.mem_cons_of_mem _ hr', hs⟩) hpre
  rw [evalPrefixes, hlongest]
  rfl

theorem evalSuffixes_cons (hm : Represents toLower (r :: others) m)
    (found : SuffixFound toLower (r :: others) name) (stored : r.stored toLower = some (.suffix, p))
    (longest : LongestSuffix (kindTexts toLower .suffix (r :: others)) name p) :
    ∃ reason, m.evalSuffixes name = some (reason, some r.val) := by
  obtain ⟨⟨reason, val⟩, heval⟩ :=
    Option.isSome_iff_exists.mp ((evalSuffixes_isSome hm name).mpr found)
  obtain ⟨hit, hl⟩ := longestPrefix_of_evalSuffixes heval
  rw [hm.suffixes, PrefixMap.longestPrefix_ofList,
    ofKinds_cons stored (List.mem_singleton_self _), List.map_cons,
    PrefixMap.longestPrefix_cons _ (List.reverse_prefix.mpr longest.2.1)] at hl
  · cases hl
    exact ⟨reason, heval⟩
  · intro e he hpre
    obtain ⟨e', he', rfl⟩ := List.mem_map.mp he
    obtain ⟨r', hr', hs, -⟩ := mem_ofKinds_singleton.mp he'
    have hle := longest.2.2 e'.1 (mem_kindTexts.mpr ⟨r', List.mem_cons_of_mem _ hr', hs⟩)
      (List.reverse_prefix.mp hpre)
    simpa using hle

theorem evalKind_listed_eq {same rest : List (Rule V)} {kind kind' : PatternType}
    (hm : Represents toLower (same ++ r :: rest) m) (hkind : kind ∈ indirectKinds)
    (shares : kind' ∈ indirectKinds) (stored : r.stored toLower = some (kind', p))
    (matched : KindMatches name kind p) (hit : p ∈ kindTexts toLower kind (same ++ [r]))
    (hsame : ∀ q ∈ same, ∀ k t, q.stored toLower = some (k, t) → t = p)
    (hrest : ∀ q ∈ rest, ∀ k t, q.stored toLower = some (k, t) → t ≠ p) :
    ∃ reason, m.evalKind name kind = some (reason, some r.val) := by
  refine ⟨kindReason kind p, (evalKind_listed toLower hm hkind name).trans ?_⟩
  have hfind : ((kindTexts toLower kind (same ++ r :: rest)).find? fun q => KindMatches name kind q) =
      some p := by
    have hsplit : kindTexts toLower kind (same ++ r :: rest) =
        kindTexts toLower kind (same ++ [r]) ++ kindTexts toLower kind rest := by
      unfold kindTexts
      rw [← List.map_append, ← ofKinds_append, List.append_assoc, List.singleton_append]
    have hsome : ((kindTexts toLower kind (same ++ [r])).find? fun q =>
        KindMatches name kind q).isSome := List.find?_isSome.mpr ⟨p, hit, decide_eq_true matched⟩
    obtain ⟨q, hq⟩ := Option.isSome_iff_exists.mp hsome
    -- everything in front has the text
    have hqp : q = p := by
      obtain ⟨r', hr', hs⟩ := mem_kindTexts.mp (List.mem_of_find?_eq_some hq)
      rcases List.mem_append.mp hr' with hr' | hr'
      · exact hsame r' hr' _ _ hs
      · rw [List.mem_singleton.mp hr', stored] at hs
        cases hs
        rfl
    rw [hsplit, List.find?_append, hq, hqp]
    rfl
  have hnone : lookupMap (ofKinds toLower indirectKinds rest).reverse p = none := by
    refine lookupMap_eq_none_iff.mpr fun e he heq => ?_
    obtain ⟨q, hq, k, -, hs, -⟩ := (mem_ofKinds toLower).mp (List.mem_reverse.mp he)
    exact hrest q hq k e.1 hs heq
  have hlookup : lookupMap (ofKinds toLower indirectKinds (same ++ r :: rest)).reverse p =
      some r.val := by
    rw [ofKinds_append, ofKinds_cons stored shares, List.reverse_append, List.reverse_cons,
      List.append_assoc, lookupMap_append, hnone, Option.none_or, List.singleton_append,
      lookupMap_cons_self]
  rw [hfind, Option.map_some, hlookup]

theorem Candidate.selected {kind : PatternType} (h : Candidate toLower rules name kind r) :
    ∃ order, order.Perm rules ∧ ∀ m, Represents toLower order m →
      ∃ reason, m.evalKind name kind = some (reason, some r.val) := by
  have hmem : r ∈ rules := by
    cases h with
    | exact mem => exact mem
    | suffix _ _ mem => exact mem
    | pre _ mem => exact mem
    | listed _ _ _ mem => exact mem
  obtain ⟨others, hperm⟩ := perm_cons_of_mem hmem
  have hcons := Candidate.congr (mem_iff_of_perm hperm) h
  cases hcons with
  | exact _ stored =>
    refine ⟨others ++ [r], (List.perm_append_singleton r others).trans hperm, fun m hm => ?_⟩
    exact ⟨name, evalExact_snoc hm stored⟩
  | suffix found longest _ stored =>
    exact ⟨r :: others, hperm, fun m hm => evalSuffixes_cons hm found stored longest⟩
  | pre longest _ stored =>
    exact ⟨r :: others, hperm, fun m hm => ⟨_, evalPrefixes_cons hm stored longest⟩⟩
  | @listed _ _ _ p hkind hit matched _ shares stored =>
    -- the other rules with the same text in front of it, the rest after it
    let sameText : Rule V → Bool := fun q => (q.stored toLower).any fun kt => kt.2 = p
    refine ⟨others.filter sameText ++ r :: others.filter fun q => !sameText q,
      (List.perm_middle.trans ((List.filter_append_perm sameText others).cons r)).trans hperm,
      fun m hm => evalKind_listed_eq hm hkind shares stored matched ?_ ?_ ?_⟩
    · obtain ⟨r', hr', hs⟩ := mem_kindTexts.mp hit
      refine mem_kindTexts.mpr ⟨r', ?_, hs⟩
      rcases List.mem_cons.mp hr' with rfl | hr'
      · exact List.mem_append_right _ (List.mem_singleton_self _)
      · exact List.mem_append_left _ (List.mem_filter.mpr ⟨hr', by simp [sameText, hs]⟩)
    · intro q hq k t hs
      simpa [sameText, hs] using (List.mem_filter.mp hq).2
    · intro q hq k t hs
      simpa [sameText, hs] using (List.mem_filter.mp hq).2

theorem Decides.selected (h : Decides toLower rules name r) :
    ∃ order, order.Perm rules ∧ ∀ m, Represents toLower order m →
      ∃ reason, m.find name = some (reason, some r.val) := by
  obtain ⟨before, kind, after, hsplit, hr, hbefore⟩ := h
  obtain ⟨order, hperm, hfound⟩ := hr.selected
  refine ⟨order, hperm, fun m hm => ?_⟩
  obtain ⟨reason, hkind⟩ := hfound m hm
  refine ⟨reason, ?_⟩
  rw [find_eq_findSome, List.findSome?_eq_some_iff]
  refine ⟨before, kind, after, hsplit, hkind, fun kind' hkind' => ?_⟩
  cases heval : m.evalKind name kind' with
  | none => rfl
  | some found =>
    obtain ⟨r', hr', -⟩ := candidate_of_evalKind hm heval
    exact absurd (hr'.congr fun q => (mem_iff_of_perm hperm q).symm) (hbefore kind' hkind' r')

theorem Decides.congr {rules' : List (Rule V)} (h : ∀ r, r ∈ rules ↔ r ∈ rules')
    (hr : Decides toLower rules name r) : Decides toLower rules' name r := by
  obtain ⟨before, kind, after, hsplit, hkind, hbefore⟩ := hr
  exact ⟨before, kind, after, hsplit, hkind.congr h, fun kind' hkind' r' hr' =>
    hbefore kind' hkind' r' (hr'.congr fun q => (h q).symm)⟩

theorem Decides.find_isSome (hm : Represents toLower rules m) (h : Decides toLower rules name r) :
    (m.find name).isSome := by
  obtain ⟨before, kind, after, hsplit, hkind, -⟩ := h
  rw [find_eq_findSome, List.findSome?_isSome_iff]
  exact ⟨kind, by simp [hsplit], hkind.evalKind_isSome hm⟩

theorem addAll_ok_iff :
    (∃ m', m.addAll toLower rules = .ok m') ↔ ∀ r ∈ rules, (r.stored toLower).isSome := by
  induction rules generalizing m with
  | nil => simp [addAll]
  | cons r rules ih =>
    rw [List.forall_mem_cons]
    cases hc : classify r.pattern with
    | none => simp [addAll, add, hc, Rule.stored, Bind.bind, Except.bind]
    | some kt =>
      have hadd : ∃ m₁, m.add toLower r.pattern (some r.val) r.position = .ok m₁ := by
        simp [add, hc]
      obtain ⟨m₁, hadd⟩ := hadd
      simp only [addAll, hadd, Rule.stored, hc, Option.map_some, Option.isSome_some, true_and]
      exact ih

theorem eval_val_cases {order : List (Rule V)} (hperm : order.Perm rules)
    (hm : Represents toLower order m) (hlen : 2 ≤ name.length) :
    (∃ r, Decides toLower rules name r ∧ (m.eval name).val = some r.val) ∨
      ((∀ r, ¬ Decides toLower rules name r) ∧ (m.eval name).val = none) := by
  unfold eval
  rw [if_neg (Nat.not_lt.mpr hlen)]
  cases hfind : m.find name with
  | some found =>
    obtain ⟨reason, val⟩ := found
    obtain ⟨r, hr, hval⟩ := find_decides hm hfind
    exact .inl ⟨r, hr.congr fun q => hperm.mem_iff, hval⟩
  | none =>
    refine .inr ⟨fun r hr => ?_, rfl⟩
    have hsome := Decides.find_isSome hm (hr.congr (mem_iff_of_perm hperm))
    rw [hfind] at hsome
    cases hsome

theorem eval_order_iff {W : Type} (content : V → W) :
    (∀ order order' m m', order.Perm rules → order'.Perm rules →
      new.addAll toLower order = .ok m → new.addAll toLower order' = .ok m' →
      (m.eval name).val.map content = (m'.eval name).val.map content) ↔
    (2 ≤ name.length → (∀ r ∈ rules, (r.stored toLower).isSome) →
      ∀ r r', Decides toLower rules name r → Decides toLower rules name r' →
        content r.val = content r'.val) := by
  have hrepresents {order : List (Rule V)} {m : PatternMatcher V}
      (h : new.addAll toLower order = .ok m) : Represents toLower order m := by
    simpa using represents_addAll toLower (represents_new toLower) h
  constructor
  · intro hsame hlen hstored r r' hr hr'
    obtain ⟨order, hperm, hfound⟩ := hr.selected
    obtain ⟨order', hperm', hfound'⟩ := hr'.selected
    obtain ⟨m, hm⟩ := (addAll_ok_iff (m := new)).mpr fun q hq => hstored q (hperm.mem_iff.mp hq)
    obtain ⟨m', hm'⟩ := (addAll_ok_iff (m := new)).mpr fun q hq => hstored q (hperm'.mem_iff.mp hq)
    obtain ⟨reason, hfind⟩ := hfound m (hrepresents hm)
    obtain ⟨reason', hfind'⟩ := hfound' m' (hrepresents hm')
    have heq := hsame order order' m m' hperm hperm' hm hm'
    simp only [eval, Nat.not_lt.mpr hlen, if_false, hfind, hfind', Option.map_some,
      Option.some.injEq] at heq
    exact heq
  · intro hagree order order' m m' hperm hperm' hm hm'
    by_cases hlen : 2 ≤ name.length
    · have hstored : ∀ r ∈ rules, (r.stored toLower).isSome := fun r hr =>
        addAll_ok_iff.mp ⟨m, hm⟩ r (hperm.mem_iff.mpr hr)
      rcases eval_val_cases hperm (hrepresents hm) hlen with ⟨r, hr, hval⟩ | ⟨hnone, hval⟩
      · rcases eval_val_cases hperm' (hrepresents hm') hlen with ⟨r', hr', hval'⟩ | ⟨hnone', -⟩
        · rw [hval, hval', Option.map_some, Option.map_some, hagree hlen hstored r r' hr hr']
        · exact absurd hr (hnone' r)
      · rcases eval_val_cases hperm' (hrepresents hm') hlen with ⟨r', hr', -⟩ | ⟨-, hval'⟩
        · exact absurd hr' (hnone r')
        · rw [hval, hval']
    · have hshort : name.length < 2 := Nat.lt_of_not_le hlen
      simp only [eval, hshort, if_true]

end Orders

end PatternMatcher

end DnscryptProxy
