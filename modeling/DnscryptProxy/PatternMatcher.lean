import DnscryptProxy.Library.PrefixMap
import DnscryptProxy.Library.KeyedList
import DnscryptProxy.Library.Glob
import DnscryptProxy.Basic

/-! `pattern_matcher.go`: rules are sorted into two prefix tries, a map and two
lists when they are added, and a name is looked up in each of them in turn.
`represents_addAll` says what the tables hold in terms of the rules alone; the
exact condition under which the lookup finds a matching rule follows from it.

A value of type `interface{}` is an `Option`, with `none` for `nil`. Lower-casing
is a parameter: nothing here depends on how letters outside ASCII are mapped. -/

namespace DnscryptProxy

open Library

inductive PatternType where
  | pre
  | suffix
  | substring
  | pattern
  | exact
  deriving DecidableEq, Repr

/-- Association lists stand for Go maps; the newest entry of a key comes first. -/
def lookupMap {V : Type} (m : List (Text × V)) (key : Text) : Option V :=
  (m.find? fun e => e.1 = key).map (·.2)

/-- A key that is there keeps its place. -/
def putMap {V : Type} (m : List (Text × V)) (key : Text) (v : V) : List (Text × V) :=
  if m.any fun e => e.1 = key then m.map fun e => if e.1 = key then (key, v) else e
  else m ++ [(key, v)]

section Map

variable {V : Type} {m m' : List (Text × V)} {key key' : Text}

theorem mem_of_lookupMap {v : V} (h : lookupMap m key = some v) : (key, v) ∈ m := by
  obtain ⟨e, he, rfl⟩ := Option.map_eq_some_iff.mp h
  exact (lookup_key he : e.1 = key) ▸ lookup_mem he

theorem lookupMap_eq_none_iff : lookupMap m key = none ↔ ∀ e ∈ m, e.1 ≠ key := by
  simp [lookupMap]

theorem lookupMap_append : lookupMap (m ++ m') key = (lookupMap m key).or (lookupMap m' key) := by
  unfold lookupMap
  rw [List.find?_append]
  cases m.find? fun e => e.1 = key <;> rfl

theorem lookupMap_cons_self (v : V) : lookupMap ((key, v) :: m) key = some v := by
  simp [lookupMap]

theorem lookupMap_of_mem (hnodup : (m.map Prod.fst).Nodup) {e : Text × V} (h : e ∈ m) :
    lookupMap m e.1 = some e.2 := by
  have hlookup : lookup Prod.fst e.1 m = some e := (Consistent.of_nodup hnodup).lookup_iff.mpr h
  exact congrArg (Option.map Prod.snd) hlookup

theorem mem_putMap {v : V} {e : Text × V} :
    e ∈ putMap m key v ↔ e = (key, v) ∨ e ∈ m ∧ e.1 ≠ key := by
  unfold putMap
  split
  · next hkey =>
    rw [List.mem_map]
    constructor
    · rintro ⟨e', he', rfl⟩
      split
      · exact .inl rfl
      · next hne => exact .inr ⟨he', hne⟩
    · rintro (rfl | ⟨he, hne⟩)
      · obtain ⟨e, he, hek⟩ := List.any_eq_true.mp hkey
        exact ⟨e, he, if_pos (of_decide_eq_true hek)⟩
      · exact ⟨e, he, if_neg hne⟩
  · next hkey =>
    have hne : ∀ e ∈ m, e.1 ≠ key := fun e he hek =>
      hkey (List.any_eq_true.mpr ⟨e, he, decide_eq_true hek⟩)
    rw [List.mem_append, List.mem_singleton, or_comm]
    exact or_congr_right ⟨fun he => ⟨he, hne e he⟩, fun he => he.1⟩

theorem lookupMap_putMap (m : List (Text × V)) (v : V) :
    lookupMap (putMap m key v) key' = if key' = key then some v else lookupMap m key' := by
  unfold putMap
  split
  · next hany =>
    have hkept (e : Text × V) : (if e.1 = key then (key, v) else e).1 = e.1 := by
      split
      · next h => exact h.symm
      · rfl
    unfold lookupMap
    rw [List.find?_map]
    simp only [Function.comp_def, hkept]
    cases hfind : m.find? fun e => e.1 = key' with
    | none =>
      have hne : key' ≠ key := by
        rintro rfl
        have hsome := List.find?_isSome.mpr (List.any_eq_true.mp hany)
        rw [hfind] at hsome
        cases hsome
      rw [if_neg hne]
      rfl
    | some e =>
      have hkey : e.1 = key' := lookup_key hfind
      simp only [Option.map_some, hkey]
      split <;> rfl
  · next hany =>
    rw [lookupMap_append]
    by_cases hkey : key' = key
    · subst hkey
      have hnone : lookupMap m key' = none := lookupMap_eq_none_iff.mpr fun e he heq =>
        hany (List.any_eq_true.mpr ⟨e, he, decide_eq_true heq⟩)
      rw [hnone, if_pos rfl, lookupMap_cons_self]
      rfl
    · have hnone : lookupMap [(key, v)] key' = none := by
        simp [lookupMap_eq_none_iff, Ne.symm hkey]
      rw [hnone, if_neg hkey, Option.or_none]

theorem keys_putMap (m : List (Text × V)) (v : V) : (putMap m key v).map Prod.fst =
    if key ∈ m.map Prod.fst then m.map Prod.fst else m.map Prod.fst ++ [key] := by
  unfold putMap
  have hany : (m.any fun e => e.1 = key) = true ↔ key ∈ m.map Prod.fst := by
    simp [List.any_eq_true]
  by_cases hkey : key ∈ m.map Prod.fst
  · rw [if_pos (hany.mpr hkey), if_pos hkey, List.map_map]
    refine List.map_congr_left fun e _ => ?_
    dsimp only [Function.comp_apply]
    split
    · next h => exact h.symm
    · rfl
  · rw [if_neg (mt hany.mp hkey), if_neg hkey, List.map_append]
    rfl

theorem nodup_putMap (v : V) (h : (m.map Prod.fst).Nodup) :
    ((putMap m key v).map Prod.fst).Nodup := by
  rw [keys_putMap]
  split
  · exact h
  · next hkey =>
    rw [← List.concat_eq_append]
    exact h.concat hkey

theorem mem_keys_putMap {v : V} :
    key' ∈ (putMap m key v).map Prod.fst ↔ key' ∈ m.map Prod.fst ∨ key' = key := by
  rw [keys_putMap]
  split
  · next hkey =>
    refine (or_iff_left_of_imp ?_).symm
    rintro rfl
    exact hkey
  · rw [List.mem_append, List.mem_singleton]

end Map

structure PatternMatcher (V : Type) where
  blockedPrefixes : PrefixMap Char (Option V)
  blockedSuffixes : PrefixMap Char (Option V)
  blockedSubstrings : List Text
  blockedPatterns : List Text
  blockedExact : List (Text × Option V)
  indirectVals : List (Text × V)

namespace PatternMatcher

variable {V : Type}

def new : PatternMatcher V := ⟨[], [], [], [], [], []⟩

def isGlobCandidate (str : Text) : Bool :=
  str.zipIdx.any fun (c, i) =>
    c = '?' || c = '[' || (c = '*' && i ≠ 0 && i ≠ str.length - 1)

def syntaxError (position : Nat) : GoError :=
  .plain s!"Syntax error in block rules at pattern {position}"

def classify (pattern : Text) : Option (PatternType × Text) :=
  let leadingStar := pattern.head? = some '*'
  let trailingStar := pattern.getLast? = some '*'
  let isExact := pattern.head? = some '='
  if isGlobCandidate pattern then
    if pattern.length < 2 ∨ Glob.globMatch pattern "example.com".toList = none then none
    else some (.pattern, pattern)
  else if leadingStar ∧ trailingStar then
    if pattern.length < 3 then none else some (.substring, (pattern.drop 1).dropLast)
  else if trailingStar then
    if pattern.length < 2 then none else some (.pre, pattern.dropLast)
  else if isExact then
    if pattern.length < 2 then none else some (.exact, pattern.drop 1)
  else
    let text := if leadingStar then pattern.drop 1 else pattern
    some (.suffix, if text.head? = some '.' then text.drop 1 else text)

variable (toLower : Text → Text)

def add (m : PatternMatcher V) (pattern : Text) (val : Option V) (position : Nat) :
    Except GoError (PatternMatcher V) :=
  match classify pattern with
  | none => .error (syntaxError position)
  | some (kind, text) =>
    let pattern := toLower text
    let indirect := match val with
      | some v => (pattern, v) :: m.indirectVals
      | none => m.indirectVals
    .ok <| match kind with
      | .substring => { m with
          blockedSubstrings := m.blockedSubstrings ++ [pattern], indirectVals := indirect }
      | .pattern => { m with
          blockedPatterns := m.blockedPatterns ++ [pattern], indirectVals := indirect }
      | .pre => { m with blockedPrefixes := m.blockedPrefixes.insert pattern val }
      | .suffix => { m with blockedSuffixes := m.blockedSuffixes.insert pattern.reverse val }
      | .exact => { m with blockedExact := (pattern, val) :: m.blockedExact }

/-- `len(match) == len(s) || s[len(match)] == '.'` -/
def endsAtLabel (hit s : Text) : Bool := hit.length = s.length || s[hit.length]? = some '.'

def dropLabel (name : Text) : Text := (name.dropWhile (· ≠ '.')).drop 1

def evalSuffixes (m : PatternMatcher V) (qName : Text) : Option (Text × Option V) :=
  let revQname := qName.reverse
  match m.blockedSuffixes.longestPrefix revQname with
  | none => none
  | some (hit, xval) =>
    if endsAtLabel hit revQname then some (['*', '.'] ++ hit.reverse, xval)
    else
      let pName := (dropLabel qName).reverse
      if pName = [] then none
      else match m.blockedSuffixes.longestPrefix pName with
        | none => none
        | some (hit, _) =>
          if endsAtLabel hit pName then some (['*', '.'] ++ hit.reverse, xval) else none

structure Verdict (V : Type) where
  reject : Bool
  reason : Text
  val : Option V

def evalPrefixes (m : PatternMatcher V) (qName : Text) : Option (Text × Option V) :=
  (m.blockedPrefixes.longestPrefix qName).map fun (hit, xval) => (hit ++ ['*'], xval)

def evalSubstrings (m : PatternMatcher V) (qName : Text) : Option (Text × Option V) :=
  (m.blockedSubstrings.find? fun s => s <:+: qName).map fun s =>
    (['*'] ++ s ++ ['*'], lookupMap m.indirectVals s)

def evalPatterns (m : PatternMatcher V) (qName : Text) : Option (Text × Option V) :=
  (m.blockedPatterns.find? fun p => Glob.globMatch p qName = some true).map fun p =>
    (p, lookupMap m.indirectVals p)

def evalExact (m : PatternMatcher V) (qName : Text) : Option (Text × Option V) :=
  match lookupMap m.blockedExact qName with
  | some (some xval) => some (qName, some xval)
  | _ => none

/-- The tables in the order in which `Eval` looks at them. -/
def find (m : PatternMatcher V) (qName : Text) : Option (Text × Option V) :=
  (m.evalExact qName).or <| (m.evalSuffixes qName).or <| (m.evalPrefixes qName).or <|
    (m.evalSubstrings qName).or (m.evalPatterns qName)

def eval (m : PatternMatcher V) (qName : Text) : Verdict V :=
  if qName.length < 2 then ⟨false, [], none⟩
  else match m.find qName with
    | some (reason, val) => ⟨true, reason, val⟩
    | none => ⟨false, [], none⟩

/-! ## Rules and what they mean -/

/-- One call of `Add` with a value. -/
structure Rule (V : Type) where
  pattern : Text
  val : V
  position : Nat

def addAll (m : PatternMatcher V) : List (Rule V) → Except GoError (PatternMatcher V)
  | [] => .ok m
  | r :: rules => do
    let m ← m.add toLower r.pattern (some r.val) r.position
    addAll m rules

/-- `p` is the whole name or starts at one of its labels. -/
def AtLabel (p name : Text) : Prop := name = p ∨ '.' :: p <:+ name

instance (p name : Text) : Decidable (AtLabel p name) :=
  inferInstanceAs (Decidable (name = p ∨ '.' :: p <:+ name))

/-- The documented meaning of each kind of rule. -/
def KindMatches (name : Text) : PatternType → Text → Prop
  | .exact, p => name = p
  | .suffix, p => AtLabel p name
  | .pre, p => p <+: name
  | .substring, p => p <:+: name
  | .pattern, p => Glob.globMatch p name = some true

/-- The kind of a rule and its text as stored. -/
def Rule.stored (r : Rule V) : Option (PatternType × Text) :=
  (classify r.pattern).map fun (kind, text) => (kind, toLower text)

def Rule.Matches (r : Rule V) (name : Text) : Prop :=
  ∃ kind text, r.stored toLower = some (kind, text) ∧ KindMatches name kind text

/-- The stored texts of the rules of the given kinds, with their values, in the
order in which they were added. -/
def ofKinds (kinds : List PatternType) (rules : List (Rule V)) : List (Text × V) :=
  rules.filterMap fun r => (r.stored toLower).bind fun (kind, text) =>
    if kind ∈ kinds then some (text, r.val) else none

/-- The tables of a matcher, as a function of the rules that were added. -/
structure Represents (rules : List (Rule V)) (m : PatternMatcher V) : Prop where
  prefixes : m.blockedPrefixes =
    PrefixMap.ofList ((ofKinds toLower [.pre] rules).map fun e => (e.1, some e.2))
  suffixes : m.blockedSuffixes =
    PrefixMap.ofList ((ofKinds toLower [.suffix] rules).map fun e => (e.1.reverse, some e.2))
  substrings : m.blockedSubstrings = (ofKinds toLower [.substring] rules).map (·.1)
  patterns : m.blockedPatterns = (ofKinds toLower [.pattern] rules).map (·.1)
  exacts : m.blockedExact = ((ofKinds toLower [.exact] rules).map fun e => (e.1, some e.2)).reverse
  indirect : m.indirectVals = (ofKinds toLower [.substring, .pattern] rules).reverse

theorem represents_new : Represents toLower [] (new : PatternMatcher V) :=
  ⟨rfl, rfl, rfl, rfl, rfl, rfl⟩

theorem ofKinds_snoc (kinds : List PatternType) (rules : List (Rule V)) (r : Rule V)
    {kind : PatternType} {text : Text} (h : r.stored toLower = some (kind, text)) :
    ofKinds toLower kinds (rules ++ [r]) =
      ofKinds toLower kinds rules ++ if kind ∈ kinds then [(text, r.val)] else [] := by
  by_cases hk : kind ∈ kinds <;> simp [ofKinds, h, hk]

variable {rules : List (Rule V)} {m : PatternMatcher V} {name p : Text} {ps : List (Text × V)}
  {W : Type}

theorem represents_add {m' : PatternMatcher V} {r : Rule V} (hm : Represents toLower rules m)
    (h : m.add toLower r.pattern (some r.val) r.position = .ok m') :
    Represents toLower (rules ++ [r]) m' := by
  unfold add at h
  cases hc : classify r.pattern with
  | none => simp [hc] at h
  | some kt =>
    obtain ⟨kind, text⟩ := kt
    have hs : r.stored toLower = some (kind, toLower text) := by simp [Rule.stored, hc]
    simp only [hc, Except.ok.injEq] at h
    subst h
    cases kind <;> constructor <;>
      simp [ofKinds_snoc toLower _ _ _ hs, hm.prefixes, hm.suffixes, hm.substrings,
        hm.patterns, hm.exacts, hm.indirect, PrefixMap.ofList_snoc]

theorem represents_addAll {added : List (Rule V)} {m' : PatternMatcher V}
    (hm : Represents toLower added m) (h : m.addAll toLower rules = .ok m') :
    Represents toLower (added ++ rules) m' := by
  induction rules generalizing added m with
  | nil =>
    cases h
    simpa using hm
  | cons r rules ih =>
    simp only [addAll] at h
    cases ha : m.add toLower r.pattern (some r.val) r.position with
    | error e =>
      rw [ha] at h
      cases h
    | ok m₁ =>
      rw [ha] at h
      simpa using ih (represents_add toLower hm ha) h

theorem mem_ofKinds {kinds : List PatternType} {e : Text × V} :
    e ∈ ofKinds toLower kinds rules ↔
      ∃ r ∈ rules, ∃ kind ∈ kinds, r.stored toLower = some (kind, e.1) ∧ r.val = e.2 := by
  simp only [ofKinds, List.mem_filterMap, Option.bind_eq_some_iff]
  constructor
  · rintro ⟨r, hr, ⟨kind, text⟩, hs, he⟩
    split at he
    · next hk =>
      cases he
      exact ⟨r, hr, kind, hk, hs, rfl⟩
    · cases he
  · rintro ⟨r, hr, kind, hk, hs, hv⟩
    exact ⟨r, hr, (kind, e.1), hs, by simp [hk, hv]⟩

/-- Some rule of the given kind matches the name. -/
def KindHits (kind : PatternType) (rules : List (Rule V)) (name : Text) : Prop :=
  ∃ e ∈ ofKinds toLower [kind] rules, KindMatches name kind e.1

theorem exists_matches_iff (rules : List (Rule V)) (name : Text) :
    (∃ r ∈ rules, r.Matches toLower name) ↔ ∃ kind, KindHits toLower kind rules name := by
  constructor
  · rintro ⟨r, hr, kind, text, hs, hm⟩
    exact ⟨kind, (text, r.val), (mem_ofKinds toLower).mpr ⟨r, hr, kind, by simp, hs, rfl⟩, hm⟩
  · rintro ⟨kind, e, he, hm⟩
    obtain ⟨r, hr, k, hk, hs, _⟩ := (mem_ofKinds toLower).mp he
    rw [List.mem_singleton] at hk
    subst hk
    exact ⟨r, hr, _, e.1, hs, hm⟩

section Lookup

variable {toLower} {rules : List (Rule V)} {m : PatternMatcher V}

theorem evalExact_isSome (hm : Represents toLower rules m) (name : Text) :
    (m.evalExact name).isSome ↔ KindHits toLower .exact rules name := by
  have hx : (m.evalExact name).isSome ↔ ∃ v, lookupMap m.blockedExact name = some (some v) := by
    unfold evalExact
    split
    · next v hv => simp [hv]
    · next hv =>
      simp only [Option.isSome_none, Bool.false_eq_true, false_iff, not_exists]
      exact fun v h => hv v h
  rw [hx]
  simp only [lookupMap, hm.exacts, KindHits, KindMatches]
  constructor
  · rintro ⟨v, hv⟩
    obtain ⟨e, he, hev⟩ := Option.map_eq_some_iff.mp hv
    have hmem := List.mem_of_find?_eq_some he
    have hname := List.find?_some he
    obtain ⟨a, ha, rfl⟩ := List.mem_map.mp (List.mem_reverse.mp hmem)
    exact ⟨a, ha, (of_decide_eq_true hname).symm⟩
  · rintro ⟨e, he, rfl⟩
    have hex : ∃ x ∈ ((ofKinds toLower [.exact] rules).map
        fun e => (e.1, some e.2)).reverse, decide (x.1 = e.1) = true :=
      ⟨(e.1, some e.2), by simpa using he, by simp⟩
    obtain ⟨x, hx⟩ := Option.isSome_iff_exists.mp (List.find?_isSome.mpr hex)
    obtain ⟨a, ha, rfl⟩ := List.mem_map.mp (List.mem_reverse.mp (List.mem_of_find?_eq_some hx))
    exact ⟨a.2, by rw [hx]; rfl⟩

theorem evalPrefixes_isSome (hm : Represents toLower rules m) (name : Text) :
    (m.evalPrefixes name).isSome ↔ KindHits toLower .pre rules name := by
  rw [evalPrefixes, Option.isSome_map, hm.prefixes, PrefixMap.longestPrefix_ofList,
    Option.isSome_iff_ne_none, ne_eq, PrefixMap.longestPrefix_eq_none]
  simp [KindHits, KindMatches]

theorem evalSubstrings_isSome (hm : Represents toLower rules m) (name : Text) :
    (m.evalSubstrings name).isSome ↔ KindHits toLower .substring rules name := by
  simp [evalSubstrings, hm.substrings, KindHits, KindMatches]

theorem evalPatterns_isSome (hm : Represents toLower rules m) (name : Text) :
    (m.evalPatterns name).isSome ↔ KindHits toLower .pattern rules name := by
  simp [evalPatterns, hm.patterns, KindHits, KindMatches]

end Lookup

/-! ## The suffix lookup -/

/-- `p` is the longest of the texts `ps` that end the name, at a label or not. -/
def LongestSuffix (ps : List Text) (name p : Text) : Prop :=
  p ∈ ps ∧ p <:+ name ∧ ∀ q ∈ ps, q <:+ name → q.length ≤ p.length

/-- The longest text that ends the name starts at a label. -/
def LongestAtLabel (ps : List Text) (name : Text) : Prop :=
  ∃ p, LongestSuffix ps name p ∧ AtLabel p name

/-- The longest text that ends the name starts inside a label. -/
def LongestInsideLabel (ps : List Text) (name : Text) : Prop :=
  ∃ p, LongestSuffix ps name p ∧ ¬ AtLabel p name

theorem LongestSuffix.unique {ps : List Text} {q : Text} (hp : LongestSuffix ps name p)
    (hq : LongestSuffix ps name q) : p = q := by
  have hl : p.length = q.length :=
    Nat.le_antisymm (hq.2.2 p hp.1 hp.2.1) (hp.2.2 q hq.1 hq.2.1)
  have hpq := List.suffix_of_suffix_length_le hp.2.1 hq.2.1 hl.le
  exact hpq.eq_of_length hl

theorem longestAtLabel_or_inside {ps : List Text} (hp : p ∈ ps) (hs : p <:+ name) :
    LongestAtLabel ps name ∨ LongestInsideLabel ps name := by
  obtain ⟨q, hmem, hsuffix, hmax⟩ := exists_longest (P := (· <:+ name)) hp hs
  have hl : LongestSuffix ps name q := ⟨hmem, hsuffix, hmax⟩
  by_cases ha : AtLabel q name
  · exact .inl ⟨q, hl, ha⟩
  · exact .inr ⟨q, hl, ha⟩

theorem not_inside_of_atLabel {ps : List Text} (h : LongestAtLabel ps name) :
    ¬ LongestInsideLabel ps name := by
  rintro ⟨q, hq, hn⟩
  obtain ⟨p, hp, ha⟩ := h
  exact hn (hp.unique hq ▸ ha)

theorem AtLabel.suffix (h : AtLabel p name) : p <:+ name := by
  rcases h with rfl | hdot
  · exact List.suffix_rfl
  · exact (List.suffix_cons _ _).trans hdot

theorem LongestSuffix.dot_suffix {ps : List Text} {q : Text} (hq : LongestSuffix ps name q)
    (hinside : ¬ AtLabel q name) (hp : p ∈ ps) (ha : AtLabel p name) :
    '.' :: p <:+ name ∧ '.' :: p <:+ q := by
  have hle : p.length ≤ q.length := hq.2.2 p hp ha.suffix
  have hpq : p <:+ q := List.suffix_of_suffix_length_le ha.suffix hq.2.1 hle
  have hne : p.length ≠ q.length := fun heq => hinside (hpq.eq_of_length heq ▸ ha)
  have hdot : '.' :: p <:+ name := by
    rcases ha with rfl | hdot
    · exact absurd (Nat.le_antisymm hle hq.2.1.length_le) hne
    · exact hdot
  have hlt : ('.' :: p).length ≤ q.length := by
    rw [List.length_cons]
    omega
  exact ⟨hdot, List.suffix_of_suffix_length_le hdot hq.2.1 hlt⟩

theorem dot_dropLabel_suffix (h : dropLabel name ≠ []) : '.' :: dropLabel name <:+ name := by
  have hs : name.dropWhile (· ≠ '.') <:+ name := List.dropWhile_suffix _
  have hh := List.head?_dropWhile_not (fun c : Char => decide (c ≠ '.')) name
  unfold dropLabel at *
  cases hd : name.dropWhile (· ≠ '.') with
  | nil =>
    rw [hd] at h
    exact absurd rfl h
  | cons c rest =>
    rw [hd] at hs hh
    have hc : c = '.' := by simpa using hh
    subst hc
    exact hs

theorem suffix_dropLabel (h : '.' :: p <:+ name) : p <:+ dropLabel name := by
  obtain ⟨x, rfl⟩ := h
  unfold dropLabel
  induction x with
  | nil => simp
  | cons c x ih =>
    by_cases hc : c = '.'
    · subst hc
      have hs : p <:+ x ++ '.' :: p := (List.suffix_cons '.' p).trans (List.suffix_append x _)
      simpa using hs
    · simpa [List.dropWhile_cons, hc] using ih

theorem atLabel_iff_reverse (p name : Text) :
    AtLabel p name ↔ name.reverse = p.reverse ∨ p.reverse ++ ['.'] <+: name.reverse := by
  rw [AtLabel, List.reverse_inj, ← List.reverse_cons, List.reverse_prefix]

theorem endsAtLabel_iff {hit : Text} (h : hit <+: name.reverse) :
    endsAtLabel hit name.reverse = true ↔ AtLabel hit.reverse name := by
  obtain ⟨rest, hr⟩ := h
  rw [atLabel_iff_reverse, ← hr, List.reverse_reverse, List.prefix_append_right_inj]
  cases rest with
  | nil => simp [endsAtLabel]
  | cons c rest => simp [endsAtLabel, eq_comm]

theorem longestPrefix_reverse {f : V → W} {hit : Text} {v : W}
    (h : PrefixMap.longestPrefix (ps.map fun e => (e.1.reverse, f e.2)) name.reverse =
      some (hit, v)) : LongestSuffix (ps.map (·.1)) name hit.reverse := by
  obtain ⟨hm, hp, hmax⟩ := PrefixMap.longestPrefix_eq_some h
  obtain ⟨e, he, hev⟩ := List.mem_map.mp hm
  cases hev
  rw [List.reverse_prefix] at hp
  refine ⟨List.mem_map.mpr ⟨e, he, (List.reverse_reverse _).symm⟩,
    (List.reverse_reverse e.1).symm ▸ hp, ?_⟩
  intro q hq hs
  obtain ⟨e', he', rfl⟩ := List.mem_map.mp hq
  simpa using hmax _ (List.mem_map.mpr ⟨e', he', rfl⟩) (List.reverse_prefix.mpr hs)

theorem longestPrefix_reverse_none {f : V → W}
    (h : PrefixMap.longestPrefix (ps.map fun e => (e.1.reverse, f e.2)) name.reverse = none) :
    ∀ p ∈ ps.map (·.1), ¬ p <:+ name := by
  intro p hp hs
  obtain ⟨e, he, rfl⟩ := List.mem_map.mp hp
  exact PrefixMap.longestPrefix_eq_none.mp h _ (List.mem_map.mpr ⟨e, he, rfl⟩)
    (List.reverse_prefix.mpr hs)

theorem probe_atLabel_iff {f : V → W} :
    (∃ hit v, PrefixMap.longestPrefix (ps.map fun e => (e.1.reverse, f e.2)) name.reverse =
        some (hit, v) ∧ endsAtLabel hit name.reverse = true) ↔
      LongestAtLabel (ps.map (·.1)) name := by
  constructor
  · rintro ⟨hit, v, hl, hb⟩
    have hp := (PrefixMap.longestPrefix_eq_some hl).2.1
    exact ⟨_, longestPrefix_reverse hl, (endsAtLabel_iff hp).mp hb⟩
  · rintro ⟨p, hp, ha⟩
    cases hl : PrefixMap.longestPrefix (ps.map fun e => (e.1.reverse, f e.2)) name.reverse with
    | none => exact absurd hp.2.1 (longestPrefix_reverse_none hl p hp.1)
    | some c =>
      obtain ⟨hit, v⟩ := c
      have hpre := (PrefixMap.longestPrefix_eq_some hl).2.1
      refine ⟨hit, v, rfl, (endsAtLabel_iff hpre).mpr ?_⟩
      exact (longestPrefix_reverse hl).unique hp ▸ ha

theorem evalSuffixes_isSome {toLower : Text → Text} (hm : Represents toLower rules m)
    (name : Text) :
    (m.evalSuffixes name).isSome ↔
      LongestAtLabel ((ofKinds toLower [.suffix] rules).map (·.1)) name ∨
        dropLabel name ≠ [] ∧
          LongestAtLabel ((ofKinds toLower [.suffix] rules).map (·.1)) (dropLabel name) := by
  rw [← probe_atLabel_iff (f := some), ← probe_atLabel_iff (f := some)]
  simp only [evalSuffixes, hm.suffixes, PrefixMap.longestPrefix_ofList, List.reverse_eq_nil_iff]
  generalize hps : (ofKinds toLower [.suffix] rules) = ps
  cases hl : PrefixMap.longestPrefix (ps.map fun e => (e.1.reverse, some e.2)) name.reverse with
  | none =>
    have hn : dropLabel name ≠ [] → PrefixMap.longestPrefix
        (ps.map fun e => (e.1.reverse, some e.2)) (dropLabel name).reverse = none := by
      intro hd
      refine PrefixMap.longestPrefix_eq_none.mpr fun e he hp => ?_
      refine PrefixMap.longestPrefix_eq_none.mp hl e he (hp.trans (List.reverse_prefix.mpr ?_))
      exact (List.suffix_cons _ _).trans (dot_dropLabel_suffix hd)
    simp +contextual [hn]
  | some c =>
    obtain ⟨hit, v⟩ := c
    by_cases hb : endsAtLabel hit name.reverse = true
    · simp [hb]
    · by_cases hd : dropLabel name = []
      · simp [hb, hd]
      · cases hl' : PrefixMap.longestPrefix (ps.map fun e => (e.1.reverse, some e.2))
            (dropLabel name).reverse with
        | none => simp [hb, hd]
        | some c' =>
          obtain ⟨hit', v'⟩ := c'
          by_cases hb' : endsAtLabel hit' (dropLabel name).reverse = true <;> simp [hb, hd, hb']

/-! ## When the lookup and the rules agree -/

/-- The texts of the suffix rules. -/
def suffixTexts (rules : List (Rule V)) : List Text := (ofKinds toLower [.suffix] rules).map (·.1)

/-- Both probes of the suffix trie end inside a label: the longest suffix text of
the name does, and so does that of the name without its first label, if there
is anything left of it to probe. -/
def SuffixHidden (rules : List (Rule V)) (name : Text) : Prop :=
  LongestInsideLabel (suffixTexts toLower rules) name ∧
    (dropLabel name = [] ∨ LongestInsideLabel (suffixTexts toLower rules) (dropLabel name))

/-- A suffix rule matches the name and no rule of another kind does. -/
def OnlySuffixMatches (rules : List (Rule V)) (name : Text) : Prop :=
  KindHits toLower .suffix rules name ∧ ∀ kind, kind ≠ .suffix → ¬ KindHits toLower kind rules name

theorem kindHits_suffix_iff :
    KindHits toLower .suffix rules name ↔ ∃ p ∈ suffixTexts toLower rules, AtLabel p name := by
  simp [KindHits, KindMatches, suffixTexts]

theorem atLabel_of_atLabel_dropLabel (hd : dropLabel name ≠ []) (h : AtLabel p (dropLabel name)) :
    AtLabel p name := by
  have hs := dot_dropLabel_suffix hd
  rcases h with h | h
  · exact .inr (h ▸ hs)
  · exact .inr (h.trans ((List.suffix_cons _ _).trans hs))

theorem evalSuffixes_isSome_iff (hm : Represents toLower rules m) (name : Text) :
    (m.evalSuffixes name).isSome ↔
      KindHits toLower .suffix rules name ∧ ¬ SuffixHidden toLower rules name := by
  rw [evalSuffixes_isSome hm, kindHits_suffix_iff]
  unfold SuffixHidden suffixTexts
  constructor
  · rintro (⟨p, hp, ha⟩ | ⟨hd, p, hp, ha⟩)
    · exact ⟨⟨p, hp.1, ha⟩, fun hh => not_inside_of_atLabel ⟨p, hp, ha⟩ hh.1⟩
    · refine ⟨⟨p, hp.1, atLabel_of_atLabel_dropLabel hd ha⟩, fun hh => ?_⟩
      rcases hh.2 with he | hi
      · exact hd he
      · exact not_inside_of_atLabel ⟨p, hp, ha⟩ hi
  · rintro ⟨⟨p, hp, ha⟩, hh⟩
    rcases longestAtLabel_or_inside hp ha.suffix with hl | hl
    · exact .inl hl
    · -- the rule found at a label is shorter than the longest one, so it survives
      -- the removal of the first label
      obtain ⟨q, hq, hinside⟩ := hl
      have hdot : '.' :: p <:+ name := (hq.dot_suffix hinside hp ha).1
      have hd : dropLabel name ≠ [] := fun he => hh ⟨⟨q, hq, hinside⟩, .inl he⟩
      rcases longestAtLabel_or_inside hp (suffix_dropLabel hdot) with hl' | hl'
      · exact .inr ⟨hd, hl'⟩
      · exact absurd ⟨⟨q, hq, hinside⟩, .inr hl'⟩ hh

theorem find_isSome_iff (hm : Represents toLower rules m) (name : Text) :
    (m.find name).isSome ↔ (∃ r ∈ rules, r.Matches toLower name) ∧
      ¬ (OnlySuffixMatches toLower rules name ∧ SuffixHidden toLower rules name) := by
  have hkinds : (m.find name).isSome ↔ KindHits toLower .exact rules name ∨
      (KindHits toLower .suffix rules name ∧ ¬ SuffixHidden toLower rules name) ∨
      KindHits toLower .pre rules name ∨ KindHits toLower .substring rules name ∨
      KindHits toLower .pattern rules name := by
    simp only [find, Option.isSome_or, Bool.or_eq_true, evalExact_isSome hm, evalPrefixes_isSome hm,
      evalSubstrings_isSome hm, evalPatterns_isSome hm, evalSuffixes_isSome_iff toLower hm]
  rw [hkinds, exists_matches_iff, OnlySuffixMatches]
  constructor
  · rintro (h | ⟨h, hn⟩ | h | h | h)
    · exact ⟨⟨_, h⟩, fun ho => ho.1.2 _ (by decide) h⟩
    · exact ⟨⟨_, h⟩, fun ho => hn ho.2⟩
    · exact ⟨⟨_, h⟩, fun ho => ho.1.2 _ (by decide) h⟩
    · exact ⟨⟨_, h⟩, fun ho => ho.1.2 _ (by decide) h⟩
    · exact ⟨⟨_, h⟩, fun ho => ho.1.2 _ (by decide) h⟩
  · rintro ⟨⟨kind, h⟩, hn⟩
    by_cases ho : ∃ k, k ≠ .suffix ∧ KindHits toLower k rules name
    · obtain ⟨k, hk, h⟩ := ho
      cases k with
      | exact => exact .inl h
      | suffix => exact absurd rfl hk
      | pre => exact .inr (.inr (.inl h))
      | substring => exact .inr (.inr (.inr (.inl h)))
      | pattern => exact .inr (.inr (.inr (.inr h)))
    · have ho : ∀ k, k ≠ .suffix → ¬ KindHits toLower k rules name :=
        fun k hk h => ho ⟨k, hk, h⟩
      have hk : kind = .suffix := by
        by_contra hk
        exact ho kind hk h
      subst hk
      exact .inr (.inl ⟨h, fun hh => hn ⟨⟨h, ho⟩, hh⟩⟩)

/-- `strings.ToLower` on ASCII. -/
def asciiLower (s : Text) : Text := s.map Char.toLower

end PatternMatcher

end DnscryptProxy
