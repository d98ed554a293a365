import DnscryptProxy.RuleOrder
import DnscryptProxy.State

/-! `time_ranges.go` and `BlockedNames` of `plugin_block_name.go`: name rules with
weekly schedules. `check` asks the matcher for one rule and tests the schedule
that comes back with it. Which rule that is, is a matter of the kinds, the texts
and the places of the rules in the list (`Foremost`). -/

namespace DnscryptProxy

open Library

/-! ## Schedules -/

/-- Both ends in seconds since midnight. -/
structure TimeRange where
  after : Int
  before : Int
  deriving DecidableEq, Repr

structure WeeklyRanges where
  ranges : Fin 7 → List TimeRange

/-- A range whose end comes before its start spans midnight. -/
def TimeRange.contains (range : TimeRange) (nowX : Int) : Bool :=
  if range.after > range.before then nowX ≥ range.after || nowX ≤ range.before
  else nowX ≥ range.after && nowX ≤ range.before

/-- `WeeklyRanges.Match` -/
def WeeklyRanges.matchAt (weeklyRanges : WeeklyRanges) (now : LocalTime) : Bool :=
  (weeklyRanges.ranges now.weekday).any fun range =>
    range.contains ((now.hour * 60 + now.minute) * 60 : Nat)

/-! ## The list of blocked names -/

/-- The value of a rule is a `*WeeklyRanges`, `none` for a nil pointer. As an
`interface{}` it is never nil. -/
abbrev Schedule := Option WeeklyRanges

structure BlockedNames where
  patternMatcher : PatternMatcher Schedule
  logger : Bool

namespace BlockedNames

/-- The rules in the order of the file. A rule that `Add` refuses is skipped. -/
def load {V : Type} (toLower : Text → Text) (rules : List (PatternMatcher.Rule V)) :
    PatternMatcher V :=
  rules.foldl (fun m r =>
    match m.add toLower r.pattern (some r.val) r.position with
    | .ok m => m
    | .error _ => m) .new

/-- The schedule that comes with a verdict lets it stand. -/
def inForce (now : LocalTime) : Schedule → Bool
  | none => true
  | some weeklyRanges => weeklyRanges.matchAt now

/-- `BlockedNames.check`. The error it returns besides is never set. -/
def check (blockedNames : BlockedNames) (now : LocalTime) (st : PluginsState) (qName : Text) :
    Except Panic (Bool × PluginsState) :=
  let verdict := blockedNames.patternMatcher.eval qName
  let weeklyRanges : Schedule := verdict.val.join
  let reject := verdict.reject && inForce now weeklyRanges
  if !reject then .ok (false, st)
  else do
    let st := { st with action := .reject, returnCode := .reject }
    st.logTo blockedNames.logger
    return (true, st)

end BlockedNames

/-! ## The foremost rule -/

namespace PatternMatcher

variable {V : Type} (toLower : Text → Text)

/-- What a rule adds to the table of its kinds. -/
def Rule.entry (kinds : List PatternType) (r : Rule V) : Option (Text × V) :=
  (r.stored toLower).bind fun (kind, text) => if kind ∈ kinds then some (text, r.val) else none

/-- `r` is the first rule in the list that is stored under the text, as one of the kinds. -/
def FirstStored (kinds : List PatternType) (p : Text) (rules : List (Rule V)) (r : Rule V) : Prop :=
  ∃ before after, rules = before ++ r :: after ∧
    (∃ kind ∈ kinds, r.stored toLower = some (kind, p)) ∧
    ∀ r' ∈ before, ∀ kind ∈ kinds, r'.stored toLower ≠ some (kind, p)

def LastStored (kinds : List PatternType) (p : Text) (rules : List (Rule V)) (r : Rule V) : Prop :=
  FirstStored toLower kinds p rules.reverse r

inductive Answers (rules : List (Rule V)) (name : Text) : PatternType → Rule V → Prop where
  | exact {r : Rule V} (last : LastStored toLower [.exact] name rules r) :
      Answers rules name .exact r
  | suffix {r : Rule V} {p : Text} (found : SuffixFound toLower rules name)
      (longest : LongestSuffix (kindTexts toLower .suffix rules) name p)
      (first : FirstStored toLower [.suffix] p rules r) : Answers rules name .suffix r
  | pre {r : Rule V} {p : Text} (longest : LongestPrefix (kindTexts toLower .pre rules) name p)
      (first : FirstStored toLower [.pre] p rules r) : Answers rules name .pre r
  | listed {r : Rule V} {kind : PatternType} {p : Text} (listed : kind ∈ indirectKinds)
      (hit : (kindTexts toLower kind rules).find? (fun q => KindMatches name kind q) = some p)
      (last : LastStored toLower indirectKinds p rules r) : Answers rules name kind r

def Foremost (rules : List (Rule V)) (name : Text) (r : Rule V) : Prop :=
  ∃ before kind after, lookupOrder = before ++ kind :: after ∧ Answers toLower rules name kind r ∧
    ∀ kind' ∈ before, ∀ r', ¬ Candidate toLower rules name kind' r'

theorem represents_load (rules : List (Rule V)) :
    Represents toLower rules (BlockedNames.load toLower rules) := by
  induction rules using List.reverseRecOn with
  | nil => exact represents_new toLower
  | append_singleton rules r ih =>
    simp only [BlockedNames.load, List.foldl_append, List.foldl_cons, List.foldl_nil] at ih ⊢
    split
    · next m hm => exact represents_add toLower ih hm
    · next e he =>
      -- a refused rule has no stored form, so it appears in no table
      have hs : r.stored toLower = none := by
        unfold add at he
        cases hc : classify r.pattern with
        | none => simp [Rule.stored, hc]
        | some kt => simp [hc] at he
      have hk : ∀ kinds, ofKinds toLower kinds (rules ++ [r]) = ofKinds toLower kinds rules :=
        fun kinds => by simp [ofKinds, hs]
      constructor <;> rw [hk]
      · exact ih.prefixes
      · exact ih.suffixes
      · exact ih.substrings
      · exact ih.patterns
      · exact ih.exacts
      · exact ih.indirect

section Values

variable {toLower} {rules : List (Rule V)} {m : PatternMatcher V} {name : Text}
  {kinds : List PatternType} {p reason : Text} {r r' : Rule V} {kind : PatternType} {val : Option V}

theorem any_entry_iff :
    ((r.entry toLower kinds).any fun e => e.1 = p) = true ↔
      ∃ kind ∈ kinds, r.stored toLower = some (kind, p) := by
  unfold Rule.entry
  cases hs : r.stored toLower with
  | none => simp
  | some kt =>
    obtain ⟨kind, text⟩ := kt
    by_cases hk : kind ∈ kinds
    · simp [hk]
    · simp only [Option.bind_some, if_neg hk, Option.any_none, Bool.false_eq_true, false_iff]
      rintro ⟨kind', hk', heq⟩
      cases heq
      exact hk hk'

theorem lookupMap_ofKinds_iff {v : V} :
    lookupMap (ofKinds toLower kinds rules) p = some v ↔
      ∃ r, FirstStored toLower kinds p rules r ∧ r.val = v := by
  have hlookup : lookupMap (ofKinds toLower kinds rules) p =
      ((rules.find? fun r => (r.entry toLower kinds).any fun e => e.1 = p).bind
        (Rule.entry toLower kinds)).map (·.2) := by
    unfold lookupMap ofKinds
    rw [List.find?_filterMap]
    rfl
  rw [hlookup]
  constructor
  · intro h
    obtain ⟨e, he, rfl⟩ := Option.map_eq_some_iff.mp h
    obtain ⟨r, hr, hentry⟩ := Option.bind_eq_some_iff.mp he
    obtain ⟨hhit, before, after, hsplit, hbefore⟩ := List.find?_eq_some_iff_append.mp hr
    obtain ⟨kind, hkind, hs⟩ := any_entry_iff.mp hhit
    refine ⟨r, ⟨before, after, hsplit, ⟨kind, hkind, hs⟩, fun r' hr' kind' hkind' hs' => ?_⟩, ?_⟩
    · have hno := hbefore r' hr'
      rw [any_entry_iff.mpr ⟨kind', hkind', hs'⟩] at hno
      cases hno
    · rw [Rule.entry, hs] at hentry
      simp only [Option.bind_some, if_pos hkind, Option.some.injEq] at hentry
      rw [← hentry]
  · rintro ⟨r, ⟨before, after, hsplit, ⟨kind, hkind, hs⟩, hbefore⟩, rfl⟩
    have hfind : (rules.find? fun r => (r.entry toLower kinds).any fun e => e.1 = p) = some r := by
      refine List.find?_eq_some_iff_append.mpr
        ⟨any_entry_iff.mpr ⟨kind, hkind, hs⟩, before, after, hsplit, fun r' hr' => ?_⟩
      rw [Bool.not_eq_true', ← Bool.not_eq_true, any_entry_iff]
      rintro ⟨kind', hkind', hs'⟩
      exact hbefore r' hr' kind' hkind' hs'
    rw [hfind]
    simp [Rule.entry, hs, hkind]

theorem FirstStored.stored {kinds : List PatternType} {p : Text} {r : Rule V}
    (h : FirstStored toLower kinds p rules r) :
    r ∈ rules ∧ ∃ kind ∈ kinds, r.stored toLower = some (kind, p) := by
  obtain ⟨before, after, rfl, hs, -⟩ := h
  exact ⟨List.mem_append_right _ List.mem_cons_self, hs⟩

theorem FirstStored.mem_kindTexts (h : FirstStored toLower [kind] p rules r) :
    p ∈ kindTexts toLower kind rules := by
  obtain ⟨hmem, kind', hkind', hs⟩ := h.stored
  cases List.mem_singleton.mp hkind'
  exact PatternMatcher.mem_kindTexts.mpr ⟨r, hmem, hs⟩

theorem FirstStored.val_eq (h : FirstStored toLower kinds p rules r)
    (h' : FirstStored toLower kinds p rules r') : r.val = r'.val := by
  have hlookup := lookupMap_ofKinds_iff.mpr ⟨r, h, rfl⟩
  rw [lookupMap_ofKinds_iff.mpr ⟨r', h', rfl⟩] at hlookup
  exact (Option.some.inj hlookup).symm

theorem LongestPrefix.unique {ps : List Text} {q : Text} (hp : LongestPrefix ps name p)
    (hq : LongestPrefix ps name q) : p = q := by
  have hlen : p.length = q.length :=
    Nat.le_antisymm (hq.2.2 p hp.1 hp.2.1) (hp.2.2 q hq.1 hq.2.1)
  exact (List.prefix_of_prefix_length_le hp.2.1 hq.2.1 hlen.le).eq_of_length hlen

theorem lookupMap_ofKinds_reverse_iff {v : V} :
    lookupMap (ofKinds toLower kinds rules).reverse p = some v ↔
      ∃ r, LastStored toLower kinds p rules r ∧ r.val = v := by
  have hreverse : (ofKinds toLower kinds rules).reverse = ofKinds toLower kinds rules.reverse := by
    rw [ofKinds, ofKinds, List.filterMap_reverse]
  rw [hreverse]
  exact lookupMap_ofKinds_iff

theorem firstStored_of_longestPrefix {code : Text → Text} {key k : Text}
    (hcode : Function.Injective code)
    (h : PrefixMap.longestPrefix ((ofKinds toLower [kind] rules).map fun e => (code e.1, some e.2)) key =
      some (k, val)) :
    ∃ p r, k = code p ∧ FirstStored toLower [kind] p rules r ∧ val = some r.val := by
  have hfind := PrefixMap.find_of_longestPrefix h
  rw [List.find?_map] at hfind
  obtain ⟨e, he, heq⟩ := Option.map_eq_some_iff.mp hfind
  cases heq
  have hlookup : lookupMap (ofKinds toLower [kind] rules) e.1 = some e.2 := by
    unfold lookupMap
    have hsame : (fun e' : Text × V => decide (e'.1 = e.1)) =
        (fun e' : Text × Option V => decide (e'.1 = code e.1)) ∘
          fun e' : Text × V => (code e'.1, some e'.2) := by
      funext e'
      simp [hcode.eq_iff]
    rw [hsame, he]
    rfl
  obtain ⟨r, hr, hval⟩ := lookupMap_ofKinds_iff.mp hlookup
  exact ⟨e.1, r, rfl, hr, congrArg some hval.symm⟩

theorem answers_of_evalKind (hm : Represents toLower rules m)
    (h : m.evalKind name kind = some (reason, val)) :
    ∃ r, Answers toLower rules name kind r ∧ val = some r.val := by
  have hlisted (hkind : kind ∈ indirectKinds) :
      ∃ r, Answers toLower rules name kind r ∧ val = some r.val := by
    obtain ⟨r', -, -, hval⟩ := candidate_of_listed hm hkind h
    rw [evalKind_listed toLower hm hkind name] at h
    obtain ⟨p, hp, heq⟩ := Option.map_eq_some_iff.mp h
    obtain ⟨-, hlookup⟩ := Prod.mk.inj heq
    rw [hval] at hlookup
    obtain ⟨r, hr, hrval⟩ := lookupMap_ofKinds_reverse_iff.mp hlookup
    exact ⟨r, .listed hkind hp hr, by rw [hval, hrval]⟩
  cases kind with
  | exact =>
    have hexact : m.evalExact name = some (reason, val) := h
    unfold evalExact at hexact
    split at hexact
    · next v hv =>
      cases hexact
      rw [hm.exacts, ← List.map_reverse] at hv
      have hlookup : lookupMap (ofKinds toLower [.exact] rules).reverse name = some v := by
        unfold lookupMap at hv ⊢
        rw [List.find?_map] at hv
        obtain ⟨e, he, heq⟩ := Option.map_eq_some_iff.mp hv
        obtain ⟨e', he', rfl⟩ := Option.map_eq_some_iff.mp he
        cases heq
        rw [Option.map_eq_some_iff]
        exact ⟨e', he', rfl⟩
      obtain ⟨r, hr, hrval⟩ := lookupMap_ofKinds_reverse_iff.mp hlookup
      exact ⟨r, .exact hr, congrArg some hrval.symm⟩
    · cases hexact
  | suffix =>
    have hsuffix : m.evalSuffixes name = some (reason, val) := h
    have hfound := (evalSuffixes_isSome hm name).mp (Option.isSome_of_eq_some hsuffix)
    obtain ⟨hit, hl⟩ := longestPrefix_of_evalSuffixes hsuffix
    rw [hm.suffixes, PrefixMap.longestPrefix_ofList] at hl
    have hlongest := longestPrefix_reverse hl
    obtain ⟨p, r, rfl, hr, hval⟩ := firstStored_of_longestPrefix List.reverse_injective hl
    rw [List.reverse_reverse] at hlongest
    exact ⟨r, .suffix hfound hlongest hr, hval⟩
  | pre =>
    have hpre : m.evalPrefixes name = some (reason, val) := h
    obtain ⟨⟨hit, xval⟩, hl, heq⟩ := Option.map_eq_some_iff.mp hpre
    obtain ⟨-, rfl⟩ := Prod.mk.inj heq
    rw [hm.prefixes, PrefixMap.longestPrefix_ofList] at hl
    obtain ⟨hmem, hprefix, hmax⟩ := PrefixMap.longestPrefix_eq_some hl
    have hcoded : PrefixMap.longestPrefix
        ((ofKinds toLower [.pre] rules).map fun e => (id e.1, some e.2)) name = some (hit, xval) := hl
    obtain ⟨p, r, rfl, hr, hval⟩ := firstStored_of_longestPrefix Function.injective_id hcoded
    refine ⟨r, .pre ⟨hr.mem_kindTexts, hprefix, fun q hq hqpre => ?_⟩ hr, hval⟩
    obtain ⟨e, he, rfl⟩ := List.mem_map.mp hq
    exact hmax _ (List.mem_map.mpr ⟨e, he, rfl⟩) hqpre
  | substring => exact hlisted (by decide)
  | pattern => exact hlisted (by decide)

theorem Answers.candidate (h : Answers toLower rules name kind r) :
    Candidate toLower rules name kind r := by
  cases h with
  | exact last =>
    obtain ⟨hmem, kind, hkind, hs⟩ := last.stored
    cases List.mem_singleton.mp hkind
    exact .exact (List.mem_reverse.mp hmem) hs
  | suffix found longest first =>
    obtain ⟨hmem, kind, hkind, hs⟩ := first.stored
    cases List.mem_singleton.mp hkind
    exact .suffix found longest hmem hs
  | pre longest first =>
    obtain ⟨hmem, kind, hkind, hs⟩ := first.stored
    cases List.mem_singleton.mp hkind
    exact .pre longest hmem hs
  | listed listed hit last =>
    obtain ⟨hmem, kind', hkind', hs⟩ := last.stored
    have hmatched := List.find?_some hit
    exact .listed listed (List.mem_of_find?_eq_some hit) (of_decide_eq_true hmatched)
      (List.mem_reverse.mp hmem) hkind' hs

theorem Answers.val_eq (h : Answers toLower rules name kind r)
    (h' : Answers toLower rules name kind r') : r.val = r'.val := by
  cases h with
  | exact last =>
    cases h' with
    | exact last' => exact last.val_eq last'
    | listed listed => exact absurd listed (by decide)
  | suffix found longest first =>
    cases h' with
    | suffix found' longest' first' => exact first.val_eq (longest.unique longest' ▸ first')
    | listed listed => exact absurd listed (by decide)
  | pre longest first =>
    cases h' with
    | pre longest' first' => exact first.val_eq (longest.unique longest' ▸ first')
    | listed listed => exact absurd listed (by decide)
  | listed listed hit last =>
    cases h' with
    | listed listed' hit' last' =>
      rw [hit] at hit'
      cases hit'
      exact last.val_eq last'
    | exact => exact absurd listed (by decide)
    | suffix => exact absurd listed (by decide)
    | pre => exact absurd listed (by decide)

theorem find_foremost (hm : Represents toLower rules m) (h : m.find name = some (reason, val)) :
    ∃ r, Foremost toLower rules name r ∧ val = some r.val := by
  rw [find_eq_findSome, List.findSome?_eq_some_iff] at h
  obtain ⟨before, kind, after, hsplit, hkind, hbefore⟩ := h
  obtain ⟨r, hr, hval⟩ := answers_of_evalKind hm hkind
  refine ⟨r, ⟨before, kind, after, hsplit, hr, fun kind' hkind' r' hr' => ?_⟩, hval⟩
  have hsome := hr'.evalKind_isSome hm
  rw [hbefore kind' hkind'] at hsome
  cases hsome

theorem Foremost.find (hm : Represents toLower rules m) (h : Foremost toLower rules name r) :
    ∃ reason, m.find name = some (reason, some r.val) := by
  obtain ⟨before, kind, after, hsplit, hr, hbefore⟩ := h
  obtain ⟨⟨reason, val⟩, heval⟩ := Option.isSome_iff_exists.mp (hr.candidate.evalKind_isSome hm)
  obtain ⟨r', hr', hval⟩ := answers_of_evalKind hm heval
  refine ⟨reason, ?_⟩
  rw [hr'.val_eq hr] at hval
  rw [find_eq_findSome, List.findSome?_eq_some_iff, ← hval]
  refine ⟨before, kind, after, hsplit, heval, fun kind' hkind' => ?_⟩
  cases heval' : m.evalKind name kind' with
  | none => rfl
  | some found =>
    obtain ⟨r', hr', -⟩ := candidate_of_evalKind hm heval'
    exact absurd hr' (hbefore kind' hkind' r')

theorem Foremost.mem (h : Foremost toLower rules name r) : r ∈ rules := by
  obtain ⟨before, kind, after, -, hr, -⟩ := h
  exact hr.candidate.mem

theorem Foremost.val_eq (hm : Represents toLower rules m) (h : Foremost toLower rules name r)
    (h' : Foremost toLower rules name r') : r.val = r'.val := by
  obtain ⟨reason, hfind⟩ := h.find hm
  obtain ⟨reason', hfind'⟩ := h'.find hm
  rw [hfind] at hfind'
  exact Option.some.inj (Prod.mk.inj (Option.some.inj hfind')).2

theorem eval_of_find (h : 2 ≤ name.length) (hfind : m.find name = some (reason, val)) :
    m.eval name = ⟨true, reason, val⟩ := by
  simp [eval, hfind, Nat.not_lt.mpr h]

end Values

end PatternMatcher

/-! ## When `check` and the rules agree -/

namespace BlockedNames

open PatternMatcher

variable (toLower : Text → Text) (now : LocalTime) (rules : List (Rule Schedule)) (name : Text)

/-- Some rule of the list matches the name and applies at this time. -/
def Blocked : Prop := ∃ r ∈ rules, r.Matches toLower name ∧ inForce now r.val = true

/-- A rule applies, but the matching rules are suffix rules that the lookup misses. -/
def Hidden : Prop :=
  ∃ r ∈ rules, r.Matches toLower name ∧ inForce now r.val = true ∧
    OnlySuffixMatches toLower rules name ∧ SuffixHidden toLower rules name

/-- A rule applies, and another one that is out of its hours comes first. -/
def Shadowed : Prop :=
  ∃ r ∈ rules, r.Matches toLower name ∧ inForce now r.val = true ∧
    ∃ first, Foremost toLower rules name first ∧ inForce now first.val = false

def Borrowed : Prop :=
  ∃ first, Foremost toLower rules name first ∧ ¬ first.Matches toLower name ∧
    inForce now first.val = true ∧ ∀ r ∈ rules, r.Matches toLower name → inForce now r.val = false

def Unlogged (logger : Bool) (st : PluginsState) : Prop :=
  logger = true ∧ (∃ first, Foremost toLower rules name first ∧ inForce now first.val = true) ∧
    ∃ panic, st.clientIPStr = .error panic

structure Faultless (logger : Bool) (st : PluginsState) : Prop where
  hidden : ¬ Hidden toLower now rules name
  shadowed : ¬ Shadowed toLower now rules name
  borrowed : ¬ Borrowed toLower now rules name
  logged : ¬ Unlogged toLower now rules name logger st

/-- The state with which a name is rejected. -/
def rejected (st : PluginsState) : PluginsState :=
  { st with action := .reject, returnCode := .reject }

/-- `check` returns, with the verdict of the rules and the action that goes with it. -/
def Judges (logger : Bool) (st : PluginsState) : Prop :=
  (check ⟨load toLower rules, logger⟩ now st name = .ok (true, rejected st) ↔
    Blocked toLower now rules name) ∧
  (check ⟨load toLower rules, logger⟩ now st name = .ok (false, st) ↔
    ¬ Blocked toLower now rules name)

section Check

variable {toLower now rules name} {logger : Bool} {st : PluginsState} {first : Rule Schedule}

theorem check_of_letThrough (h : 2 ≤ name.length) (hfirst : Foremost toLower rules name first)
    (hout : inForce now first.val = false) :
    check ⟨load toLower rules, logger⟩ now st name = .ok (false, st) := by
  obtain ⟨reason, hfind⟩ := hfirst.find (represents_load toLower rules)
  simp [check, eval_of_find h hfind, hout]

theorem check_of_inForce (h : 2 ≤ name.length) (hfirst : Foremost toLower rules name first)
    (hin : inForce now first.val = true) :
    check ⟨load toLower rules, logger⟩ now st name =
      (st.logTo logger).map fun _ => (true, rejected st) := by
  obtain ⟨reason, hfind⟩ := hfirst.find (represents_load toLower rules)
  have hcheck : check ⟨load toLower rules, logger⟩ now st name =
      (st.logTo logger).bind fun _ => .ok (true, rejected st) := by
    simp only [check, eval_of_find h hfind, Option.join_some, hin]
    rfl
  rw [hcheck]
  cases st.logTo logger <;> rfl

theorem check_of_no_foremost (h : 2 ≤ name.length)
    (hnone : ∀ r, ¬ Foremost toLower rules name r) :
    check ⟨load toLower rules, logger⟩ now st name = .ok (false, st) := by
  have hfind : (load toLower rules).find name = none := by
    cases hf : (load toLower rules).find name with
    | none => rfl
    | some found =>
      obtain ⟨r, hr, -⟩ := find_foremost (represents_load toLower rules) hf
      exact absurd hr (hnone r)
  simp [check, eval, hfind, Nat.not_lt.mpr h]

theorem exists_foremost_iff :
    (∃ first, Foremost toLower rules name first) ↔ (∃ r ∈ rules, r.Matches toLower name) ∧
      ¬ (OnlySuffixMatches toLower rules name ∧ SuffixHidden toLower rules name) := by
  have hm := represents_load toLower rules
  rw [← find_isSome_iff toLower hm name]
  constructor
  · rintro ⟨first, hfirst⟩
    obtain ⟨reason, hfind⟩ := hfirst.find hm
    exact Option.isSome_of_eq_some hfind
  · intro hsome
    obtain ⟨⟨reason, val⟩, hfind⟩ := Option.isSome_iff_exists.mp hsome
    obtain ⟨first, hfirst, -⟩ := find_foremost hm hfind
    exact ⟨first, hfirst⟩

theorem judges_of_letThrough
    (h : check ⟨load toLower rules, logger⟩ now st name = .ok (false, st)) :
    Judges toLower now rules name logger st ↔ ¬ Blocked toLower now rules name := by
  simp [Judges, h]

theorem faultless_of_no_foremost (hnone : ∀ r, ¬ Foremost toLower rules name r) :
    Faultless toLower now rules name logger st ↔ ¬ Blocked toLower now rules name := by
  constructor
  · rintro hf ⟨r, hr, hmatch, hin⟩
    have hmissed : OnlySuffixMatches toLower rules name ∧ SuffixHidden toLower rules name := by
      by_contra hc
      obtain ⟨first, hfirst⟩ := exists_foremost_iff.mpr ⟨⟨r, hr, hmatch⟩, hc⟩
      exact hnone first hfirst
    exact hf.hidden ⟨r, hr, hmatch, hin, hmissed⟩
  · intro hb
    exact {
      hidden := fun ⟨r, hr, hmatch, hin, _⟩ => hb ⟨r, hr, hmatch, hin⟩
      shadowed := fun ⟨_, _, _, _, first, hfirst, _⟩ => hnone first hfirst
      borrowed := fun ⟨first, hfirst, _⟩ => hnone first hfirst
      logged := fun ⟨_, ⟨first, hfirst, _⟩, _⟩ => hnone first hfirst }

theorem not_inForce_of_foremost {first' : Rule Schedule} (h : Foremost toLower rules name first)
    (h' : Foremost toLower rules name first') (hout : inForce now first.val = false) :
    inForce now first'.val ≠ true := by
  rw [← h.val_eq (represents_load toLower rules) h', hout]
  exact Bool.false_ne_true

theorem faultless_of_letThrough (hfirst : Foremost toLower rules name first)
    (hout : inForce now first.val = false) :
    Faultless toLower now rules name logger st ↔ ¬ Blocked toLower now rules name := by
  constructor
  · rintro hf ⟨r, hr, hmatch, hin⟩
    exact hf.shadowed ⟨r, hr, hmatch, hin, first, hfirst, hout⟩
  · intro hb
    exact {
      hidden := fun ⟨r, hr, hmatch, hin, _⟩ => hb ⟨r, hr, hmatch, hin⟩
      shadowed := fun ⟨r, hr, hmatch, hin, _⟩ => hb ⟨r, hr, hmatch, hin⟩
      borrowed := fun ⟨_, h, _, hin, _⟩ => not_inForce_of_foremost hfirst h hout hin
      logged := fun ⟨_, ⟨_, h, hin⟩, _⟩ => not_inForce_of_foremost hfirst h hout hin }

theorem faultless_of_inForce (hfirst : Foremost toLower rules name first)
    (hin : inForce now first.val = true) (hlogged : ¬ Unlogged toLower now rules name logger st) :
    Faultless toLower now rules name logger st ↔ Blocked toLower now rules name := by
  have hmem : first ∈ rules := hfirst.mem
  constructor
  · intro hf
    by_contra hb
    have hnone : ∀ r ∈ rules, r.Matches toLower name → inForce now r.val = false :=
      fun r hr hmatch => Bool.eq_false_iff.mpr fun hr' => hb ⟨r, hr, hmatch, hr'⟩
    exact hf.borrowed ⟨first, hfirst, fun hmatch => hb ⟨first, hmem, hmatch, hin⟩, hin, hnone⟩
  · rintro ⟨r, hr, hmatch, hinr⟩
    exact {
      hidden := fun ⟨_, _, _, _, hmissed⟩ => (exists_foremost_iff.mp ⟨first, hfirst⟩).2 hmissed
      shadowed := fun ⟨_, _, _, _, _, h, hout⟩ => not_inForce_of_foremost h hfirst hout hin
      borrowed := fun ⟨_, _, _, _, hnone⟩ => by
        rw [hnone r hr hmatch] at hinr
        cases hinr
      logged := hlogged }

theorem judges_iff_of_inForce (h : 2 ≤ name.length) (hfirst : Foremost toLower rules name first)
    (hin : inForce now first.val = true) :
    Judges toLower now rules name logger st ↔ Faultless toLower now rules name logger st := by
  have hcheck : check ⟨load toLower rules, logger⟩ now st name = _ := check_of_inForce h hfirst hin
  by_cases hu : Unlogged toLower now rules name logger st
  · -- the panic is neither verdict, so that one of the two equivalences fails
    obtain ⟨rfl, -, panic, hpanic⟩ := id hu
    have herr : check ⟨load toLower rules, true⟩ now st name = .error panic := by
      rw [hcheck, PluginsState.logTo, if_pos rfl, hpanic]
      rfl
    have hjudges : ¬ Judges toLower now rules name true st := by
      rintro ⟨hreject, hpass⟩
      rw [herr] at hreject hpass
      by_cases hb : Blocked toLower now rules name
      · exact absurd (hreject.mpr hb) (by simp)
      · exact absurd (hpass.mpr hb) (by simp)
    exact iff_of_false hjudges fun hf => hf.logged hu
  · rw [faultless_of_inForce hfirst hin hu]
    have hlog : st.logTo logger = .ok () := by
      unfold PluginsState.logTo
      split
      · next hlogger =>
        cases hc : st.clientIPStr with
        | ok client => rfl
        | error panic => exact absurd ⟨hlogger, ⟨first, hfirst, hin⟩, panic, hc⟩ hu
      · rfl
    rw [hlog] at hcheck
    simp [Judges, hcheck, Except.map]

theorem judges_iff_faultless (h : 2 ≤ name.length) :
    Judges toLower now rules name logger st ↔ Faultless toLower now rules name logger st := by
  by_cases hsome : ∃ first, Foremost toLower rules name first
  · obtain ⟨first, hfirst⟩ := hsome
    cases hin : inForce now first.val with
    | false =>
      rw [judges_of_letThrough (check_of_letThrough h hfirst hin),
        faultless_of_letThrough hfirst hin]
    | true => exact judges_iff_of_inForce h hfirst hin
  · have hnone := not_exists.mp hsome
    rw [judges_of_letThrough (check_of_no_foremost h hnone), faultless_of_no_foremost hnone]

end Check

/-- `check` returns, and rejects a name with the action that goes with it exactly when some rule of
the list both matches it and applies, unless such a rule is hidden, shadowed by one that is out of
its hours or borrows the hours of another, or the log cannot be written. Away from these cases
adding a rule unblocks nothing. -/
theorem check_rejects_iff_blocked (logger : Bool) (st : PluginsState) (h : 2 ≤ name.length) :
    (Judges toLower now rules name logger st ↔ Faultless toLower now rules name logger st) ∧
      ∀ r, Faultless toLower now rules name logger st →
        Faultless toLower now (rules ++ [r]) name logger st →
        check ⟨load toLower rules, logger⟩ now st name = .ok (true, rejected st) →
        check ⟨load toLower (rules ++ [r]), logger⟩ now st name = .ok (true, rejected st) := by
  refine ⟨judges_iff_faultless h, fun r hbefore hafter hrejects => ?_⟩
  obtain ⟨r', hr', hmatch⟩ := ((judges_iff_faultless h).mpr hbefore).1.mp hrejects
  exact ((judges_iff_faultless h).mpr hafter).1.mpr ⟨r', List.mem_append_left _ hr', hmatch⟩

def mondayMorning : LocalTime := ⟨1, 9, 0⟩

def sundays : WeeklyRanges := ⟨fun day => if day = 0 then [⟨-1, 86402⟩] else []⟩

def sampleState : PluginsState :=
  newPluginsState ⟨512, ⟨60, 3600, 60, 3600⟩, 10⟩ .udp (some (.udp [127, 0, 0, 1] 5353)) .udp

def substringRule : Rule Schedule := ⟨"*example*".toList, none, 1⟩

def sundayRule : Rule Schedule := ⟨"example.com".toList, some sundays, 2⟩

theorem substringRule_matches : substringRule.Matches asciiLower "www.example.com".toList :=
  ⟨.substring, "example".toList, by decide, "www.".toList, ".com".toList, by decide⟩

/-- With the substring rule alone the name is rejected, as the rule has it. -/
theorem substring_rule_blocks_monday :
    2 ≤ "www.example.com".toList.length ∧
      Faultless asciiLower mondayMorning [substringRule] "www.example.com".toList true sampleState ∧
      check ⟨load asciiLower [substringRule], true⟩ mondayMorning sampleState
        "www.example.com".toList = .ok (true, rejected sampleState) ∧
      Blocked asciiLower mondayMorning [substringRule] "www.example.com".toList := by
  have hblocked : Blocked asciiLower mondayMorning [substringRule] "www.example.com".toList :=
    ⟨substringRule, List.mem_singleton_self _, substringRule_matches, rfl⟩
  have hiff := (check_rejects_iff_blocked asciiLower mondayMorning [substringRule]
    "www.example.com".toList true sampleState (by decide)).1
  have hcheck : check ⟨load asciiLower [substringRule], true⟩ mondayMorning sampleState
      "www.example.com".toList = .ok (true, rejected sampleState) := rfl
  refine ⟨by decide, hiff.mp ⟨iff_of_true hcheck hblocked, ?_⟩, hcheck, hblocked⟩
  rw [hcheck]
  exact iff_of_false (by simp) (not_not_intro hblocked)

/-- On a Monday `*example*` blocks `www.example.com`; adding a rule for the same name
on Sundays lets it through. -/
theorem sunday_rule_unblocks_monday :
    check ⟨load asciiLower [substringRule], false⟩ mondayMorning sampleState
        "www.example.com".toList = .ok (true, rejected sampleState) ∧
      check ⟨load asciiLower [substringRule, sundayRule], false⟩ mondayMorning sampleState
        "www.example.com".toList = .ok (false, sampleState) ∧
      Blocked asciiLower mondayMorning [substringRule, sundayRule] "www.example.com".toList :=
  ⟨rfl, rfl, substringRule, List.mem_cons_self, substringRule_matches, rfl⟩

end BlockedNames

end DnscryptProxy
