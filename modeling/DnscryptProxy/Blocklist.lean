import DnscryptProxy.Library.Chain
import DnscryptProxy.Library.Fnmatch
import DnscryptProxy.Library.Words
import DnscryptProxy.PatternMatcher
import Mathlib.Data.List.Sort

/-! `generate-domains-blocklist.py`: lists of names and patterns are merged into one, without
the entries that others cover and without what is allowed.

`mem_rule_iff` says which entries are left. A name that the lists block can be let through by this,
if all topmost entries that match it are dropped (`Lost`); `listed_iff_not_lost` says that there is
no other way, and `not_lost_of_harmless` that there are lists for which no name is lost: a pattern
that covers a name has to cover everything below that name, and what a pattern or a name is dropped
for has to be a plain name. -/

namespace DnscryptProxy.Blocklist

open Library Fnmatch
open PatternMatcher (AtLabel)

/-! ## Names and patterns -/

section Patterns

variable (brackets : Brackets)

def isGlob (pattern : Text) : Bool :=
  let maybeGlob := pattern.zipIdx.any fun (c, i) =>
    c = '?' || c = '[' ||
      (c = '*' && i ≠ 0 && (i < pattern.length - 1 || pattern[i - 1]? = some '.'))
  maybeGlob && (fnmatch brackets "example".toList pattern).isSome

def coveredByGlob (globs : List Text) (name : Text) : Bool :=
  if globs.contains name then false
  else globs.any fun glob => fnmatch brackets name glob = some true

end Patterns

/-- The loop of `has_suffix`, with the labels that are left. Its last turn has none. -/
def hasSuffixParts (names : List Text) : List Text → Bool
  | [] => false
  | _ :: parts => names.contains (['.'].intercalate parts) || hasSuffixParts names parts

def hasSuffix (names : List Text) (name : Text) : Bool := hasSuffixParts names (name.splitOn '.')

/-- The key that names are sorted by: the labels in reverse order. -/
def nameCmp (name : Text) : Text := ['.'].intercalate (name.splitOn '.').reverse

/-- Strings are compared by code points. -/
def NotAfter (a b : Text) : Prop :=
  (nameCmp b).lex (nameCmp a) (fun c d => c.toNat.blt d.toNat) = false

instance : DecidableRel NotAfter := fun _ _ => inferInstanceAs (Decidable (_ = false))

/-! ## Lists -/

/-- What `parse_list` returns. A pattern is among the names too. -/
structure ParsedList (brackets : Brackets) where
  names : List Text
  globs : List Text
  nodup : names.Nodup
  nonempty : [] ∉ names
  globs_subset : globs ⊆ names
  globs_isGlob : ∀ g ∈ globs, isGlob brackets g = true

/-- The names of the time-restricted list, with the labels of those that have one. -/
structure TimeRestricted where
  names : List Text
  timeRestrictions : List (Text × Text)
  nonempty : [] ∉ names

/-- The URLs of the configuration with what loading them gives, and the other lists. -/
structure Inputs (brackets : Brackets) where
  loads : List (Text × Except Text (ParsedList brackets))
  ignoreRetrievalFailure : Bool
  timeRestricted : Option TimeRestricted
  allowlist : Option (ParsedList brackets)

/-- The variables of the first loop of `blocklists_from_config_file`. -/
structure Loaded where
  blocklists : List (Text × List Text)
  allNames : List Text
  allGlobs : List Text

section Load

variable {brackets : Brackets}

def Loaded.add (loaded : Loaded) (url : Text) (list : ParsedList brackets) : Loaded :=
  ⟨putMap loaded.blocklists url list.names, loaded.allNames ++ list.names,
    loaded.allGlobs ++ list.globs⟩

/-- The error is the exit code. -/
def loadLists (ignoreRetrievalFailure : Bool) :
    List (Text × Except Text (ParsedList brackets)) → Loaded → Except Nat Loaded
  | [], loaded => .ok loaded
  | (url, .ok list) :: loads, loaded => loadLists ignoreRetrievalFailure loads (loaded.add url list)
  | (_, .error _) :: loads, loaded =>
    if ignoreRetrievalFailure then loadLists ignoreRetrievalFailure loads loaded else .error 1

/-- The names that are not to be blocked, or not always. -/
def Inputs.allowedNames (inputs : Inputs brackets) : List Text :=
  (inputs.timeRestricted.map TimeRestricted.names).getD [] ++
    (inputs.allowlist.map ParsedList.names).getD []

end Load

/-! ## The generated list -/

/-- What is printed. -/
inductive Line where
  | timeHeader
  | restricted (name label : Text)
  | unrestricted (name : Text)
  | header (url : Text)
  | duplicates (ignored : Nat)
  | overlapping (globIgnored : Nat)
  | allowedEntries (allowed : Nat)
  | blank
  | rule (name : Text)
  deriving DecidableEq, Repr

def Line.text : Line → String
  | .timeHeader => "########## Time-based blocklist ##########\n"
  | .restricted name label => String.ofList name ++ "\t" ++ String.ofList label
  | .unrestricted name => "# ignored: [" ++ String.ofList name ++
      "] was in the time-restricted list, but without a time restriction label"
  | .header url => "\n\n########## Blocklist from " ++ String.ofList url ++ " ##########\n"
  | .duplicates ignored => "# Ignored duplicates: " ++ toString ignored
  | .overlapping globIgnored =>
    "# Ignored due to overlapping local patterns: " ++ toString globIgnored
  | .allowedEntries allowed => "# Ignored entries due to the allowlist: " ++ toString allowed
  | .blank => ""
  | .rule name => String.ofList name

def printRestrictedName (timeRestrictions : List (Text × Text)) (name : Text) : Line :=
  match lookupMap timeRestrictions name with
  | some label => .restricted name label
  | none => .unrestricted name

def printTimeRestricted (list : TimeRestricted) : List Line :=
  if list.names = [] then []
  else .timeHeader :: list.names.map (printRestrictedName list.timeRestrictions)

/-- The variables of the loop over the names of a list. -/
structure Progress where
  uniqueNames : List Text
  listNames : List Text
  ignored : Nat
  globIgnored : Nat
  allowed : Nat

section Generate

variable (brackets : Brackets) (loaded : Loaded) (allowedNames : List Text)

def processName (progress : Progress) (name : Text) : Progress :=
  if coveredByGlob brackets loaded.allGlobs name then
    { progress with globIgnored := progress.globIgnored + 1 }
  else if hasSuffix loaded.allNames name || progress.uniqueNames.contains name then
    { progress with ignored := progress.ignored + 1 }
  else if hasSuffix allowedNames name || allowedNames.contains name then
    { progress with allowed := progress.allowed + 1 }
  else
    { progress with
      listNames := progress.listNames ++ [name], uniqueNames := progress.uniqueNames ++ [name] }

def printList (url : Text) (progress : Progress) : List Line :=
  let count := fun (n : Nat) (line : Line) => if n = 0 then [] else [line]
  [.header url] ++ count progress.ignored (.duplicates progress.ignored) ++
    count progress.globIgnored (.overlapping progress.globIgnored) ++
    count progress.allowed (.allowedEntries progress.allowed) ++
    count (progress.ignored + progress.globIgnored + progress.allowed) .blank ++
    (progress.listNames.insertionSort NotAfter).map .rule

/-- The loop over the lists, with the names that were listed before. -/
def processLists : List (Text × List Text) → List Text → List Line
  | [], _ => []
  | (url, names) :: blocklists, uniqueNames =>
    let progress := names.foldl (processName brackets loaded allowedNames) ⟨uniqueNames, [], 0, 0, 0⟩
    printList url progress ++ processLists blocklists progress.uniqueNames

end Generate

def blocklistsFromConfigFile {brackets : Brackets} (inputs : Inputs brackets) :
    Except Nat (List Line) := do
  let loaded ← loadLists inputs.ignoreRetrievalFailure inputs.loads ⟨[], [], []⟩
  return (inputs.timeRestricted.map printTimeRestricted).getD [] ++
    processLists brackets loaded inputs.allowedNames loaded.blocklists []

/-! ## Parents -/

variable {p name : Text}

theorem dot_suffix_append {x rest : Text} (hx : '.' ∉ x) :
    '.' :: p <:+ x ++ '.' :: rest ↔ p = rest ∨ '.' :: p <:+ rest := by
  induction x with
  | nil => simp [List.suffix_cons_iff]
  | cons c x ih =>
    have hc : '.' ≠ c := fun h => hx (h ▸ List.mem_cons_self)
    rw [List.cons_append, List.suffix_cons_iff, ih fun h => hx (List.mem_cons_of_mem c h)]
    simp [hc]

theorem hasSuffix_iff {names : List Text} (hnames : [] ∉ names) (name : Text) :
    hasSuffix names name = true ↔ ∃ p ∈ names, '.' :: p <:+ name := by
  by_cases hdot : '.' ∈ name
  · obtain ⟨x, rest, rfl, hx⟩ := List.eq_append_cons_of_mem hdot
    have hlt : rest.length < (x ++ '.' :: rest).length := by
      rw [List.length_append, List.length_cons]
      omega
    have ih := hasSuffix_iff hnames rest
    unfold hasSuffix at ih ⊢
    rw [splitOn_append_sep hx, hasSuffixParts, Bool.or_eq_true, ih, List.intercalate_splitOn,
      List.contains_iff_mem]
    simp only [dot_suffix_append hx]
    constructor
    · rintro (hmem | ⟨p, hp, hsuffix⟩)
      · exact ⟨rest, hmem, .inl rfl⟩
      · exact ⟨p, hp, .inr hsuffix⟩
    · rintro ⟨p, hp, rfl | hsuffix⟩
      · exact .inl hp
      · exact .inr ⟨p, hp, hsuffix⟩
  · have hempty : names.contains ([] : Text) = false := by simpa using hnames
    unfold hasSuffix
    rw [splitOn_of_not_mem hdot]
    simp only [hasSuffixParts, List.intercalate, List.intersperse_nil, List.flatten_nil, hempty,
      Bool.or_self, Bool.false_eq_true, false_iff, not_exists, not_and]
    exact fun p _ hsuffix => hdot (hsuffix.subset List.mem_cons_self)
termination_by name.length

theorem not_hasSuffix {names : List Text} (hnames : [] ∉ names)
    (h : ∀ p ∈ names, ¬ '.' :: p <:+ name) : hasSuffix names name = false := by
  rw [← Bool.not_eq_true, hasSuffix_iff hnames]
  rintro ⟨p, hp, hsuffix⟩
  exact h p hp hsuffix

theorem atLabel_of_parent {r : Text} (hp : '.' :: p <:+ r) (hr : AtLabel r name) :
    AtLabel p name := by
  rcases hr with rfl | hr
  · exact .inr hp
  · exact .inr (hp.trans ((List.suffix_cons '.' r).trans hr))

theorem atLabel_trans {r : Text} (hp : AtLabel p r) (hr : AtLabel r name) : AtLabel p name := by
  rcases hp with rfl | hp
  · exact hr
  · exact atLabel_of_parent hp hr

theorem isGlob_plain {brackets : Brackets} (hp : ∀ c ∈ p, Plain c) : isGlob brackets p = false := by
  unfold isGlob
  rw [Bool.and_eq_false_iff]
  refine .inl (List.any_eq_false.mpr ?_)
  rintro ⟨c, i⟩ hci
  obtain ⟨hstar, hany, hopen, -⟩ := hp c (List.fst_mem_of_mem_zipIdx hci)
  simp [hstar, hany, hopen]

/-! ## What is blocked -/

section Blocked

variable (brackets : Brackets)

/-- A pattern matches as `fnmatch` says, and a name itself and everything below it. -/
def RuleMatches (globs : List Text) (rule name : Text) : Prop :=
  if globs.contains rule then fnmatch brackets name rule = some true else AtLabel rule name

instance (globs : List Text) (rule name : Text) : Decidable (RuleMatches brackets globs rule name) :=
  inferInstanceAs (Decidable (if globs.contains rule then _ else _))

theorem ruleMatches_glob {globs : List Text} {rule : Text} (h : rule ∈ globs) (name : Text) :
    RuleMatches brackets globs rule name ↔ fnmatch brackets name rule = some true := by
  rw [RuleMatches, if_pos (List.contains_iff_mem.mpr h)]

theorem ruleMatches_name {globs : List Text} {rule : Text} (h : rule ∉ globs) (name : Text) :
    RuleMatches brackets globs rule name ↔ AtLabel rule name := by
  rw [RuleMatches, if_neg fun hmem => h (List.contains_iff_mem.mp hmem)]

/-- Nothing is unblocked by what is dropped. -/
structure Harmless (names globs allowedNames : List Text) : Prop where
  covers : ∀ n ∈ names, n ∉ globs → coveredByGlob brackets globs n = true →
    ∃ g ∈ globs, fnmatch brackets n g = some true ∧
      ∀ name, AtLabel n name → fnmatch brackets name g = some true
  globParents : ∀ g ∈ globs, ∀ p, p ∈ names ∨ p ∈ allowedNames → '.' :: p <:+ g → ∀ c ∈ p, Plain c
  nameParents : ∀ n ∈ names, n ∉ globs → ∀ p ∈ globs, ¬ '.' :: p <:+ n
  globs_not_allowed : ∀ g ∈ globs, g ∉ allowedNames

/-- None of the reasons for which `processName` drops a name. -/
structure Survives (names globs allowedNames : List Text) (n : Text) : Prop where
  uncovered : coveredByGlob brackets globs n = false
  top : hasSuffix names n = false
  notBelow : hasSuffix allowedNames n = false
  notAllowed : n ∉ allowedNames

/-- An entry that matches the name, with no entry above it that does. -/
structure Topmost (names globs : List Text) (rule name : Text) : Prop where
  mem : rule ∈ names
  matched : RuleMatches brackets globs rule name
  top : ∀ p ∈ names, '.' :: p <:+ rule → ¬ RuleMatches brackets globs p name

/-- Why a topmost entry is dropped. -/
inductive Dropped (names globs allowedNames : List Text) (rule : Text) : Prop where
  /-- A pattern covers a name. It need not match what is below the name. -/
  | covered {glob : Text} (isName : rule ∉ globs) (mem : glob ∈ globs)
      (covers : fnmatch brackets rule glob = some true)
  /-- By its text the entry is below another one, which is a pattern or contains the wildcards of
  one. -/
  | below {parent : Text} (mem : parent ∈ names) (above : '.' :: parent <:+ rule)
  /-- The text of a pattern is allowed, or below one that is. -/
  | allowed {a : Text} (isGlob : rule ∈ globs) (mem : a ∈ allowedNames)
      (above : AtLabel a rule)

variable {brackets} {names globs allowedNames : List Text} {name : Text}

theorem coveredByGlob_glob {g : Text} (hg : g ∈ globs) : coveredByGlob brackets globs g = false :=
  if_pos (List.contains_iff_mem.mpr hg)

section Survivors

variable (hnames : [] ∉ names) (hallowed : [] ∉ allowedNames)

include hnames hallowed

theorem survives_of_top {n : Text}
    (huncovered : coveredByGlob brackets globs n = false)
    (htop : ∀ p ∈ names, ¬ '.' :: p <:+ n) (hbelow : ∀ p ∈ allowedNames, ¬ '.' :: p <:+ n)
    (hn : n ∉ allowedNames) : Survives brackets names globs allowedNames n :=
  ⟨huncovered, not_hasSuffix hnames htop, not_hasSuffix hallowed hbelow, hn⟩

theorem Topmost.survives_iff {rule : Text} (h : Topmost brackets names globs rule name)
    (hexcepted : ∀ a ∈ allowedNames, ¬ AtLabel a name) :
    Survives brackets names globs allowedNames rule ↔
      ¬ Dropped brackets names globs allowedNames rule := by
  constructor
  · rintro hsurvives (⟨hname, hglob, hcovers⟩ | ⟨hparent, habove⟩ | ⟨-, ha, habove⟩)
    · have hcovered := hsurvives.uncovered
      rw [coveredByGlob, if_neg fun hmem => hname (List.contains_iff_mem.mp hmem)] at hcovered
      exact absurd hcovers (by simpa using List.any_eq_false.mp hcovered _ hglob)
    · have htop := (hasSuffix_iff hnames rule).mpr ⟨_, hparent, habove⟩
      rw [hsurvives.top] at htop
      cases htop
    · rcases habove with rfl | habove
      · exact hsurvives.notAllowed ha
      · have hbelow := (hasSuffix_iff hallowed rule).mpr ⟨_, ha, habove⟩
        rw [hsurvives.notBelow] at hbelow
        cases hbelow
  · intro hdropped
    have hnotAllowed : ∀ a ∈ allowedNames, ¬ AtLabel a rule := by
      intro a ha habove
      by_cases hglob : rule ∈ globs
      · exact hdropped (.allowed hglob ha habove)
      · exact hexcepted a ha (atLabel_trans habove ((ruleMatches_name brackets hglob name).mp h.matched))
    refine survives_of_top hnames hallowed ?_ (fun p hp habove => hdropped (.below hp habove))
      (fun a ha habove => hnotAllowed a ha (.inr habove)) fun ha => hnotAllowed rule ha (.inl rfl)
    by_cases hglob : rule ∈ globs
    · exact coveredByGlob_glob hglob
    · rw [coveredByGlob, if_neg fun hmem => hglob (List.contains_iff_mem.mp hmem),
        List.any_eq_false]
      exact fun g hg hcovers => hdropped (.covered hglob hg (of_decide_eq_true hcovers))

theorem glob_survives (h : Harmless brackets names globs allowedNames)
    (hglobs : ∀ g ∈ globs, isGlob brackets g = true) {g n : Text} (hg : g ∈ globs)
    (hmatch : fnmatch brackets n g = some true)
    (htop : ∀ p ∈ names, p ∉ globs → ¬ '.' :: p <:+ n)
    (hbelow : ∀ p ∈ allowedNames, ¬ '.' :: p <:+ n) :
    Survives brackets names globs allowedNames g := by
  have hparent {p : Text} (hp : p ∈ names ∨ p ∈ allowedNames) (hsuffix : '.' :: p <:+ g) :
      p ∉ globs ∧ '.' :: p <:+ n := by
    have hplain := h.globParents g hg p hp hsuffix
    refine ⟨fun hpg => ?_, ?_⟩
    · have hglob := hglobs p hpg
      rw [isGlob_plain hplain] at hglob
      cases hglob
    · obtain ⟨x, rfl⟩ := hsuffix
      refine suffix_of_fnmatch ?_ hmatch
      intro c hc
      rcases List.mem_cons.mp hc with rfl | hc
      · decide
      · exact hplain c hc
  refine survives_of_top hnames hallowed (coveredByGlob_glob hg) ?_ ?_ (h.globs_not_allowed g hg)
  · intro p hp hsuffix
    obtain ⟨hpg, hn⟩ := hparent (.inl hp) hsuffix
    exact htop p hp hpg hn
  · intro p hp hsuffix
    exact hbelow p hp (hparent (.inr hp) hsuffix).2

theorem survivor_of_name (h : Harmless brackets names globs allowedNames)
    (hglobs : ∀ g ∈ globs, isGlob brackets g = true) (hsub : globs ⊆ names)
    (hexcepted : ∀ a ∈ allowedNames, ¬ AtLabel a name) {r : Text} (hr : r ∈ names)
    (hglob : r ∉ globs) (hmatch : AtLabel r name) :
    ∃ r ∈ names, Survives brackets names globs allowedNames r ∧ RuleMatches brackets globs r name := by
  by_cases hparent : ∃ p ∈ names, '.' :: p <:+ r
  · obtain ⟨p, hp, hsuffix⟩ := hparent
    have hlt : p.length < r.length := hsuffix.length_le
    exact survivor_of_name h hglobs hsub hexcepted hp
      (fun hpg => h.nameParents r hr hglob p hpg hsuffix) (atLabel_of_parent hsuffix hmatch)
  · have htop : ∀ p ∈ names, ¬ '.' :: p <:+ r := fun p hp hsuffix => hparent ⟨p, hp, hsuffix⟩
    have hbelow : ∀ p ∈ allowedNames, ¬ '.' :: p <:+ r := fun p hp hsuffix =>
      hexcepted p hp (atLabel_of_parent hsuffix hmatch)
    cases hcovered : coveredByGlob brackets globs r with
    | true =>
      obtain ⟨g, hg, hgr, hbelow'⟩ := h.covers r hr hglob hcovered
      refine ⟨g, hsub hg,
        glob_survives hnames hallowed h hglobs hg hgr (fun p hp _ => htop p hp) hbelow,
        ?_⟩
      exact (ruleMatches_glob brackets hg name).mpr (hbelow' name hmatch)
    | false =>
      refine ⟨r, hr, survives_of_top hnames hallowed hcovered htop hbelow ?_, ?_⟩
      · exact fun hra => hexcepted r hra hmatch
      · exact (ruleMatches_name brackets hglob name).mpr hmatch
termination_by r.length

theorem survivor_of_matched (h : Harmless brackets names globs allowedNames)
    (hglobs : ∀ g ∈ globs, isGlob brackets g = true) (hsub : globs ⊆ names)
    (hexcepted : ∀ a ∈ allowedNames, ¬ AtLabel a name) {r : Text} (hr : r ∈ names)
    (hmatch : RuleMatches brackets globs r name) :
    ∃ r ∈ names, Survives brackets names globs allowedNames r ∧ RuleMatches brackets globs r name := by
  by_cases hglob : r ∈ globs
  · rw [ruleMatches_glob brackets hglob] at hmatch
    by_cases hparent : ∃ p ∈ names, p ∉ globs ∧ '.' :: p <:+ name
    · obtain ⟨p, hp, hpg, hsuffix⟩ := hparent
      exact survivor_of_name hnames hallowed h hglobs hsub hexcepted hp hpg (.inr hsuffix)
    · refine ⟨r, hr, glob_survives hnames hallowed h hglobs hglob hmatch ?_ ?_, ?_⟩
      · exact fun p hp hpg hsuffix => hparent ⟨p, hp, hpg, hsuffix⟩
      · exact fun p hp hsuffix => hexcepted p hp (.inr hsuffix)
      · exact (ruleMatches_glob brackets hglob name).mpr hmatch
  · rw [ruleMatches_name brackets hglob] at hmatch
    exact survivor_of_name hnames hallowed h hglobs hsub hexcepted hr hglob hmatch

end Survivors

end Blocked

/-! ## Runs -/

section Load

variable {brackets : Brackets}

/-- The lists that could be loaded. -/
def okLoads (loads : List (Text × Except Text (ParsedList brackets))) :
    List (Text × ParsedList brackets) :=
  loads.filterMap fun (url, result) => result.toOption.map fun list => (url, list)

def Inputs.names (inputs : Inputs brackets) : List Text :=
  (okLoads inputs.loads).flatMap fun load => load.2.names

def Inputs.globs (inputs : Inputs brackets) : List Text :=
  (okLoads inputs.loads).flatMap fun load => load.2.globs

/-- The last load of its URL. -/
def IsLast (done : List (Text × ParsedList brackets)) (load : Text × ParsedList brackets) : Prop :=
  ∃ before after, done = before ++ load :: after ∧ load.1 ∉ after.map Prod.fst

variable {done : List (Text × ParsedList brackets)}

theorem isLast_append {last load : Text × ParsedList brackets} :
    IsLast (done ++ [last]) load ↔ load = last ∨ IsLast done load ∧ load.1 ≠ last.1 := by
  constructor
  · rintro ⟨before, after, hsplit, hlast⟩
    rcases List.eq_nil_or_concat after with rfl | ⟨after, last', rfl⟩
    · exact .inl (by simpa using (List.append_inj' hsplit rfl).2.symm)
    · have hsplit' : done ++ [last] = (before ++ load :: after) ++ [last'] := by simpa using hsplit
      obtain ⟨hdone, hlast'⟩ := List.append_inj' hsplit' rfl
      cases hlast'
      simp only [List.concat_eq_append, List.map_append, List.map_cons, List.map_nil,
        List.mem_append, List.mem_singleton, not_or] at hlast
      exact .inr ⟨⟨before, after, hdone, hlast.1⟩, hlast.2⟩
  · rintro (rfl | ⟨⟨before, after, rfl, hlast⟩, hne⟩)
    · exact ⟨done, [], rfl, by simp⟩
    · exact ⟨before, after ++ [last], by simp, by simpa using ⟨by simpa using hlast, hne⟩⟩

structure Loaded.Holds (loaded : Loaded) (done : List (Text × ParsedList brackets)) : Prop where
  allNames : loaded.allNames = done.flatMap fun load => load.2.names
  allGlobs : loaded.allGlobs = done.flatMap fun load => load.2.globs
  lists : ∀ e, e ∈ loaded.blocklists ↔ ∃ load, IsLast done load ∧ e = (load.1, load.2.names)

theorem Loaded.Holds.add {loaded : Loaded} (h : loaded.Holds done) (url : Text)
    (list : ParsedList brackets) : (loaded.add url list).Holds (done ++ [(url, list)]) := by
  refine ⟨by simp [Loaded.add, h.allNames], by simp [Loaded.add, h.allGlobs], fun e => ?_⟩
  simp only [Loaded.add, mem_putMap, h.lists, isLast_append]
  constructor
  · rintro (rfl | ⟨⟨load, hlast, rfl⟩, hne⟩)
    · exact ⟨(url, list), .inl rfl, rfl⟩
    · exact ⟨load, .inr ⟨hlast, hne⟩, rfl⟩
  · rintro ⟨load, rfl | ⟨hlast, hne⟩, rfl⟩
    · exact .inl rfl
    · exact .inr ⟨⟨load, hlast, rfl⟩, hne⟩

theorem loadLists_holds {ignoreRetrievalFailure : Bool}
    {loads : List (Text × Except Text (ParsedList brackets))} {loaded loaded' : Loaded}
    (h : loaded.Holds done) (hload : loadLists ignoreRetrievalFailure loads loaded = .ok loaded') :
    loaded'.Holds (done ++ okLoads loads) := by
  induction loads generalizing loaded done with
  | nil =>
    cases hload
    simpa [okLoads] using h
  | cons load loads ih =>
    obtain ⟨url, result⟩ := load
    cases result with
    | ok list =>
      have hrest := ih (h.add url list) hload
      rw [List.append_assoc] at hrest
      exact hrest
    | error e =>
      rw [loadLists] at hload
      split at hload
      · exact ih h hload
      · cases hload

end Load

section Generate

variable {brackets : Brackets} {loaded : Loaded} {allowedNames : List Text}

theorem processName_cases (brackets : Brackets) (loaded : Loaded) (allowedNames : List Text)
    (progress : Progress) (name : Text) :
    ((processName brackets loaded allowedNames progress name).uniqueNames =
        progress.uniqueNames ++ [name] ∧
      (processName brackets loaded allowedNames progress name).listNames =
        progress.listNames ++ [name] ∧
      Survives brackets loaded.allNames loaded.allGlobs allowedNames name) ∨
    ((processName brackets loaded allowedNames progress name).uniqueNames = progress.uniqueNames ∧
      (processName brackets loaded allowedNames progress name).listNames = progress.listNames ∧
      (Survives brackets loaded.allNames loaded.allGlobs allowedNames name →
        name ∈ progress.uniqueNames)) := by
  unfold processName
  split
  · next hcovered =>
    refine .inr ⟨rfl, rfl, fun h => ?_⟩
    rw [h.uncovered] at hcovered
    cases hcovered
  · next hcovered =>
    split
    · next hduplicate =>
      refine .inr ⟨rfl, rfl, fun h => ?_⟩
      rw [h.top, Bool.false_or, List.contains_iff_mem] at hduplicate
      exact hduplicate
    · next hduplicate =>
      split
      · next hallowed =>
        refine .inr ⟨rfl, rfl, fun h => ?_⟩
        rw [h.notBelow, Bool.false_or, List.contains_iff_mem] at hallowed
        exact absurd hallowed h.notAllowed
      · next hallowed =>
        simp only [Bool.or_eq_true, not_or, Bool.not_eq_true, List.contains_iff_mem]
          at hcovered hduplicate hallowed
        exact .inl ⟨rfl, rfl, hcovered, hduplicate.1, hallowed.1, hallowed.2⟩

structure Progress.Lists (brackets : Brackets) (loaded : Loaded) (allowedNames listed names : List Text)
    (progress : Progress) : Prop where
  found : ∀ n ∈ progress.uniqueNames, n ∈ listed ∨ n ∈ progress.listNames
  kept : ∀ n ∈ progress.listNames, n ∈ names ∧
    Survives brackets loaded.allNames loaded.allGlobs allowedNames n

variable {names : List Text} {progress : Progress} {n : Text}

theorem Progress.Lists.processName {listed : List Text}
    (h : progress.Lists brackets loaded allowedNames listed names) {name : Text}
    (hname : name ∈ names) :
    (processName brackets loaded allowedNames progress name).Lists brackets loaded allowedNames listed
      names := by
  rcases processName_cases brackets loaded allowedNames progress name
    with ⟨hunique, hlist, hsurvives⟩ | ⟨hunique, hlist, -⟩
  · constructor
    · intro n hn
      rw [hunique, List.mem_append] at hn
      rw [hlist, List.mem_append]
      rcases hn with hn | hn
      · exact (h.found n hn).imp_right .inl
      · exact .inr (.inr hn)
    · intro n hn
      rw [hlist, List.mem_append] at hn
      rcases hn with hn | hn
      · exact h.kept n hn
      · rw [List.mem_singleton.mp hn]
        exact ⟨hname, hsurvives⟩
  · exact ⟨by rw [hunique, hlist]; exact h.found, by rw [hlist]; exact h.kept⟩

theorem processName_unique_subset (progress : Progress) (name : Text) :
    progress.uniqueNames ⊆ (processName brackets loaded allowedNames progress name).uniqueNames := by
  rcases processName_cases brackets loaded allowedNames progress name
    with ⟨hunique, -⟩ | ⟨hunique, -⟩
  · rw [hunique]
    exact List.subset_append_left ..
  · rw [hunique]
    exact List.Subset.refl _

theorem foldl_lists {listed : List Text}
    (h : progress.Lists brackets loaded allowedNames listed names) {rest : List Text}
    (hrest : rest ⊆ names) :
    (rest.foldl (processName brackets loaded allowedNames) progress).Lists brackets loaded
      allowedNames listed names := by
  induction rest generalizing progress with
  | nil => exact h
  | cons name rest ih =>
    exact ih (h.processName (hrest List.mem_cons_self)) fun n hn => hrest (List.mem_cons_of_mem _ hn)

theorem lists_names (uniqueNames names : List Text) :
    (names.foldl (processName brackets loaded allowedNames) ⟨uniqueNames, [], 0, 0, 0⟩).Lists brackets
      loaded allowedNames uniqueNames names := by
  have hstart : Progress.Lists brackets loaded allowedNames uniqueNames names
      ⟨uniqueNames, [], 0, 0, 0⟩ :=
    ⟨fun _ hn => .inl hn, fun _ hn => absurd hn List.not_mem_nil⟩
  exact foldl_lists hstart (List.Subset.refl _)

theorem foldl_unique_subset (names : List Text) (progress : Progress) :
    progress.uniqueNames ⊆
      (names.foldl (processName brackets loaded allowedNames) progress).uniqueNames := by
  induction names generalizing progress with
  | nil => exact List.Subset.refl _
  | cons name names ih => exact List.Subset.trans (processName_unique_subset progress name) (ih _)

theorem mem_unique_of_survives (hn : n ∈ names)
    (h : Survives brackets loaded.allNames loaded.allGlobs allowedNames n) (progress : Progress) :
    n ∈ (names.foldl (processName brackets loaded allowedNames) progress).uniqueNames := by
  induction names generalizing progress with
  | nil => cases hn
  | cons name names ih =>
    rcases List.mem_cons.mp hn with rfl | hn
    · apply foldl_unique_subset names
      rcases processName_cases brackets loaded allowedNames progress n
        with ⟨hunique, -⟩ | ⟨hunique, -, hbefore⟩
      · rw [hunique]
        exact List.mem_append_right _ (List.mem_singleton_self n)
      · rw [hunique]
        exact hbefore h
    · exact ih hn _

theorem rule_mem_printList {url : Text} :
    .rule n ∈ printList url progress ↔ n ∈ progress.listNames := by
  have hcount {k : Nat} {line : Line} (hline : line ≠ .rule n) :
      .rule n ∉ if k = 0 then [] else [line] := by
    split
    · exact List.not_mem_nil
    · exact fun h => hline (List.mem_singleton.mp h).symm
  unfold printList
  simp only [List.mem_append, List.mem_map, hcount, List.mem_singleton, reduceCtorEq, or_false,
    false_or, Line.rule.injEq, exists_eq_right, ne_eq, not_false_eq_true,
    (List.perm_insertionSort NotAfter progress.listNames).mem_iff]

theorem rule_mem_processLists {blocklists : List (Text × List Text)}
    (hn : ∃ list ∈ blocklists, n ∈ list.2)
    (h : Survives brackets loaded.allNames loaded.allGlobs allowedNames n)
    (uniqueNames : List Text) :
    n ∈ uniqueNames ∨
      .rule n ∈ processLists brackets loaded allowedNames blocklists uniqueNames := by
  induction blocklists generalizing uniqueNames with
  | nil =>
    obtain ⟨list, hlist, -⟩ := hn
    cases hlist
  | cons list blocklists ih =>
    obtain ⟨url, names⟩ := list
    rw [processLists]
    -- found in this list, or left to the others
    have hfound : n ∈ (names.foldl (processName brackets loaded allowedNames)
          ⟨uniqueNames, [], 0, 0, 0⟩).uniqueNames ∨
        .rule n ∈ processLists brackets loaded allowedNames blocklists
          (names.foldl (processName brackets loaded allowedNames)
            ⟨uniqueNames, [], 0, 0, 0⟩).uniqueNames := by
      obtain ⟨list, hlist, hmem⟩ := hn
      rcases List.mem_cons.mp hlist with rfl | hlist
      · exact .inl (mem_unique_of_survives hmem h _)
      · exact ih ⟨list, hlist, hmem⟩ _
    rcases hfound with hfound | hfound
    · exact ((lists_names uniqueNames names).found n hfound).imp_right fun hlisted =>
        List.mem_append_left _ (rule_mem_printList.mpr hlisted)
    · exact .inr (List.mem_append_right _ hfound)

theorem survives_of_rule_mem {blocklists : List (Text × List Text)} {uniqueNames : List Text}
    (h : .rule n ∈ processLists brackets loaded allowedNames blocklists uniqueNames) :
    (∃ list ∈ blocklists, n ∈ list.2) ∧
      Survives brackets loaded.allNames loaded.allGlobs allowedNames n := by
  induction blocklists generalizing uniqueNames with
  | nil => cases h
  | cons list blocklists ih =>
    obtain ⟨url, names⟩ := list
    rw [processLists] at h
    rcases List.mem_append.mp h with hprinted | hlater
    · obtain ⟨hn, hsurvives⟩ :=
        (lists_names uniqueNames names).kept n (rule_mem_printList.mp hprinted)
      exact ⟨⟨(url, names), List.mem_cons_self, hn⟩, hsurvives⟩
    · obtain ⟨⟨list, hlist, hn⟩, hsurvives⟩ := ih hlater
      exact ⟨⟨list, List.mem_cons_of_mem _ hlist, hn⟩, hsurvives⟩

end Generate

section Inputs

variable {brackets : Brackets} {inputs : Inputs brackets}

theorem Inputs.names_nonempty : [] ∉ inputs.names := by
  intro h
  obtain ⟨load, -, hmem⟩ := List.mem_flatMap.mp h
  exact load.2.nonempty hmem

theorem Inputs.allowedNames_nonempty : [] ∉ inputs.allowedNames := by
  unfold Inputs.allowedNames
  rw [List.mem_append]
  rintro (h | h)
  · cases ht : inputs.timeRestricted with
    | none => simp [ht] at h
    | some list => exact list.nonempty (by simpa [ht] using h)
  · cases ha : inputs.allowlist with
    | none => simp [ha] at h
    | some list => exact list.nonempty (by simpa [ha] using h)

theorem Inputs.globs_subset : inputs.globs ⊆ inputs.names := by
  intro g hg
  obtain ⟨load, hload, hmem⟩ := List.mem_flatMap.mp hg
  exact List.mem_flatMap.mpr ⟨load, hload, load.2.globs_subset hmem⟩

theorem Inputs.globs_isGlob : ∀ g ∈ inputs.globs, isGlob brackets g = true := by
  intro g hg
  obtain ⟨load, -, hmem⟩ := List.mem_flatMap.mp hg
  exact load.2.globs_isGlob g hmem

theorem mem_rule_iff {lines : List Line} (hrun : blocklistsFromConfigFile inputs = .ok lines)
    (r : Text) :
    .rule r ∈ lines ↔ (∃ load, IsLast (okLoads inputs.loads) load ∧ r ∈ load.2.names) ∧
      Survives brackets inputs.names inputs.globs inputs.allowedNames r := by
  unfold blocklistsFromConfigFile at hrun
  obtain ⟨loaded, hload, hrun⟩ := ok_of_bind hrun
  cases hrun
  have hempty : (⟨[], [], []⟩ : Loaded).Holds ([] : List (Text × ParsedList brackets)) :=
    ⟨rfl, rfl, fun e => by simp [IsLast]⟩
  have hholds : loaded.Holds (okLoads inputs.loads) := loadLists_holds hempty hload
  have hnames : loaded.allNames = inputs.names := hholds.allNames
  have hglobs : loaded.allGlobs = inputs.globs := hholds.allGlobs
  have htimed : .rule r ∉ (inputs.timeRestricted.map printTimeRestricted).getD [] := by
    cases inputs.timeRestricted with
    | none => exact List.not_mem_nil
    | some list =>
      intro hrule
      simp only [Option.map_some, Option.getD_some, printTimeRestricted] at hrule
      split at hrule
      · cases hrule
      · simp only [List.mem_cons, reduceCtorEq, List.mem_map, false_or] at hrule
        obtain ⟨name, -, hprinted⟩ := hrule
        unfold printRestrictedName at hprinted
        split at hprinted <;> cases hprinted
  rw [← hnames, ← hglobs, List.mem_append, or_iff_right htimed]
  constructor
  · intro hrule
    obtain ⟨⟨e, he, hr⟩, hsurvives⟩ := survives_of_rule_mem hrule
    obtain ⟨load, hlast, rfl⟩ := (hholds.lists e).mp he
    exact ⟨⟨load, hlast, hr⟩, hsurvives⟩
  · rintro ⟨⟨load, hlast, hr⟩, hsurvives⟩
    have hlist := (hholds.lists _).mpr ⟨load, hlast, rfl⟩
    exact (rule_mem_processLists ⟨_, hlist, hr⟩ hsurvives []).resolve_left List.not_mem_nil

/-- The lists with the entry were all loaded from a URL that was loaded again, without it. -/
def Inputs.Replaced (inputs : Inputs brackets) (rule : Text) : Prop :=
  ∀ load, IsLast (okLoads inputs.loads) load → rule ∉ load.2.names

/-- The lists block a name, but the topmost entries that match it are all dropped. -/
def Inputs.Lost (inputs : Inputs brackets) (name : Text) : Prop :=
  (∃ r ∈ inputs.names, RuleMatches brackets inputs.globs r name) ∧
    ∀ rule, Topmost brackets inputs.names inputs.globs rule name →
      Dropped brackets inputs.names inputs.globs inputs.allowedNames rule ∨ inputs.Replaced rule

theorem topmost_of_survives {name rule : Text} (hrule : rule ∈ inputs.names)
    (hsurvives : Survives brackets inputs.names inputs.globs inputs.allowedNames rule)
    (hmatch : RuleMatches brackets inputs.globs rule name) :
    Topmost brackets inputs.names inputs.globs rule name := by
  refine ⟨hrule, hmatch, fun p hp habove => ?_⟩
  have htop := (hasSuffix_iff Inputs.names_nonempty rule).mpr ⟨p, hp, habove⟩
  rw [hsurvives.top] at htop
  cases htop

theorem IsLast.mem {done : List (Text × ParsedList brackets)} {load : Text × ParsedList brackets}
    (h : IsLast done load) : load ∈ done := by
  obtain ⟨before, after, rfl, -⟩ := h
  exact List.mem_append_right _ List.mem_cons_self

/-- **What the generated list blocks.** A name that is neither allowed nor time restricted, and that
the lists block, is blocked by the generated list unless it is lost. -/
theorem listed_iff_not_lost {lines : List Line} (hrun : blocklistsFromConfigFile inputs = .ok lines)
    {name : Text} (hexcepted : ∀ a ∈ inputs.allowedNames, ¬ AtLabel a name) :
    ((∃ r ∈ inputs.names, RuleMatches brackets inputs.globs r name) →
        ∃ r, .rule r ∈ lines ∧ RuleMatches brackets inputs.globs r name) ↔ ¬ inputs.Lost name := by
  constructor
  · rintro hlisted ⟨hblocked, hdropped⟩
    obtain ⟨r, hrule, hmatch⟩ := hlisted hblocked
    obtain ⟨⟨load, hlast, hr⟩, hsurvives⟩ := (mem_rule_iff hrun r).mp hrule
    have hmem : r ∈ inputs.names := List.mem_flatMap.mpr ⟨load, hlast.mem, hr⟩
    have htopmost := topmost_of_survives hmem hsurvives hmatch
    rcases hdropped r htopmost with hdrop | hreplaced
    · exact (htopmost.survives_iff Inputs.names_nonempty Inputs.allowedNames_nonempty hexcepted).mp
        hsurvives hdrop
    · exact hreplaced load hlast hr
  · intro hlost hblocked
    simp only [Inputs.Lost, hblocked, true_and, not_forall, not_or] at hlost
    obtain ⟨rule, htopmost, hdrop, hreplaced⟩ := hlost
    simp only [Inputs.Replaced, not_forall, not_not] at hreplaced
    obtain ⟨load, hlast, hr⟩ := hreplaced
    refine ⟨rule, (mem_rule_iff hrun rule).mpr ⟨⟨load, hlast, hr⟩, ?_⟩, htopmost.matched⟩
    exact (htopmost.survives_iff Inputs.names_nonempty Inputs.allowedNames_nonempty hexcepted).mpr
      hdrop

/-- A URL that is there twice gives the same names each time. -/
def Inputs.Stable (inputs : Inputs brackets) : Prop :=
  ∀ url list list', (url, list) ∈ okLoads inputs.loads → (url, list') ∈ okLoads inputs.loads →
    list.names ⊆ list'.names

theorem Inputs.stable_of_nodup (h : ((okLoads inputs.loads).map Prod.fst).Nodup) :
    inputs.Stable := by
  intro url list list' hlist hlist'
  have heq : (url, list) = (url, list') := List.inj_on_of_nodup_map h hlist hlist' rfl
  cases heq
  exact List.Subset.refl _

theorem exists_isLast {done : List (Text × ParsedList brackets)} {load : Text × ParsedList brackets}
    (h : load ∈ done) : ∃ list, IsLast done (load.1, list) := by
  induction done using List.reverseRecOn with
  | nil => cases h
  | append_singleton done last ih =>
    by_cases hurl : load.1 = last.1
    · exact ⟨last.2, isLast_append.mpr (.inl (by rw [hurl]))⟩
    · have hdone : load ∈ done := by
        rcases List.mem_append.mp h with hdone | hlast
        · exact hdone
        · rw [List.mem_singleton.mp hlast] at hurl
          exact absurd rfl hurl
      obtain ⟨list, hlast⟩ := ih hdone
      exact ⟨list, isLast_append.mpr (.inr ⟨hlast, hurl⟩)⟩

theorem not_lost_of_harmless (hstable : inputs.Stable)
    (hharmless : Harmless brackets inputs.names inputs.globs inputs.allowedNames) {name : Text}
    (hexcepted : ∀ a ∈ inputs.allowedNames, ¬ AtLabel a name) : ¬ inputs.Lost name := by
  rintro ⟨⟨r₀, hr₀, hmatch₀⟩, hdropped⟩
  obtain ⟨r, hr, hsurvives, hmatch⟩ := survivor_of_matched Inputs.names_nonempty
    Inputs.allowedNames_nonempty hharmless Inputs.globs_isGlob Inputs.globs_subset hexcepted
    hr₀ hmatch₀
  have htopmost := topmost_of_survives hr hsurvives hmatch
  rcases hdropped r htopmost with hdrop | hreplaced
  · exact (htopmost.survives_iff Inputs.names_nonempty Inputs.allowedNames_nonempty hexcepted).mp
      hsurvives hdrop
  · -- the rule is in the list that is left of its URL
    obtain ⟨load, hmem, hrload⟩ := List.mem_flatMap.mp hr
    obtain ⟨list, hlast⟩ := exists_isLast hmem
    exact hreplaced (load.1, list) hlast (hstable load.1 load.2 list hmem hlast.mem hrload)

end Inputs

/-! A list of names and a local pattern. -/

namespace Sample

def noSets : Brackets := fun _ => none

def inputs (glob : Text) (hglob : isGlob noSets glob = true ∧ glob ≠ []) : Inputs noSets where
  loads :=
    [("https://example.net/names.txt".toList,
      .ok ⟨["www.example.com".toList, "example.com".toList], [], by decide, by decide, by simp, nofun⟩),
     ("file:local.txt".toList,
      .ok ⟨[glob], [glob], List.nodup_singleton _, by simpa using hglob.2.symm, List.Subset.refl _,
        by simpa using hglob.1⟩)]
  ignoreRetrievalFailure := false
  timeRestricted := none
  allowlist := some ⟨["example.org".toList], [], by decide, by decide, by simp, nofun⟩

/-- The pattern is below a name of the list. -/
def below : Inputs noSets := inputs "ad?.example.com".toList (by decide)

/-- The pattern covers a name of the list, and nothing below it. -/
def covering : Inputs noSets := inputs "ex*mple.com".toList (by decide)

theorem below_harmless : Harmless noSets below.names below.globs below.allowedNames where
  covers n hn hglob hcovered := by
    have hnone : ∀ n ∈ below.names, n ∉ below.globs →
        coveredByGlob noSets below.globs n = false := by decide
    rw [hnone n hn hglob] at hcovered
    cases hcovered
  globParents g hg p hp hsuffix c hc := by
    have hplain : ∀ g ∈ below.globs, ∀ p ∈ below.names ++ below.allowedNames, '.' :: p <:+ g →
        (p.all fun c => Plain c) = true := by decide
    have hall := hplain g hg p (List.mem_append.mpr hp) hsuffix
    exact of_decide_eq_true (List.all_eq_true.mp hall c hc)
  nameParents := by decide
  globs_not_allowed := by decide

theorem below_stable : below.Stable :=
  Inputs.stable_of_nodup (by decide)

/-- The pattern is dropped, and what it matches is still blocked. -/
theorem below_listed :
    ∃ lines, blocklistsFromConfigFile below = .ok lines ∧ ¬ below.Lost "ads.example.com".toList ∧
      ∃ r, .rule r ∈ lines ∧ RuleMatches noSets below.globs r "ads.example.com".toList := by
  have hexcepted : ∀ a ∈ below.allowedNames, ¬ AtLabel a "ads.example.com".toList := by decide
  have hlost := not_lost_of_harmless below_stable below_harmless hexcepted
  exact ⟨_, rfl, hlost, (listed_iff_not_lost rfl hexcepted).mpr hlost
    ⟨"example.com".toList, by decide, by decide⟩⟩

/-- `example.com` is dropped, and with it everything below it is let through. -/
theorem covering_unblocks :
    blocklistsFromConfigFile covering =
      .ok [.header "https://example.net/names.txt".toList, .duplicates 1, .overlapping 1, .blank,
        .header "file:local.txt".toList, .rule "ex*mple.com".toList] ∧
    (∃ r ∈ covering.names, RuleMatches noSets covering.globs r "mail.example.com".toList) ∧
    (∀ a ∈ covering.allowedNames, ¬ AtLabel a "mail.example.com".toList) ∧
    ¬ RuleMatches noSets covering.globs "ex*mple.com".toList "mail.example.com".toList :=
  ⟨rfl, ⟨"example.com".toList, by decide, by decide⟩, by decide, by decide⟩

end Sample

end DnscryptProxy.Blocklist
