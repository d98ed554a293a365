import Mathlib.Data.List.TakeWhile
import DnscryptProxy.Library.UTF8
import DnscryptProxy.Library.Words
import DnscryptProxy.CritBit
import DnscryptProxy.PatternMatcher
import DnscryptProxy.Plugins.Query

/-! The tables of `pattern_matcher.go` and of `plugin_block_undelegated.go` as the
crit-bit tries they are. Their keys are the bytes of the reversed names, and `Eval`
compares lengths and looks for dots in these bytes; `PatternMatcher` has lists of
entries and characters instead.

`Refines` ties the two together: each `Add` keeps it (`Refines.add`), and then
`Eval` gives the same verdict (`Refines.eval`). -/

namespace DnscryptProxy

open Library Library.UTF8

structure TrieMatcher (V : Type) where
  blockedPrefixes : CritBit.Trie (Option V)
  blockedSuffixes : CritBit.Trie (Option V)
  blockedSubstrings : List Text
  blockedPatterns : List Text
  blockedExact : List (Text × Option V)
  indirectVals : List (Text × V)

/-- `len(match) == len(s) || s[len(match)] == '.'` -/
def endsAtDot (hit s : Bytes) : Bool := hit.length = s.length || s[hit.length]? = some 0x2e

namespace TrieMatcher

variable {V : Type}

def new : TrieMatcher V := ⟨.new, .new, [], [], [], []⟩

def add (toLower : Text → Text) (m : TrieMatcher V) (pattern : Text) (val : Option V)
    (position : Nat) : Except GoError (TrieMatcher V) :=
  match PatternMatcher.classify pattern with
  | none => .error (PatternMatcher.syntaxError position)
  | some (kind, text) =>
    let pattern := toLower text
    let indirect := match val with
      | some v => (pattern, v) :: m.indirectVals
      | none => m.indirectVals
    .ok <| match kind with
      | .substring => { m with
          blockedSubstrings := m.blockedSubstrings ++ [pattern], indirectVals := indirect }
      | .pattern => { m with
          blockedPatterns := m.blockedPatterns ++ [pattern], indirectVals := indirect }
      | .pre => { m with blockedPrefixes := (m.blockedPrefixes.insert (encode pattern) val).1 }
      | .suffix => { m with
          blockedSuffixes := (m.blockedSuffixes.insert (encode pattern.reverse) val).1 }
      | .exact => { m with blockedExact := (pattern, val) :: m.blockedExact }

/-- `"*." + StringReverse(string(match))` -/
def suffixReason (hit : Bytes) : Text := ['*', '.'] ++ (runes hit).reverse

def evalParent (m : TrieMatcher V) (revQname : Bytes) : Option Text :=
  match lastIndex 0x2e revQname with
  | none => none
  | some i =>
    if i > 0 then
      let pName := revQname.take i
      match m.blockedSuffixes.longestPrefix pName with
      | none => none
      | some (hit, _) => if endsAtDot hit pName then some (suffixReason hit) else none
    else none

def evalSuffixes (m : TrieMatcher V) (qName : Text) : Option (Text × Option V) :=
  let revQname := encode qName.reverse
  match m.blockedSuffixes.longestPrefix revQname with
  | none => none
  | some (hit, xval) =>
    if endsAtDot hit revQname then some (suffixReason hit, xval)
    else if hit.length < revQname.length ∧ revQname.length > 0 then
      (m.evalParent revQname).map fun reason => (reason, xval)
    else none

def evalPrefixes (m : TrieMatcher V) (qName : Text) : Option (Text × Option V) :=
  (m.blockedPrefixes.longestPrefix (encode qName)).map fun (hit, xval) => (runes hit ++ ['*'], xval)

/-- The tables that are not tries. -/
def others (m : TrieMatcher V) : PatternMatcher V :=
  ⟨[], [], m.blockedSubstrings, m.blockedPatterns, m.blockedExact, m.indirectVals⟩

def find (m : TrieMatcher V) (qName : Text) : Option (Text × Option V) :=
  (m.others.evalExact qName).or <| (m.evalSuffixes qName).or <| (m.evalPrefixes qName).or <|
    (m.others.evalSubstrings qName).or (m.others.evalPatterns qName)

def eval (m : TrieMatcher V) (qName : Text) : PatternMatcher.Verdict V :=
  if (encode qName).length < 2 then ⟨false, [], none⟩
  else match m.find qName with
    | some (reason, val) => ⟨true, reason, val⟩
    | none => ⟨false, [], none⟩

/-! ## Tries and lists -/

/-- A trie holds the entries of a map, with the bytes of their keys. -/
def Holds {β : Type} (t : CritBit.Trie β) (m : PrefixMap Char β) : Prop :=
  t.entries.Perm (m.mapKeys encode)

variable {β : Type} {t : CritBit.Trie β} {m : PrefixMap Char β}

theorem holds_new : Holds (.new : CritBit.Trie β) [] := List.Perm.refl _

theorem Holds.insert (h : Holds t m) (k : Text) (v : β) :
    Holds (t.insert (encode k) v).1 (m.insert k v) := by
  unfold Holds
  rw [PrefixMap.mapKeys_insert encode_injective]
  exact (t.entries_insert (encode k) v).1.trans (PrefixMap.perm_insert h (encode k) v)

theorem Holds.longestPrefix (h : Holds t m) (key : Text) :
    t.longestPrefix (encode key) = (m.longestPrefix key).map fun e => (encode e.1, e.2) := by
  have hnodup : (m.map Prod.fst).Nodup := by
    have hcoded := (h.map Prod.fst).nodup_iff.mp t.nodup_keys
    rw [PrefixMap.mapKeys, List.map_map] at hcoded
    refine List.Nodup.of_map encode ?_
    rwa [List.map_map]
  rw [t.longestPrefix_entries, PrefixMap.longestPrefix_perm h t.nodup_keys]
  exact PrefixMap.longestPrefix_mapKeys (fun _ _ => encode_prefix_iff) hnodup key

theorem holds_ofList (l : List (Text × β)) :
    Holds (.ofList (l.map fun e => (encode e.1, e.2))) (PrefixMap.ofList l) := by
  induction l using List.reverseRecOn with
  | nil => exact holds_new
  | append_singleton l e ih =>
    rw [PrefixMap.ofList_snoc, List.map_append, CritBit.Trie.ofList, List.foldl_append]
    exact ih.insert e.1 e.2

/-! ## Dots in bytes -/

theorem utf8EncodeChar_dot : String.utf8EncodeChar '.' = [0x2e] := by decide

theorem endsAtDot_encode {hit s : Text} (h : hit <+: s) :
    endsAtDot (encode hit) (encode s) = PatternMatcher.endsAtLabel hit s := by
  have hlength : (encode hit).length = (encode s).length ↔ hit.length = s.length := by
    constructor
    · intro hlen
      rw [encode_injective ((encode_prefix_iff.mpr h).eq_of_length hlen)]
    · intro hlen
      rw [h.eq_of_length hlen]
  rw [Bool.eq_iff_iff]
  simp only [endsAtDot, PatternMatcher.endsAtLabel, Bool.or_eq_true, decide_eq_true_eq, hlength,
    getElem?_encode_length utf8EncodeChar_dot (by decide) h]

theorem lastIndex_reverse (qName : Text) :
    lastIndex 0x2e (encode qName.reverse) = none ∧ PatternMatcher.dropLabel qName = [] ∨
    ∃ i, lastIndex 0x2e (encode qName.reverse) = some i ∧
      (encode qName.reverse).take i = encode (PatternMatcher.dropLabel qName).reverse ∧
      (i > 0 ↔ PatternMatcher.dropLabel qName ≠ []) := by
  have hmem {s : Text} : 0x2e ∈ encode s ↔ '.' ∈ s := mem_encode_iff utf8EncodeChar_dot (by decide)
  have hlabel : '.' ∉ qName.takeWhile (· ≠ '.') := fun h => by simpa using List.mem_takeWhile_imp h
  have hsplit := List.takeWhile_append_dropWhile (p := fun c : Char => decide (c ≠ '.')) (l := qName)
  have hhead := List.head?_dropWhile_not (fun c : Char => decide (c ≠ '.')) qName
  unfold PatternMatcher.dropLabel
  cases hdrop : qName.dropWhile (· ≠ '.') with
  | nil =>
    refine .inl ⟨lastIndex_eq_none fun h => hlabel ?_, rfl⟩
    rw [hdrop, List.append_nil] at hsplit
    rwa [hmem, List.mem_reverse, ← hsplit] at h
  | cons c parent =>
    rw [hdrop] at hhead hsplit
    obtain rfl : c = '.' := by simpa using hhead
    have hbytes : encode qName.reverse =
        encode parent.reverse ++ 0x2e :: encode (qName.takeWhile (· ≠ '.')).reverse := by
      rw [← hsplit, List.reverse_append, List.reverse_cons, List.append_assoc, encode_append,
        List.singleton_append, encode_cons, utf8EncodeChar_dot]
      rw [hsplit]
      rfl
    refine .inr ⟨(encode parent.reverse).length, ?_, ?_, ?_⟩
    · rw [hbytes]
      exact lastIndex_append (fun h => hlabel (List.mem_reverse.mp (hmem.mp h))) _
    · rw [hbytes, List.take_left]
      rfl
    · rw [gt_iff_lt, List.length_pos_iff, Ne, encode_eq_nil_iff, List.reverse_eq_nil_iff]
      rfl

/-! ## The matcher -/

/-- The two matchers hold the same rules. -/
structure Refines (t : TrieMatcher V) (m : PatternMatcher V) : Prop where
  prefixes : Holds t.blockedPrefixes m.blockedPrefixes
  suffixes : Holds t.blockedSuffixes m.blockedSuffixes
  substrings : t.blockedSubstrings = m.blockedSubstrings
  patterns : t.blockedPatterns = m.blockedPatterns
  exacts : t.blockedExact = m.blockedExact
  indirect : t.indirectVals = m.indirectVals

theorem refines_new : Refines (new : TrieMatcher V) PatternMatcher.new :=
  ⟨holds_new, holds_new, rfl, rfl, rfl, rfl⟩

namespace Refines

variable {t : TrieMatcher V} {m : PatternMatcher V}

theorem add (h : Refines t m) (toLower : Text → Text) (pattern : Text) (val : Option V)
    (position : Nat) :
    (∃ e, t.add toLower pattern val position = .error e ∧
      m.add toLower pattern val position = .error e) ∨
    ∃ t' m', t.add toLower pattern val position = .ok t' ∧
      m.add toLower pattern val position = .ok m' ∧ Refines t' m' := by
  unfold TrieMatcher.add PatternMatcher.add
  cases PatternMatcher.classify pattern with
  | none => exact .inl ⟨_, rfl, rfl⟩
  | some rule =>
    obtain ⟨kind, text⟩ := rule
    refine .inr ⟨_, _, rfl, rfl, ?_⟩
    obtain ⟨hprefixes, hsuffixes, hsubstrings, hpatterns, hexacts, hindirect⟩ := h
    cases kind with
    | pre => exact ⟨hprefixes.insert _ _, hsuffixes, hsubstrings, hpatterns, hexacts, hindirect⟩
    | suffix => exact ⟨hprefixes, hsuffixes.insert _ _, hsubstrings, hpatterns, hexacts, hindirect⟩
    | substring => exact ⟨hprefixes, hsuffixes, by simp [hsubstrings], hpatterns, hexacts,
        by cases val <;> simp [hindirect]⟩
    | pattern => exact ⟨hprefixes, hsuffixes, hsubstrings, by simp [hpatterns], hexacts,
        by cases val <;> simp [hindirect]⟩
    | exact => exact ⟨hprefixes, hsuffixes, hsubstrings, hpatterns, by simp [hexacts], hindirect⟩

theorem evalPrefixes (h : Refines t m) (qName : Text) : t.evalPrefixes qName = m.evalPrefixes qName := by
  rw [TrieMatcher.evalPrefixes, h.prefixes.longestPrefix, PatternMatcher.evalPrefixes, Option.map_map]
  cases m.blockedPrefixes.longestPrefix qName with
  | none => rfl
  | some e => simp [runes_encode]

theorem evalParent (h : Refines t m) (qName : Text) :
    t.evalParent (encode qName.reverse) =
      if PatternMatcher.dropLabel qName = [] then none
      else (m.blockedSuffixes.longestPrefix (PatternMatcher.dropLabel qName).reverse).bind fun e =>
        if PatternMatcher.endsAtLabel e.1 (PatternMatcher.dropLabel qName).reverse then
          some (['*', '.'] ++ e.1.reverse)
        else none := by
  unfold TrieMatcher.evalParent
  rcases lastIndex_reverse qName with ⟨hnone, hnil⟩ | ⟨i, hi, htake, hpos⟩
  · rw [hnone, if_pos hnil]
  · rw [hi]
    dsimp only
    by_cases hnil : PatternMatcher.dropLabel qName = []
    · rw [if_pos hnil, if_neg (not_not.mpr hnil ∘ hpos.mp)]
    · rw [if_neg hnil, if_pos (hpos.mpr hnil), htake, h.suffixes.longestPrefix]
      cases hl : m.blockedSuffixes.longestPrefix (PatternMatcher.dropLabel qName).reverse with
      | none => rfl
      | some e =>
        have hpre := (PrefixMap.longestPrefix_eq_some (k := e.1) (v := e.2) hl).2.1
        simp [endsAtDot_encode hpre, suffixReason, runes_encode]

theorem evalSuffixes (h : Refines t m) (qName : Text) :
    t.evalSuffixes qName = m.evalSuffixes qName := by
  unfold TrieMatcher.evalSuffixes PatternMatcher.evalSuffixes
  dsimp only
  rw [h.suffixes.longestPrefix]
  cases hl : m.blockedSuffixes.longestPrefix qName.reverse with
  | none => rfl
  | some e =>
    obtain ⟨hit, xval⟩ := e
    have hpre := (PrefixMap.longestPrefix_eq_some hl).2.1
    dsimp only [Option.map_some]
    rw [endsAtDot_encode hpre]
    split
    · rw [suffixReason, runes_encode]
    · next hends =>
      have hlt : (encode hit).length < (encode qName.reverse).length := by
        refine lt_of_le_of_ne (encode_prefix_iff.mpr hpre).length_le fun hlen => hends ?_
        rw [← endsAtDot_encode hpre, endsAtDot, decide_eq_true hlen, Bool.true_or]
      rw [if_pos ⟨hlt, by omega⟩, h.evalParent]
      by_cases hnil : PatternMatcher.dropLabel qName = []
      · simp [hnil]
      · have hrev : (PatternMatcher.dropLabel qName).reverse ≠ [] := by simpa using hnil
        rw [if_neg hnil, if_neg hrev]
        cases m.blockedSuffixes.longestPrefix (PatternMatcher.dropLabel qName).reverse with
        | none => rfl
        | some e =>
          obtain ⟨hit', -⟩ := e
          dsimp only [Option.bind_some]
          split <;> rfl

theorem find (h : Refines t m) (qName : Text) : t.find qName = m.find qName := by
  have hexact : t.others.evalExact qName = m.evalExact qName := by
    simp [PatternMatcher.evalExact, others, h.exacts]
  have hsubstrings : t.others.evalSubstrings qName = m.evalSubstrings qName := by
    simp [PatternMatcher.evalSubstrings, others, h.substrings, h.indirect]
  have hpatterns : t.others.evalPatterns qName = m.evalPatterns qName := by
    simp [PatternMatcher.evalPatterns, others, h.patterns, h.indirect]
  rw [TrieMatcher.find, PatternMatcher.find, hexact, h.evalSuffixes, h.evalPrefixes, hsubstrings,
    hpatterns]

theorem eval (h : Refines t m) {qName : Text} (hascii : ∀ c ∈ qName, c.toNat < 128) :
    t.eval qName = m.eval qName := by
  rewrite [TrieMatcher.eval, PatternMatcher.eval, length_encode_of_ascii hascii, h.find]
  rfl

end Refines

/-! ## Files of rules -/

/-- A sequence of calls of `Add`. One that fails is reported, and the next line is read. -/
def addAll {M : Type} (add : M → Text → Option V → Nat → Except GoError M) (m : M) :
    List (Text × Option V × Nat) → M × List GoError
  | [] => (m, [])
  | (pattern, val, position) :: calls =>
    match add m pattern val position with
    | .ok m => addAll add m calls
    | .error e =>
      let (m, errors) := addAll add m calls
      (m, e :: errors)

theorem Refines.addAll {t : TrieMatcher V} {m : PatternMatcher V} (h : Refines t m)
    (toLower : Text → Text) (calls : List (Text × Option V × Nat)) :
    Refines (addAll (TrieMatcher.add toLower) t calls).1
        (TrieMatcher.addAll (PatternMatcher.add toLower) m calls).1 ∧
      (TrieMatcher.addAll (TrieMatcher.add toLower) t calls).2 =
        (TrieMatcher.addAll (PatternMatcher.add toLower) m calls).2 := by
  induction calls generalizing t m with
  | nil => exact ⟨h, rfl⟩
  | cons call calls ih =>
    obtain ⟨pattern, val, position⟩ := call
    unfold TrieMatcher.addAll
    rcases h.add toLower pattern val position with ⟨e, ht, hm⟩ | ⟨t', m', ht, hm, h'⟩
    · rw [ht, hm]
      exact ⟨(ih h).1, congrArg (e :: ·) (ih h).2⟩
    · rw [ht, hm]
      exact ih h'

/-- Whatever is added, with or without a value, in whatever order, and with
whatever is refused on the way: the tries give the verdict of the lists. -/
theorem eval_addAll (toLower : Text → Text) (calls : List (Text × Option V × Nat)) (qName : Text)
    (hascii : ∀ c ∈ qName, c.toNat < 128) :
    (addAll (add toLower) new calls).2 = (addAll (PatternMatcher.add toLower) .new calls).2 ∧
      (addAll (add toLower) new calls).1.eval qName =
        (addAll (PatternMatcher.add toLower) .new calls).1.eval qName :=
  have h := (refines_new (V := V)).addAll toLower calls
  ⟨h.2, h.1.eval hascii⟩

theorem eval_addAll_blocked :
    (addAll (add id) new [(['a', 'd', '*'], some 7, 1), (['*'], none, 2)]).1.eval ['a', 'd', '.', 'b'] =
      ⟨true, ['a', 'd', '*'], some 7⟩ :=
  (eval_addAll id _ _ (by simp)).2.trans rfl

end TrieMatcher

/-! ## Undelegated names -/

/-- `PluginBlockUndelegated.Init` -/
def undelegatedTrie (lines : List String) : CritBit.Trie Unit :=
  .ofList (lines.map fun line => (encode line.toList.reverse, ()))

/-- `PluginBlockUndelegated.Eval` -/
def trieUndelegatedEval (suffixes : CritBit.Trie Unit) (ctx : Ctx) : Evaluated :=
  let revQname := encode ctx.st.qName.reverse
  match suffixes.longestPrefix revQname with
  | none => ctx.ok
  | some (hit, _) =>
    if endsAtDot hit revQname then ((ctx.answer (nameErrorFor ctx.msg)).withCode .synth).ok
    else ctx.ok

theorem trieUndelegatedEval_eq (lines : List String) (ctx : Ctx) :
    trieUndelegatedEval (undelegatedTrie lines) ctx =
      blockUndelegatedEval (.ofList (lines.map fun line => (line.toList.reverse, ()))) ctx := by
  have hholds : TrieMatcher.Holds (undelegatedTrie lines)
      (.ofList (lines.map fun line => (line.toList.reverse, ()))) := by
    have h := TrieMatcher.holds_ofList (lines.map fun line => (line.toList.reverse, ()))
    rw [List.map_map] at h
    exact h
  unfold trieUndelegatedEval blockUndelegatedEval
  dsimp only
  rw [hholds.longestPrefix ctx.st.qName.reverse]
  cases hl : (PrefixMap.ofList (lines.map fun line => (line.toList.reverse, ()))).longestPrefix
      ctx.st.qName.reverse with
  | none => rfl
  | some e =>
    have hpre := (PrefixMap.longestPrefix_eq_some (k := e.1) (v := e.2) hl).2.1
    dsimp only [Option.map_some]
    rw [TrieMatcher.endsAtDot_encode hpre]

/-- The plugin with its trie does what the plugin with the list of names does. -/
theorem trieUndelegated_refines (ctx : Ctx) :
    trieUndelegatedEval (undelegatedTrie undelegatedSet) ctx =
      blockUndelegatedEval undelegatedSuffixes ctx := by
  rw [trieUndelegatedEval_eq]
  unfold undelegatedSuffixes
  rfl

end DnscryptProxy
