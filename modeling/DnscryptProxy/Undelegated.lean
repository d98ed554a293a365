import DnscryptProxy.Filtering
import DnscryptProxy.Plugins.Verdicts

/-! Names below zones that are not delegated. `PluginBlockUndelegated` asks its trie for the longest
member of the set that ends the name, and lets the name pass if that one starts inside a label,
without asking for a shorter one.

* `longestAtLabel_iff_apart`: one probe is enough for all names exactly if no text of the set is a
  zone below another one. A set to which a subzone is added is not such a set any more.
* `undelegated_iff`: it is enough for the set of the plugin.
* `undelegated_not_sent`: with the plugin, no query for such a name is sent to a server. -/

namespace DnscryptProxy

open Library PatternMatcher

/-! ## One probe -/

/-- No text of the list is a zone below another one. -/
def Apart (ps : List Text) : Prop := ∀ p ∈ ps, ∀ q ∈ ps, ¬ '.' :: p <:+ q

theorem longestAtLabel_of_apart {ps : List Text} (h : Apart ps) {p name : Text} (hp : p ∈ ps)
    (ha : AtLabel p name) : LongestAtLabel ps name := by
  rcases longestAtLabel_or_inside hp ha.suffix with hl | ⟨q, hq, hinside⟩
  · exact hl
  · exact absurd (hq.dot_suffix hinside hp ha).2 (h p hp q hq.1)

theorem exists_hidden {ps : List Text} {p q : Text} (hq : q ∈ ps) (hpq : '.' :: p <:+ q) :
    ∃ name, AtLabel p name ∧ ¬ LongestAtLabel ps name := by
  obtain ⟨r, hmem, hbelow, hmax⟩ := exists_longest (P := ('.' :: p <:+ ·)) hq hpq
  have hsuffix : r <:+ 'x' :: r := List.suffix_cons 'x' r
  refine ⟨'x' :: r, .inr (hbelow.trans hsuffix), ?_⟩
  rintro ⟨l, hlongest, ha⟩
  have hle : r.length ≤ l.length := hlongest.2.2 r hmem hsuffix
  rcases ha with rfl | hdot
  · -- then `x` and the zone would be a longer zone below `p`
    have hlonger := hmax _ hlongest.1 (hbelow.trans hsuffix)
    rw [List.length_cons] at hlonger
    omega
  · have hlength := hdot.length_le
    rw [List.length_cons, List.length_cons] at hlength
    have heq : '.' :: l = 'x' :: r := hdot.eq_of_length (by
      rw [List.length_cons, List.length_cons]
      omega)
    exact absurd (List.cons.inj heq).1 (by decide)

theorem longestAtLabel_iff_apart (ps : List Text) :
    (∀ name, LongestAtLabel ps name ↔ ∃ p ∈ ps, AtLabel p name) ↔ Apart ps := by
  constructor
  · intro h p hp q hq hpq
    obtain ⟨name, ha, hnot⟩ := exists_hidden hq hpq
    exact hnot ((h name).mpr ⟨p, hp, ha⟩)
  · intro h name
    constructor
    · rintro ⟨p, hlongest, ha⟩
      exact ⟨p, hlongest.1, ha⟩
    · rintro ⟨p, hp, ha⟩
      exact longestAtLabel_of_apart h hp ha

/-! ## The set of the plugin -/

/-- The rests of a name behind its dots. -/
def zonesAbove {α : Type} [DecidableEq α] (dot : α) : List α → List (List α)
  | [] => []
  | c :: name => if c = dot then name :: zonesAbove dot name else zonesAbove dot name

theorem mem_zonesAbove {α : Type} [DecidableEq α] {dot : α} {name zone : List α} :
    zone ∈ zonesAbove dot name ↔ dot :: zone <:+ name := by
  induction name with
  | nil => simp [zonesAbove]
  | cons c name ih =>
    rw [List.suffix_cons_iff, ← ih, zonesAbove]
    by_cases hc : c = dot
    · simp [hc]
    · simp [hc, Ne.symm hc]

theorem byteString_below {line zone : String} (h : '.' :: zone.toList <:+ line.toList) :
    0x2e :: byteString zone <:+ byteString line := by
  obtain ⟨labels, h⟩ := h
  have hline : line = String.ofList labels ++ ("." ++ zone) := by
    rw [← String.toList_inj, String.toList_append, String.toList_append, String.toList_ofList, ← h]
    rfl
  have hdot : byteString "." = [0x2e] := by decide
  have hbytes (s t : String) : byteString (s ++ t) = byteString s ++ byteString t := by
    simp [byteString]
  rw [hline, hbytes, hbytes, hdot]
  exact List.suffix_append _ _

theorem undelegatedSet_apart : Apart (undelegatedSet.map String.toList) := by
  -- compared in bytes, which takes much less to evaluate
  have hall : (undelegatedSet.all fun line => (zonesAbove 0x2e (byteString line)).all fun zone =>
      !(undelegatedSet.map byteString).contains zone) = true := by
    decide +kernel
  intro p hp q hq hpq
  obtain ⟨zone, hzone, rfl⟩ := List.mem_map.mp hp
  obtain ⟨line, hline, rfl⟩ := List.mem_map.mp hq
  have hnot := List.all_eq_true.mp (List.all_eq_true.mp hall line hline) (byteString zone)
    (mem_zonesAbove.mpr (byteString_below hpq))
  rw [List.contains_iff_mem.mpr (List.mem_map_of_mem hzone)] at hnot
  cases hnot

/-- The name is a member of the set, or below one. -/
def Undelegated (qName : Text) : Prop := ∃ line ∈ undelegatedSet, AtLabel line.toList qName

instance (qName : Text) : Decidable (Undelegated qName) :=
  inferInstanceAs (Decidable (∃ line ∈ undelegatedSet, AtLabel line.toList qName))

theorem undelegatedSuffixes_atLabel_iff (qName : Text) :
    (∃ hit v, undelegatedSuffixes.longestPrefix qName.reverse = some (hit, v) ∧
      endsAtLabel hit qName.reverse = true) ↔ Undelegated qName := by
  have hmap : (undelegatedSet.map fun line => (line.toList.reverse, ())) =
      (undelegatedSet.map fun line => (line.toList, ())).map fun e => (e.1.reverse, id e.2) := by
    rw [List.map_map]
    rfl
  unfold undelegatedSuffixes
  rw [PrefixMap.longestPrefix_ofList, hmap, probe_atLabel_iff, List.map_map]
  refine ((longestAtLabel_iff_apart _).mpr undelegatedSet_apart qName).trans ?_
  simp [Undelegated]

/-! ## The plugin -/

section Plugin

variable {pkgs : Packages} {env : QueryEnv} {ctx : Ctx}

theorem blockUndelegatedEval_eq_ite {suffixes : PrefixMap Char Unit} {P : Prop} [Decidable P]
    (h : (∃ hit v, suffixes.longestPrefix ctx.st.qName.reverse = some (hit, v) ∧
      endsAtLabel hit ctx.st.qName.reverse = true) ↔ P) :
    blockUndelegatedEval suffixes ctx =
      if P then ((ctx.answer (nameErrorFor ctx.msg)).withCode .synth).ok else ctx.ok := by
  unfold blockUndelegatedEval
  dsimp only
  cases hlongest : suffixes.longestPrefix ctx.st.qName.reverse with
  | none =>
    have hnot : ¬ P := by
      rw [← h, hlongest]
      simp
    rw [if_neg hnot]
  | some longest =>
    obtain ⟨hit, v⟩ := longest
    have hends : endsAtLabel hit ctx.st.qName.reverse = true ↔ P := by
      rw [← h, hlongest]
      simp
    simp only [hends]

theorem blockUndelegatedEval_eq (ctx : Ctx) : blockUndelegatedEval undelegatedSuffixes ctx =
    if Undelegated ctx.st.qName then ((ctx.answer (nameErrorFor ctx.msg)).withCode .synth).ok
    else ctx.ok :=
  blockUndelegatedEval_eq_ite (undelegatedSuffixes_atLabel_iff ctx.st.qName)

/-- The query is answered here, with the code for a name that does not exist. -/
def AnswersNameError (evaluated : Evaluated) : Prop :=
  ∃ ctx synth, evaluated = .ok (ctx, none) ∧ ctx.st.action = .synth ∧
    ctx.st.synthResponse = some synth ∧ synth.rcode = rcodeNameError

/-- `PluginBlockUndelegated` answers that a name does not exist exactly for the members of its set
and the names below them. -/
theorem undelegated_iff (hcont : ctx.st.action = .cont) :
    AnswersNameError (QueryPlugin.blockUndelegated.eval pkgs env ctx) ↔
      ∃ line ∈ undelegatedSet, ctx.st.qName = line.toList ∨ '.' :: line.toList <:+ ctx.st.qName := by
  change AnswersNameError (blockUndelegatedEval undelegatedSuffixes ctx) ↔ Undelegated ctx.st.qName
  rw [blockUndelegatedEval_eq]
  split
  · next hqName =>
    refine iff_of_true ?_ hqName
    exact ⟨_, nameErrorFor ctx.msg, rfl, rfl, rfl, rfl⟩
  · next hqName =>
    refine iff_of_false ?_ hqName
    rintro ⟨ctx', synth, heval, haction, -⟩
    cases heval
    rw [hcont] at haction
    cases haction

end Plugin

/-- A printer of the local network. -/
theorem Sample.printer_undelegated : AnswersNameError (QueryPlugin.blockUndelegated.eval
    (Sample.proxy .bare Sample.dns).pkgs (Sample.answering 0).query
    (queryCtx (newPluginsState Settings.bare.query .udp none .udp) Sample.world Sample.query
      "printer.lan".toList)) := by
  have hlan : "lan" ∈ undelegatedSet := by decide +kernel
  exact (undelegated_iff rfl).mpr ⟨"lan", hlan, .inr ⟨"printer".toList, rfl⟩⟩

/-! ## Queries -/

theorem passes_qName {s : Settings} {pkgs : Packages} {env : QueryEnv} {plugins : List QueryPlugin}
    {ctx ctx' : Ctx} (h : Passes (queryStage s pkgs env) plugins ctx ctx') :
    ctx'.st.qName = ctx.st.qName := by
  refine h.invariant (I := fun ctx' => ctx'.st.qName = ctx.st.qName)
    (fun plugin _ ctx₁ ctx₂ hs hstage => ?_) rfl
  have hjudged := (plugin.judged (P := fun _ => True) fun _ _ _ _ => trivial).of_ok
    (queryStage_next hstage)
  exact hjudged.qName.trans hs

theorem queryPlugins_undelegated {s : Settings} (hs : s.pluginBlockUndelegated = true) :
    ∃ plugins, s.queryPlugins = plugins ++ [.blockUndelegated] := by
  unfold Settings.queryPlugins
  rw [if_pos hs]
  exact ⟨_, rfl⟩

theorem passed_delegated {s : Settings} {pkgs : Packages} {env : QueryEnv} {st : PluginsState}
    {world : World} {msg : Msg} {qName : Text} {ctx : Ctx} (hs : s.pluginBlockUndelegated = true)
    (h : Passes (queryStage s pkgs env) s.queryPlugins (queryCtx st world msg qName) ctx) :
    ¬ Undelegated qName := by
  intro hqName
  obtain ⟨plugins, hplugins⟩ := queryPlugins_undelegated hs
  rw [hplugins] at h
  obtain ⟨ctx₁, hbefore, hlast⟩ := h.split
  obtain ⟨⟩ | ⟨hstage, ⟨⟩⟩ := hlast
  have hqName₁ : Undelegated ctx₁.st.qName := (passes_qName hbefore).symm ▸ hqName
  have heval : blockUndelegatedEval undelegatedSuffixes ctx₁ = .ok (ctx, none) :=
    queryStage_next hstage
  rw [blockUndelegatedEval_eq, if_pos hqName₁] at heval
  -- the plugin has answered, and the next one is not asked
  have hcont : ctx.st.action = .cont := queryStage_next_action hstage
  cases heval
  cases hcont

/-- No query for such a name is sent to a server. -/
theorem undelegated_not_sent {p : Proxy} (hs : p.settings.pluginBlockUndelegated = true)
    {caller : Caller} {env : CallEnv} {world : World} {query : Bytes} {msg : Msg} {qName : Text}
    (hparse : parseQuery p.pkgs.dns query = .ok (msg, qName)) (hqName : Undelegated qName) :
    ¬ Sends p caller env world query := by
  intro hsends
  rcases hsends.unparsed_or_passed with ⟨e, _, _, herror, -⟩ | ⟨msg', qName', ctx, hparse', hpasses, -⟩
  · rw [hparse] at herror
    cases herror
  · rw [hparse] at hparse'
    cases hparse'
    exact passed_delegated hs hpasses hqName

end DnscryptProxy
