import DnscryptProxy.Plugins.Handling

/-! The verdicts of the lists of names and addresses. Whether a query is on an allow list is
decided by `PluginAllowName` and `PluginAllowedIP` alone; whether an answer is let through is
then a matter of the aliases and the addresses in it. `permits_of_passes` reads this off the
response plugins, and `letThrough_of_permits` gives it back to them. -/

namespace DnscryptProxy

open Library

/-! ## Lists -/

/-- The list has a rule in force for the name. -/
def BlockedNames.covers (names : BlockedNames) (now : LocalTime) (qName : Text) : Bool :=
  (names.patternMatcher.eval qName).reject &&
    inForce now (names.patternMatcher.eval qName).val.join

/-- The name is on the allow list at the given time. -/
def Settings.allowsName (s : Settings) (now : LocalTime) (qName : Text) : Bool :=
  s.allowName.any fun names => names.covers now qName

/-- The answers have an address on the allow list. -/
def Settings.allowsIP (s : Settings) (answers : List RR) : Bool :=
  s.allowedIP.any fun rules => rules.hits answers

theorem BlockedNames.check_of_not_covers {names : BlockedNames} {now : LocalTime} {qName : Text}
    (h : names.covers now qName = false) (st : PluginsState) :
    names.check now st qName = .ok (false, st) := by
  unfold BlockedNames.covers at h
  simp [BlockedNames.check, h]

theorem BlockedNames.check_rejects {names : BlockedNames} {now : LocalTime} {qName : Text}
    (h : names.covers now qName = true) {st st' : PluginsState} {blocked : Bool}
    (hc : names.check now st qName = .ok (blocked, st')) :
    blocked = true ∧ st'.action = .reject := by
  unfold BlockedNames.covers at h
  rcases check_state hc with ⟨rfl, rfl⟩ | ⟨rfl, rfl⟩
  · unfold BlockedNames.check at hc
    simp only [h, Bool.not_true, Bool.false_eq_true, if_false] at hc
    cases hl : PluginsState.logTo { st' with action := .reject, returnCode := .reject }
        names.logger <;> rw [hl] at hc <;> cases hc
  · exact ⟨rfl, rfl⟩

/-! ## The history -/

/-- Every new event of the history has the property. -/
def Logs (P : Event → Prop) (w w' : World) : Prop :=
  ∀ event ∈ w'.history, event ∈ w.history ∨ P event

section Logs

variable {P : Event → Prop} {w w' w'' : World}

theorem Logs.of_eq (h : w'.history = w.history) : Logs P w w' := fun _ he => .inl (h ▸ he)

theorem Logs.refl (w : World) : Logs P w w := .of_eq rfl

theorem Logs.trans (h : Logs P w w') (h' : Logs P w' w'') : Logs P w w'' := by
  intro event he
  rcases h' event he with hold | hnew
  · exact h event hold
  · exact .inr hnew

theorem Logs.log {event : Event} (w : World) (h : P event) : Logs P w (w.log event) := by
  intro event' he
  rcases List.mem_cons.mp he with rfl | hold
  · exact .inr h
  · exact .inl hold

end Logs

/-! ## Query plugins -/

section Query

variable {P : Event → Prop} {pkgs : Packages} {env : QueryEnv} {s : Settings} {ctx : Ctx}

/-- The plugin puts the name on the allow list. -/
def QueryPlugin.allows (pkgs : Packages) (now : Time) (qName : Text) : QueryPlugin → Bool
  | .allowName names => names.covers (pkgs.zone now) qName
  | _ => false

structure Judged (P : Event → Prop) (allowed : Bool) (ctx ctx' : Ctx) : Prop where
  whitelisted : ctx'.st.whitelisted = (ctx.st.whitelisted || allowed)
  qName : ctx'.st.qName = ctx.st.qName
  logs : Logs P ctx.world ctx'.world

theorem Untouched.judged {ctx' : Ctx} (h : Untouched ctx ctx') : Judged P false ctx ctx' :=
  ⟨by rw [h.whitelisted, Bool.or_false], h.qName, .of_eq h.history⟩

theorem allowNameEval_judged (now : Time) (names : BlockedNames) :
    Ends (allowNameEval pkgs now names ctx)
      (fun r => Judged P (names.covers (pkgs.zone now) ctx.st.qName) ctx r.1)
      fun halted => Logs P ctx.world halted.world := by
  unfold allowNameEval
  dsimp only
  split
  · next h =>
    have hcovers : names.covers (pkgs.zone now) ctx.st.qName = true := h
    refine Ctx.ends_logTo ?_ fun _ => .refl _
    exact ⟨by rw [hcovers, Bool.or_true], rfl, .refl _⟩
  · next h =>
    have hcovers : names.covers (pkgs.zone now) ctx.st.qName = false := Bool.eq_false_iff.mpr h
    exact ⟨by rw [hcovers, Bool.or_false], rfl, .refl _⟩

theorem cacheEval_judged {now : Time}
    (hP : ∀ fresh question dnssec answer, P (.found fresh question dnssec answer now)) :
    Ends (cacheEval pkgs now ctx) (fun r => Judged P false ctx r.1)
      fun halted => Logs P ctx.world halted.world := by
  have hsame : ctx.st.whitelisted = (ctx.st.whitelisted || false) := (Bool.or_false _).symm
  unfold cacheEval
  refine Ctx.ends_question (fun question rest hq => ?_) fun _ => .refl _
  dsimp only
  split
  · exact ⟨hsame, rfl, .refl _⟩
  · split
    · exact ⟨hsame, rfl, .of_eq rfl⟩
    · split
      · exact ⟨hsame, rfl, Logs.trans (.of_eq rfl) (.log _ (hP ..))⟩
      · exact ⟨hsame, rfl, Logs.trans (.of_eq rfl) (.log _ (hP ..))⟩

theorem QueryPlugin.judged
    (hP : ∀ fresh question dnssec answer, P (.found fresh question dnssec answer env.now))
    (plugin : QueryPlugin) :
    Ends (plugin.eval pkgs env ctx)
      (fun r => Judged P (plugin.allows pkgs env.now ctx.st.qName) ctx r.1)
      fun halted => Logs P ctx.world halted.world := by
  have hleaves {plugin : QueryPlugin} (h : Leaves ctx (plugin.eval pkgs env ctx)) :
      Ends (plugin.eval pkgs env ctx) (fun r => Judged P false ctx r.1)
        fun halted => Logs P ctx.world halted.world :=
    h.mono (fun _ _ hr => hr.judged) fun _ he => .of_eq he
  cases plugin with
  | allowName names => exact allowNameEval_judged env.now names
  | cache => exact cacheEval_judged hP
  | _ => exact hleaves (QueryPlugin.leaves nofun nofun)

theorem queryChain_judged
    (hP : ∀ fresh question dnssec answer, P (.found fresh question dnssec answer env.now))
    (plugins : List QueryPlugin) :
    Ends (chain (queryStage s pkgs env) plugins ctx)
      (fun r => Logs P ctx.world r.state.world ∧ ∀ ctx', r = .next ctx' →
        ctx'.st.whitelisted = (ctx.st.whitelisted ||
          plugins.any fun plugin => plugin.allows pkgs env.now ctx.st.qName))
      fun halted => Logs P ctx.world halted.world := by
  induction plugins generalizing ctx with
  | nil =>
    refine ⟨.refl _, fun ctx' h => ?_⟩
    cases h
    simp
  | cons plugin plugins ih =>
    have hstage : Ends (queryStage s pkgs env plugin ctx)
        (fun r => Judged P (plugin.allows pkgs env.now ctx.st.qName) ctx r.state)
        fun halted => Logs P ctx.world halted.world := by
      refine (plugin.judged hP).bind fun r _ hr => ?_
      obtain ⟨-, hw, action, synth, hst⟩ := afterEval_state s r.1 r.2
      refine ⟨?_, ?_, ?_⟩
      · rw [hst]
        exact hr.whitelisted
      · rw [hst]
        exact hr.qName
      · rw [hw]
        exact hr.logs
    unfold chain
    refine hstage.bind fun r _ hr => ?_
    cases r with
    | stop ctx₁ => exact ⟨hr.logs, by simp⟩
    | fail e ctx₁ => exact ⟨hr.logs, by simp⟩
    | next ctx₁ =>
      refine ih.mono (fun r _ h => ⟨hr.logs.trans h.1, fun ctx' hn => ?_⟩) fun _ h => hr.logs.trans h
      have hqName : ctx₁.st.qName = ctx.st.qName := hr.qName
      have hallowed : ctx₁.st.whitelisted = _ := hr.whitelisted
      rw [h.2 ctx' hn, hqName, hallowed, List.any_cons, Bool.or_assoc]

theorem any_toList {α β : Type} (o : Option α) (f : α → β) (q : β → Bool) :
    (o.map f).toList.any q = o.any fun a => q (f a) := by
  cases o <;> simp

theorem any_ite {β : Type} (c : Prop) [Decidable c] (b : β) (q : β → Bool) :
    (if c then [b] else []).any q = (decide c && q b) := by
  split <;> simp_all

theorem any_allows_queryPlugins (s : Settings) (pkgs : Packages) (now : Time) (qName : Text) :
    (s.queryPlugins.any fun plugin => plugin.allows pkgs now qName) =
      s.allowsName (pkgs.zone now) qName := by
  simp only [Settings.queryPlugins, List.any_append, any_toList, any_ite]
  simp [QueryPlugin.allows, Settings.allowsName]

/-- A query that was parsed is on the allow list if its name was at the given time. -/
def AllowedByName (s : Settings) (now : LocalTime) (st : PluginsState) : Prop :=
  ∀ client, st.questionMsg = some client → ∃ asked qName, client.question = [asked] ∧
    normalizeQName asked.name = .ok qName ∧ st.whitelisted = s.allowsName now qName

seal Settings.queryPlugins in
theorem applyQueryPlugins_judged
    (hP : ∀ fresh question dnssec answer, P (.found fresh question dnssec answer env.now))
    {st : PluginsState} {world : World} {packet : Bytes} {pad : Bool} (hi : Idle st)
    (hnew : st.questionMsg = none) (hwhite : st.whitelisted = false) :
    Ends (applyQueryPlugins s pkgs env st world packet pad)
      (fun applied => Logs P world applied.world ∧
        (Idle applied.st → AllowedByName s (pkgs.zone env.now) applied.st))
      fun halted => Logs P world halted.world := by
  unfold applyQueryPlugins
  cases hp : parseQuery pkgs.dns packet with
  | error e =>
    refine ⟨.refl _, fun _ client hclient => ?_⟩
    exact absurd (hnew.symm.trans hclient) (by simp)
  | ok parsed =>
    obtain ⟨msg, qName⟩ := parsed
    have hstart : Idle (queryCtx st world msg qName).st := hi
    have hthrough : Ends (chain (queryStage s pkgs env) s.queryPlugins (queryCtx st world msg qName))
        (Through pkgs st.settings SameQuestion _) _ := queryChain_through s.queryPlugins hstart
    refine (queryChain_judged hP s.queryPlugins).bind fun r hr hj => ?_
    have ht := hthrough.of_ok hr
    cases r with
    | fail e ctx =>
      refine ⟨hj.1, fun hidle => ?_⟩
      have hdrop : ctx.st.action = .drop := ht.decided
      exact absurd (hdrop.symm.trans hidle.1) (by decide)
    | stop ctx =>
      obtain ⟨hw, client, hst, -⟩ := repackQuery_state pkgs.dns packet pad ctx
      refine ⟨hw ▸ hj.1, fun hidle => ?_⟩
      rw [hst] at hidle
      exact absurd hidle.2 ht.decided.2
    | next ctx =>
      obtain ⟨hw, client, hst, hquestion⟩ := repackQuery_state pkgs.dns packet pad ctx
      obtain ⟨-, asked, hasked, hname⟩ := parseQuery_ok hp
      refine ⟨hw ▸ hj.1, fun _ client' hclient => ?_⟩
      rw [hst] at hclient ⊢
      obtain rfl : client = client' := Option.some.inj hclient
      refine ⟨asked, qName, hquestion.trans (ht.kept.carried.trans hasked), hname, ?_⟩
      have hallowed := hj.2 ctx rfl
      rw [any_allows_queryPlugins] at hallowed
      simpa [queryCtx, hwhite] using hallowed

end Query

/-! ## Response plugins -/

section Response

variable {pkgs : Packages} {env : ResponseEnv} {s : Settings} {ctx ctx' : Ctx}

/-- None of the aliases that are looked at is covered by the list. -/
def BlockedNames.Spares (names : BlockedNames) (now : LocalTime) (targets : List Text) : Prop :=
  ∀ target ∈ targets, ∃ name, normalizeQName target = .ok name ∧ names.covers now name = false

/-- The aliases of an answer that are looked at. -/
def aliases (answers : List RR) : List Text := (answers.filterMap RR.aliasTarget).take aliasesLimit

/-- No block list has anything against the answers. -/
structure Clean (s : Settings) (now : LocalTime) (answers : List RR) : Prop where
  names : ∀ names, s.blockName = some names → names.Spares now (aliases answers)
  addresses : ∀ rules, s.blockIP = some rules → rules.hits answers = false

/-- The answers are let through, for a query that is on the allow list by its name or not. -/
def Permits (s : Settings) (now : LocalTime) (whitelisted : Bool) (answers : List RR) : Prop :=
  (whitelisted || s.allowsIP answers) = true ∨ Clean s now answers

/-- Both filters, evaluated on the message, leave everything as it is. -/
structure LetThrough (s : Settings) (pkgs : Packages) (now : Time) (ctx : Ctx) : Prop where
  blockName : ∀ names, s.blockName = some names → blockNameResponseEval pkgs now names ctx = ctx.ok
  blockIP : ∀ rules, s.blockIP = some rules → blockIPEval rules ctx = ctx.ok

theorem checkAliases_of_spares {names : BlockedNames} {now : LocalTime} {left : Nat}
    {targets : List Text} (h : names.Spares now (targets.take left)) :
    checkAliases names now ctx left targets = ctx.ok := by
  fun_induction checkAliases names now ctx left targets with
  | case1 => rfl
  | case2 => rfl
  | case3 left target targets e he =>
    obtain ⟨name, hname, -⟩ := h target (by simp)
    rw [he] at hname
    cases hname
  | case4 left target targets target' hn ih =>
    obtain ⟨name, hname, hcovers⟩ := h target (by simp)
    obtain rfl : target' = name := Except.ok.inj (hn.symm.trans hname)
    rw [BlockedNames.check_of_not_covers hcovers]
    exact ih fun target ht => h target (by simp [ht])

theorem spares_of_checkAliases {names : BlockedNames} {now : LocalTime} {left : Nat}
    {targets : List Text} (h : checkAliases names now ctx left targets = .ok (ctx', none))
    (hcont : ctx'.st.action = .cont) : names.Spares now (targets.take left) ∧ ctx' = ctx := by
  fun_induction checkAliases names now ctx left targets with
  | case1 =>
    cases h
    exact ⟨by simp [BlockedNames.Spares], rfl⟩
  | case2 =>
    cases h
    exact ⟨by simp [BlockedNames.Spares], rfl⟩
  | case3 => cases h
  | case4 left target targets target' hn ih =>
    cases hcovers : names.covers now target' with
    | false =>
      rw [BlockedNames.check_of_not_covers hcovers] at h
      obtain ⟨hspares, hctx⟩ := ih h
      refine ⟨fun t ht => ?_, hctx⟩
      rw [List.take_succ_cons] at ht
      rcases List.mem_cons.mp ht with rfl | ht
      · exact ⟨target', hn, hcovers⟩
      · exact hspares t ht
    | true =>
      cases hc : names.check now ctx.st target' with
      | error p =>
        rw [hc] at h
        cases h
      | ok r =>
        obtain ⟨blocked, st⟩ := r
        obtain ⟨rfl, hreject⟩ := BlockedNames.check_rejects hcovers hc
        rw [hc] at h
        cases h
        exact absurd (hreject.symm.trans hcont) (by decide)

theorem letThrough_of_permits {now : Time} {whitelisted : Bool}
    (h : Permits s (pkgs.zone now) whitelisted ctx.msg.answer)
    (hstatus : ctx.st.whitelisted = (whitelisted || s.allowsIP ctx.msg.answer)) :
    LetThrough s pkgs now ctx := by
  rcases h with hallowed | hclean
  · rw [← hstatus] at hallowed
    constructor
    · intro names _
      rw [blockNameResponseEval, if_pos hallowed]
    · intro rules _
      rw [blockIPEval, if_pos hallowed]
  · constructor
    · intro names hnames
      unfold blockNameResponseEval
      split
      · rfl
      · exact checkAliases_of_spares (hclean.names names hnames)
    · intro rules hrules
      unfold blockIPEval
      split
      · rfl
      · rw [if_neg (by simp [hclean.addresses rules hrules])]

theorem allowedIPEval_judged {P : Event → Prop} (rules : IPRules) :
    Ends (allowedIPEval rules ctx) (fun r => Judged P (rules.hits ctx.msg.answer) ctx r.1)
      fun halted => Logs P ctx.world halted.world := by
  unfold allowedIPEval
  split
  · next hhits =>
    refine Ctx.ends_logTo ?_ fun _ => .refl _
    exact ⟨by rw [hhits, Bool.or_true], rfl, .refl _⟩
  · next hhits =>
    have hnone : rules.hits ctx.msg.answer = false := Bool.eq_false_iff.mpr hhits
    exact ⟨by rw [hnone, Bool.or_false], rfl, .refl _⟩

theorem blockIPEval_rejects {rules : IPRules} (hwhite : ctx.st.whitelisted = false)
    (hhits : rules.hits ctx.msg.answer = true) :
    Ends (blockIPEval rules ctx) (fun r => r.1.st.action = .reject) fun _ => True := by
  unfold blockIPEval
  rw [if_neg (by simp [hwhite]), if_pos hhits]
  exact Ctx.ends_logTo rfl fun _ => trivial

theorem permits_of_passes (h : Passes (responseStage s pkgs env) s.responseFilters ctx ctx') :
    Permits s (pkgs.zone env.now) ctx.st.whitelisted ctx.msg.answer := by
  unfold Settings.responseFilters at h
  obtain ⟨ctx₄, h, -⟩ := h.split
  obtain ⟨ctx₃, h, hips⟩ := h.split
  obtain ⟨ctx₂, h, hnames⟩ := h.split
  obtain ⟨ctx₁, hlog, hallow⟩ := h.split
  have h₁ : ctx₁.st.whitelisted = ctx.st.whitelisted ∧ ctx₁.msg = ctx.msg := by
    rcases hlog.of_ite with rfl | hlog
    · exact ⟨rfl, rfl⟩
    · have hquiet := nxLogEval_quiet.of_ok (responseStage_next hlog).1
      exact ⟨hquiet.whitelisted, hquiet.msg⟩
  have h₂ : ctx₂.st.whitelisted = (ctx.st.whitelisted || s.allowsIP ctx.msg.answer) ∧
      ctx₂.msg = ctx.msg := by
    rw [← h₁.1, ← h₁.2, Settings.allowsIP]
    rcases hallow.of_option with ⟨hnone, rfl⟩ | ⟨rules, hrules, hallow⟩
    · rw [hnone]
      exact ⟨(Bool.or_false _).symm, rfl⟩
    · have heval := (responseStage_next hallow).1
      rw [hrules]
      exact ⟨((allowedIPEval_judged (P := fun _ => True) rules).of_ok heval).whitelisted,
        ((allowedIPEval_handles rules).of_ok heval).msg⟩
  cases hwhite : ctx₂.st.whitelisted with
  | true => exact .inl (h₂.1.symm.trans hwhite)
  | false =>
    have hspares : (∀ names, s.blockName = some names →
        names.Spares (pkgs.zone env.now) (aliases ctx.msg.answer)) ∧ ctx₃ = ctx₂ := by
      rcases hnames.of_option with ⟨hnone, rfl⟩ | ⟨names, hsome, hnames⟩
      · exact ⟨by simp [hnone], rfl⟩
      · obtain ⟨heval, hcont⟩ := responseStage_next hnames
        have halias : blockNameResponseEval pkgs env.now names ctx₂ = .ok (ctx₃, none) := heval
        rw [blockNameResponseEval, if_neg (by simp [hwhite])] at halias
        obtain ⟨hspares, hsame⟩ := spares_of_checkAliases halias hcont
        refine ⟨fun names' hnames' => ?_, hsame⟩
        obtain rfl : names = names' := Option.some.inj (hsome.symm.trans hnames')
        rw [← h₂.2]
        exact hspares
    obtain ⟨hspares, rfl⟩ := hspares
    refine .inr ⟨hspares, fun rules hrules => ?_⟩
    rcases hips.of_option with ⟨hnone, -⟩ | ⟨rules', hsome, hips⟩
    · exact absurd (hnone.symm.trans hrules) (by simp)
    · obtain rfl : rules' = rules := Option.some.inj (hsome.symm.trans hrules)
      obtain ⟨heval, hcont⟩ := responseStage_next hips
      rw [← h₂.2]
      -- a hit would have changed the action
      refine Bool.eq_false_iff.mpr fun hhits => ?_
      have hreject := (blockIPEval_rejects hwhite hhits).of_ok heval
      exact absurd (hreject.symm.trans hcont) (by decide)

/-! ## The cache writer -/

@[simp]
theorem aliases_withTTL (answers : List RR) (ttl : UInt32) :
    aliases (answers.map (RR.withTTL ttl)) = aliases answers := by
  rw [aliases, List.filterMap_map]
  rfl

@[simp]
theorem hits_withTTL (rules : IPRules) (answers : List RR) (ttl : UInt32) :
    rules.hits (answers.map (RR.withTTL ttl)) = rules.hits answers := by
  rw [IPRules.hits, List.any_map]
  rfl

theorem permits_withTTL {now : LocalTime} {whitelisted : Bool} {answers : List RR} (ttl : UInt32) :
    Permits s now whitelisted (answers.map (RR.withTTL ttl)) ↔ Permits s now whitelisted answers := by
  have hclean : Clean s now (answers.map (RR.withTTL ttl)) ↔ Clean s now answers := by
    constructor
    · rintro ⟨hnames, haddresses⟩
      exact ⟨by simpa using hnames, by simpa using haddresses⟩
    · rintro ⟨hnames, haddresses⟩
      exact ⟨by simpa using hnames, by simpa using haddresses⟩
  simp only [Permits, Settings.allowsIP, hits_withTTL, hclean]

theorem cacheResponseEval_logs {P : Event → Prop} {now : Time}
    (hP : ∀ dnssec expiration ttl,
      P (.stored ctx.st.questionMsg dnssec ⟨expiration, ctx.msg.withTTL ttl⟩)) :
    Ends (cacheResponseEval pkgs now ctx) (fun r => Logs P ctx.world r.1.world)
      fun halted => Logs P ctx.world halted.world := by
  unfold cacheResponseEval
  split
  · exact .refl _
  · split
    · exact .refl _
    · refine Ctx.ends_question (fun question rest hq => ?_) fun _ => .refl _
      split
      · exact .refl _
      · exact Logs.trans (.of_eq rfl) (.log _ (hP ..))

/-! ## Sub-queries -/

/-- The sub-query logs what has the property. -/
def SubqueryLogs (P : Event → Prop)
    (subquery : Option (World → Bytes → Except Halted (Bytes × World))) : Prop :=
  ∀ sub, subquery = some sub → ∀ world packet, Ends (sub world packet)
    (fun r => Logs P world r.2) fun halted => Logs P world halted.world

variable {P : Event → Prop}

theorem dns64Synthesize_history (pref64 : List IPNet) (resp : Msg) :
    Ends (dns64Synthesize pref64 ctx resp) (fun r => r.1.world = ctx.world)
      fun halted => halted.world = ctx.world := by
  unfold dns64Synthesize
  split
  · rfl
  · refine World.ends_lift.mpr ?_
    cases resp.answer.mapM (synthesize pref64 (soaTTL resp.ns)) with
    | error p => rfl
    | ok synth64 => rfl

theorem dns64Eval_logs (hsub : SubqueryLogs P env.subquery) (pref64 : List IPNet) :
    Ends (dns64Eval pkgs env pref64 ctx) (fun r => Logs P ctx.world r.1.world)
      fun halted => Logs P ctx.world halted.world := by
  unfold dns64Eval
  split
  · exact .refl _
  split
  · exact .refl _
  split
  · exact .refl _
  split
  · exact .refl _
  split
  · exact .refl _
  next packet _ =>
  unfold dns64Query
  split
  · exact .refl _
  next sub hs =>
  refine (hsub sub hs ctx.world packet).bind fun r _ hr => ?_
  dsimp only
  split
  · exact hr
  · exact (dns64Synthesize_history pref64 _).mono (fun _ _ h => h ▸ hr) fun _ h => h ▸ hr

theorem ResponsePlugin.logs (hsub : SubqueryLogs P env.subquery) {plugin : ResponsePlugin}
    (hp : plugin ≠ .cacheResponse) :
    Ends (plugin.eval pkgs env ctx) (fun r => Logs P ctx.world r.1.world)
      fun halted => Logs P ctx.world halted.world := by
  have hleaves {x : Evaluated} (h : StaysQuiet ctx x) :
      Ends x (fun r => Logs P ctx.world r.1.world) fun halted => Logs P ctx.world halted.world :=
    h.mono (fun _ _ hr => .of_eq hr.history) fun _ he => .of_eq he
  cases plugin with
  | nxLog => exact hleaves nxLogEval_quiet
  | allowedIP rules =>
    exact (allowedIPEval_judged rules).mono (fun _ _ hr => hr.logs) fun _ he => he
  | blockName names => exact hleaves (blockNameResponseEval_quiet env.now names)
  | blockIP rules => exact hleaves (blockIPEval_quiet rules)
  | dns64 pref64 => exact dns64Eval_logs hsub pref64
  | cacheResponse => exact absurd rfl hp

theorem responseChain_logs {settings : QuerySettings} (heffect : SubqueryEffect pkgs settings env.subquery)
    (hsub : SubqueryLogs P env.subquery) (hi : Idle ctx.st)
    (hP : Permits s (pkgs.zone env.now) ctx.st.whitelisted ctx.msg.answer →
      ∀ dnssec expiration ttl,
        P (.stored ctx.st.questionMsg dnssec ⟨expiration, ctx.msg.withTTL ttl⟩)) :
    Ends (chain (responseStage s pkgs env) s.responsePlugins ctx)
      (fun r => Logs P ctx.world r.state.world) fun halted => Logs P ctx.world halted.world := by
  have hstage {plugin : ResponsePlugin} {ctx₁ : Ctx}
      (h : Ends (plugin.eval pkgs env ctx₁) (fun r => Logs P ctx₁.world r.1.world)
        fun halted => Logs P ctx₁.world halted.world) (hlogs : Logs P ctx.world ctx₁.world) :
      Ends (responseStage s pkgs env plugin ctx₁) (fun r => Logs P ctx.world r.state.world)
        fun halted => Logs P ctx.world halted.world := by
    refine Ends.bind (h.mono (fun r _ hr => hlogs.trans hr) fun _ he => hlogs.trans he)
      fun r _ hr => ?_
    obtain ⟨-, hw, -⟩ := afterEval_state s r.1 r.2
    rw [← hw] at hr
    exact hr
  have hfilters : Ends (chain (responseStage s pkgs env) s.responseFilters ctx)
      (fun r => Logs P ctx.world r.state.world) fun halted => Logs P ctx.world halted.world :=
    chain_invariant (fun plugin hp ctx₁ h₁ =>
      hstage (plugin.logs hsub (not_cacheResponse_of_filter hp)) h₁) (.refl _)
  refine ends_chain_append.mpr (hfilters.mono (fun r hr hlogs => ?_) fun _ he => he)
  cases r with
  | stop ctx₁ => exact hlogs
  | fail e ctx₁ => exact hlogs
  | next ctx₁ =>
    have hkept := ((responseFilters_through heffect hi).of_ok hr).kept
    have hpermits := permits_of_passes (passes_of_chain hr)
    dsimp only
    split
    · rw [chain_singleton]
      refine hstage (cacheResponseEval_logs fun dnssec expiration ttl => ?_) hlogs
      have hstored := hP hpermits dnssec expiration ttl
      rw [hkept.msg_eq, ← hkept.questionMsg] at hstored
      exact hstored
    · exact hlogs

end Response

end DnscryptProxy
