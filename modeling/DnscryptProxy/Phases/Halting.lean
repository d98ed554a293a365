import DnscryptProxy.Phases.Call
import DnscryptProxy.Plugins.Panics

/-! Where a call can halt: a phase ends in one of the panics `F` exactly when a plugin
that it evaluates does. The phases without plugins can only slice an ODoH response out of
range, or dereference a missing client connection. -/

namespace DnscryptProxy

open Library

theorem avoids_chain {π α : Type} {eval : π → Ctx → Except Halted (Step Ctx GoError)} {ps : List π}
    {ctx : Ctx} {f : Step Ctx GoError → Except Halted α} {F : Panic → Prop}
    (hf : ∀ r, ∃ a, f r = .ok a) :
    Avoids F (chain eval ps ctx >>= f) ↔ ∀ p ctx', Reaches eval ps ctx p ctx' →
      Avoids F (eval p ctx') := by
  rw [avoids_bind_ok hf]
  exact ends_chain_iff

section Response

variable {s : Settings} {pkgs : Packages} {env : ResponseEnv} {F : Panic → Prop}

theorem responseStage_avoids {plugin : ResponsePlugin} {ctx : Ctx} :
    Avoids F (responseStage s pkgs env plugin ctx) ↔ Avoids F (plugin.eval pkgs env ctx) := by
  refine avoids_bind_ok ?_
  rintro ⟨ctx', err⟩
  exact ⟨afterEval s ctx' err, rfl⟩

theorem applyResponsePlugins_avoids {st : PluginsState} {world : World} {packet : Bytes}
    {ttl : Option UInt32} :
    Avoids F (applyResponsePlugins s pkgs env st world packet ttl) ↔
      ∀ msg, pkgs.dns.unpack packet = .ok msg → ∀ plugin ctx,
        Reaches (responseStage s pkgs env) s.responsePlugins (responseCtx st world packet msg)
          plugin ctx → Avoids F (plugin.eval pkgs env ctx) := by
  unfold applyResponsePlugins
  cases hu : pkgs.dns.unpack packet with
  | error e =>
    constructor
    · intro _ msg hmsg
      cases hmsg
    · intro _
      trivial
  | ok msg =>
    refine Iff.trans (avoids_chain fun r => ?_) ?_
    · cases r with
      | fail e ctx => exact ⟨⟨packet, some e, ctx.st, ctx.world⟩, rfl⟩
      | stop ctx => exact ⟨repackResponse pkgs.dns packet ttl ctx, rfl⟩
      | next ctx => exact ⟨repackResponse pkgs.dns packet ttl ctx, rfl⟩
    · refine ⟨?_, fun h plugin ctx hr => responseStage_avoids.mpr (h msg rfl plugin ctx hr)⟩
      rintro h _ ⟨⟩ plugin ctx hr
      exact responseStage_avoids.mp (h plugin ctx hr)

end Response

section Call

variable (p : Proxy) (caller : Caller) (env : CallEnv) (subquery : Subquery) (world : World)
  (query : Bytes)

/-- The call evaluates the query plugin, in the context `ctx`. -/
def EvaluatesQuery (plugin : QueryPlugin) (ctx : Ctx) : Prop :=
  minDNSPacketSize ≤ query.length ∧ ∃ msg qName, parseQuery p.pkgs.dns query = .ok (msg, qName) ∧
    Reaches (queryStage p.settings p.pkgs env.query) p.settings.queryPlugins
      (queryCtx (startState p caller) world msg qName) plugin ctx

/-- The call has a response for the response plugins. -/
def HasResponse (flow : Flow) : Prop :=
  Fetches p caller env world query flow ∧ fits flow.response = true

/-- The call evaluates the response plugin, in the context `ctx`. -/
def EvaluatesResponse (plugin : ResponsePlugin) (ctx : Ctx) : Prop :=
  ∃ flow msg, HasResponse p caller env world query flow ∧
    p.pkgs.dns.unpack flow.response = .ok msg ∧
    Reaches (responseStage p.settings p.pkgs (responseEnv env subquery)) p.settings.responsePlugins
      (responseCtx flow.st (flow.hand env.responseTime).world flow.response msg) plugin ctx

/-- The query log has a line for the type of the question. -/
def LogsType (pkgs : Packages) (ignoredQtypes : List Text) (qtype : UInt16) : Prop :=
  (ignoredQtypes.any fun ignored => pkgs.equalFold ignored ((pkgs.dns.typeToString qtype).getD [])) =
    false

end Call

section Halts

variable {p : Proxy} {caller : Caller} {env : CallEnv} {subquery : Subquery} {world : World}
  {query : Bytes} {F : Panic → Prop}

/-- A phase stops without one of the given panics. -/
abbrev StopAvoids {α : Type} (F : Panic → Prop) (x : Except Stop α) : Prop :=
  Ends x (fun _ => True) (Stop.All (fun _ => True) fun h => ∀ panic, h.cause = .panic panic → ¬F panic)

theorem queryStage_avoids {plugin : QueryPlugin} {ctx : Ctx} {s : Settings} {pkgs : Packages}
    {env : QueryEnv} :
    Avoids F (queryStage s pkgs env plugin ctx) ↔ Avoids F (plugin.eval pkgs env ctx) := by
  refine avoids_bind_ok ?_
  rintro ⟨ctx', err⟩
  exact ⟨afterEval s ctx' err, rfl⟩

theorem applyQueryPlugins_avoids {s : Settings} {pkgs : Packages} {env : QueryEnv}
    {st : PluginsState} {packet : Bytes} {pad : Bool} :
    Avoids F (applyQueryPlugins s pkgs env st world packet pad) ↔
      ∀ msg qName, parseQuery pkgs.dns packet = .ok (msg, qName) → ∀ plugin ctx,
        Reaches (queryStage s pkgs env) s.queryPlugins (queryCtx st world msg qName) plugin ctx →
          Avoids F (plugin.eval pkgs env ctx) := by
  unfold applyQueryPlugins
  cases hp : parseQuery pkgs.dns packet with
  | error e =>
    constructor
    · intro _ msg qName hparse
      cases hparse
    · intro _
      trivial
  | ok parsed =>
    obtain ⟨msg, qName⟩ := parsed
    refine Iff.trans (avoids_chain fun r => ?_) ?_
    · cases r with
      | fail e ctx =>
        exact ⟨⟨packet, some e, { ctx.st with questionMsg := some ctx.msg }, ctx.world⟩, rfl⟩
      | stop ctx => exact ⟨repackQuery pkgs.dns packet pad ctx, rfl⟩
      | next ctx => exact ⟨repackQuery pkgs.dns packet pad ctx, rfl⟩
    · refine ⟨?_, fun h plugin ctx hr => queryStage_avoids.mpr (h msg qName rfl plugin ctx hr)⟩
      rintro h _ _ ⟨⟩ plugin ctx hr
      exact queryStage_avoids.mp (h plugin ctx hr)

theorem packSynth_stopAvoids (flow : Flow) : StopAvoids F (flow.packSynth p) := by
  unfold Flow.packSynth
  split
  · trivial
  · split <;> trivial

theorem afterQueryPlugins_stopAvoids (server : Option ServerInfo) (applied : Applied) :
    StopAvoids F (afterQueryPlugins p caller server applied) := by
  unfold afterQueryPlugins
  split
  · trivial
  split
  · trivial
  refine (packSynth_stopAvoids _).bind fun flow _ _ => ?_
  unfold route
  split
  · split <;> trivial
  · split
    · trivial
    · split <;> trivial

theorem dispatch_stopAvoids : StopAvoids F (dispatch p caller env world query) ↔
    ∀ plugin ctx, EvaluatesQuery p caller env world query plugin ctx →
      Avoids F (plugin.eval p.pkgs env.query ctx) := by
  unfold dispatch EvaluatesQuery
  dsimp only
  split
  · next h => exact ⟨fun _ _ _ he => absurd he.1 (by omega), fun _ => trivial⟩
  · next h =>
    have hlen : minDNSPacketSize ≤ query.length := by omega
    have hiff : Avoids F (applyQueryPlugins p.settings p.pkgs env.query (startState p caller) world
        query (env.server.any fun s => s.proto = .doh || s.proto = .tls)) ↔
        ∀ plugin ctx, EvaluatesQuery p caller env world query plugin ctx →
          Avoids F (plugin.eval p.pkgs env.query ctx) := by
      refine Iff.trans applyQueryPlugins_avoids ⟨?_, ?_⟩
      · rintro h plugin ctx ⟨-, msg, qName, hparse, hr⟩
        exact h msg qName hparse plugin ctx hr
      · intro h msg qName hparse plugin ctx hr
        exact h plugin ctx ⟨hlen, msg, qName, hparse, hr⟩
    refine Iff.trans ?_ hiff
    unfold startState
    cases applyQueryPlugins p.settings p.pkgs env.query _ world query _ with
    | error halted => exact Iff.rfl
    | ok applied => exact ⟨fun _ => trivial, fun _ => afterQueryPlugins_stopAvoids _ _⟩

theorem fetch_stopAvoids (hF : ¬F .indexOutOfRange) {flow : Flow} {serverInfo : ServerInfo}
    {query' : Bytes}
    (hd : dispatch p caller env world query = .ok (.forward flow serverInfo query')) :
    StopAvoids F (fetch p env flow serverInfo query') := by
  refine (dispatch_forwarded hd).fetch_ends.mono (fun _ _ _ => trivial) fun stop h => ?_
  cases stop with
  | exit exit => trivial
  | halt halted =>
    intro panic hpanic
    rw [h.2 panic hpanic]
    exact hF

theorem filter_stopAvoids (flow : Flow) : StopAvoids F (filter p env subquery flow) ↔
    (fits flow.response = true → Avoids F (applyResponsePlugins p.settings p.pkgs
      (responseEnv env subquery) flow.st (flow.hand env.responseTime).world flow.response none)) := by
  unfold filter
  split
  · next h =>
    simp only [Bool.not_eq_true'] at h
    exact ⟨fun _ hf => absurd (h.symm.trans hf) nofun, fun _ => trivial⟩
  · next h =>
    simp only [Bool.not_eq_true', Bool.not_eq_false] at h
    refine Iff.trans ?_ (Iff.symm (forall_prop_of_true h))
    unfold responseEnv
    dsimp only [Flow.hand]
    cases applyResponsePlugins p.settings p.pkgs ⟨env.responseTime, env.freshID, subquery⟩ flow.st _
      flow.response none with
    | error halted => exact Iff.rfl
    | ok applied =>
      refine ⟨fun _ => trivial, fun _ => ?_⟩
      dsimp only
      split
      · trivial
      · unfold afterResponsePlugins
        split
        · trivial
        · exact (packSynth_stopAvoids _).bind fun _ _ _ => trivial

theorem deliver_stopAvoids (hF : ¬F .nilDereference) (flow : Flow) (charged : Bool) :
    StopAvoids F (deliver p caller env flow charged) := by
  unfold deliver
  dsimp only
  split
  · trivial
  split
  · unfold deliverUDP
    have htruncate : StopAvoids F (truncateFor p flow) := by
      unfold truncateFor
      split
      · split <;> trivial
      · trivial
    refine htruncate.bind fun flow' _ _ => ?_
    split
    · rintro _ ⟨⟩
      exact hF
    · trivial
  · split <;> trivial
  · trivial

theorem evaluatesResponse_avoids :
    (∀ plugin ctx, EvaluatesResponse p caller env subquery world query plugin ctx →
      Avoids F (plugin.eval p.pkgs (responseEnv env subquery) ctx)) ↔
    ∀ flow, HasResponse p caller env world query flow →
      Avoids F (applyResponsePlugins p.settings p.pkgs (responseEnv env subquery) flow.st
        (flow.hand env.responseTime).world flow.response none) := by
  constructor
  · intro h flow hflow
    refine applyResponsePlugins_avoids.mpr fun msg hu plugin ctx hr => ?_
    exact h plugin ctx ⟨flow, msg, hflow, hu, hr⟩
  · rintro h plugin ctx ⟨flow, msg, hflow, hu, hr⟩
    exact applyResponsePlugins_avoids.mp (h flow hflow) msg hu plugin ctx hr

section Serve

variable (hidx : ¬F .indexOutOfRange) (hnil : ¬F .nilDereference)
include hidx hnil

theorem phases_stopAvoids : StopAvoids F (phases p caller env subquery world query) ↔
    (∀ plugin ctx, EvaluatesQuery p caller env world query plugin ctx →
      Avoids F (plugin.eval p.pkgs env.query ctx)) ∧
    ∀ plugin ctx, EvaluatesResponse p caller env subquery world query plugin ctx →
      Avoids F (plugin.eval p.pkgs (responseEnv env subquery) ctx) := by
  rw [← dispatch_stopAvoids, evaluatesResponse_avoids]
  unfold phases StopAvoids
  rw [ends_bind, ends_iff]
  refine and_congr_right fun _ => ?_
  have hrest {flow₀ : Flow} {serverInfo : ServerInfo} {query' : Bytes}
      (hd : dispatch p caller env world query = .ok (.forward flow₀ serverInfo query')) :
      StopAvoids F (do
        let flow ← fetch p env flow₀ serverInfo query'
        let flow ← filter p env subquery flow
        deliver p caller env flow true) ↔
      ∀ flow, fetch p env flow₀ serverInfo query' = .ok flow →
        StopAvoids F (filter p env subquery flow) := by
    unfold StopAvoids
    rw [ends_bind, ends_iff, and_iff_right (fetch_stopAvoids hidx hd)]
    refine forall_congr' fun flow => imp_congr_right fun _ => ?_
    rw [ends_bind, ends_iff, and_iff_left fun flow' _ => deliver_stopAvoids hnil flow' true]
  constructor
  · rintro h flow ⟨⟨flow₀, serverInfo, query', hdispatch, hfetch⟩, hfits⟩
    exact (filter_stopAvoids flow).mp ((hrest hdispatch).mp (h _ hdispatch) flow hfetch) hfits
  · intro h decision hd
    cases decision with
    | respond flow charged => exact deliver_stopAvoids hnil flow charged
    | forward flow₀ serverInfo query' =>
      refine (hrest hd).mpr fun flow hfetch => (filter_stopAvoids flow).mpr fun hfits => ?_
      exact h flow ⟨⟨flow₀, serverInfo, query', hd, hfetch⟩, hfits⟩

theorem handle_avoids : Avoids F (handle p caller env subquery world query) ↔
    (∀ plugin ctx, EvaluatesQuery p caller env world query plugin ctx →
      Avoids F (plugin.eval p.pkgs env.query ctx)) ∧
    ∀ plugin ctx, EvaluatesResponse p caller env subquery world query plugin ctx →
      Avoids F (plugin.eval p.pkgs (responseEnv env subquery) ctx) := by
  rw [← phases_stopAvoids hidx hnil]
  unfold handle
  cases phases p caller env subquery world query with
  | ok exit => exact Iff.rfl
  | error stop => cases stop <;> exact Iff.rfl

omit hnil in
theorem queryLogEval_avoids {pkgs : Packages} {ignoredQtypes : List Text} {ctx : Ctx} :
    Avoids F (queryLogEval pkgs ignoredQtypes ctx) ↔
      ∀ question rest, ctx.msg.question = question :: rest →
        LogsType pkgs ignoredQtypes question.qtype → ctx.st.Readable F := by
  unfold queryLogEval LogsType
  refine Iff.trans Ctx.avoids_question ?_
  rw [and_iff_right fun _ => hidx]
  refine forall_congr' fun question => forall_congr' fun rest => imp_congr_right fun _ => ?_
  dsimp only
  split
  · next h => exact avoids_iff_of_not trivial (by simp [h])
  · next h =>
    simp only [Bool.not_eq_true] at h
    refine Iff.trans (Ctx.avoids_logTo ?_) ?_
    · split <;> exact ⟨_, rfl⟩
    · simp only [h, true_imp_iff]

omit hnil in
theorem applyLoggingPlugins_avoids {st : PluginsState} {w : World} :
    Avoids F (applyLoggingPlugins p.settings p.pkgs st w) ↔
      ∀ ignoredQtypes msg question rest, p.settings.queryLog = some ignoredQtypes →
        st.questionMsg = some msg → msg.question = question :: rest →
        LogsType p.pkgs ignoredQtypes question.qtype → st.Readable F := by
  unfold applyLoggingPlugins
  split
  · next ignored msg hlog hmsg =>
    rw [Avoids, ends_map]
    refine Iff.trans (queryLogEval_avoids hidx) ?_
    constructor
    · intro h ignored' msg' question rest hlog' hmsg'
      cases hlog.symm.trans hlog'
      cases hmsg.symm.trans hmsg'
      exact h question rest
    · intro h question rest
      exact h ignored msg question rest hlog hmsg
  · next hnone =>
    constructor
    · intro _ ignored msg _ _ hlog hmsg
      exact absurd hmsg (hnone ignored msg hlog)
    · intro _
      trivial

theorem serve_avoids : Avoids F (serve p caller env subquery world query) ↔
    (∀ plugin ctx, EvaluatesQuery p caller env world query plugin ctx →
      Avoids F (plugin.eval p.pkgs env.query ctx)) ∧
    (∀ plugin ctx, EvaluatesResponse p caller env subquery world query plugin ctx →
      Avoids F (plugin.eval p.pkgs (responseEnv env subquery) ctx)) ∧
    ∀ exit, handle p caller env subquery world query = .ok exit → exit.logs = true →
      Avoids F (applyLoggingPlugins p.settings p.pkgs exit.st exit.world) := by
  have hleave : ∀ exit, Avoids F (leave p exit) ↔ (exit.logs = true →
      Avoids F (applyLoggingPlugins p.settings p.pkgs exit.st exit.world)) := by
    intro exit
    unfold leave
    split
    · next hl =>
      rw [Avoids, ends_bind]
      exact ⟨fun h _ => h, fun h => h hl⟩
    · next hl => exact ⟨fun _ h => absurd h hl, fun _ => trivial⟩
  rw [← and_assoc, ← handle_avoids hidx hnil]
  unfold serve Avoids
  rw [ends_bind, ends_iff]
  exact and_congr_right fun _ => forall_congr' fun exit => imp_congr_right fun _ => hleave exit

end Serve

end Halts

end DnscryptProxy
