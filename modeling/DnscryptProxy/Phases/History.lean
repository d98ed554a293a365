import DnscryptProxy.Phases.Call
import DnscryptProxy.Plugins.Verdicts

/-! What a call adds to the history: a packet when it is handed to the response plugins,
an answer when the cache reader finds it, and an answer that the lists permit when the cache
writer stores it. `processIncomingQuery_logs` is the result for a whole call with its
sub-queries. -/

namespace DnscryptProxy

open Library

/-- The property holds of everything that a call in the environment can log itself. -/
structure Vouches (p : Proxy) (P : Event → Prop) (env : CallEnv) : Prop where
  received : ∀ source client packet, P (.received source client packet env.responseTime)
  found : ∀ fresh question dnssec answer, P (.found fresh question dnssec answer env.query.now)
  stored : ∀ (st : PluginsState) (msg : Msg),
    AllowedByName p.settings (p.pkgs.zone env.query.now) st →
    Permits p.settings (p.pkgs.zone env.responseTime) st.whitelisted msg.answer →
    ∀ dnssec expiration ttl, P (.stored st.questionMsg dnssec ⟨expiration, msg.withTTL ttl⟩)

def Decision.flow : Decision → Flow
  | .respond flow _ => flow
  | .forward flow _ _ => flow

section Phases

variable {p : Proxy} {P : Event → Prop} {caller : Caller} {env : CallEnv} {world : World}
  {query : Bytes} {flow : Flow}

/-! ## The query -/

theorem packSynth_world (flow : Flow) :
    Ends (flow.packSynth p) (fun flow' => flow'.world = flow.world ∧ flow'.st = flow.st)
      fun stop => stop.world = flow.world := by
  unfold Flow.packSynth
  split
  · exact ⟨rfl, rfl⟩
  · split
    · rfl
    · exact ⟨rfl, rfl⟩

theorem route_world (server : Option ServerInfo) (flow : Flow) :
    Ends (route caller server query flow)
      (fun decision => decision.flow.world = flow.world ∧
        ∃ name, decision.flow.st = { flow.st with serverName := name })
      fun stop => stop.world = flow.world := by
  unfold route
  split
  · split
    · rfl
    · exact ⟨rfl, _, rfl⟩
  · split
    · exact ⟨rfl, _, rfl⟩
    · split
      · exact ⟨rfl, _, rfl⟩
      · exact ⟨rfl, _, rfl⟩

theorem dispatch_logs (hP : Vouches p P env) :
    Ends (dispatch p caller env world query)
      (fun decision => Logs P world decision.flow.world ∧ (Idle decision.flow.st →
        AllowedByName p.settings (p.pkgs.zone env.query.now) decision.flow.st))
      fun stop => Logs P world stop.world := by
  have happly {pad : Bool} : Ends (applyQueryPlugins p.settings p.pkgs env.query (startState p caller)
      world query pad) _ _ := applyQueryPlugins_judged hP.found ⟨rfl, rfl⟩ rfl rfl
  unfold dispatch
  dsimp only
  split
  · exact .refl _
  · split
    · next halted hh => exact happly.of_error hh
    · next applied ha =>
      obtain ⟨hlogs, hallowed⟩ := happly.of_ok ha
      unfold afterQueryPlugins
      split
      · exact hlogs
      · split
        · exact hlogs
        · refine ((packSynth_world _).mono (fun _ _ h => h) fun stop h => ?_).bind
            fun flow _ hflow => ?_
          · rw [h]
            exact hlogs
          · refine (route_world _ flow).mono (fun decision _ hd => ?_) fun stop h => ?_
            · obtain ⟨hw, name, hst⟩ := hd
              rw [hw, hst, hflow.1, hflow.2]
              exact ⟨hlogs, hallowed⟩
            · rw [h, hflow.1]
              exact hlogs

/-! ## The response -/

theorem charge_world (flow : Flow) : flow.charge.world = flow.world := by
  unfold Flow.charge
  split
  · split <;> rfl
  · rfl

variable {subquery : Subquery}

theorem applyResponsePlugins_logs (hP : Vouches p P env)
    (heffect : SubqueryEffect p.pkgs p.settings.query subquery) (hsub : SubqueryLogs P subquery)
    {st : PluginsState} (hi : Idle st)
    (hallowed : AllowedByName p.settings (p.pkgs.zone env.query.now) st) (w : World)
    (packet : Bytes) :
    Ends (applyResponsePlugins p.settings p.pkgs (responseEnv env subquery) st w packet none)
      (fun applied => Logs P w applied.world) fun halted => Logs P w halted.world := by
  unfold applyResponsePlugins
  split
  · exact .refl _
  · next msg hu =>
    have hchain : Ends (chain (responseStage p.settings p.pkgs (responseEnv env subquery))
        p.settings.responsePlugins (responseCtx st w packet msg)) _ _ :=
      responseChain_logs heffect hsub hi (hP.stored st _ hallowed)
    have hrepack {ctx : Ctx} (h : Logs P w ctx.world) :
        Logs P w (repackResponse p.pkgs.dns packet none ctx).world := by
      rw [(repackResponse_state p.pkgs.dns packet none ctx).2]
      exact h
    refine hchain.bind fun r _ hr => ?_
    cases r with
    | fail e ctx => exact hr
    | stop ctx => exact hrepack hr
    | next ctx => exact hrepack hr

theorem filter_logs (hP : Vouches p P env)
    (heffect : SubqueryEffect p.pkgs p.settings.query subquery) (hsub : SubqueryLogs P subquery)
    (hi : Idle flow.st) (hallowed : AllowedByName p.settings (p.pkgs.zone env.query.now) flow.st) :
    Ends (filter p env subquery flow) (fun flow' => Logs P flow.world flow'.world)
      fun stop => Logs P flow.world stop.world := by
  have hhand : Logs P flow.world (flow.hand env.responseTime).world := .log _ (hP.received ..)
  have happly := applyResponsePlugins_logs hP heffect hsub hi hallowed
    (flow.hand env.responseTime).world flow.response
  unfold filter
  split
  · exact .refl _
  · dsimp only
    split
    · next halted hh => exact hhand.trans (happly.of_error hh)
    · next applied ha =>
      have hlogs := hhand.trans (happly.of_ok ha)
      split
      · exact hlogs
      · unfold afterResponsePlugins
        split
        · exact hlogs
        · refine ((packSynth_world _).mono (fun _ _ h => h) fun stop h => ?_).bind
            fun flow' _ h => ?_
          · rw [h]
            exact hlogs
          · have hcharge : Logs P flow.world flow'.charge.world := by
              rw [charge_world, h.1]
              exact hlogs
            exact hcharge

theorem deliver_history (flow : Flow) (charged : Bool) :
    Ends (deliver p caller env flow charged)
      (fun exit => exit.world.history = flow.world.history)
      fun stop => stop.world.history = flow.world.history := by
  have htruncate : Ends (truncateFor p flow) (fun flow' => flow'.world = flow.world)
      fun stop => stop.world = flow.world := by
    unfold truncateFor
    split
    · split <;> rfl
    · rfl
  unfold deliver
  dsimp only
  split
  · split <;> rfl
  · split
    · refine (htruncate.mono (fun _ _ h => h) fun stop h => congrArg World.history h).bind
        fun flow' _ h => ?_
      have hhistory : flow'.world.history = flow.world.history := congrArg World.history h
      split
      · exact hhistory
      · exact hhistory
    · split
      · split <;> rfl
      · rfl
    · rfl

/-! ## The whole call -/

theorem phases_logs (hP : Vouches p P env)
    (heffect : SubqueryEffect p.pkgs p.settings.query subquery) (hsub : SubqueryLogs P subquery) :
    Ends (phases p caller env subquery world query) (fun exit => Logs P world exit.world)
      fun stop => Logs P world stop.world := by
  have hdeliver {flow : Flow} {charged : Bool} (h : Logs P world flow.world) :
      Ends (deliver p caller env flow charged) (fun exit => Logs P world exit.world)
        fun stop => Logs P world stop.world :=
    (deliver_history flow charged).mono (fun _ _ he => h.trans (.of_eq he))
      fun _ he => h.trans (.of_eq he)
  refine (dispatch_logs hP).bind fun decision hd hlogs => ?_
  cases decision with
  | respond flow charged => exact hdeliver hlogs.1
  | forward flow serverInfo query' =>
    have hforwarded := dispatch_forwarded hd
    have hfetch : Ends (fetch p env flow serverInfo query')
        (fun flow' => Logs P world flow'.world ∧ flow'.st = flow.st)
        fun stop => Logs P world stop.world :=
      hforwarded.fetch_ends.mono (fun _ _ h => ⟨h.world.symm ▸ hlogs.1, h.st⟩)
        fun _ h => h.world_eq.symm ▸ hlogs.1
    refine hfetch.bind fun flow₁ _ h₁ => ?_
    have hfilter : Ends (filter p env subquery flow₁) _ _ :=
      filter_logs hP heffect hsub (h₁.2 ▸ hforwarded.idle) (h₁.2 ▸ hlogs.2 hforwarded.idle)
    refine (hfilter.mono (fun _ _ h => h₁.1.trans h) fun _ h => h₁.1.trans h).bind fun flow₂ _ h₂ => ?_
    exact hdeliver h₂

theorem serve_logs (hP : Vouches p P env)
    (heffect : SubqueryEffect p.pkgs p.settings.query subquery) (hsub : SubqueryLogs P subquery) :
    Ends (serve p caller env subquery world query) (fun exit => Logs P world exit.world)
      fun halted => Logs P world halted.world := by
  have hphases : Ends (phases p caller env subquery world query) _ _ := phases_logs hP heffect hsub
  have hhandle : Ends (handle p caller env subquery world query)
      (fun exit => Logs P world exit.world) fun halted => Logs P world halted.world := by
    unfold handle
    split
    · next exit he => exact hphases.of_ok he
    · next exit he => exact hphases.of_error he
    · next halted he => exact hphases.of_error he
  refine hhandle.bind fun exit _ hexit => ?_
  unfold leave
  split
  · refine (ends_bind _ _ _ _).mpr ?_
    refine (applyLoggingPlugins_world p.settings p.pkgs exit.st exit.world).mono
      (fun _ _ _ => hexit) fun halted hw => ?_
    rw [hw]
    exact hexit
  · exact hexit

theorem subqueryWith_logs {envs : List CallEnv} (hP : ∀ env ∈ envs, Vouches p P env) :
    SubqueryLogs P (subqueryWith p envs) := by
  induction envs with
  | nil => exact nofun
  | cons env envs ih =>
    intro sub hsub w packet
    cases hsub
    have hserve : Ends (serve p .trampoline env (subqueryWith p envs) w packet) _ _ :=
      serve_logs (hP env (by simp)) (subqueryWith_effect p envs)
        (ih fun env' he => hP env' (by simp [he]))
    exact (ends_map _ _ _ _).mpr hserve

theorem processIncomingQuery_logs {envs : List CallEnv} (hP : ∀ env' ∈ env :: envs, Vouches p P env') :
    Ends (processIncomingQuery p caller env envs world query) (fun exit => Logs P world exit.world)
      fun halted => Logs P world halted.world :=
  serve_logs (hP env (by simp)) (subqueryWith_effect p envs)
    (subqueryWith_logs fun env' he => hP env' (by simp [he]))

end Phases

end DnscryptProxy
