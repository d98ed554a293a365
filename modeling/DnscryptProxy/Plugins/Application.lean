import DnscryptProxy.Plugins.Effects

/-! What the lists of plugins do to a query and to a response. `Through` is the
effect of one or more stages; `applyQueryPlugins_ends` and
`applyResponsePlugins_ends` say in which ways the two functions of `plugins.go`
return, and that on every way the cache changes by its own steps only. -/

namespace DnscryptProxy

open Library Relation

variable {pkgs : Packages} {settings : QuerySettings} {M : Carried → Carried → Prop}

/-! ## Lists of plugins -/

/-- How a stage leaves the state of a query: undecided, answered, or dropped with an
error. -/
def Decided : Step Ctx GoError → Prop
  | .next ctx => Idle ctx.st
  | .stop ctx => (ctx.st.action = .reject ∨ ctx.st.action = .synth) ∧ ctx.st.synthResponse ≠ none
  | .fail _ ctx => ctx.st.action = .drop

/-- What one or more stages can do. -/
structure Through (pkgs : Packages) (settings : QuerySettings) (M : Carried → Carried → Prop)
    (ctx : Ctx) (r : Step Ctx GoError) : Prop where
  kept : Kept M ctx r.state
  decided : Decided r
  world : CacheSteps pkgs settings ctx.world r.state.world

theorem Through.trans [IsTrans _ M] {ctx ctx₁ : Ctx} {r : Step Ctx GoError}
    (h : Through pkgs settings M ctx (.next ctx₁)) (h' : Through pkgs settings M ctx₁ r) :
    Through pkgs settings M ctx r :=
  ⟨h.kept.trans h'.kept, h'.decided, h.world.trans h'.world⟩

theorem Kept.msg_eq {ctx ctx' : Ctx} (h : Kept Eq ctx ctx') : ctx.msg = ctx'.msg :=
  congrArg Prod.fst h.carried

theorem Through.sameAnswer {ctx : Ctx} {r : Step Ctx GoError} (h : Through pkgs settings Eq ctx r) :
    Through pkgs settings SameAnswer ctx r :=
  ⟨⟨h.kept.clientProto, h.kept.clientAddr, h.kept.questionMsg, h.kept.settings,
    h.kept.carried ▸ refl _⟩, h.decided, h.world⟩

section Stages

variable {s : Settings} {ctx : Ctx}

theorem afterEval_state (s : Settings) (ctx : Ctx) (err : Option GoError) :
    (afterEval s ctx err).state.msg = ctx.msg ∧ (afterEval s ctx err).state.world = ctx.world ∧
      ∃ action synthResponse, (afterEval s ctx err).state.st =
        { ctx.st with action := action, synthResponse := synthResponse } := by
  unfold afterEval
  cases err with
  | some e => exact ⟨rfl, rfl, _, _, rfl⟩
  | none =>
    dsimp only
    split <;> split <;> exact ⟨rfl, rfl, _, _, rfl⟩

theorem decided_afterEval (h : Settled ctx.st) (err : Option GoError) :
    Decided (afterEval s ctx err) := by
  unfold afterEval
  cases err with
  | some e => rfl
  | none =>
    rcases h with h | h | ⟨h, hs⟩
    · simpa [h.1, Decided] using h
    · simp [h, Decided]
    · simpa [h, Decided] using hs

theorem Effect.through {ctx' : Ctx} (h : Effect pkgs settings M ctx ctx') (hi : Idle ctx.st)
    (err : Option GoError) : Through pkgs settings M ctx (afterEval s ctx' err) := by
  obtain ⟨hm, hw, action, synth, hst⟩ := afterEval_state s ctx' err
  refine ⟨?_, decided_afterEval (h.settled hi) err, hw ▸ h.world⟩
  constructor <;> simp only [hst, hm, Ctx.carried]
  exacts [h.kept.clientProto, h.kept.clientAddr, h.kept.questionMsg, h.kept.settings, h.kept.carried]

theorem HasEffect.through {x : Evaluated} (h : HasEffect pkgs settings M ctx x) (hi : Idle ctx.st) :
    Ends (do let (ctx, err) ← x; return afterEval s ctx err) (Through pkgs settings M ctx)
      fun h => CacheSteps pkgs settings ctx.world h.world :=
  h.bind fun _ _ he => he.through hi _

theorem chain_through [IsPreorder _ M] {π : Type}
    {eval : π → Ctx → Except Halted (Step Ctx GoError)} {ps : List π}
    (h : ∀ p ∈ ps, ∀ ctx, Idle ctx.st → Ends (eval p ctx) (Through pkgs settings M ctx)
      fun h => CacheSteps pkgs settings ctx.world h.world) (hi : Idle ctx.st) :
    Ends (chain eval ps ctx) (Through pkgs settings M ctx)
      fun h => CacheSteps pkgs settings ctx.world h.world := by
  refine chain_invariant (fun p hp ctx₁ h₁ => ?_) ⟨⟨rfl, rfl, rfl, rfl, refl _⟩, hi, .refl⟩
  exact (h p hp ctx₁ h₁.decided).mono (fun r _ hr => h₁.trans hr) fun _ he => h₁.world.trans he

theorem queryChain_through {env : QueryEnv} (plugins : List QueryPlugin) (hi : Idle ctx.st) :
    Ends (chain (queryStage s pkgs env) plugins ctx) (Through pkgs settings SameQuestion ctx)
      fun h => CacheSteps pkgs settings ctx.world h.world :=
  chain_through (fun plugin _ _ hi => plugin.effect.through hi) hi

theorem not_cacheResponse_of_filter {plugin : ResponsePlugin} (h : plugin ∈ s.responseFilters) :
    plugin ≠ .cacheResponse := by
  rintro rfl
  simp [Settings.responseFilters] at h

theorem responseFilters_through {env : ResponseEnv} (hsub : SubqueryEffect pkgs settings env.subquery)
    (hi : Idle ctx.st) :
    Ends (chain (responseStage s pkgs env) s.responseFilters ctx) (Through pkgs settings Eq ctx)
      fun h => CacheSteps pkgs settings ctx.world h.world :=
  chain_through (fun plugin hp _ hi =>
    (plugin.effect_of_filter hsub (not_cacheResponse_of_filter hp)).through hi) hi

theorem responseChain_through {env : ResponseEnv} (hsub : SubqueryEffect pkgs settings env.subquery)
    {source : Source} {packet : Bytes} {msg : Msg}
    (hr : .received source ctx.st.questionMsg packet env.now ∈ ctx.world.history)
    (hu : pkgs.dns.unpack packet = .ok msg) (hm : ctx.msg = filteredMsg msg)
    (ht : ctx.st.settings = settings) (hi : Idle ctx.st) :
    Ends (chain (responseStage s pkgs env) s.responsePlugins ctx)
      (Through pkgs settings SameAnswer ctx) fun h => CacheSteps pkgs settings ctx.world h.world := by
  refine ends_chain_append.mpr ((responseFilters_through hsub hi).mono (fun r _ hr₁ => ?_)
    fun _ he => he)
  cases r with
  | stop ctx₁ => exact hr₁.sameAnswer
  | fail e ctx₁ => exact hr₁.sameAnswer
  | next ctx₁ =>
    -- the message is still that of the packet, so the writer may store it
    have hw : HasEffect pkgs settings SameAnswer ctx₁ (cacheResponseEval pkgs env.now ctx₁) :=
      cacheResponseEval_effect (hr₁.world.history_suffix.mem (hr₁.kept.questionMsg ▸ hr)) hu
        (hr₁.kept.msg_eq ▸ hm) (hr₁.kept.settings.trans ht)
    dsimp only
    split
    · rw [chain_singleton]
      exact (hw.through hr₁.decided).mono (fun _ _ h => hr₁.sameAnswer.trans h)
        fun _ he => hr₁.world.trans he
    · exact hr₁.sameAnswer

end Stages

/-! ## Applying the plugins -/

/-- What a call keeps of the state of its query. -/
structure SameClient (st st' : PluginsState) : Prop where
  clientProto : st'.clientProto = st.clientProto
  clientAddr : st'.clientAddr = st.clientAddr
  settings : st'.settings = st.settings

theorem SameClient.refl (st : PluginsState) : SameClient st st := ⟨rfl, rfl, rfl⟩

section Apply

variable {s : Settings}

-- which plugins there are does not matter here
seal Settings.queryPlugins Settings.responsePlugins

/-- The context in which the query plugins start. -/
def queryCtx (st : PluginsState) (world : World) (msg : Msg) (qName : Text) : Ctx :=
  ⟨{ st with qName := qName, questionMsg := some msg }, msg, world⟩

/-- The packet was parsed, and every query plugin was evaluated without error and let
the query go on. -/
def PassedQuery (s : Settings) (pkgs : Packages) (env : QueryEnv) (st : PluginsState)
    (world : World) (packet : Bytes) : Prop :=
  ∃ msg qName ctx, parseQuery pkgs.dns packet = .ok (msg, qName) ∧
    Passes (queryStage s pkgs env) s.queryPlugins (queryCtx st world msg qName) ctx ∧
    ctx.st.action = .cont

/-- The ways in which `ApplyQueryPlugins` returns. -/
inductive Queried (s : Settings) (pkgs : Packages) (env : QueryEnv) (st : PluginsState)
    (world : World) (packet : Bytes) (applied : Applied) : Prop where
  | unparsed (e : GoError) (unparsed : parseQuery pkgs.dns packet = .error e)
      (returned : applied = ⟨packet, some e, st, world⟩)
  | dropped (dropped : applied.st.action = .drop)
  | answered (answered : applied.st.synthResponse ≠ none)
  | passed (passed : PassedQuery s pkgs env st world packet) (idle : Idle applied.st)

variable {packet : Bytes} {ctx ctx' : Ctx} {env : ResponseEnv}

theorem parseQuery_ok {lib : DNSLibrary} {msg : Msg} {qName : Text}
    (h : parseQuery lib packet = .ok (msg, qName)) :
    lib.unpack packet = .ok msg ∧
      ∃ asked, msg.question = [asked] ∧ normalizeQName asked.name = .ok qName := by
  unfold parseQuery at h
  obtain ⟨msg', hunpack, h⟩ := ok_of_bind h
  split at h
  · next asked hasked =>
    obtain ⟨qName', hname, h⟩ := ok_of_bind h
    cases h
    exact ⟨hunpack, asked, hasked, hname⟩
  · cases h

theorem addEDNS0Padding_cases (lib : DNSLibrary) (msg : Msg) (packet : Bytes) (paddingLen : Nat) :
    ∃ padded : Msg, padded.id = msg.id ∧ padded.question = msg.question ∧
      (addEDNS0PaddingIfNoneFound lib msg packet paddingLen = (.ok packet, padded) ∨
        addEDNS0PaddingIfNoneFound lib msg packet paddingLen = (lib.pack padded, padded)) := by
  unfold addEDNS0PaddingIfNoneFound
  generalize hwith : (if msg.isEdns0.isNone then msg.setEdns0 (UInt16.ofNat maxDNSPacketSize) false
      else msg) = withOPT
  have hkeeps : withOPT.id = msg.id ∧ withOPT.question = msg.question := by
    subst hwith
    split
    · exact ⟨rfl, rfl⟩
    · exact ⟨rfl, rfl⟩
  dsimp only
  split
  · exact ⟨withOPT, hkeeps.1, hkeeps.2, .inl rfl⟩
  · split
    · exact ⟨withOPT, hkeeps.1, hkeeps.2, .inl rfl⟩
    · exact ⟨withOPT.modifyEdns0 _, hkeeps.1, hkeeps.2, .inr rfl⟩

theorem repackQuery_state (lib : DNSLibrary) (packet : Bytes) (pad : Bool) (ctx : Ctx) :
    (repackQuery lib packet pad ctx).world = ctx.world ∧
      ∃ msg, (repackQuery lib packet pad ctx).st = { ctx.st with questionMsg := some msg } ∧
        msg.question = ctx.msg.question := by
  unfold repackQuery
  dsimp only
  split
  · exact ⟨rfl, _, rfl, rfl⟩
  · next packet2 _ =>
    split
    · obtain ⟨padded, -, hquestion, h | h⟩ := addEDNS0Padding_cases lib ctx.msg packet2
        (63 - (packet2.length + 63) % 64)
      · rw [h]
        exact ⟨rfl, padded, rfl, hquestion⟩
      · rw [h]
        cases lib.pack padded with
        | ok _ => exact ⟨rfl, padded, rfl, hquestion⟩
        | error _ => exact ⟨rfl, padded, rfl, hquestion⟩
    · exact ⟨rfl, _, rfl, rfl⟩

theorem applyQueryPlugins_ends {env : QueryEnv} {st : PluginsState} {world : World} {pad : Bool}
    (hi : Idle st) :
    Ends (applyQueryPlugins s pkgs env st world packet pad)
      (fun applied => Queried s pkgs env st world packet applied ∧ SameClient st applied.st ∧
        CacheSteps pkgs settings world applied.world)
      fun h => CacheSteps pkgs settings world h.world := by
  unfold applyQueryPlugins
  cases hp : parseQuery pkgs.dns packet with
  | error e => exact ⟨.unparsed e hp rfl, .refl st, .refl⟩
  | ok parsed =>
    obtain ⟨msg, qName⟩ := parsed
    have hstart : Idle (queryCtx st world msg qName).st := hi
    refine (queryChain_through s.queryPlugins hstart).bind fun r hr ht => ?_
    have hsame : SameClient st r.state.st :=
      ⟨ht.kept.clientProto, ht.kept.clientAddr, ht.kept.settings⟩
    cases r with
    | fail e ctx => exact ⟨.dropped ht.decided, ⟨hsame.1, hsame.2, hsame.3⟩, ht.world⟩
    | stop ctx =>
      obtain ⟨hw, client, hst, -⟩ := repackQuery_state pkgs.dns packet pad ctx
      refine ⟨.answered ?_, ?_, ?_⟩
      · rw [hst]
        exact ht.decided.2
      · rw [hst]
        exact ⟨hsame.1, hsame.2, hsame.3⟩
      · rw [hw]
        exact ht.world
    | next ctx =>
      obtain ⟨hw, client, hst, -⟩ := repackQuery_state pkgs.dns packet pad ctx
      have hpasses : Passes (queryStage s pkgs env) s.queryPlugins (queryCtx st world msg qName) ctx :=
        passes_of_chain hr
      refine ⟨.passed ⟨msg, qName, ctx, hp, hpasses, ht.decided.1⟩ ?_, ?_, ?_⟩
      · rw [hst]
        exact ht.decided
      · rw [hst]
        exact ⟨hsame.1, hsame.2, hsame.3⟩
      · rw [hw]
        exact ht.world

def Replaced (s : Settings) (pkgs : Packages) (env : ResponseEnv) (st : PluginsState)
    (world : World) (packet : Bytes) (st' : PluginsState) : Prop :=
  ∃ msg plugin ctx ctx', pkgs.dns.unpack packet = .ok msg ∧
    Reaches (responseStage s pkgs env) s.responsePlugins (responseCtx st world packet msg) plugin ctx ∧
    plugin.eval pkgs env ctx = .ok (ctx', none) ∧ ctx'.st.action ≠ .cont ∧
    (afterEval s ctx' none).state.st = st'

def PassedResponse (s : Settings) (pkgs : Packages) (env : ResponseEnv) (st : PluginsState)
    (world : World) (packet : Bytes) (msg' : Msg) : Prop :=
  ∃ msg ctx, pkgs.dns.unpack packet = .ok msg ∧
    Passes (responseStage s pkgs env) s.responsePlugins (responseCtx st world packet msg) ctx ∧
    ctx.msg = msg'

/-- The ways in which `ApplyResponsePlugins` returns without an error. -/
inductive Responded (s : Settings) (pkgs : Packages) (env : ResponseEnv) (st : PluginsState)
    (world : World) (packet : Bytes) (applied : Applied) : Prop where
  | unparsed (e : GoError) (unparsed : pkgs.dns.unpack packet = .error e)
      (truncated : hasTCFlag packet = true) (returned : applied = ⟨packet, none, st, world⟩)
  | replaced (replaced : Replaced s pkgs env st world packet applied.st)
      (action : applied.st.action = .reject ∨ applied.st.action = .synth)
      (synth : applied.st.synthResponse ≠ none)
  | passed (msg : Msg) (passed : PassedResponse s pkgs env st world packet msg)
      (packed : pkgs.dns.pack msg = .ok applied.packet) (idle : Idle applied.st)

theorem afterEval_stop {err : Option GoError} (h : afterEval s ctx err = .stop ctx') :
    err = none ∧ ctx.st.action ≠ .cont := by
  unfold afterEval at h
  cases err with
  | some e => cases h
  | none =>
    refine ⟨rfl, fun hc => ?_⟩
    simp [hc] at h

theorem afterEval_next {err : Option GoError} (h : afterEval s ctx err = .next ctx') :
    err = none ∧ ctx' = ctx ∧ ctx.st.action = .cont := by
  unfold afterEval at h
  cases err with
  | some e => cases h
  | none =>
    dsimp only at h
    split at h
    · next hreject =>
      rw [if_pos (by simp [hreject])] at h
      cases h
    · split at h
      · cases h
      · next hcont =>
        cases h
        exact ⟨rfl, rfl, not_not.mp hcont⟩

theorem queryStage_next {env : QueryEnv} {plugin : QueryPlugin}
    (h : queryStage s pkgs env plugin ctx = .ok (.next ctx')) :
    plugin.eval pkgs env ctx = .ok (ctx', none) := by
  obtain ⟨⟨ctx₁, err⟩, heval, h⟩ := ok_of_bind h
  obtain ⟨rfl, rfl, -⟩ := afterEval_next (Except.ok.inj h)
  exact heval

theorem queryStage_next_action {env : QueryEnv} {plugin : QueryPlugin}
    (h : queryStage s pkgs env plugin ctx = .ok (.next ctx')) : ctx'.st.action = .cont := by
  obtain ⟨⟨ctx₁, err⟩, -, h⟩ := ok_of_bind h
  obtain ⟨-, rfl, hcont⟩ := afterEval_next (Except.ok.inj h)
  exact hcont

theorem responseStage_next {plugin : ResponsePlugin}
    (h : responseStage s pkgs env plugin ctx = .ok (.next ctx')) :
    plugin.eval pkgs env ctx = .ok (ctx', none) ∧ ctx'.st.action = .cont := by
  obtain ⟨⟨ctx₁, err⟩, heval, h⟩ := ok_of_bind h
  obtain ⟨rfl, rfl, hcont⟩ := afterEval_next (Except.ok.inj h)
  exact ⟨heval, hcont⟩

theorem responseStage_stop {plugin : ResponsePlugin} {ctx₂ : Ctx}
    (h : responseStage s pkgs env plugin ctx = .ok (.stop ctx₂)) :
    ∃ ctx', plugin.eval pkgs env ctx = .ok (ctx', none) ∧ ctx'.st.action ≠ .cont ∧
      afterEval s ctx' none = .stop ctx₂ := by
  obtain ⟨⟨ctx', err⟩, heval, h⟩ := ok_of_bind h
  have hafter : afterEval s ctx' err = .stop ctx₂ := Except.ok.inj h
  obtain ⟨rfl, hact⟩ := afterEval_stop hafter
  exact ⟨ctx', heval, hact, hafter⟩

theorem repackResponse_state (lib : DNSLibrary) (packet : Bytes) (ttl : Option UInt32) (ctx : Ctx) :
    (repackResponse lib packet ttl ctx).st = ctx.st ∧
      (repackResponse lib packet ttl ctx).world = ctx.world := by
  unfold repackResponse
  dsimp only
  split <;> exact ⟨rfl, rfl⟩

theorem pack_of_repackResponse {lib : DNSLibrary}
    (h : (repackResponse lib packet none ctx).err = none) :
    lib.pack ctx.msg = .ok (repackResponse lib packet none ctx).packet := by
  unfold repackResponse at h ⊢
  dsimp only at h ⊢
  split at h
  · cases h
  · next packet2 hp => rw [hp]

theorem applyResponsePlugins_ends {st : PluginsState} {world : World} {source : Source}
    (hsub : SubqueryEffect pkgs settings env.subquery)
    (hr : .received source st.questionMsg packet env.now ∈ world.history)
    (ht : st.settings = settings) (hi : Idle st) :
    Ends (applyResponsePlugins s pkgs env st world packet none)
      (fun applied => (applied.err = none → Responded s pkgs env st world packet applied) ∧
        SameClient st applied.st ∧ applied.st.stale = st.stale ∧
        CacheSteps pkgs settings world applied.world)
      fun h => CacheSteps pkgs settings world h.world := by
  unfold applyResponsePlugins
  cases hu : pkgs.dns.unpack packet with
  | error e =>
    refine ⟨fun herr => ?_, .refl st, rfl, .refl⟩
    split at herr
    · next htc => exact .unparsed e hu htc.2 (by rw [if_pos htc])
    · cases herr
  | ok msg =>
    have hthrough : Ends _ _ _ := responseChain_through (s := s) hsub
      (show _ ∈ (responseCtx st world packet msg).world.history from hr) hu rfl ht hi
    refine hthrough.bind fun r hchain h => ?_
    have hsame : SameClient st r.state.st :=
      ⟨h.kept.clientProto, h.kept.clientAddr, h.kept.settings⟩
    have hstale : r.state.st.stale = st.stale := h.kept.carried.2
    cases r with
    | fail e ctx => exact ⟨nofun, hsame, hstale, h.world⟩
    | stop ctx =>
      obtain ⟨hst, hw⟩ := repackResponse_state pkgs.dns packet none ctx
      refine ⟨fun _ => .replaced ?_ (hst ▸ h.decided.1) (hst ▸ h.decided.2), hst ▸ hsame,
        hst ▸ hstale, hw ▸ h.world⟩
      rcases chain_cases hchain with ⟨_, hn, _⟩ | ⟨plugin, ctx₁, hreach, heval, _⟩
      · cases hn
      · obtain ⟨ctx', he, hact, hafter⟩ := responseStage_stop heval
        exact ⟨msg, plugin, ctx₁, ctx', hu, hreach, he, hact, by rw [hafter, hst]; rfl⟩
    | next ctx =>
      obtain ⟨hst, hw⟩ := repackResponse_state pkgs.dns packet none ctx
      refine ⟨fun herr => .passed ctx.msg ⟨msg, ctx, hu, ?_, rfl⟩ (pack_of_repackResponse herr)
        (hst ▸ h.decided), hst ▸ hsame, hst ▸ hstale, hw ▸ h.world⟩
      exact passes_of_chain hchain

end Apply

end DnscryptProxy
