import DnscryptProxy.Phases.Halting

/-! Panics of the response plugins, and of whole calls for want of a client address.

* `response_plugins_faultless_iff`: `ApplyResponsePlugins` indexes out of range or
  dereferences nil exactly when a plugin that is reached lacks what it reads.
* `address_faults_iff`: no plugin misreads the client address exactly when no call
  without one, which are the sub-queries of DNS64, comes to write a log line. -/

namespace DnscryptProxy

open Library

/-! ## The response plugins -/

section Response

variable {pkgs : Packages} {env : ResponseEnv}

/-- An index out of range or a nil dereference. -/
def IndexOrNil (panic : Panic) : Prop :=
  panic = .indexOutOfRange ∨ panic = .nilDereference ∨ panic = .clientAddrMissing

theorem readable_indexOrNil {st : PluginsState} :
    st.Readable IndexOrNil ↔ st.clientAddr ≠ none := by
  unfold PluginsState.Readable PluginsState.clientIPStr
  cases st.clientAddr with
  | none => exact ⟨fun h => absurd (.inr (.inr rfl)) (h _ rfl), fun h => absurd rfl h⟩
  | some addr =>
    refine ⟨fun _ => nofun, fun _ panic hp => ?_⟩
    cases hc : st.clientProto <;> cases addr <;> simp only [hc] at hp <;> cases hp <;>
      simp [IndexOrNil]

/-- The plugin has what it reads: a client address for its log line, a question, the
client's query, and, for DNS64, a sub-query that ends well and prefixes that leave room
for the addresses in its answer. -/
structure ResponsePlugin.Provided (pkgs : Packages) (env : ResponseEnv) (ctx : Ctx)
    (plugin : ResponsePlugin) : Prop where
  address : plugin.ReadsAddress pkgs env ctx → ctx.st.clientAddr ≠ none
  question : ¬plugin.MissesQuestion ctx
  query : ¬plugin.MissesQuery ctx
  subquery : ∀ pref64, plugin = .dns64 pref64 → ∀ packet, AsksAgain pkgs env ctx packet →
    ∀ sub, env.subquery = some sub → Ends (sub ctx.world packet)
      (fun r => ¬Overruns pkgs pref64 r.1)
      fun h => ∀ panic, h.cause = .panic panic → ¬IndexOrNil panic

theorem ResponsePlugin.eval_faultless_iff {ctx : Ctx} (plugin : ResponsePlugin) :
    Avoids IndexOrNil (plugin.eval pkgs env ctx) ↔ plugin.Provided pkgs env ctx := by
  have hidx : ¬¬IndexOrNil .indexOutOfRange := not_not.mpr (.inl rfl)
  have hnil : ¬¬IndexOrNil .nilDereference := not_not.mpr (.inr (.inl rfl))
  rw [plugin.eval_avoids, readable_indexOrNil]
  constructor
  · rintro ⟨haddr, hquestion, hquery, hsub⟩
    refine ⟨haddr, fun h => hidx (hquestion h), fun h => hnil (hquery h), ?_⟩
    intro pref64 hp packet ha sub hs
    exact (hsub pref64 hp packet ha sub hs).mono (fun _ _ h ho => hidx (h ho)) fun _ he => he
  · rintro ⟨haddr, hquestion, hquery, hsub⟩
    refine ⟨haddr, fun h => absurd h hquestion, fun h => absurd h hquery, ?_⟩
    intro pref64 hp packet ha sub hs
    exact (hsub pref64 hp packet ha sub hs).mono (fun _ _ h ho => absurd ho h) fun _ he => he

end Response

/-- The response plugins end without an index out of range and without a nil dereference
exactly when every plugin that is reached has what it reads. -/
theorem response_plugins_faultless_iff (s : Settings) (pkgs : Packages) (env : ResponseEnv)
    (st : PluginsState) (world : World) (packet : Bytes) (ttl : Option UInt32) :
    (∀ halted, applyResponsePlugins s pkgs env st world packet ttl = .error halted →
      ∀ panic, halted.cause = .panic panic → ¬IndexOrNil panic) ↔
    ∀ msg, pkgs.dns.unpack packet = .ok msg → ∀ plugin ctx,
      Reaches (responseStage s pkgs env) s.responsePlugins (responseCtx st world packet msg)
        plugin ctx → plugin.Provided pkgs env ctx := by
  rw [← ends_true_iff]
  refine Iff.trans applyResponsePlugins_avoids ?_
  simp only [ResponsePlugin.eval_faultless_iff]

namespace Sample

/-- A header without any record, and five more bytes. -/
def headerPacket : Bytes := [0x12, 0x34, 0x81, 0x80] ++ List.replicate 13 0

def headerMsg : Msg :=
  { query with response := true, recursionAvailable := true, question := [] }

def headerDNS : DNSLibrary := .ofTable (table ++ [(headerPacket, headerMsg)]) (by decide)

/-- The cache writer panics on a response without a question. -/
theorem header_panics_cache :
    fits headerPacket = true ∧
    ∃ halted, processIncomingQuery (proxy { Settings.bare with cache := true } headerDNS) client
        (env .doh 0 (.ok (headerPacket, true)) []) [] world queryPacket = .error halted ∧
      halted.cause = .panic .indexOutOfRange ∧
    ∃ halted', applyResponsePlugins { Settings.bare with cache := true }
        (proxy { Settings.bare with cache := true } headerDNS).pkgs
        (responseEnv (env .doh 0 (.ok (headerPacket, true)) []) none)
        { startState (proxy .bare headerDNS) client with questionMsg := some query } world headerPacket
        none = .error halted' ∧ halted'.cause = .panic .indexOutOfRange :=
  ⟨rfl, _, rfl, rfl, _, rfl, rfl⟩

end Sample

/-! ## The client address -/

section Call

variable (p : Proxy) (caller : Caller) (env : CallEnv) (subquery : Subquery) (world : World)
  (query : Bytes)

/-- The call is left by an exit that writes to the query log. -/
def LogsQuery : Prop :=
  ∃ exit ignoredQtypes msg question rest, handle p caller env subquery world query = .ok exit ∧
    exit.logs = true ∧ p.settings.queryLog = some ignoredQtypes ∧ exit.st.questionMsg = some msg ∧
    msg.question = question :: rest ∧ LogsType p.pkgs ignoredQtypes question.qtype

/-- Some log line is written during the call. -/
def ReadsAddress : Prop :=
  (∃ plugin ctx, EvaluatesQuery p caller env world query plugin ctx ∧
    plugin.ReadsAddress p.pkgs env.query ctx) ∨
  (∃ plugin ctx, EvaluatesResponse p caller env subquery world query plugin ctx ∧
    plugin.ReadsAddress p.pkgs (responseEnv env subquery) ctx) ∨
  LogsQuery p caller env subquery world query

/-- DNS64 makes a sub-query with the given packet during the call. -/
def MakesSubquery (world' : World) (packet : Bytes) : Prop :=
  ∃ pref64 ctx, EvaluatesResponse p caller env subquery world query (.dns64 pref64) ctx ∧
    AsksAgain p.pkgs (responseEnv env subquery) ctx packet ∧ ctx.world = world'

end Call

/-- No call without a client address writes a log line: neither the call itself, if it is
a sub-query, nor any of its sub-queries. -/
def AddressSafe (p : Proxy) : List CallEnv → Caller → CallEnv → World → Bytes → Prop
  | [], caller, env, world, query =>
    caller = .trampoline → ¬ReadsAddress p caller env (subqueryWith p []) world query
  | env' :: envs, caller, env, world, query =>
    (caller = .trampoline →
      ¬ReadsAddress p caller env (subqueryWith p (env' :: envs)) world query) ∧
    ∀ world' packet, MakesSubquery p caller env (subqueryWith p (env' :: envs)) world query world'
      packet → AddressSafe p envs .trampoline env' world' packet

section Address

variable {p : Proxy} {caller : Caller} {env : CallEnv} {subquery : Subquery} {world : World}
  {query : Bytes}

/-- The client address is missing, or not of the type of its protocol. -/
def AddressFault (panic : Panic) : Prop := panic = .clientAddrMissing ∨ panic = .clientAddrType

theorem readable_addressFault {st : PluginsState} (hp : st.clientProto = caller.clientProto)
    (ha : st.clientAddr = caller.clientAddr) :
    st.Readable AddressFault ↔ caller ≠ .trampoline := by
  unfold PluginsState.Readable PluginsState.clientIPStr
  rw [hp, ha]
  cases caller with
  | trampoline => exact ⟨fun h => absurd (.inl rfl) (h _ rfl), fun h => absurd rfl h⟩
  | udpListener => exact ⟨fun _ => nofun, fun _ => nofun⟩
  | tcpListener => exact ⟨fun _ => nofun, fun _ => nofun⟩
  | localDoH => exact ⟨fun _ => nofun, fun _ => nofun⟩

theorem EvaluatesQuery.readable {plugin : QueryPlugin} {ctx : Ctx}
    (h : EvaluatesQuery p caller env world query plugin ctx) :
    ctx.st.Readable AddressFault ↔ caller ≠ .trampoline := by
  obtain ⟨-, msg, qName, -, pre, post, -, hpass⟩ := h
  have hidle : Idle (queryCtx (startState p caller) world msg qName).st := ⟨rfl, rfl⟩
  have hthrough : Through p.pkgs p.settings.query SameQuestion _ (.next ctx) :=
    (queryChain_through pre hidle).of_ok hpass.chain_eq
  exact readable_addressFault hthrough.kept.clientProto hthrough.kept.clientAddr

theorem passes_filters {s : Settings} {ctx ctx' : Ctx} {plugin : ResponsePlugin}
    {eval : ResponsePlugin → Ctx → Except Halted (Step Ctx GoError)}
    (h : Reaches eval s.responsePlugins ctx plugin ctx') :
    ∃ pre, pre <+: s.responseFilters ∧ Passes eval pre ctx ctx' := by
  obtain ⟨pre, post, hplugins, hpass⟩ := h
  refine ⟨pre, ?_, hpass⟩
  have hpre : pre <+: s.responsePlugins := ⟨plugin :: post, hplugins.symm⟩
  have hfilters : s.responseFilters <+: s.responsePlugins := ⟨_, rfl⟩
  refine List.prefix_of_prefix_length_le hpre hfilters ?_
  have hlen := congrArg List.length hplugins
  unfold Settings.responsePlugins at hlen
  split at hlen <;> simp at hlen <;> omega

theorem EvaluatesResponse.readable (hsub : SubqueryEffect p.pkgs p.settings.query subquery)
    {plugin : ResponsePlugin} {ctx : Ctx}
    (h : EvaluatesResponse p caller env subquery world query plugin ctx) :
    ctx.st.Readable AddressFault ↔ caller ≠ .trampoline := by
  obtain ⟨flow, msg, ⟨⟨flow₀, serverInfo, query', hdispatch, hfetch⟩, -⟩, -, hreaches⟩ := h
  have hforwarded := dispatch_forwarded hdispatch
  have hfetched := hforwarded.fetch_ends.of_ok hfetch
  obtain ⟨pre, hpre, hpass⟩ := passes_filters hreaches
  have hidle : Idle flow.st := hfetched.st ▸ hforwarded.idle
  have hthrough : Through p.pkgs p.settings.query Eq _ (.next ctx) :=
    (chain_through (fun plugin hp ctx hi => (plugin.effect_of_filter hsub
      (not_cacheResponse_of_filter (hpre.subset hp))).through hi) hidle).of_ok hpass.chain_eq
  exact readable_addressFault (hthrough.kept.clientProto.trans hfetched.sound.clientProto)
    (hthrough.kept.clientAddr.trans hfetched.sound.clientAddr)

/-- The sub-query of DNS64, if it can be made. -/
def SubqueriesAvoid (F : Panic → Prop) (p : Proxy) (caller : Caller) (env : CallEnv)
    (subquery : Subquery) (world : World) (query : Bytes) : Prop :=
  ∀ world' packet, MakesSubquery p caller env subquery world query world' packet →
    ∀ sub, subquery = some sub → Avoids F (sub world' packet)

theorem evaluatesResponse_addressFault
    (hsub : SubqueryEffect p.pkgs p.settings.query subquery) :
    (∀ plugin ctx, EvaluatesResponse p caller env subquery world query plugin ctx →
      Avoids AddressFault (plugin.eval p.pkgs (responseEnv env subquery) ctx)) ↔
    (∀ plugin ctx, EvaluatesResponse p caller env subquery world query plugin ctx →
      plugin.ReadsAddress p.pkgs (responseEnv env subquery) ctx → caller ≠ .trampoline) ∧
    SubqueriesAvoid AddressFault p caller env subquery world query := by
  constructor
  · intro h
    refine ⟨fun plugin ctx he hreads => ?_, ?_⟩
    · exact (he.readable hsub).mp ((plugin.eval_avoids.mp (h plugin ctx he)).1 hreads)
    · rintro _ packet ⟨pref64, ctx, he, hasks, rfl⟩ sub hs
      obtain ⟨-, -, -, hagain⟩ := (ResponsePlugin.eval_avoids _).mp (h _ ctx he)
      exact (hagain pref64 rfl packet hasks sub hs).mono (fun _ _ _ => trivial) fun _ he => he
  · rintro ⟨hreads, hagain⟩ plugin ctx he
    refine plugin.eval_avoids.mpr ⟨fun hr => (he.readable hsub).mpr (hreads plugin ctx he hr),
      fun _ => nofun, fun _ => nofun, ?_⟩
    rintro pref64 rfl packet hasks sub hs
    exact (hagain _ packet ⟨pref64, ctx, he, hasks, rfl⟩ sub hs).mono (fun _ _ _ _ => nofun)
      fun _ he => he

theorem logging_addressFault (hsub : SubqueryEffect p.pkgs p.settings.query subquery) :
    (∀ exit, handle p caller env subquery world query = .ok exit → exit.logs = true →
      Avoids AddressFault (applyLoggingPlugins p.settings p.pkgs exit.st exit.world)) ↔
    (LogsQuery p caller env subquery world query → caller ≠ .trampoline) := by
  have hreadable : ∀ exit, handle p caller env subquery world query = .ok exit →
      (exit.st.Readable AddressFault ↔ caller ≠ .trampoline) := by
    intro exit he
    have hserved : Served p caller env subquery world query True exit :=
      (handle_ends hsub query fun _ _ _ _ _ => trivial).of_ok he
    exact readable_addressFault hserved.sound.clientProto hserved.sound.clientAddr
  have havoids : ∀ exit : Exit, Avoids AddressFault
      (applyLoggingPlugins p.settings p.pkgs exit.st exit.world) ↔ _ :=
    fun _ => applyLoggingPlugins_avoids nofun
  constructor
  · rintro h ⟨exit, ignored, msg, question, rest, he, hlogs, hlog, hmsg, hq, htype⟩
    exact (hreadable exit he).mp
      ((havoids exit).mp (h exit he hlogs) ignored msg question rest hlog hmsg hq htype)
  · intro h exit he hlogs
    refine (havoids exit).mpr fun ignored msg question rest hlog hmsg hq htype => ?_
    exact (hreadable exit he).mpr
      (h ⟨exit, ignored, msg, question, rest, he, hlogs, hlog, hmsg, hq, htype⟩)

theorem serve_addressFault (hsub : SubqueryEffect p.pkgs p.settings.query subquery) :
    Avoids AddressFault (serve p caller env subquery world query) ↔
      (caller = .trampoline → ¬ReadsAddress p caller env subquery world query) ∧
      SubqueriesAvoid AddressFault p caller env subquery world query := by
  rw [serve_avoids nofun nofun, evaluatesResponse_addressFault hsub, logging_addressFault hsub]
  constructor
  · rintro ⟨hquery, ⟨hresponse, hagain⟩, hlogs⟩
    refine ⟨?_, hagain⟩
    rintro hc (⟨plugin, ctx, he, hr⟩ | ⟨plugin, ctx, he, hr⟩ | hl)
    · exact he.readable.mp ((plugin.eval_avoids nofun).mp (hquery plugin ctx he) hr) hc
    · exact hresponse plugin ctx he hr hc
    · exact hlogs hl hc
  · rintro ⟨hreads, hagain⟩
    refine ⟨?_, ⟨?_, hagain⟩, ?_⟩
    · intro plugin ctx he
      refine (plugin.eval_avoids nofun).mpr fun hr => he.readable.mpr fun hc => ?_
      exact hreads hc (.inl ⟨plugin, ctx, he, hr⟩)
    · intro plugin ctx he hr hc
      exact hreads hc (.inr (.inl ⟨plugin, ctx, he, hr⟩))
    · intro hl hc
      exact hreads hc (.inr (.inr hl))

end Address

/-- A call and its sub-queries read the client address only where there is one, except for
sub-queries that write a log line. -/
theorem address_faults_iff (p : Proxy) (caller : Caller) (env : CallEnv) (envs : List CallEnv)
    (world : World) (query : Bytes) :
    (∀ halted, processIncomingQuery p caller env envs world query = .error halted →
      ∀ panic, halted.cause = .panic panic → ¬AddressFault panic) ↔
    AddressSafe p envs caller env world query := by
  rw [← ends_true_iff]
  change Avoids AddressFault (serve p caller env (subqueryWith p envs) world query) ↔ _
  -- the environments that are left bound the depth of the sub-queries
  induction envs generalizing caller env world query with
  | nil =>
    rw [serve_addressFault (subqueryWith_effect p [])]
    exact and_iff_left fun _ _ _ _ => nofun
  | cons env' envs ih =>
    rw [serve_addressFault (subqueryWith_effect p (env' :: envs))]
    refine and_congr_right fun _ => forall_congr' fun world' => forall_congr' fun packet =>
      imp_congr_right fun _ => ?_
    rw [← ih .trampoline env' world' packet]
    refine ⟨fun h => (ends_map _ _ _ _).mp (h _ rfl), ?_⟩
    rintro h _ ⟨⟩
    exact (ends_map _ _ _ _).mpr h

namespace Sample

/-- The question for an IPv6 address. -/
def question6 : Question := { question with qtype := typeAAAA }

def query6 : Msg := { query with question := [question6] }

def questionWire6 : Bytes := questionWire.take 14 ++ [28, 0, 1]

def optWire : Bytes := [0, 0, 41, 15, 208, 0, 0, 0, 0, 0, 28, 0, 12, 0, 24] ++ padding.data

def queryPacket6 : Bytes := [0x12, 0x34, 1, 0, 0, 1, 0, 0, 0, 0, 0, 0] ++ questionWire6

def paddedPacket6 : Bytes :=
  [0x12, 0x34, 1, 0, 0, 1, 0, 0, 0, 0, 0, 1] ++ questionWire6 ++ optWire

/-- There is no IPv6 address. -/
def replyPacket6 : Bytes := [0x12, 0x34, 0x81, 0x80, 0, 1, 0, 0, 0, 0, 0, 0] ++ questionWire6

/-- The query of DNS64 for an IPv4 address. -/
def subqueryPacket : Bytes :=
  [0x43, 0x21, 1, 0, 0, 1, 0, 0, 0, 0, 0, 1] ++ questionWire ++ optWire

def dns6 : DNSLibrary :=
  .ofTable [(queryPacket6, query6),
    (sentPacket.take 26 ++ [28, 0, 1] ++ sentPacket.drop 29, { query6 with extra := [opt []] }),
    (paddedPacket6, { query6 with extra := [opt [padding]] }),
    (replyPacket6, { query6 with response := true, recursionAvailable := true }),
    (subqueryPacket, { query with id := 0x4321, extra := [opt [padding]] })] (by decide)

/-- DNS64 with the prefix `64:ff9b::/96`, and a query log of all types. -/
def loggingDNS64 : Settings :=
  { Settings.bare with
    dns64 := some [⟨[0, 0x64, 0xff, 0x9b, 0, 0, 0, 0, 0, 0, 0, 0, 0, 0, 0, 0], 96, 128⟩]
    queryLog := some [] }

/-- The sub-query of DNS64 has no client address for the query log. -/
theorem subquery_log_panics :
    ∃ halted, processIncomingQuery (proxy loggingDNS64 dns6) client
        (env .doh 0 (.ok (replyPacket6, true)) [])
        [env .doh 0 (.error (.net "i/o timeout" true)) []] world queryPacket6 = .error halted ∧
      halted.cause = .panic .clientAddrMissing :=
  ⟨_, rfl, rfl⟩

end Sample

end DnscryptProxy
