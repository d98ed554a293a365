import DnscryptProxy.Phases.Halting

/-! Whom a call of `processIncomingQuery` contacts over the network: the selected server,
a resolver for the name that a query is cloaked as, a forwarding server. The contacts of
a call are a footprint: two networks that agree on them give the same result. -/

namespace DnscryptProxy

open Library

/-- An exchange over the network. -/
inductive Contact where
  /-- `net.LookupIP` -/
  | lookupIP (name : Text)
  /-- `client.Exchange` with a forwarding server. -/
  | exchange (proto : NetProto) (server : Text) (msg : Msg)
  | server (serverInfo : ServerInfo)
  deriving DecidableEq

/-! ## The plugins -/

/-- The question is one that `PluginCloak` looks at. -/
def Question.isCloakable (question : Question) : Bool :=
  question.qclass = classINET &&
    (question.qtype = typeA || question.qtype = typeAAAA || question.qtype = typePTR)

/-- The addresses of a cloaked name have to be looked up. -/
def CloakedName.isStale (name : CloakedName) (ttl : UInt32) (now : Time) : Bool :=
  !name.isIP && ((name.ipv4 = [] && name.ipv6 = []) || (cloakTTL ttl name.lastUpdate now).2)

def cloakContacts (rules : CloakRules) (env : QueryEnv) (ctx : Ctx) : List Contact :=
  match ctx.msg.question with
  | [] => []
  | question :: _ =>
    match (rules.patternMatcher.eval ctx.st.qName).val with
    | none => []
    | some pointer =>
      let name := ctx.world.cloakedNames pointer
      if question.isCloakable && name.isStale rules.ttl env.now then [.lookupIP name.target] else []

/-- The server that `PluginForward` chooses. -/
def forwardServer (forwardMap : List ForwardEntry) (env : QueryEnv) (qName : Text) : Option Text :=
  let servers := ((forwardMap.find? fun candidate =>
    PatternMatcher.AtLabel candidate.domain qName).map (·.servers)).getD []
  servers[env.forwarder % servers.length]?

def forwardContacts (forwardMap : List ForwardEntry) (env : QueryEnv) (ctx : Ctx) : List Contact :=
  match forwardServer forwardMap env ctx.st.qName with
  | none => []
  | some server =>
    .exchange ctx.st.serverProto server ctx.msg ::
      match env.exchange ctx.st.serverProto server ctx.msg with
      | .error _ => []
      | .ok respMsg => if respMsg.truncated then [.exchange .tcp server ctx.msg] else []

/-- The contacts of one evaluation of a query plugin. -/
def QueryPlugin.contacts (env : QueryEnv) : QueryPlugin → Ctx → List Contact
  | .cloak rules => cloakContacts rules env
  | .forward forwardMap => forwardContacts forwardMap env
  | _ => fun _ => []

/-- The network as one call finds it. -/
structure Network where
  lookupIP : Text → Except GoError (List IP)
  exchange : NetProto → Text → Msg → Except GoError Msg
  udp : UDPConn
  tcp : TCPConn
  doh : Except GoError (Bytes × Bool)
  odoh : ODoHReply

def QueryEnv.onNetwork (env : QueryEnv) (network : Network) : QueryEnv :=
  { env with lookupIP := network.lookupIP, exchange := network.exchange }

def CallEnv.onNetwork (env : CallEnv) (network : Network) : CallEnv :=
  { env with
    query := env.query.onNetwork network
    udp := network.udp, tcp := network.tcp, doh := network.doh, odoh := network.odoh }

/-- The network behaves for a contact as the given environment says. -/
def Contact.SameOn (env : CallEnv) (network : Network) : Contact → Prop
  | .lookupIP name => network.lookupIP name = env.query.lookupIP name
  | .exchange proto addr msg => network.exchange proto addr msg = env.query.exchange proto addr msg
  | .server _ => network.udp = env.udp ∧ network.tcp = env.tcp ∧ network.doh = env.doh ∧
      network.odoh = env.odoh

section Plugins

variable {pkgs : Packages} {env : CallEnv} {network : Network} {ctx : Ctx}

theorem isCloakable_iff {question : Question} : question.isCloakable = true ↔
    ¬(question.qclass ≠ classINET ∨ (question.qtype ≠ typeA ∧ question.qtype ≠ typeAAAA ∧
      question.qtype ≠ typePTR)) := by
  simp only [Question.isCloakable, Bool.and_eq_true, Bool.or_eq_true, decide_eq_true_eq]
  tauto

theorem isStale_iff {name : CloakedName} {ttl : UInt32} {now : Time} :
    name.isStale ttl now = true ↔ (!name.isIP) = true ∧
      ((name.ipv4 = [] ∧ name.ipv6 = []) ∨ (cloakTTL ttl name.lastUpdate now).2 = true) := by
  simp [CloakedName.isStale]

theorem cloakEval_congr {rules : CloakRules}
    (h : ∀ c ∈ cloakContacts rules env.query ctx, c.SameOn env network) :
    cloakEval rules (env.query.onNetwork network) ctx = cloakEval rules env.query ctx := by
  unfold cloakContacts at h
  unfold cloakEval
  cases hq : ctx.msg.question with
  | nil =>
    simp only [Ctx.question, hq]
    rfl
  | cons question rest =>
    rw [hq] at h
    simp only [Ctx.question, hq, bind, Except.bind]
    by_cases hcloakable : question.isCloakable
    · rw [if_neg (isCloakable_iff.mp hcloakable), if_neg (isCloakable_iff.mp hcloakable)]
      cases hval : (rules.patternMatcher.eval ctx.st.qName).val with
      | none => rfl
      | some pointer =>
        rw [hval] at h
        dsimp only [QueryEnv.onNetwork] at h ⊢
        by_cases hstale : (ctx.world.cloakedNames pointer).isStale rules.ttl env.query.now
        · rw [if_pos (by simp [hcloakable, hstale])] at h
          have hsame : network.lookupIP (ctx.world.cloakedNames pointer).target =
              env.query.lookupIP (ctx.world.cloakedNames pointer).target :=
            h (.lookupIP _) (List.mem_singleton.mpr rfl)
          rw [hsame]
          congr
        · have hfresh := isStale_iff.not.mp hstale
          exact (if_neg hfresh).trans (if_neg hfresh).symm
    · have hskipped := not_not.mp (isCloakable_iff.not.mp hcloakable)
      rw [if_pos hskipped, if_pos hskipped]

theorem forwardEval_congr {forwardMap : List ForwardEntry}
    (h : ∀ c ∈ forwardContacts forwardMap env.query ctx, c.SameOn env network) :
    forwardEval forwardMap (env.query.onNetwork network) ctx = forwardEval forwardMap env.query ctx := by
  unfold forwardEval
  unfold forwardContacts forwardServer at h
  dsimp only [QueryEnv.onNetwork] at h ⊢
  split
  · rfl
  · next server hserver =>
    rw [hserver] at h
    dsimp only at h
    have hfirst : network.exchange ctx.st.serverProto server ctx.msg =
        env.query.exchange ctx.st.serverProto server ctx.msg :=
      h (.exchange _ _ _) List.mem_cons_self
    rw [hfirst]
    cases hreply : env.query.exchange ctx.st.serverProto server ctx.msg with
    | error e => rfl
    | ok respMsg =>
      rw [hreply] at h
      by_cases htruncated : respMsg.truncated
      · have hsecond : network.exchange .tcp server ctx.msg = env.query.exchange .tcp server ctx.msg :=
          h (.exchange _ _ _) (List.mem_cons_of_mem _ (by simp [htruncated]))
        simp only [bind, Except.bind, htruncated, ↓reduceIte, hsecond]
      · simp only [bind, Except.bind, htruncated]
        rfl

theorem QueryPlugin.eval_congr {plugin : QueryPlugin}
    (h : ∀ c ∈ plugin.contacts env.query ctx, c.SameOn env network) :
    plugin.eval pkgs (env.query.onNetwork network) ctx = plugin.eval pkgs env.query ctx := by
  cases plugin with
  | cloak rules => exact cloakEval_congr h
  | forward forwardMap => exact forwardEval_congr h
  | _ => rfl

end Plugins

/-- The plugin cannot do without the network: the name is cloaked as another one whose
addresses are unknown or too old, or it is covered by a forwarding rule with servers. -/
def QueryPlugin.NeedsNetwork (env : QueryEnv) (ctx : Ctx) : QueryPlugin → Prop
  | .cloak rules => ∃ question rest pointer, ctx.msg.question = question :: rest ∧
      question.isCloakable = true ∧
      (rules.patternMatcher.eval ctx.st.qName).val = some pointer ∧
      (ctx.world.cloakedNames pointer).isStale rules.ttl env.now = true
  | .forward forwardMap => ∃ candidate, (forwardMap.find? fun candidate =>
      PatternMatcher.AtLabel candidate.domain ctx.st.qName) = some candidate ∧
      candidate.servers ≠ []
  | _ => False

theorem contacts_eq_nil_iff {env : QueryEnv} {ctx : Ctx} {plugin : QueryPlugin} :
    plugin.contacts env ctx = [] ↔ ¬ plugin.NeedsNetwork env ctx := by
  cases plugin with
  | cloak rules =>
    unfold QueryPlugin.contacts cloakContacts QueryPlugin.NeedsNetwork
    cases hq : ctx.msg.question with
    | nil => simp [hq]
    | cons question rest =>
      cases hval : (rules.patternMatcher.eval ctx.st.qName).val with
      | none => simp [hq, hval]
      | some pointer => simp [hq, hval]
  | forward forwardMap =>
    unfold QueryPlugin.contacts forwardContacts forwardServer QueryPlugin.NeedsNetwork
    cases hfind : forwardMap.find? fun candidate =>
        PatternMatcher.AtLabel candidate.domain ctx.st.qName with
    | none => simp [hfind]
    | some candidate =>
      cases hservers : candidate.servers with
      | nil => simp [hfind, hservers]
      | cons server servers =>
        have hlt : env.forwarder % (servers.length + 1) < (server :: servers).length :=
          Nat.mod_lt _ (Nat.succ_pos _)
        simp [hfind, hservers, List.getElem?_eq_getElem hlt]
  | _ => simp [QueryPlugin.contacts, QueryPlugin.NeedsNetwork]

theorem server_not_mem_contacts {env : QueryEnv} {ctx : Ctx} {plugin : QueryPlugin}
    (serverInfo : ServerInfo) : .server serverInfo ∉ plugin.contacts env ctx := by
  cases plugin with
  | cloak rules =>
    show _ ∉ cloakContacts rules env ctx
    unfold cloakContacts
    split
    · simp
    · split
      · simp
      · dsimp only
        split <;> simp
  | forward forwardMap =>
    show _ ∉ forwardContacts forwardMap env ctx
    unfold forwardContacts
    split
    · simp
    · split
      · simp
      · split <;> simp
  | _ => simp [QueryPlugin.contacts]

/-! ## Calls -/

section Contacts

variable (p : Proxy) (caller : Caller) (env : CallEnv) (world : World) (query : Bytes)

/-- The contacts of the query plugins that are evaluated. -/
def queryContacts : List Contact :=
  if query.length < minDNSPacketSize then []
  else match parseQuery p.pkgs.dns query with
    | .error _ => []
    | .ok (msg, qName) =>
      emitted (queryStage p.settings p.pkgs env.query) (QueryPlugin.contacts env.query)
        p.settings.queryPlugins (queryCtx (startState p caller) world msg qName)

/-- A query that is forwarded goes to the server once it is prepared. -/
def serverContacts : List Contact :=
  match dispatch p caller env world query with
  | .ok (.forward flow serverInfo query') =>
    match prepare p env flow serverInfo query' with
    | .ok _ => [.server serverInfo]
    | .error _ => []
  | _ => []

/-- The contacts of a call. The sub-query of DNS64 is a call of its own. -/
def callContacts : List Contact :=
  queryContacts p caller env world query ++ serverContacts p caller env world query

variable {p caller env world query}

theorem mem_queryContacts {c : Contact} : c ∈ queryContacts p caller env world query ↔
    ∃ plugin ctx, EvaluatesQuery p caller env world query plugin ctx ∧
      c ∈ plugin.contacts env.query ctx := by
  unfold queryContacts EvaluatesQuery
  split
  · next hshort =>
    constructor
    · intro hc
      cases hc
    · rintro ⟨plugin, ctx, ⟨hlen, -⟩, -⟩
      omega
  · next hlong =>
    have hlen : minDNSPacketSize ≤ query.length := by omega
    cases hparse : parseQuery p.pkgs.dns query with
    | error e => simp
    | ok parsed =>
      obtain ⟨msg, qName⟩ := parsed
      refine mem_emitted.trans ⟨?_, ?_⟩
      · rintro ⟨plugin, ctx, hreached, hc⟩
        exact ⟨plugin, ctx, ⟨hlen, msg, qName, rfl, hreached⟩, hc⟩
      · rintro ⟨plugin, ctx, ⟨-, _, _, ⟨⟩, hreached⟩, hc⟩
        exact ⟨plugin, ctx, hreached, hc⟩

theorem not_forward (hcached : caller.onlyCached = true) {flow : Flow} {serverInfo : ServerInfo}
    {query' : Bytes} :
    dispatch p caller env world query ≠ .ok (.forward flow serverInfo query') := by
  intro hforward
  exact absurd ((dispatch_forwarded hforward).uncached.symm.trans hcached) nofun

theorem serverContacts_eq_nil (hcached : caller.onlyCached = true) :
    serverContacts p caller env world query = [] := by
  unfold serverContacts
  split
  · next hforward => exact absurd hforward (not_forward hcached)
  · rfl

variable {network : Network}

-- which plugins there are does not matter here
seal Settings.queryPlugins in
theorem dispatch_congr
    (h : ∀ c ∈ queryContacts p caller env world query, c.SameOn env network) :
    dispatch p caller (env.onNetwork network) world query = dispatch p caller env world query := by
  unfold dispatch
  dsimp only
  split
  · rfl
  · next hlong =>
    have happly : ∀ pad, applyQueryPlugins p.settings p.pkgs (env.onNetwork network).query
        (startState p caller) world query pad =
        applyQueryPlugins p.settings p.pkgs env.query (startState p caller) world query pad := by
      intro pad
      unfold applyQueryPlugins
      cases hparse : parseQuery p.pkgs.dns query with
      | error e => rfl
      | ok parsed =>
        obtain ⟨msg, qName⟩ := parsed
        dsimp only
        rw [chain_congr fun plugin ctx hreached => ?_]
        unfold queryStage
        have heval : plugin.eval p.pkgs (env.onNetwork network).query ctx =
            plugin.eval p.pkgs env.query ctx := by
          refine QueryPlugin.eval_congr fun c hc => h c (mem_queryContacts.mpr ?_)
          exact ⟨plugin, ctx, ⟨by omega, msg, qName, hparse, hreached⟩, hc⟩
        rw [heval]
    unfold startState at happly
    rw [show (env.onNetwork network).server = env.server from rfl, happly]

/-- **A call that is to be answered from here** never contacts the selected server; it
contacts others exactly when a query plugin is evaluated that cannot do without. Its result
depends on the network by these contacts only. -/
theorem onlyCached_contacts (hcached : caller.onlyCached = true) :
    (callContacts p caller env world query = [] ↔
      ∀ plugin ctx, EvaluatesQuery p caller env world query plugin ctx →
        ¬ plugin.NeedsNetwork env.query ctx) ∧
    (∀ serverInfo, .server serverInfo ∉ callContacts p caller env world query) ∧
    (∀ network envs envs', (∀ c ∈ callContacts p caller env world query, c.SameOn env network) →
      processIncomingQuery p caller (env.onNetwork network) envs' world query =
        processIncomingQuery p caller env envs world query) := by
  have hcontacts : callContacts p caller env world query = queryContacts p caller env world query := by
    rw [callContacts, serverContacts_eq_nil hcached, List.append_nil]
  rw [hcontacts]
  refine ⟨?_, ?_, ?_⟩
  · rw [List.eq_nil_iff_forall_not_mem]
    constructor
    · intro hnone plugin ctx hevaluated
      rw [← contacts_eq_nil_iff, List.eq_nil_iff_forall_not_mem]
      exact fun c hc => hnone c (mem_queryContacts.mpr ⟨plugin, ctx, hevaluated, hc⟩)
    · intro hneeds c hc
      obtain ⟨plugin, ctx, hevaluated, hc⟩ := mem_queryContacts.mp hc
      rw [contacts_eq_nil_iff.mpr (hneeds plugin ctx hevaluated)] at hc
      cases hc
  · intro serverInfo hc
    obtain ⟨plugin, ctx, -, hc⟩ := mem_queryContacts.mp hc
    exact server_not_mem_contacts serverInfo hc
  · intro network envs envs' hsame
    have hdispatch := dispatch_congr hsame
    have hphases : phases p caller (env.onNetwork network) (subqueryWith p envs') world query =
        phases p caller env (subqueryWith p envs) world query := by
      unfold phases
      rw [hdispatch]
      cases hd : dispatch p caller env world query with
      | error stop => rfl
      | ok decision =>
        cases decision with
        | respond flow charged => rfl
        | forward flow serverInfo query' => exact absurd hd (not_forward hcached)
    unfold processIncomingQuery serve handle
    rw [hphases]

end Contacts

namespace Sample

/-- The UDP listener when too many clients are active. -/
def busyClient : Caller := .udpListener [192, 0, 2, 100] 5353 true

theorem bare_without_contacts : busyClient.onlyCached = true ∧
    callContacts (proxy .bare dns) busyClient (answering 0) world queryPacket = [] := by
  refine ⟨rfl, (onlyCached_contacts rfl).1.mpr ?_⟩
  rintro plugin ctx ⟨-, msg, qName, -, pre, post, hplugins, -⟩
  have hmem : plugin ∈ Settings.bare.queryPlugins := by
    rw [show Settings.bare.queryPlugins = pre ++ plugin :: post from hplugins]
    simp
  rcases List.mem_cons.mp hmem with rfl | hmem
  · exact id
  · rw [List.mem_singleton.mp hmem]
    exact id

/-- A rule that forwards `example.com` to a server. -/
def forwarding : Settings :=
  { Settings.bare with forward := some [⟨"example.com".toList, ["192.0.2.53:53".toList]⟩] }

/-- The forwarding server is asked before the flag is looked at. -/
theorem forwarded_though_busy : busyClient.onlyCached = true ∧
    callContacts (proxy forwarding dns) busyClient (answering 0) world queryPacket =
      [.exchange .udp "192.0.2.53:53".toList { query with extra := [opt []] }] :=
  ⟨rfl, rfl⟩

end Sample

end DnscryptProxy
