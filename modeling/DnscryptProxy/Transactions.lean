import DnscryptProxy.Phases.Call
import DnscryptProxy.Plugins.Handling

/-! The transaction ID of a query on its way through `processIncomingQuery`. The library
keeps the ID of a message in the first two bytes of its packet; the plugins and the phases
never lose it, and where the ID in a response is not the proxy's own doing it is put back, unless
the response is too short. `processIncomingQuery_id` is the result for whatever a call writes and
returns; `Stray` are the bytes that keep the ID with which they came. -/

namespace DnscryptProxy

open Library

/-- The two bytes of the ID. -/
def Msg.idBytes (msg : Msg) : Bytes := putUint16 msg.id.toNat

/-- The header of a packet starts with the ID of the message. A `PackBuffer` that fails has
written the header or nothing at all. -/
structure DNSLibrary.KeepsID (dns : DNSLibrary) : Prop where
  unpack : ∀ {packet msg}, dns.unpack packet = .ok msg → transactionID packet = msg.idBytes
  pack : ∀ {msg packet}, dns.pack msg = .ok packet → transactionID packet = msg.idBytes
  packFailure : ∀ msg packet, transactionID (dns.packFailure msg packet) = transactionID packet ∨
    transactionID (dns.packFailure msg packet) = msg.idBytes

theorem keepsID_ofTable {table : List (Bytes × Msg)} {hlen : ∀ e ∈ table, 12 ≤ e.1.length}
    (h : ∀ e ∈ table, transactionID e.1 = e.2.idBytes) : (DNSLibrary.ofTable table hlen).KeepsID where
  unpack {packet msg} hu := by
    simp only [DNSLibrary.ofTable] at hu
    split at hu
    · next e he =>
      cases hu
      have hkey := List.find?_some he
      rw [← of_decide_eq_true hkey]
      exact h e (List.mem_of_find?_eq_some he)
    · cases hu
  pack {msg packet} hp := by
    simp only [DNSLibrary.ofTable] at hp
    split at hp
    · next e he =>
      cases hp
      have hkey := List.find?_some he
      rw [← of_decide_eq_true hkey]
      exact h e (List.mem_of_find?_eq_some he)
    · cases hp
  packFailure _ _ := .inl rfl

/-! ## Plugins -/

/-- The message and every answer that was put aside have the ID. -/
structure Identified (tid : Bytes) (ctx : Ctx) : Prop where
  msg : ctx.msg.idBytes = tid
  answers : ∀ answer ∈ ctx.st.answers, answer.idBytes = tid

variable {tid : Bytes} {ctx ctx' : Ctx} {s : Settings} {pkgs : Packages}

theorem Handled.identified (h : Handled ctx ctx') (hi : Identified tid ctx) : Identified tid ctx' := by
  refine ⟨h.msg ▸ hi.msg, fun answer hanswer => ?_⟩
  rcases h.answers answer hanswer with hold | hid
  · exact hi.answers answer hold
  · exact (congrArg (fun id : UInt16 => putUint16 id.toNat) hid).trans hi.msg

theorem Identified.of_id (hi : Identified tid ctx) (hid : ctx'.msg.id = ctx.msg.id)
    (hanswers : ctx'.st.answers = ctx.st.answers) : Identified tid ctx' := by
  refine ⟨?_, hanswers ▸ hi.answers⟩
  rw [Msg.idBytes, hid]
  exact hi.msg

theorem ecsEval_id (nets : List IPNet) (env : QueryEnv) (ctx : Ctx) :
    Ends (ecsEval nets env ctx) (fun r => r.1.msg.id = ctx.msg.id ∧ r.1.st = ctx.st)
      fun _ => True := by
  obtain h | ⟨extra, h⟩ := ecsEval_cases nets env ctx
  · rw [h]
    trivial
  · rw [h]
    exact ⟨rfl, rfl⟩

theorem getSetPayloadSizeEval_id (ctx : Ctx) :
    Ends (getSetPayloadSizeEval ctx)
      (fun r => r.1.msg.id = ctx.msg.id ∧ r.1.st.answers = ctx.st.answers) fun _ => True := by
  obtain ⟨extra, original, maxPayloadSize, h⟩ := getSetPayloadSizeEval_eq ctx
  rw [h]
  exact ⟨rfl, rfl⟩

theorem QueryPlugin.identified {env : QueryEnv} (plugin : QueryPlugin) (hi : Identified tid ctx) :
    Ends (plugin.eval pkgs env ctx) (fun r => Identified tid r.1) fun _ => True := by
  by_cases hrewrites : plugin.Rewrites
  · cases plugin with
    | queryMeta txt => exact hi.of_id rfl rfl
    | ecs nets =>
      refine (ecsEval_id nets env ctx).mono (fun r _ hr => ?_) fun _ hr => hr
      exact hi.of_id hr.1 (congrArg PluginsState.answers hr.2)
    | getSetPayloadSize =>
      exact (getSetPayloadSizeEval_id ctx).mono (fun r _ hr => hi.of_id hr.1 hr.2) fun _ hr => hr
    | captivePortal | allowName | firefox | blockName | blockIPv6 | cloak | cache | forward
    | blockUnqualified | blockUndelegated => exact hrewrites.elim
  · exact (plugin.handles hrewrites).mono (fun r _ hr => hr.identified hi) fun _ hr => hr

theorem cacheResponseEval_id (now : Time) (ctx : Ctx) :
    Ends (cacheResponseEval pkgs now ctx)
      (fun r => r.1.msg.id = ctx.msg.id ∧ r.1.st = ctx.st) fun _ => True := by
  unfold cacheResponseEval
  split
  · exact ⟨rfl, rfl⟩
  · split
    · exact ⟨rfl, rfl⟩
    · refine Ctx.ends_question (fun question rest hq => ?_) fun _ => trivial
      split
      · exact ⟨rfl, rfl⟩
      · exact ⟨rfl, rfl⟩

theorem ResponsePlugin.identified {env : ResponseEnv} (plugin : ResponsePlugin)
    (hi : Identified tid ctx) :
    Ends (plugin.eval pkgs env ctx) (fun r => Identified tid r.1) fun _ => True := by
  by_cases hwriter : plugin = .cacheResponse
  · subst hwriter
    refine (cacheResponseEval_id env.now ctx).mono (fun r _ hr => ?_) fun _ hr => hr
    exact hi.of_id hr.1 (congrArg PluginsState.answers hr.2)
  · exact (plugin.handles hwriter).mono (fun r _ hr => hr.identified hi) fun _ hr => hr

theorem Identified.afterEval (hi : Identified tid ctx) (err : Option GoError) :
    Identified tid (afterEval s ctx err).state := by
  unfold DnscryptProxy.afterEval
  cases err with
  | some e => exact hi.of_id rfl rfl
  | none =>
    have hrefused {refused : Msg} (hid : refused.id = ctx.msg.id) :
        Identified tid { ctx with st.synthResponse := some refused } := by
      have hhandled : Handled ctx { ctx with st.synthResponse := some refused } :=
        .answered rfl hid rfl rfl rfl rfl
      exact hhandled.identified hi
    dsimp only
    split
    · split
      · exact hrefused (refusedResponseFromMessage_id ..)
      · exact hrefused (refusedResponseFromMessage_id ..)
    · split
      · exact hi
      · exact hi

/-! ## Applying the plugins -/

theorem queryChain_identified {env : QueryEnv} (plugins : List QueryPlugin)
    (hi : Identified tid ctx) :
    Ends (chain (queryStage s pkgs env) plugins ctx) (fun r => Identified tid r.state)
      fun _ => True := by
  refine chain_invariant (fun plugin _ ctx hctx => ?_) hi
  exact (plugin.identified hctx).bind fun r _ hr => hr.afterEval _

theorem responseChain_identified {env : ResponseEnv} (plugins : List ResponsePlugin)
    (hi : Identified tid ctx) :
    Ends (chain (responseStage s pkgs env) plugins ctx) (fun r => Identified tid r.state)
      fun _ => True := by
  refine chain_invariant (fun plugin _ ctx hctx => ?_) hi
  exact (plugin.identified hctx).bind fun r _ hr => hr.afterEval _

theorem addEDNS0Padding_id {dns : DNSLibrary} (hdns : dns.KeepsID) {msg msg' : Msg}
    {packet packet' : Bytes} {paddingLen : Nat} (hpacket : transactionID packet = msg.idBytes)
    (h : addEDNS0PaddingIfNoneFound dns msg packet paddingLen = (.ok packet', msg')) :
    transactionID packet' = msg.idBytes := by
  obtain ⟨padded, hid, -, hsame | hnew⟩ := addEDNS0Padding_cases dns msg packet paddingLen
  · rw [hsame] at h
    cases h
    exact hpacket
  · rw [hnew] at h
    rw [hdns.pack (congrArg Prod.fst h), Msg.idBytes, hid]
    rfl

theorem repackQuery_id {dns : DNSLibrary} (hdns : dns.KeepsID) {packet : Bytes} (pad : Bool)
    (hpacket : transactionID packet = tid) (hi : Identified tid ctx) :
    transactionID (repackQuery dns packet pad ctx).packet = tid := by
  unfold repackQuery
  dsimp only
  split
  · rcases hdns.packFailure ctx.msg packet with h | h
    · exact h.trans hpacket
    · exact h.trans hi.msg
  · next packet2 hpack =>
    have hid := hdns.pack hpack
    split
    · split
      · next h => exact (addEDNS0Padding_id hdns hid h).trans hi.msg
      · exact hid.trans hi.msg
    · exact hid.trans hi.msg

theorem repackQuery_answers (dns : DNSLibrary) (packet : Bytes) (pad : Bool) (ctx : Ctx) :
    (repackQuery dns packet pad ctx).st.answers = ctx.st.answers := by
  obtain ⟨-, msg, hst, -⟩ := repackQuery_state dns packet pad ctx
  rw [hst]
  rfl

seal Settings.queryPlugins in
theorem applyQueryPlugins_id (hdns : pkgs.dns.KeepsID) {env : QueryEnv} {st : PluginsState}
    {world : World} {packet : Bytes} {pad : Bool} (hst : st.answers = []) :
    Ends (applyQueryPlugins s pkgs env st world packet pad)
      (fun applied => transactionID applied.packet = transactionID packet ∧
        ∀ answer ∈ applied.st.answers, answer.idBytes = transactionID packet) fun _ => True := by
  unfold applyQueryPlugins
  cases hp : parseQuery pkgs.dns packet with
  | error e => exact ⟨rfl, by simp [hst]⟩
  | ok parsed =>
    obtain ⟨msg, qName⟩ := parsed
    have hmsg : transactionID packet = msg.idBytes := hdns.unpack (parseQuery_ok hp).1
    have hstart : Identified (transactionID packet) (queryCtx st world msg qName) :=
      ⟨hmsg.symm, fun answer hanswer => absurd (hst ▸ hanswer) List.not_mem_nil⟩
    refine (queryChain_identified s.queryPlugins hstart).bind fun r hr ht => ?_
    cases r with
    | fail e ctx => exact ⟨rfl, ht.answers⟩
    | stop ctx =>
      refine ⟨repackQuery_id hdns pad rfl ht, ?_⟩
      rw [repackQuery_answers]
      exact ht.answers
    | next ctx =>
      refine ⟨repackQuery_id hdns pad rfl ht, ?_⟩
      rw [repackQuery_answers]
      exact ht.answers

/-! ## Phases -/

section Phases

variable {p : Proxy} {caller : Caller} {env : CallEnv} {world : World} {query : Bytes}
  {S : Bytes → Prop}

structure HasID (S : Bytes → Prop) (tid response : Bytes) : Prop where
  packet : fits response = true → transactionID response = tid
  bytes : response ≠ [] → transactionID response = tid ∨ S response

variable {response packet : Bytes} {flow : Flow} {exit : Exit} {serverInfo : ServerInfo}
  {proto : NetProto} {encrypted : Encrypted} {exchanged : Exchanged}

theorem ne_nil_of_fits (h : fits response = true) : response ≠ [] := by
  rintro rfl
  exact absurd h (by decide)

theorem hasID_nil (S : Bytes → Prop) (tid : Bytes) : HasID S tid [] :=
  ⟨fun hfits => absurd rfl (ne_nil_of_fits hfits), fun hne => absurd rfl hne⟩

theorem hasID_of_eq (h : transactionID response = tid) : HasID S tid response :=
  ⟨fun _ => h, fun _ => .inl h⟩

def Stop.HasID (S : Bytes → Prop) (tid : Bytes) : Stop → Prop :=
  Stop.All (fun exit => exit.writes = [] ∧
    (exit.response ≠ [] → transactionID exit.response = tid ∨ S exit.response)) fun _ => True

theorem HasID.mono {S' : Bytes → Prop} (hS : ∀ data, S data → S' data) (h : HasID S tid response) :
    HasID S' tid response :=
  ⟨h.packet, fun hne => (h.bytes hne).imp_right (hS response)⟩

theorem Stop.HasID.mono {S' : Bytes → Prop} (hS : ∀ data, S data → S' data) {stop : Stop}
    (h : Stop.HasID S tid stop) : Stop.HasID S' tid stop := by
  cases stop with
  | exit exit => exact ⟨h.1, fun hne => (h.2 hne).imp_right (hS exit.response)⟩
  | halt halted => trivial

theorem HasID.leave (h : HasID S tid flow.response) (hresponse : exit.response = flow.response)
    (hwrites : exit.writes = []) : Stop.HasID S tid (.exit exit) :=
  ⟨hwrites, hresponse ▸ h.bytes⟩

/-- The outcome of the first phase. -/
def Decision.HasID (S : Bytes → Prop) (tid : Bytes) : Decision → Prop
  | .respond flow _ => DnscryptProxy.HasID S tid flow.response
  | .forward flow _ query => transactionID query = tid ∧ flow.response = [] ∧
      ∀ answer ∈ flow.st.answers, answer.idBytes = tid

theorem packSynth_hasID (hdns : p.pkgs.dns.KeepsID)
    (hanswers : ∀ answer ∈ flow.st.answers, answer.idBytes = tid)
    (hflow : HasID S tid flow.response) :
    Ends (flow.packSynth p) (fun flow' => HasID S tid flow'.response ∧ flow'.st = flow.st)
      (Stop.HasID S tid) := by
  unfold Flow.packSynth
  split
  · exact ⟨hflow, rfl⟩
  · next synth hsynth =>
    split
    · exact (hasID_nil S tid).leave rfl rfl
    · next response hpack =>
      refine ⟨hasID_of_eq ((hdns.pack hpack).trans ?_), rfl⟩
      exact hanswers synth (mem_answers.mpr (.inl hsynth))

theorem route_hasID {server : Option ServerInfo} (hquery : transactionID query = tid)
    (hanswers : ∀ answer ∈ flow.st.answers, answer.idBytes = tid)
    (hflow : HasID S tid flow.response) :
    Ends (route caller server query flow) (Decision.HasID S tid) (Stop.HasID S tid) := by
  unfold route
  split
  · split
    · exact hflow.leave rfl rfl
    · exact hflow
  · split
    · exact hflow
    · next hempty =>
      split
      · exact hflow
      · exact ⟨hquery, not_not.mp hempty, hanswers⟩

theorem dispatch_hasID (hdns : p.pkgs.dns.KeepsID) :
    Ends (dispatch p caller env world query) (Decision.HasID S (transactionID query))
      (Stop.HasID S (transactionID query)) := by
  have hnil := hasID_nil S (transactionID query)
  unfold dispatch
  dsimp only
  split
  · exact hnil.leave rfl rfl
  · split
    · trivial
    · next applied ha =>
      obtain ⟨hpacket, hanswers⟩ := (applyQueryPlugins_id hdns rfl).of_ok ha
      unfold afterQueryPlugins
      split
      · exact hnil.leave rfl rfl
      · split
        · exact hnil.leave rfl rfl
        · refine (packSynth_hasID hdns hanswers hnil).bind fun flow _ hflow => ?_
          exact route_hasID hpacket (hflow.2 ▸ hanswers) hflow.1

/-! ## The exchange with the server -/

/-- A query in the forms in which it is sent to a DNSCrypt server. -/
def EncryptsAs (p : Proxy) (env : CallEnv) (minQuestionSize : Nat) (serverInfo : ServerInfo)
    (query : Bytes) (encrypted : Encrypted) : Prop :=
  ∃ proto, ∃ entropy ∈ [env.entropy, env.entropyForTCP, env.entropyForRetry],
    encrypt p.pkgs.prims p.keys minQuestionSize serverInfo query proto entropy = .ok encrypted

/-- What a DNSCrypt server answers has the ID of the query that it received. -/
def EchoesID (p : Proxy) (env : CallEnv) (minQuestionSize : Nat) (serverInfo : ServerInfo)
    (query : Bytes) : Prop :=
  serverInfo.proto = .dnscrypt → ∀ encrypted,
    EncryptsAs p env minQuestionSize serverInfo query encrypted →
    ∀ exchanged ∈ [overUDP p env serverInfo encrypted, overTCP p env serverInfo encrypted],
      exchanged.err = none → exchanged.data ≠ [] →
      transactionID exchanged.data = transactionID query

inductive Stray (p : Proxy) (env : CallEnv) (flow : Flow) (serverInfo : ServerInfo) (query : Bytes) :
    Bytes → Prop where
  | failed {proto : NetProto} {encrypted : Encrypted} {exchanged : Exchanged}
      (prepared : prepare p env flow serverInfo query = .ok (.dnscrypt proto encrypted))
      (last : lastExchange p env flow.world.minQuestionSize serverInfo query proto encrypted =
        some exchanged)
      (err : exchanged.err ≠ none) (stale : flow.st.stale = none) :
      Stray p env flow serverInfo query exchanged.data
  | doh {body : Bytes} {complete : Bool}
      (prepared : prepare p env flow serverInfo query = .ok .doh)
      (answered : env.doh = .ok (body, complete))
      (kept : complete = true ∨ flow.st.stale = none) (short : body.length < minDNSPacketSize) :
      Stray p env flow serverInfo query body
  | odoh {odohQuery : ODoHQuery} {body : Bytes}
      (prepared : prepare p env flow serverInfo query = .ok (.odoh odohQuery))
      (answered : odohResponse p env odohQuery = .ok (some body))
      (short : body.length < minDNSPacketSize) : Stray p env flow serverInfo query body

theorem transactionID_length (h : fits packet = true) : (transactionID packet).length = 2 := by
  simp only [fits, Bool.and_eq_true, decide_eq_true_eq] at h
  have hmin : 2 ≤ minDNSPacketSize := by decide
  rw [transactionID, List.length_take]
  omega

theorem restoreID_short (query : Bytes) (h : response.length < minDNSPacketSize) :
    restoreID query response = response :=
  if_neg (Nat.not_le.mpr h)

theorem restoreID_hasID (response : Bytes) (hquery : fits query = true)
    (hshort : response.length < minDNSPacketSize → response ≠ [] →
      transactionID response = transactionID query ∨ S response) :
    HasID S (transactionID query) (restoreID query response) := by
  by_cases hlong : minDNSPacketSize ≤ response.length
  · refine hasID_of_eq ?_
    rw [restoreID, if_pos hlong]
    exact List.take_left' (transactionID_length hquery)
  · rw [restoreID_short query (Nat.not_le.mp hlong)]
    refine ⟨fun hfits => ?_, hshort (Nat.not_le.mp hlong)⟩
    simp only [fits, Bool.and_eq_true, decide_eq_true_eq] at hfits
    exact absurd hfits.1 hlong

theorem settle_hasID (hdns : p.pkgs.dns.KeepsID)
    (hanswers : ∀ answer ∈ flow.st.answers, answer.idBytes = tid)
    (hecho : exchanged.err = none → exchanged.data ≠ [] → transactionID exchanged.data = tid)
    (hfailed : exchanged.err ≠ none → flow.st.stale = none → S exchanged.data) :
    Ends (settle p flow exchanged) (fun flow' => HasID S tid flow'.response)
      (Stop.HasID S tid) := by
  unfold settle
  split
  · next hnone =>
    exact ⟨fun hfits => hecho hnone (ne_nil_of_fits hfits), fun hne => .inl (hecho hnone hne)⟩
  · next e he =>
    have herr : exchanged.err ≠ none := by simp [he]
    unfold serveStale
    split
    · next hstale => exact ⟨rfl, fun _ => .inr (hfailed herr hstale)⟩
    · next stale hstale =>
      split
      · exact (hasID_nil S tid).leave rfl rfl
      · next response hpack =>
        exact hasID_of_eq ((hdns.pack hpack).trans (hanswers stale (mem_answers.mpr (.inr hstale))))

theorem exchangeDNSCrypt_hasID (hdns : p.pkgs.dns.KeepsID)
    (hanswers : ∀ answer ∈ flow.st.answers, answer.idBytes = transactionID query)
    (hproto : serverInfo.proto = .dnscrypt)
    (hecho : EchoesID p env flow.world.minQuestionSize serverInfo query) (proto : NetProto)
    (he : EncryptsAs p env flow.world.minQuestionSize serverInfo query encrypted)
    (hfailed : ∀ exchanged, lastExchange p env flow.world.minQuestionSize serverInfo query proto
      encrypted = some exchanged → exchanged.err ≠ none → flow.st.stale = none → S exchanged.data) :
    Ends (exchangeDNSCrypt p env flow serverInfo query proto encrypted)
      (fun flow' => HasID S (transactionID query) flow'.response)
      (Stop.HasID S (transactionID query)) := by
  rcases exchangeDNSCrypt_cases p env flow serverInfo query proto encrypted
    with ⟨exchanged, hlast, heq⟩ | ⟨-, origin, heq, horigin⟩
  · rw [heq]
    refine settle_hasID hdns hanswers ?_ (hfailed exchanged hlast)
    obtain ⟨encrypted', rfl | he', hmem⟩ := lastExchange_mem hlast
    · exact hecho hproto _ he exchanged hmem
    · exact hecho hproto encrypted' ⟨.tcp, env.entropyForRetry, by simp, he'⟩ exchanged hmem
  · rw [heq]
    refine ⟨rfl, fun hne => .inl ?_⟩
    rcases horigin with ⟨hnone, -⟩ | ⟨hempty, -⟩
    · exact hecho hproto encrypted he _ (by simp) hnone hne
    · exact absurd hempty hne

theorem serveStaleDoH_hasID (hdns : p.pkgs.dns.KeepsID)
    (hanswers : ∀ answer ∈ flow.st.answers, answer.idBytes = tid) (hempty : flow.response = [])
    {stale : Msg} (hstale : flow.st.stale = some stale) :
    Ends (serveStaleDoH p flow stale) (fun flow' => transactionID flow'.response = tid)
      (Stop.HasID S tid) := by
  unfold serveStaleDoH
  split
  · exact ⟨rfl, fun hne => absurd hempty hne⟩
  · next response hpack =>
    exact (hdns.pack hpack).trans (hanswers stale (mem_answers.mpr (.inr hstale)))

theorem exchangeDoH_hasID (hdns : p.pkgs.dns.KeepsID) (hquery : fits query = true)
    (hempty : flow.response = [])
    (hanswers : ∀ answer ∈ flow.st.answers, answer.idBytes = transactionID query)
    (hshort : ∀ body complete, env.doh = .ok (body, complete) →
      complete = true ∨ flow.st.stale = none → body.length < minDNSPacketSize → S body) :
    Ends (exchangeDoH p env flow query)
      (fun flow' => HasID S (transactionID query) flow'.response)
      (Stop.HasID S (transactionID query)) := by
  have hresponse : Ends (dohResponse p env flow)
      (fun flow' => flow'.response.length < minDNSPacketSize → flow'.response ≠ [] →
        transactionID flow'.response = transactionID query ∨ S flow'.response)
      (Stop.HasID S (transactionID query)) := by
    unfold dohResponse
    split
    · next body hdoh => exact fun hlt _ => .inr (hshort body true hdoh (.inl rfl) hlt)
    · next body hdoh hstale => exact fun hlt _ => .inr (hshort body false hdoh (.inr hstale) hlt)
    · next hstale =>
      exact (serveStaleDoH_hasID hdns hanswers hempty hstale).mono
        (fun _ _ hid _ _ => .inl hid) fun _ he => he
    · exact ⟨rfl, fun hne => absurd hempty hne⟩
    · next hstale =>
      exact (serveStaleDoH_hasID hdns hanswers hempty hstale).mono
        (fun _ _ hid _ _ => .inl hid) fun _ he => he
  exact hresponse.bind fun flow' _ h => restoreID_hasID flow'.response hquery h

theorem exchangeODoH_hasID (hquery : fits query = true) (hempty : flow.response = [])
    (odohQuery : ODoHQuery) (hshort : ∀ body, odohResponse p env odohQuery = .ok (some body) →
      body.length < minDNSPacketSize → S body) :
    Ends (exchangeODoH p env flow query odohQuery)
      (fun flow' => HasID S (transactionID query) flow'.response)
      (Stop.HasID S (transactionID query)) := by
  unfold exchangeODoH
  split
  · trivial
  · refine ⟨rfl, fun hne => absurd ?_ hne⟩
    split <;> exact hempty
  · next response hresponse =>
    exact restoreID_hasID response hquery fun hlt _ => .inr (hshort response hresponse hlt)

theorem fetch_hasID (hdns : p.pkgs.dns.KeepsID) (hempty : flow.response = [])
    (hanswers : ∀ answer ∈ flow.st.answers, answer.idBytes = transactionID query)
    (hquery : fits query = true)
    (hecho : EchoesID p env flow.world.minQuestionSize serverInfo query) :
    Ends (fetch p env flow serverInfo query)
      (fun flow' => HasID (Stray p env flow serverInfo query) (transactionID query) flow'.response)
      (Stop.HasID (Stray p env flow serverInfo query) (transactionID query)) := by
  have hprepare : Ends (prepare p env flow serverInfo query) (fun _ => True)
      (Stop.HasID (Stray p env flow serverInfo query) (transactionID query)) := by
    have hleave {exit : Exit} (hresponse : exit.response = flow.response)
        (hwrites : exit.writes = []) :
        Stop.HasID (Stray p env flow serverInfo query) (transactionID query) (.exit exit) :=
      ⟨hwrites, fun hne => absurd (hresponse.trans hempty) hne⟩
    unfold prepare
    split
    · split
      · exact hleave rfl rfl
      · trivial
    · trivial
    · split
      · exact hleave rfl rfl
      · split
        · exact hleave rfl rfl
        · trivial
    · trivial
  refine hprepare.bind fun prepared hprepared _ => ?_
  unfold exchange
  cases prepared with
  | doh => exact exchangeDoH_hasID hdns hquery hempty hanswers fun _ _ => .doh hprepared
  | odoh odohQuery => exact exchangeODoH_hasID hquery hempty odohQuery fun _ => .odoh hprepared
  | dnscrypt proto encrypted =>
    obtain ⟨hproto, entropy, hentropy, he⟩ := prepare_madeOf hprepared
    have hencrypts : EncryptsAs p env flow.world.minQuestionSize serverInfo query encrypted :=
      ⟨proto, entropy, List.mem_append_left [env.entropyForRetry] hentropy, he⟩
    have hnoticed : ∀ answer ∈ (flow.noticed .begin).st.answers,
        answer.idBytes = transactionID query := hanswers
    exact exchangeDNSCrypt_hasID hdns hnoticed hproto hecho proto hencrypts fun _ => .failed hprepared

/-! ## The response -/

theorem responseCtx_identified (hdns : pkgs.dns.KeepsID) {st : PluginsState} {msg : Msg}
    (hpacket : transactionID packet = tid) (hanswers : ∀ answer ∈ st.answers, answer.idBytes = tid)
    (hu : pkgs.dns.unpack packet = .ok msg) : Identified tid (responseCtx st world packet msg) :=
  ⟨(hdns.unpack hu).symm.trans hpacket, hanswers⟩

theorem repackResponse_id (hdns : pkgs.dns.KeepsID) (hpacket : transactionID packet = tid)
    (hi : Identified tid ctx) :
    transactionID (repackResponse pkgs.dns packet none ctx).packet = tid ∧
      ∀ answer ∈ (repackResponse pkgs.dns packet none ctx).st.answers, answer.idBytes = tid := by
  unfold repackResponse
  dsimp only
  split
  · refine ⟨?_, hi.answers⟩
    rcases hdns.packFailure ctx.msg packet with h | h
    · exact h.trans hpacket
    · exact h.trans hi.msg
  · next hpack => exact ⟨(hdns.pack hpack).trans hi.msg, hi.answers⟩

theorem applyResponsePlugins_id (hdns : pkgs.dns.KeepsID) {renv : ResponseEnv} {st : PluginsState}
    (hpacket : transactionID packet = tid)
    (hanswers : ∀ answer ∈ st.answers, answer.idBytes = tid) :
    Ends (applyResponsePlugins s pkgs renv st world packet none)
      (fun applied => transactionID applied.packet = tid ∧
        ∀ answer ∈ applied.st.answers, answer.idBytes = tid) fun _ => True := by
  unfold applyResponsePlugins
  split
  · exact ⟨hpacket, hanswers⟩
  · next msg hu =>
    have hstart : Identified tid (responseCtx st world packet msg) :=
      responseCtx_identified hdns hpacket hanswers hu
    refine (responseChain_identified s.responsePlugins hstart).bind fun r _ hr => ?_
    cases r with
    | fail e ctx => exact ⟨hpacket, hr.answers⟩
    | stop ctx => exact repackResponse_id hdns hpacket hr
    | next ctx => exact repackResponse_id hdns hpacket hr

theorem filter_hasID (hdns : p.pkgs.dns.KeepsID) {subquery : Subquery}
    (hflow : HasID S tid flow.response)
    (hanswers : ∀ answer ∈ flow.st.answers, answer.idBytes = tid) :
    Ends (filter p env subquery flow) (fun flow' => HasID S tid flow'.response)
      (Stop.HasID S tid) := by
  unfold filter
  split
  · exact hflow.leave rfl rfl
  next hfits =>
  have hpacket : transactionID flow.response = tid := hflow.packet (by simpa using hfits)
  dsimp only
  split
  · trivial
  · next applied ha =>
    obtain ⟨hid, hanswers'⟩ := (applyResponsePlugins_id hdns hpacket hanswers).of_ok ha
    have happlied : HasID S tid applied.packet := hasID_of_eq hid
    split
    · exact ⟨rfl, happlied.bytes⟩
    · unfold afterResponsePlugins
      split
      · exact ⟨rfl, happlied.bytes⟩
      · refine (packSynth_hasID hdns hanswers' happlied).bind fun flow' _ hflow' => ?_
        have hcharged : HasID S tid flow'.charge.response := (charge_response flow').1 ▸ hflow'.1
        exact hcharged

theorem truncatedResponse_id {dns : DNSLibrary} (hdns : dns.KeepsID) {response' : Bytes}
    (h : truncatedResponse dns response = .ok response') :
    transactionID response' = transactionID response := by
  unfold truncatedResponse at h
  obtain ⟨msg, hu, h⟩ := ok_of_bind h
  rw [hdns.pack h, hdns.unpack hu, Msg.idBytes, Msg.idBytes]
  simp

/-- The packet that a client reads: over TCP, the one after the two bytes of its length. -/
def ReadsAs (caller : Caller) (packet bytes : Bytes) : Prop :=
  if caller.clientProto = .tcp then prefixWithSize packet = .ok bytes else packet = bytes

/-- A client reads a packet with the ID in the bytes. -/
def ReadsID (caller : Caller) (tid bytes : Bytes) : Prop :=
  ∃ packet, ReadsAs caller packet bytes ∧ transactionID packet = tid

theorem readsID_iff_of_ne_tcp (h : caller.clientProto ≠ .tcp) (tid bytes : Bytes) :
    ReadsID caller tid bytes ↔ transactionID bytes = tid := by
  simp [ReadsID, ReadsAs, h]

/-- What is written is the response, and a client reads the ID in it. -/
structure Exit.Completes (caller : Caller) (tid : Bytes) (exit : Exit) : Prop where
  response : ReadsID caller tid exit.response
  writes : ∀ bytes ∈ exit.writes, bytes = exit.response

theorem deliverUDP_completes (hdns : p.pkgs.dns.KeepsID) (hid : transactionID flow.response = tid)
    (hproto : caller.clientProto = .udp) :
    Ends (deliverUDP p caller env flow) (Exit.Completes caller tid) (Stop.HasID S tid) := by
  have htruncate : Ends (truncateFor p flow) (fun flow' => transactionID flow'.response = tid)
      (Stop.HasID S tid) := by
    unfold truncateFor
    split
    · split
      · exact (hasID_nil S tid).leave rfl rfl
      · next response ht => exact (truncatedResponse_id hdns ht).trans hid
    · exact hid
  refine htruncate.bind fun flow' _ hid' => ?_
  split
  · trivial
  · refine ⟨(readsID_iff_of_ne_tcp (by simp [hproto]) _ _).mpr hid', fun bytes hb => ?_⟩
    exact List.mem_singleton.mp hb

theorem deliver_completes (hdns : p.pkgs.dns.KeepsID) (hflow : HasID S tid flow.response)
    (charged : Bool) :
    Ends (deliver p caller env flow charged) (Exit.Completes caller tid) (Stop.HasID S tid) := by
  have hfail (returnCode : PluginsReturnCode) : Stop.HasID S tid
      (.exit (if charged = true then flow.leaveFailing returnCode else flow.leaveWith returnCode)) := by
    split <;> exact hflow.leave rfl rfl
  unfold deliver
  dsimp only
  split
  · exact hfail _
  next hfits =>
  have hid : transactionID flow.response = tid := hflow.packet (by simpa using hfits)
  split
  · next hproto => exact deliverUDP_completes hdns hid hproto
  · next hproto =>
    split
    · exact hfail _
    · next response hp =>
      refine ⟨⟨flow.response, ?_, hid⟩, fun bytes hb => List.mem_singleton.mp hb⟩
      rw [ReadsAs, if_pos hproto]
      exact hp
  · next htcp =>
    exact ⟨(readsID_iff_of_ne_tcp htcp _ _).mpr hid, fun bytes hb => absurd hb List.not_mem_nil⟩

/-! ## The whole call -/

/-- The stray bytes of a call. -/
def StrayReply (p : Proxy) (caller : Caller) (env : CallEnv) (world : World) (query data : Bytes) :
    Prop :=
  ∃ flow serverInfo query', dispatch p caller env world query =
    .ok (.forward flow serverInfo query') ∧ Stray p env flow serverInfo query' data

/-- Every DNSCrypt server that the query is forwarded to echoes its ID. -/
def ServersEchoID (p : Proxy) (caller : Caller) (env : CallEnv) (world : World) (query : Bytes) :
    Prop :=
  ∀ flow serverInfo query', dispatch p caller env world query =
    .ok (.forward flow serverInfo query') →
    EchoesID p env flow.world.minQuestionSize serverInfo query'

theorem phases_id (hdns : p.pkgs.dns.KeepsID) (hecho : ServersEchoID p caller env world query)
    (subquery : Subquery) :
    Ends (phases p caller env subquery world query) (Exit.Completes caller (transactionID query))
      (Stop.HasID (StrayReply p caller env world query) (transactionID query)) := by
  refine (dispatch_hasID hdns).bind fun decision hd hid => ?_
  cases decision with
  | respond flow charged => exact deliver_completes hdns hid charged
  | forward flow serverInfo query' =>
    obtain ⟨hquery, hempty, hanswers⟩ := hid
    have hforwarded := dispatch_forwarded hd
    rw [← hquery] at hanswers ⊢
    have hstray : ∀ data, Stray p env flow serverInfo query' data →
        StrayReply p caller env world query data := fun data h => ⟨flow, serverInfo, query', hd, h⟩
    have hfetch := (fetch_hasID hdns hempty hanswers hforwarded.fits (hecho _ _ _ hd)).mono
      (fun _ _ h => h.mono hstray) fun _ h => h.mono hstray
    refine hfetch.bind fun flow₁ hf hid₁ => ?_
    have hst : flow₁.st = flow.st := (hforwarded.fetch_ends.of_ok hf).st
    refine (filter_hasID hdns hid₁ (hst ▸ hanswers)).bind fun flow₂ _ hid₂ => ?_
    exact deliver_completes hdns hid₂ true

theorem processIncomingQuery_id (hdns : p.pkgs.dns.KeepsID)
    (hecho : ServersEchoID p caller env world query) {envs : List CallEnv}
    (h : processIncomingQuery p caller env envs world query = .ok exit) :
    (∀ bytes ∈ exit.writes, ReadsID caller (transactionID query) bytes) ∧
      (caller.clientProto ≠ .tcp → exit.response ≠ [] →
        transactionID exit.response = transactionID query ∨
          StrayReply p caller env world query exit.response) := by
  have hphases := phases_id hdns hecho (subqueryWith p envs)
  rcases exit_of_serve h with hexit | hexit
  · have hcompletes := hphases.of_ok hexit
    refine ⟨fun bytes hb => hcompletes.writes bytes hb ▸ hcompletes.response, fun htcp _ => ?_⟩
    exact .inl ((readsID_iff_of_ne_tcp htcp _ _).mp hcompletes.response)
  · obtain ⟨hwrites, hresponse⟩ := hphases.of_error hexit
    exact ⟨by simp [hwrites], fun _ => hresponse⟩

/-! ## Stray bytes -/

theorem fetch_stray {data : Bytes} (h : Stray p env flow serverInfo query data) :
    (∃ exit, fetch p env flow serverInfo query = .error (.exit exit) ∧ exit.response = data) ∨
      ∃ flow', fetch p env flow serverInfo query = .ok flow' ∧ flow'.response = data ∧
        data.length < minDNSPacketSize := by
  cases h with
  | @failed proto encrypted exchanged prepared last err stale =>
    have hstale : (flow.noticed .begin).st.stale = none := stale
    obtain ⟨exit, hsettle, hresponse, -⟩ := settle_leaves (p := p) err hstale
    exact .inl ⟨exit, (fetch_settles prepared last).trans hsettle, hresponse⟩
  | @doh body complete prepared answered kept short =>
    have hdoh : dohResponse p env (flow.noticed .begin) =
        .ok ((flow.noticed .begin).answered data (.accepted data)) := by
      have hst : (flow.noticed .begin).st = flow.st := rfl
      unfold dohResponse
      rw [answered, hst]
      rcases kept with rfl | hstale
      · cases flow.st.stale <;> rfl
      · rw [hstale]
        cases complete <;> rfl
    refine .inr ⟨(flow.noticed .begin).answered data (.accepted data), ?_, rfl, short⟩
    rw [fetch_of_prepare prepared, exchange, exchangeDoH, hdoh]
    simp only [bind, Except.bind, pure, Except.pure, Flow.answered, restoreID_short query short]
  | @odoh odohQuery body prepared answered short =>
    refine .inr ⟨flow.answered data (.accepted data), ?_, rfl, short⟩
    rw [fetch_of_prepare prepared, exchange, exchangeODoH, answered]
    simp only [restoreID_short query short]

theorem response_of_strayReply {subquery : Subquery} {data : Bytes}
    (hstray : StrayReply p caller env world query data)
    (h : serve p caller env subquery world query = .ok exit) : exit.response = data := by
  obtain ⟨flow, serverInfo, query', hdispatch, hstray⟩ := hstray
  have hphases : ∃ exit', phases p caller env subquery world query = .error (.exit exit') ∧
      exit'.response = data := by
    rcases fetch_stray hstray with ⟨exit', hfetch, hresponse⟩ | ⟨flow', hfetch, hresponse, hshort⟩
    · refine ⟨exit', ?_, hresponse⟩
      simp only [phases, hdispatch, hfetch, bind, Except.bind]
    · have hunfit : fits flow'.response = false := by
        rw [hresponse, fits, decide_eq_false (Nat.not_le.mpr hshort), Bool.false_and]
      refine ⟨flow'.leaveFailing .parseError, ?_, hresponse⟩
      simp only [phases, hdispatch, hfetch, bind, Except.bind, filter, hunfit]
      rfl
  obtain ⟨exit', hphases, hresponse⟩ := hphases
  rcases exit_of_serve h with hexit | hexit
  · rw [hphases] at hexit
    cases hexit
  · rw [hphases] at hexit
    cases hexit
    exact hresponse

end Phases

namespace Sample

/-- A box that is its content behind an empty tag. -/
def boxing : Primitives :=
  { Sender.samplePrims with
    secretboxSeal := fun packet _ _ => List.replicate tagSize 0 ++ packet
    secretboxOpen := fun box _ _ => some (box.drop tagSize) }

def boxingProxy : Proxy :=
  { proxy .bare dns with pkgs := { (proxy .bare dns).pkgs with prims := boxing } }

/-- The answer of a DNSCrypt server to the query with the nonce of `env`. -/
def boxedReply : Bytes :=
  serverMagic ++ (List.replicate halfNonceSize 6 ++ List.replicate halfNonceSize 0) ++
    boxing.secretboxSeal (pad (replyPacket 60) 64) [] []

def boxedEnv : CallEnv := env .dnscrypt 0 (.error (.plain "unused")) boxedReply

theorem keepsID_dns : dns.KeepsID := keepsID_ofTable (by decide)

set_option maxRecDepth 2048 in
theorem decrypt_boxedReply (sharedKey nonce : Bytes) :
    decrypt boxing (server .dnscrypt) sharedKey boxedReply nonce =
      if nonce.take halfNonceSize ≠ List.replicate halfNonceSize 6
      then (boxedReply, some (.plain "Unexpected nonce")) else (replyPacket 60, none) := by
  have hnonce : ((boxedReply.drop serverMagic.length).take nonceSize).take halfNonceSize =
      List.replicate halfNonceSize 6 := by decide
  unfold decrypt
  dsimp only
  rw [if_neg (by decide), hnonce]
  rfl

theorem exchangeWithUDPServer_answered (prims : Primitives) (serverInfo : ServerInfo)
    (sharedKey encrypted nonce datagram : Bytes) (second : Attempt) :
    let exchanged := exchangeWithUDPServer prims .direct serverInfo sharedKey encrypted nonce
      ⟨none, none, ⟨none, .ok datagram⟩, second⟩
    (exchanged.data, exchanged.err) =
      decrypt prims serverInfo sharedKey (datagram.take maxDNSPacketSize) nonce := rfl

theorem exchangeWithTCPServer_silent (prims : Primitives) (serverInfo : ServerInfo)
    (sharedKey encrypted nonce : Bytes) :
    (exchangeWithTCPServer prims .direct serverInfo sharedKey encrypted nonce
      Sender.silentConn).err ≠ none := by
  unfold exchangeWithTCPServer
  dsimp only [Sender.silentConn]
  split <;> exact nofun

set_option maxRecDepth 2048 in
theorem boxedEnv_echoes (minQuestionSize : Nat) {query : Bytes}
    (hquery : transactionID query = transactionID queryPacket) :
    EchoesID boxingProxy boxedEnv minQuestionSize (server .dnscrypt) query := by
  intro _ encrypted _ exchanged hexchanged hnone _
  rw [hquery]
  rcases List.mem_pair.mp hexchanged with rfl | rfl
  · have hudp := exchangeWithUDPServer_answered boxing (server .dnscrypt) encrypted.sharedKey
      encrypted.encrypted encrypted.clientNonce boxedReply ⟨none, .ok boxedReply⟩
    rw [List.take_of_length_le (by decide), decrypt_boxedReply] at hudp
    split at hudp
    · have herr := congrArg Prod.snd hudp
      exact absurd (herr.symm.trans hnone) nofun
    · have hdata := congrArg Prod.fst hudp
      calc transactionID _ = transactionID (replyPacket 60) := congrArg transactionID hdata
        _ = transactionID queryPacket := by decide
  · exact absurd hnone (exchangeWithTCPServer_silent _ _ _ _ _)

theorem boxed_servers_echo (caller : Caller) :
    ServersEchoID boxingProxy caller boxedEnv world queryPacket := by
  intro flow info query' hd
  have hquery : transactionID query' = transactionID queryPacket :=
    ((dispatch_hasID (S := fun _ => True) keepsID_dns).of_ok hd).1
  obtain rfl : server .dnscrypt = info := Option.some.inj (dispatch_forwarded hd).server
  exact boxedEnv_echoes _ hquery

end Sample

end DnscryptProxy
