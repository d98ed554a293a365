import DnscryptProxy.CacheRuns
import DnscryptProxy.Sealing
import DnscryptProxy.Transactions

/-! What a call of `processIncomingQuery` tells the load balancer about a server that it
got no answer from. The failure is charged at each exit of the exchange; where another
answer takes the place of the server's, the call goes on as if the server had sent it, and
the server is charged only if that answer is found wanting: `failed_exchange_charged_iff`. -/

namespace DnscryptProxy

open Library

/-- The server was charged with a failure and not credited with a success. -/
def Flow.Charged (flow : Flow) : Prop := .failure ∈ flow.notices ∧ .success ∉ flow.notices

/-- A query was sent, and no answer that could be authenticated came back: an error for
DNSCrypt, an error or a body without a complete handshake for DoH, and no decrypted
response for ODoH. -/
def ExchangeFailed (p : Proxy) (env : CallEnv) (flow : Flow) (serverInfo : ServerInfo)
    (query : Bytes) : Prop :=
  match prepare p env flow serverInfo query with
  | .ok (.dnscrypt proto encrypted) =>
    ∀ exchanged, lastExchange p env flow.world.minQuestionSize serverInfo query proto encrypted =
      some exchanged → exchanged.err ≠ none
  | .ok .doh => ∀ body, env.doh ≠ .ok (body, true)
  | .ok (.odoh odohQuery) => odohResponse p env odohQuery = .ok none
  | .error _ => False

/-- Another answer takes the place of the server's, and the call goes on with the given variables:
the answer is a stale one that can be packed or, over DoH, a body that came without a complete
handshake. -/
inductive Substitute (p : Proxy) (env : CallEnv) (flow : Flow) (serverInfo : ServerInfo)
    (query : Bytes) : Flow → Prop where
  | stale {stale : Msg} {response : Bytes} (proto : serverInfo.proto = .dnscrypt)
      (kept : flow.st.stale = some stale) (packed : p.pkgs.dns.pack stale = .ok response) :
      Substitute p env flow serverInfo query
        ((flow.noticed .begin).answered response (.localMsg stale))
  | staleDoH {stale : Msg} {response : Bytes} (proto : serverInfo.proto = .doh)
      (kept : flow.st.stale = some stale) (packed : p.pkgs.dns.pack stale = .ok response) :
      Substitute p env flow serverInfo query
        ((flow.noticed .begin).answered (restoreID query response) (.localMsg stale))
  | unfinished {body : Bytes} (proto : serverInfo.proto = .doh) (kept : flow.st.stale = none)
      (answered : env.doh = .ok (body, false)) :
      Substitute p env flow serverInfo query
        ((flow.noticed .begin).answered (restoreID query body) (.accepted body))

/-- The packet that goes to the client after the response plugins. -/
def Applied.Leaves (p : Proxy) (applied : Applied) (packet : Bytes) : Prop :=
  match applied.st.synthResponse with
  | none => packet = applied.packet
  | some synth => p.pkgs.dns.pack synth = .ok packet

/-- An answer that the server is charged for: it is not fit to be a packet, the response plugins
return an error for it, or they make a server failure of it, which is either not put down to
DNSSEC or not fit to be a packet. -/
def Wanting (p : Proxy) (env : CallEnv) (subquery : Subquery) (flow : Flow) : Prop :=
  fits flow.response = false ∨ ∃ applied,
    applyResponsePlugins p.settings p.pkgs (responseEnv env subquery) flow.st
      (flow.hand env.responseTime).world flow.response none = .ok applied ∧
    (applied.err ≠ none ∨ applied.st.action ≠ .drop ∧ ∃ packet, applied.Leaves p packet ∧
      packetRcode packet = rcodeServerFailure ∧
      (applied.st.dnssec = false ∨ fits packet = false))

/-- An exit is a charge; a halt is none. -/
def Stop.Charged : Stop → Prop
  | .exit left => left.toFlow.Charged
  | .halt _ => True

section Exchange

variable {p : Proxy} {env : CallEnv} {flow : Flow} {serverInfo : ServerInfo} {query : Bytes}

theorem leaveFailing_charged {flow : Flow} (h : .success ∉ flow.notices)
    (returnCode : PluginsReturnCode) : Stop.Charged (.exit (flow.leaveFailing returnCode)) := by
  refine ⟨?_, ?_⟩
  · simp [Flow.leaveFailing, Flow.leaveWith]
  · simpa [Flow.leaveFailing, Flow.leaveWith] using h

theorem lastExchange_of_encrypt (env : CallEnv) (flow : Flow) {proto : NetProto} {entropy : Entropy}
    {encrypted : Encrypted}
    (he : encrypt p.pkgs.prims p.keys flow.world.minQuestionSize serverInfo query proto entropy =
      .ok encrypted) :
    ∃ exchanged, lastExchange p env flow.world.minQuestionSize serverInfo query proto encrypted =
      some exchanged := by
  unfold lastExchange
  cases proto with
  | tcp => exact ⟨_, rfl⟩
  | udp =>
    dsimp only
    split
    · obtain ⟨encrypted', he'⟩ := encrypt_tcp_of_udp he env.entropyForRetry
      rw [he']
      exact ⟨_, rfl⟩
    · exact ⟨_, rfl⟩

/-- The call goes on with a stale answer that can be packed. -/
def GoesOnStale (p : Proxy) (flow flow' : Flow) : Prop :=
  ∃ stale response, flow.st.stale = some stale ∧ p.pkgs.dns.pack stale = .ok response ∧
    flow' = flow.answered response (.localMsg stale)

theorem settle_failed {exchanged : Exchanged} (hfailed : exchanged.err ≠ none)
    (h : .success ∉ flow.notices) :
    Ends (settle p flow exchanged) (GoesOnStale p flow) Stop.Charged := by
  unfold settle
  split
  · next hnone => exact absurd hnone hfailed
  · unfold serveStale
    split
    · exact @leaveFailing_charged (flow.answered exchanged.data _) h _
    · next stale hstale =>
      split
      · exact @leaveFailing_charged (flow.answered [] _) h _
      · next response hpack => exact ⟨stale, response, hstale, hpack, rfl⟩

theorem serveStaleDoH_failed {stale : Msg} (hstale : flow.st.stale = some stale)
    (h : .success ∉ flow.notices) :
    Ends (serveStaleDoH p flow stale) (GoesOnStale p flow) Stop.Charged := by
  unfold serveStaleDoH
  split
  · exact leaveFailing_charged h _
  · next response hpack => exact ⟨stale, response, hstale, hpack, rfl⟩

theorem dohResponse_failed (hfailed : ∀ body, env.doh ≠ .ok (body, true))
    (h : .success ∉ flow.notices) :
    Ends (dohResponse p env flow)
      (fun flow' => GoesOnStale p flow flow' ∨ flow.st.stale = none ∧ ∃ body,
        env.doh = .ok (body, false) ∧ flow' = flow.answered body (.accepted body))
      Stop.Charged := by
  unfold dohResponse
  split
  · next body hdoh => exact absurd hdoh (hfailed body)
  · next body hdoh hstale => exact .inr ⟨hstale, body, hdoh, rfl⟩
  · next hstale => exact (serveStaleDoH_failed hstale h).mono (fun _ _ => .inl) fun _ he => he
  · exact leaveFailing_charged h _
  · next hstale => exact (serveStaleDoH_failed hstale h).mono (fun _ _ => .inl) fun _ he => he

theorem ExchangeFailed.cases (h : ExchangeFailed p env flow serverInfo query) :
    (serverInfo.proto = .dnscrypt ∧ ∃ exchanged : Exchanged, exchanged.err ≠ none ∧
      fetch p env flow serverInfo query = settle p (flow.noticed .begin) exchanged) ∨
    (serverInfo.proto = .doh ∧ (∀ body, env.doh ≠ .ok (body, true)) ∧
      fetch p env flow serverInfo query = exchangeDoH p env (flow.noticed .begin) query) ∨
    serverInfo.proto = .odohTarget ∧ ∃ odohQuery, odohResponse p env odohQuery = .ok none ∧
      fetch p env flow serverInfo query = exchangeODoH p env flow query odohQuery := by
  unfold ExchangeFailed at h
  cases hprepared : prepare p env flow serverInfo query with
  | error stop =>
    rw [hprepared] at h
    exact h.elim
  | ok prepared =>
    rw [hprepared] at h
    have hmade := prepare_madeOf hprepared
    cases prepared with
    | dnscrypt proto encrypted =>
      obtain ⟨hproto, entropy, -, he⟩ := hmade
      obtain ⟨exchanged, hlast⟩ := lastExchange_of_encrypt env flow he
      exact .inl ⟨hproto, exchanged, h exchanged hlast, fetch_settles hprepared hlast⟩
    | doh => exact .inr (.inl ⟨hmade, h, fetch_of_prepare hprepared⟩)
    | odoh odohQuery => exact .inr (.inr ⟨hmade.1, odohQuery, h, fetch_of_prepare hprepared⟩)

theorem fetch_failed (hfailed : ExchangeFailed p env flow serverInfo query)
    (h : .success ∉ flow.notices) :
    Ends (fetch p env flow serverInfo query) (Substitute p env flow serverInfo query)
      Stop.Charged := by
  have hbegin : .success ∉ (flow.noticed .begin).notices := by simpa [Flow.noticed] using h
  rcases hfailed.cases with ⟨hproto, exchanged, herr, heq⟩ | ⟨hproto, hdoh, heq⟩ |
    ⟨-, odohQuery, hnone, heq⟩
  · rw [heq]
    refine (settle_failed herr hbegin).mono (fun flow' _ hstale => ?_) fun _ he => he
    obtain ⟨stale, response, hkept, hpacked, rfl⟩ := hstale
    exact .stale hproto hkept hpacked
  · rw [heq]
    refine (dohResponse_failed hdoh hbegin).bind fun flow' _ hsub => ?_
    rcases hsub with ⟨stale, response, hkept, hpacked, rfl⟩ | ⟨hkept, body, hbody, rfl⟩
    · exact .staleDoH hproto hkept hpacked
    · exact .unfinished hproto hkept hbody
  · rw [heq, exchangeODoH, hnone]
    dsimp only
    split
    · exact leaveFailing_charged (by simpa [Flow.noticed] using h) _
    · exact leaveFailing_charged h _

theorem fetch_substitute (hfailed : ExchangeFailed p env flow serverInfo query) {flow' : Flow}
    (h : Substitute p env flow serverInfo query flow') :
    fetch p env flow serverInfo query = .ok flow' := by
  have hst : (flow.noticed .begin).st = flow.st := rfl
  cases h with
  | @stale stale response proto kept packed =>
    rcases hfailed.cases with ⟨-, exchanged, herr, heq⟩ | ⟨hproto, -⟩ | ⟨hproto, -⟩
    · obtain ⟨e, he⟩ := Option.ne_none_iff_exists'.mp herr
      rw [heq]
      simp only [settle, serveStale, he, hst, kept, packed]
    · cases proto.symm.trans hproto
    · cases proto.symm.trans hproto
  | @staleDoH stale response proto kept packed =>
    rcases hfailed.cases with ⟨hproto, -⟩ | ⟨-, hfailed, heq⟩ | ⟨hproto, -⟩
    · cases proto.symm.trans hproto
    · have hdoh : dohResponse p env (flow.noticed .begin) =
          serveStaleDoH p (flow.noticed .begin) stale := by
        unfold dohResponse
        rw [hst, kept]
        rcases henv : env.doh with e | ⟨body, complete⟩
        · rfl
        · cases complete with
          | false => rfl
          | true => exact absurd henv (hfailed body)
      rw [heq, exchangeDoH, hdoh, serveStaleDoH, packed]
      rfl
    · cases proto.symm.trans hproto
  | @unfinished body proto kept answered =>
    rcases hfailed.cases with ⟨hproto, -⟩ | ⟨-, -, heq⟩ | ⟨hproto, -⟩
    · cases proto.symm.trans hproto
    · rw [heq, exchangeDoH, dohResponse, answered, hst, kept]
      rfl
    · cases proto.symm.trans hproto

end Exchange

section Call

variable {p : Proxy} {caller : Caller} {env : CallEnv} {world : World} {query : Bytes}
  {flow flow' : Flow} {applied : Applied} {subquery : Subquery}

theorem packSynth_notices (h : flow.packSynth p = .ok flow') : flow'.notices = flow.notices := by
  unfold Flow.packSynth at h
  split at h
  · cases h
    rfl
  · split at h <;> cases h
    rfl

theorem dispatch_notices {serverInfo : ServerInfo} {query' : Bytes}
    (h : dispatch p caller env world query = .ok (.forward flow serverInfo query')) :
    flow.notices = [] := by
  unfold dispatch at h
  dsimp only at h
  split at h
  · cases h
  · split at h
    · cases h
    · next applied _ =>
      unfold afterQueryPlugins at h
      split at h
      · cases h
      · split at h
        · cases h
        · obtain ⟨flow', hpacked, h⟩ := ok_of_bind h
          have hnone := packSynth_notices hpacked
          unfold route at h
          split at h
          · split at h <;> cases h
          · split at h
            · cases h
            · split at h
              · cases h
              · cases h
                exact hnone

/-- The delivery charges the server with a packet that is not fit to be one. -/
def Exit.NoticedAs (flow : Flow) (exit : Exit) : Prop :=
  exit.notices = if fits flow.response then flow.notices else flow.notices ++ [.failure]

theorem prefixWithSize_of_fits {packet : Bytes} (h : fits packet = true) :
    prefixWithSize packet = .ok (putUint16 packet.length ++ packet) := by
  simp only [fits, Bool.and_eq_true, decide_eq_true_eq] at h
  have hmax : maxDNSPacketSize ≤ 0xffff := by decide
  rw [prefixWithSize, if_neg (by omega)]

theorem deliver_notices (flow : Flow) :
    Ends (deliver p caller env flow true) (Exit.NoticedAs flow)
      (Stop.All (Exit.NoticedAs flow) fun _ => True) := by
  unfold deliver Exit.NoticedAs
  cases hfits : fits flow.response with
  | false => exact rfl
  | true =>
    simp only [Bool.not_true, Bool.false_eq_true, if_false, if_true]
    split
    · have htruncated : Ends (truncateFor p flow) (fun flow' => flow'.notices = flow.notices)
          (Stop.All (fun exit => exit.notices = flow.notices) fun _ => True) := by
        unfold truncateFor
        split
        · split <;> exact rfl
        · exact rfl
      refine htruncated.bind fun flow' _ hsame => ?_
      split
      · trivial
      · exact hsame
    · rw [prefixWithSize_of_fits hfits]
      exact rfl
    · exact rfl

theorem charged_of_noticedAs {exit : Exit} (h : exit.NoticedAs flow) :
    exit.toFlow.Charged ↔
      (.failure ∈ flow.notices ∨ fits flow.response = false) ∧ .success ∉ flow.notices := by
  unfold Flow.Charged
  rw [h]
  cases fits flow.response <;> simp

theorem packSynth_leaves (h : (flow.applied applied).packSynth p = .ok flow') :
    applied.Leaves p flow'.response ∧ flow'.st = applied.st ∧ flow'.notices = flow.notices := by
  unfold Flow.packSynth at h
  unfold Applied.Leaves
  split at h
  · next hnone =>
    cases h
    rw [show applied.st.synthResponse = none from hnone]
    exact ⟨rfl, rfl, rfl⟩
  · next synth hsynth =>
    split at h
    · cases h
    · next hpack =>
      cases h
      rw [show applied.st.synthResponse = some synth from hsynth]
      exact ⟨hpack, rfl, rfl⟩

theorem packSynth_unpacked {stop : Stop} (h : (flow.applied applied).packSynth p = .error stop) :
    ∃ exit, stop = .exit exit ∧ exit.notices = flow.notices ∧
      ∀ packet, ¬ applied.Leaves p packet := by
  unfold Flow.packSynth at h
  split at h
  · cases h
  · next synth hsynth =>
    split at h
    · next hpack =>
      cases h
      refine ⟨_, rfl, rfl, fun packet hpacket => ?_⟩
      rw [Applied.Leaves, show applied.st.synthResponse = some synth from hsynth] at hpacket
      cases hpack.symm.trans hpacket
    · cases h

theorem Applied.Leaves.unique {packet packet' : Bytes} (h : applied.Leaves p packet)
    (h' : applied.Leaves p packet') : packet = packet' := by
  unfold Applied.Leaves at h h'
  cases hsynth : applied.st.synthResponse with
  | none =>
    rw [hsynth] at h h'
    exact h.trans h'.symm
  | some synth =>
    rw [hsynth] at h h'
    exact Except.ok.inj (h.symm.trans h')

theorem wanting_iff (hfits : fits flow.response = true)
    (happlies : applyResponsePlugins p.settings p.pkgs (responseEnv env subquery) flow.st
      (flow.hand env.responseTime).world flow.response none = .ok applied)
    (herr : applied.err = none) :
    Wanting p env subquery flow ↔ applied.st.action ≠ .drop ∧ ∃ packet, applied.Leaves p packet ∧
      packetRcode packet = rcodeServerFailure ∧
      (applied.st.dnssec = false ∨ fits packet = false) := by
  simp [Wanting, hfits, happlies, herr]

theorem charge_deliver (hnotices : ∀ notice ∈ flow.notices, notice = .begin) {exit : Exit}
    (h : exit.NoticedAs flow.charge) :
    exit.toFlow.Charged ↔ packetRcode flow.response = rcodeServerFailure ∧
      (flow.st.dnssec = false ∨ fits flow.response = false) := by
  have hfailure : .failure ∉ flow.notices := fun hm => by cases hnotices _ hm
  have hsuccess : .success ∉ flow.notices := fun hm => by cases hnotices _ hm
  rw [charged_of_noticedAs h, (charge_response flow).1]
  unfold Flow.charge
  split
  · next hcode =>
    cases hdnssec : flow.st.dnssec <;> simp [hcode, hfailure, hsuccess, Flow.noticed]
  · next hcode => simp [hcode, Flow.noticed]

theorem filter_charged (hnotices : ∀ notice ∈ flow.notices, notice = .begin) :
    Ends (filter p env subquery flow)
      (fun flow' => ∀ exit : Exit, exit.NoticedAs flow' →
        (exit.toFlow.Charged ↔ Wanting p env subquery flow))
      (Stop.All (fun exit => exit.toFlow.Charged ↔ Wanting p env subquery flow) fun _ => True) := by
  have hsuccess : .success ∉ flow.notices := fun hm => by cases hnotices _ hm
  have hfailure : .failure ∉ flow.notices := fun hm => by cases hnotices _ hm
  have hfailing {flow' : Flow} (hsame : flow'.notices = flow.notices)
      (returnCode : PluginsReturnCode) : (flow'.leaveFailing returnCode).toFlow.Charged :=
    leaveFailing_charged (hsame ▸ hsuccess) returnCode
  have huncharged {exit : Exit} (hsame : exit.notices = flow.notices) : ¬ exit.toFlow.Charged :=
    fun hcharged => hfailure (hsame ▸ hcharged.1)
  unfold filter
  split
  · next hunfit => exact iff_of_true (hfailing rfl _) (.inl (by simpa using hunfit))
  next hfit =>
  have hfits : fits flow.response = true := by simpa using hfit
  dsimp only
  split
  · trivial
  · next applied happlies =>
    split
    · next e herr =>
      have hcharged : (((flow.hand env.responseTime).applied applied).leaveFailing
          .parseError).toFlow.Charged := hfailing rfl .parseError
      exact iff_of_true hcharged (.inr ⟨applied, happlies, .inl (by simp [herr])⟩)
    · next herr =>
      have hwanting := wanting_iff hfits happlies herr
      unfold afterResponsePlugins
      split
      · next hdrop => exact iff_of_false (huncharged rfl) fun h => (hwanting.mp h).1 hdrop
      · next hdrop =>
        cases hpacked : ((flow.hand env.responseTime).applied applied).packSynth p with
        | error stop =>
          obtain ⟨exit, rfl, hsame, hnone⟩ := packSynth_unpacked hpacked
          refine iff_of_false (huncharged hsame) fun h => ?_
          obtain ⟨-, packet, hpacket, -⟩ := hwanting.mp h
          exact hnone packet hpacket
        | ok flow₂ =>
          obtain ⟨hleaves, hst, hsame⟩ := packSynth_leaves hpacked
          intro exit hexit
          rw [hwanting, charge_deliver (hsame ▸ hnotices) hexit, hst]
          constructor
          · rintro ⟨hcode, hfailure⟩
            exact ⟨hdrop, flow₂.response, hleaves, hcode, hfailure⟩
          · rintro ⟨-, packet, hpacket, hcode⟩
            rw [hpacket.unique hleaves] at hcode
            exact hcode

theorem filter_deliver_charged (hnotices : ∀ notice ∈ flow.notices, notice = .begin) :
    Ends (do
        let flow ← filter p env subquery flow
        deliver p caller env flow true)
      (fun exit => exit.toFlow.Charged ↔ Wanting p env subquery flow)
      (Stop.All (fun exit => exit.toFlow.Charged ↔ Wanting p env subquery flow) fun _ => True) := by
  refine (filter_charged hnotices).bind fun flow' _ hflow' => ?_
  refine (deliver_notices flow').mono (fun exit _ => hflow' exit) fun stop hstop => ?_
  cases stop with
  | exit exit => exact hflow' exit hstop
  | halt halted => trivial

theorem Substitute.notices {serverInfo : ServerInfo}
    (h : Substitute p env flow serverInfo query flow') (hnone : flow.notices = []) :
    flow'.notices = [.begin] := by
  cases h <;> simp [Flow.answered, Flow.noticed, hnone]

/-- **Charging a failed exchange.** However a call returns for which the exchange with the server
failed, the failure is charged to the server and no success is noticed, exactly if no other answer
takes the place of the server's, or one that is found wanting. -/
theorem failed_exchange_charged_iff {envs : List CallEnv} {exit : Exit} {flow : Flow}
    {serverInfo : ServerInfo} {query' : Bytes}
    (hforward : dispatch p caller env world query = .ok (.forward flow serverInfo query'))
    (hfailed : ExchangeFailed p env flow serverInfo query')
    (h : processIncomingQuery p caller env envs world query = .ok exit) :
    exit.toFlow.Charged ↔ ∀ flow', Substitute p env flow serverInfo query' flow' →
      Wanting p env (subqueryWith p envs) flow' := by
  have hnone := dispatch_notices hforward
  have hfetch := fetch_failed hfailed (by rw [hnone]; simp)
  have hphases : phases p caller env (subqueryWith p envs) world query = (do
      let flow ← fetch p env flow serverInfo query'
      let flow ← filter p env (subqueryWith p envs) flow
      deliver p caller env flow true) := by
    unfold phases
    rw [hforward]
    rfl
  cases hf : fetch p env flow serverInfo query' with
  | error stop =>
    -- the call is left with the exit of the exchange, and there is no substitute
    rw [hf] at hphases
    have hcharged : Stop.Charged stop := hfetch.of_error hf
    refine iff_of_true ?_ fun flow' hsub => ?_
    · rcases exit_of_serve h with hexit | hexit
      · rw [hphases] at hexit
        cases hexit
      · rw [hphases] at hexit
        cases hexit
        exact hcharged
    · rw [fetch_substitute hfailed hsub] at hf
      cases hf
  | ok flow₁ =>
    have hsub := hfetch.of_ok hf
    have hrest : Ends (phases p caller env (subqueryWith p envs) world query)
        (fun exit => exit.toFlow.Charged ↔ Wanting p env (subqueryWith p envs) flow₁)
        (Stop.All (fun exit => exit.toFlow.Charged ↔ Wanting p env (subqueryWith p envs) flow₁)
          fun _ => True) := by
      rw [hphases, hf]
      exact filter_deliver_charged (by simp [hsub.notices hnone])
    have hcharged : exit.toFlow.Charged ↔ Wanting p env (subqueryWith p envs) flow₁ := by
      rcases exit_of_serve h with hexit | hexit
      · exact hrest.of_ok hexit
      · exact hrest.of_error hexit
    rw [hcharged]
    constructor
    · intro hwanting flow' hsub'
      rw [fetch_substitute hfailed hsub'] at hf
      cases hf
      exact hwanting
    · exact fun hall => hall flow₁ hsub

end Call

namespace Sample

/-- The header of a response, in a DoH answer that came before the handshake was complete. -/
def unfinished : CallEnv :=
  env .doh 0 (.ok ([0, 0, 0x81, 0x80, 0, 1, 0, 0, 0, 0, 0, 0], false)) []

/-- The header takes the place of an answer, but it is no packet. -/
theorem unfinished_charged :
    ∃ flow serverInfo query' exit,
      dispatch (proxy .bare dns) client unfinished world queryPacket =
        .ok (.forward flow serverInfo query') ∧
      ExchangeFailed (proxy .bare dns) unfinished flow serverInfo query' ∧
      (∃ flow', Substitute (proxy .bare dns) unfinished flow serverInfo query' flow') ∧
      processIncomingQuery (proxy .bare dns) client unfinished [] world queryPacket = .ok exit ∧
      exit.toFlow.Charged := by
  refine ⟨_, _, _, _, rfl, ?_, ⟨_, .unfinished rfl rfl rfl⟩, rfl, ?_⟩
  · exact fun body hbody => nomatch hbody
  refine (@failed_exchange_charged_iff (proxy .bare dns) client unfinished world queryPacket [] _ _ _
    _ rfl (fun body hbody => nomatch hbody) rfl).mpr fun flow' hsub => .inl ?_
  cases hsub with
  | stale proto => cases proto
  | staleDoH proto kept => cases kept
  | unfinished proto kept answered =>
    cases answered
    rfl

/-- A DoH server that does not answer. -/
def unanswering : CallEnv := env .doh (100 * second) (.error (.net "i/o timeout" true)) []

/-- A stale answer is in the cache, the server does not answer, and it gets the credit for
the stale answer. -/
theorem stale_answer_credited :
    (processIncomingQuery caching client unanswering []
      (afterCall caching (answering 0) world queryPacket) queryPacket).map (fun exit =>
        (exit.notices, exit.writes)) = .ok ([.begin, .success], [replyPacket 30]) := rfl

end Sample

end DnscryptProxy
