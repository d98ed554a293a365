import DnscryptProxy.Phases.Query

/-! The exchange with the server. What it leaves in the variable `response` was accepted
by the protocol of the server, or kept stale, or else the exchange is `Unauthenticated`. -/

namespace DnscryptProxy

open Library Relation

/-- The state of the proxy where a phase stops. -/
def Stop.world : Stop → World
  | .exit e => e.world
  | .halt h => h.world

section Phases

variable {p : Proxy} {caller : Caller} {env : CallEnv} {world : World} {U : Prop}

/-- Bytes came back with an error. -/
def Exchanged.Rejected (exchanged : Exchanged) : Prop := exchanged.err ≠ none ∧ exchanged.data ≠ []

structure Exchanged.Genuine (prims : Primitives) (serverInfo : ServerInfo)
    (sharedKey clientNonce : Bytes) (exchanged : Exchanged) : Prop where
  accepted : exchanged.err = none →
    ∃ response, decrypt prims serverInfo sharedKey response clientNonce = (exchanged.data, none)
  timeout : ∀ e, exchanged.err = some e → e.isTimeout = true → exchanged.data = []

theorem genuine_of_error (prims : Primitives) (serverInfo : ServerInfo)
    (sharedKey clientNonce : Bytes) (e : GoError) (ops : List NetOp) :
    Exchanged.Genuine prims serverInfo sharedKey clientNonce ⟨[], some e, ops⟩ :=
  ⟨nofun, fun _ _ _ => rfl⟩

theorem genuine_of_decrypt (prims : Primitives) (serverInfo : ServerInfo)
    (sharedKey clientNonce response : Bytes) (ops : List NetOp) :
    Exchanged.Genuine prims serverInfo sharedKey clientNonce
      ⟨(decrypt prims serverInfo sharedKey response clientNonce).1,
        (decrypt prims serverInfo sharedKey response clientNonce).2, ops⟩ := by
  refine ⟨fun hnone => ⟨response, Prod.ext rfl hnone⟩, fun e he ht => ?_⟩
  have hreject := decrypt_rejects (Prod.ext rfl he)
  simp [hreject.2] at ht

theorem exchangeWithUDPServer_genuine (prims : Primitives) (dialer : Dialer)
    (serverInfo : ServerInfo) (sharedKey query clientNonce : Bytes) (conn : UDPConn) :
    Exchanged.Genuine prims serverInfo sharedKey clientNonce
      (exchangeWithUDPServer prims dialer serverInfo sharedKey query clientNonce conn) := by
  unfold exchangeWithUDPServer
  dsimp only
  split
  · exact genuine_of_error ..
  · split
    · exact genuine_of_error ..
    · split
      · exact genuine_of_error ..
      · exact genuine_of_decrypt ..

theorem exchangeWithTCPServer_genuine (prims : Primitives) (dialer : Dialer)
    (serverInfo : ServerInfo) (sharedKey query clientNonce : Bytes) (conn : TCPConn) :
    Exchanged.Genuine prims serverInfo sharedKey clientNonce
      (exchangeWithTCPServer prims dialer serverInfo sharedKey query clientNonce conn) := by
  unfold exchangeWithTCPServer
  dsimp only
  split
  · exact genuine_of_error ..
  · split
    · exact genuine_of_error ..
    · split
      · exact genuine_of_error ..
      · split
        · exact genuine_of_error ..
        · split
          · exact genuine_of_error ..
          · exact genuine_of_decrypt ..

/-- The last exchange of a DNSCrypt query ends with bytes that came with an error. -/
def ReplyRejected (p : Proxy) (env : CallEnv) (minQuestionSize : Nat) (serverInfo : ServerInfo)
    (query : Bytes) (proto : NetProto) (encrypted : Encrypted) : Prop :=
  match proto with
  | .tcp => (overTCP p env serverInfo encrypted).Rejected
  | .udp =>
    if retryOverTCP (overUDP p env serverInfo encrypted) then
      ∃ encrypted', encrypt p.pkgs.prims p.keys minQuestionSize serverInfo query .tcp
        env.entropyForRetry = .ok encrypted' ∧ (overTCP p env serverInfo encrypted').Rejected
    else (overUDP p env serverInfo encrypted).Rejected

/-- The exchange that a DNSCrypt query ends with, if it is not cut short by an error of `Encrypt`. -/
def lastExchange (p : Proxy) (env : CallEnv) (minQuestionSize : Nat) (serverInfo : ServerInfo)
    (query : Bytes) (proto : NetProto) (encrypted : Encrypted) : Option Exchanged :=
  match proto with
  | .tcp => some (overTCP p env serverInfo encrypted)
  | .udp =>
    if retryOverTCP (overUDP p env serverInfo encrypted) then
      match encrypt p.pkgs.prims p.keys minQuestionSize serverInfo query .tcp
          env.entropyForRetry with
      | .ok encrypted => some (overTCP p env serverInfo encrypted)
      | .error _ => none
    else some (overUDP p env serverInfo encrypted)

/-- What an exchange leaves alone. -/
structure Fetched (p : Proxy) (caller : Caller) (env : CallEnv) (world : World) (U : Prop)
    (flow flow' : Flow) : Prop where
  sound : Sound p caller env world U flow'
  st : flow'.st = flow.st
  handed : flow'.handed = flow.handed
  world : flow'.world = flow.world

/-- How an exchange may stop: only what an ODoH server sends can make it panic. -/
abbrev FetchStop (p : Proxy) (caller : Caller) (env : CallEnv) (world : World) (U : Prop)
    (flow : Flow) : Stop → Prop :=
  Stop.All (fun exit => Left p caller env world U exit ∧ exit.world = flow.world)
    fun halted => halted.world = flow.world ∧
      ∀ panic, halted.cause = .panic panic → panic = .indexOutOfRange

variable {flow : Flow} {serverInfo : ServerInfo} {query : Bytes} {proto : NetProto}
  {encrypted : Encrypted} {exchanged : Exchanged} {minQuestionSize : Nat} {stop : Stop}

theorem FetchStop.world_eq (h : FetchStop p caller env world U flow stop) :
    stop.world = flow.world := by
  cases stop with
  | exit exit => exact h.2
  | halt halted => exact h.1

theorem FetchStop.sound (hflow : Sound p caller env world U flow)
    (h : FetchStop p caller env world U flow stop) : SoundStop p caller env world U stop := by
  cases stop with
  | exit exit => exact h.1
  | halt halted =>
    have hsteps := hflow.steps
    rw [← h.1] at hsteps
    exact hsteps

/-! ## DNSCrypt -/

theorem settle_ends (h : Sound p caller env world U flow)
    (ha : exchanged.err = none → Accepted p env exchanged.data)
    (hU : exchanged.Rejected → flow.st.stale = none → U) :
    Ends (settle p flow exchanged) (Fetched p caller env world U flow)
      (FetchStop p caller env world U flow) := by
  unfold settle
  split
  · next hnone => exact ⟨h.answered ⟨ha hnone, .self⟩, rfl, rfl, rfl⟩
  · next e he =>
    unfold serveStale
    split
    · next hstale =>
      refine ⟨(h.unverified fun hne => hU ⟨?_, hne⟩ hstale).leaveFailing _, rfl⟩
      simp [he]
    · next stale hstale =>
      split
      · exact ⟨h.cleared.leaveFailing _, rfl⟩
      · next response hpack => exact ⟨h.answered ⟨.inr hstale, response, hpack, .self⟩, rfl, rfl, rfl⟩

theorem settle_leaves (herr : exchanged.err ≠ none) (hstale : flow.st.stale = none) :
    ∃ exit, settle p flow exchanged = .error (.exit exit) ∧ exit.response = exchanged.data ∧
      exit.origin = .unverified exchanged.data := by
  obtain ⟨e, he⟩ := Option.ne_none_iff_exists'.mp herr
  simp only [settle, serveStale, he, hstale]
  exact ⟨_, rfl, rfl, rfl⟩

/-- Only a truncated answer or a timeout is retried, and after a timeout there are no bytes. -/
theorem exchangeDNSCrypt_cases (p : Proxy) (env : CallEnv) (flow : Flow) (serverInfo : ServerInfo)
    (query : Bytes) (proto : NetProto) (encrypted : Encrypted) :
    (∃ exchanged, lastExchange p env flow.world.minQuestionSize serverInfo query proto encrypted =
        some exchanged ∧
      exchangeDNSCrypt p env flow serverInfo query proto encrypted = settle p flow exchanged) ∨
    lastExchange p env flow.world.minQuestionSize serverInfo query proto encrypted = none ∧
      ∃ origin, exchangeDNSCrypt p env flow serverInfo query proto encrypted =
        .error (.exit ((flow.answered (overUDP p env serverInfo encrypted).data origin).leaveWith
          .parseError)) ∧
      ((overUDP p env serverInfo encrypted).err = none ∧
          origin = .accepted (overUDP p env serverInfo encrypted).data ∨
        (overUDP p env serverInfo encrypted).data = [] ∧ origin = .unverified []) := by
  unfold exchangeDNSCrypt lastExchange
  cases proto with
  | tcp => exact .inl ⟨_, rfl, rfl⟩
  | udp =>
    dsimp only
    by_cases hretry : retryOverTCP (overUDP p env serverInfo encrypted) = true
    · rw [if_pos hretry, if_pos hretry]
      cases encrypt p.pkgs.prims p.keys flow.world.minQuestionSize serverInfo query .tcp
          env.entropyForRetry with
      | ok encrypted' => exact .inl ⟨_, rfl, rfl⟩
      | error e =>
        refine .inr ⟨rfl, _, rfl, ?_⟩
        cases herr : (overUDP p env serverInfo encrypted).err with
        | none => exact .inl ⟨rfl, rfl⟩
        | some e =>
          have hempty : (overUDP p env serverInfo encrypted).data = [] :=
            (exchangeWithUDPServer_genuine ..).timeout e herr
              (by simpa [retryOverTCP, herr] using hretry)
          exact .inr ⟨hempty, by rw [hempty]⟩
    · rw [if_neg hretry, if_neg hretry]
      exact .inl ⟨_, rfl, rfl⟩

theorem exchangeDNSCrypt_eq
    (h : lastExchange p env flow.world.minQuestionSize serverInfo query proto encrypted =
      some exchanged) :
    exchangeDNSCrypt p env flow serverInfo query proto encrypted = settle p flow exchanged := by
  rcases exchangeDNSCrypt_cases p env flow serverInfo query proto encrypted
    with ⟨last, hlast, heq⟩ | ⟨hnone, -⟩
  · cases hlast.symm.trans h
    exact heq
  · cases hnone.symm.trans h

theorem lastExchange_mem
    (h : lastExchange p env minQuestionSize serverInfo query proto encrypted = some exchanged) :
    ∃ encrypted', (encrypted' = encrypted ∨ encrypt p.pkgs.prims p.keys minQuestionSize serverInfo
        query .tcp env.entropyForRetry = .ok encrypted') ∧
      exchanged ∈ [overUDP p env serverInfo encrypted', overTCP p env serverInfo encrypted'] := by
  unfold lastExchange at h
  cases proto with
  | tcp =>
    cases h
    exact ⟨encrypted, .inl rfl, by simp⟩
  | udp =>
    dsimp only at h
    by_cases hretry : retryOverTCP (overUDP p env serverInfo encrypted) = true
    · rw [if_pos hretry] at h
      cases he : encrypt p.pkgs.prims p.keys minQuestionSize serverInfo query .tcp
          env.entropyForRetry with
      | error e =>
        rw [he] at h
        cases h
      | ok encrypted' =>
        rw [he] at h
        cases h
        exact ⟨encrypted', .inr rfl, by simp⟩
    · rw [if_neg hretry] at h
      cases h
      exact ⟨encrypted, .inl rfl, by simp⟩

theorem replyRejected_iff :
    ReplyRejected p env minQuestionSize serverInfo query proto encrypted ↔
      ∃ exchanged, lastExchange p env minQuestionSize serverInfo query proto encrypted =
        some exchanged ∧ exchanged.Rejected := by
  unfold ReplyRejected lastExchange
  cases proto with
  | tcp => simp
  | udp =>
    dsimp only
    split
    · cases encrypt p.pkgs.prims p.keys minQuestionSize serverInfo query .tcp env.entropyForRetry <;>
        simp
    · simp

theorem accepted_of_encrypt (hs : env.server = some serverInfo) {query : Bytes} {entropy : Entropy}
    (he : encrypt p.pkgs.prims p.keys minQuestionSize serverInfo query proto entropy = .ok encrypted)
    (hmem : exchanged ∈ [overUDP p env serverInfo encrypted, overTCP p env serverInfo encrypted])
    (hnone : exchanged.err = none) : Accepted p env exchanged.data := by
  rcases List.mem_pair.mp hmem with rfl | rfl
  · obtain ⟨response, hd⟩ := (exchangeWithUDPServer_genuine ..).accepted hnone
    exact .dnscrypt hs he hd
  · obtain ⟨response, hd⟩ := (exchangeWithTCPServer_genuine ..).accepted hnone
    exact .dnscrypt hs he hd

theorem exchangeDNSCrypt_ends (h : Sound p caller env world U flow)
    (hs : env.server = some serverInfo) {entropy : Entropy}
    (he : encrypt p.pkgs.prims p.keys flow.world.minQuestionSize serverInfo query proto entropy =
      .ok encrypted)
    (hU : flow.st.stale = none → ReplyRejected p env flow.world.minQuestionSize serverInfo query
      proto encrypted → U) :
    Ends (exchangeDNSCrypt p env flow serverInfo query proto encrypted)
      (Fetched p caller env world U flow) (FetchStop p caller env world U flow) := by
  rcases exchangeDNSCrypt_cases p env flow serverInfo query proto encrypted
    with ⟨exchanged, hlast, heq⟩ | ⟨-, origin, heq, horigin⟩
  · rw [heq]
    refine settle_ends h (fun hnone => ?_) fun hr hstale => hU hstale (replyRejected_iff.mpr
      ⟨exchanged, hlast, hr⟩)
    obtain ⟨encrypted', rfl | he', hmem⟩ := lastExchange_mem hlast
    · exact accepted_of_encrypt hs he hmem hnone
    · exact accepted_of_encrypt hs he' hmem hnone
  · rw [heq]
    refine ⟨(h.answered ?_).leaveWith .parseError, rfl⟩
    rcases horigin with ⟨hnone, rfl⟩ | ⟨hempty, rfl⟩
    · exact ⟨accepted_of_encrypt hs he (by simp) hnone, .self⟩
    · exact fun hne => absurd hempty hne

/-! ## DoH and ODoH -/

theorem serveStaleDoH_ends (h : Sound p caller env world U flow) {stale : Msg}
    (hstale : flow.st.stale = some stale) :
    Ends (serveStaleDoH p flow stale) (Fetched p caller env world U flow)
      (FetchStop p caller env world U flow) := by
  unfold serveStaleDoH
  split
  · exact ⟨h.leaveFailing _, rfl⟩
  · next response hpack => exact ⟨h.answered ⟨.inr hstale, response, hpack, .self⟩, rfl, rfl, rfl⟩

theorem dohResponse_ends (h : Sound p caller env world U flow) :
    Ends (dohResponse p env flow) (Fetched p caller env world U flow)
      (FetchStop p caller env world U flow) := by
  unfold dohResponse
  split
  · next body hdoh => exact ⟨h.answered ⟨.doh true hdoh, .self⟩, rfl, rfl, rfl⟩
  · next body hdoh _ => exact ⟨h.answered ⟨.doh false hdoh, .self⟩, rfl, rfl, rfl⟩
  · next hstale => exact serveStaleDoH_ends h hstale
  · exact ⟨h.leaveFailing _, rfl⟩
  · next hstale => exact serveStaleDoH_ends h hstale

theorem restoreID_nil (query : Bytes) : restoreID query [] = [] := rfl

theorem exchangeDoH_ends (h : Sound p caller env world U flow) (query : Bytes) :
    Ends (exchangeDoH p env flow query) (Fetched p caller env world U flow)
      (FetchStop p caller env world U flow) := by
  refine (dohResponse_ends h).bind fun flow' _ hf =>
    ⟨hf.sound.answered ?_, hf.st, hf.handed, hf.world⟩
  refine hf.sound.traced.onward (fun _ hc => hc.withID query) fun hnil => ?_
  rw [hnil, restoreID_nil]

theorem slice_panics (b : Bytes) (lo hi : Nat) :
    Ends (slice b lo hi) (fun _ => True) fun panic => panic = .indexOutOfRange := by
  unfold slice
  split
  · trivial
  · rfl

theorem zeroFrom_panics (response : Bytes) (i n : Nat) :
    Ends (zeroFrom response i n) (fun _ => True) fun panic => panic = .indexOutOfRange := by
  induction n generalizing i with
  | zero => trivial
  | succ n ih =>
    unfold zeroFrom
    split
    · rfl
    · exact (ih (i + 1)).bind fun _ _ _ => trivial

theorem responseMessage_panics (response responsePlaintext : Bytes) :
    Ends (responseMessage response responsePlaintext) (fun _ => True)
      fun panic => panic = .indexOutOfRange := by
  unfold responseMessage
  refine (slice_panics ..).bind fun length _ _ => ?_
  refine (zeroFrom_panics ..).bind fun valid _ _ => ?_
  split
  · trivial
  · exact (slice_panics ..).bind fun _ _ _ => trivial

theorem decryptResponse_panics (hpke : HPKE) (q : ODoHQuery) (response : Bytes) :
    Ends (decryptResponse hpke q response) (fun _ => True)
      fun panic => panic = .indexOutOfRange := by
  unfold decryptResponse
  split
  · split
    · trivial
    · dsimp only
      split
      · trivial
      · refine (slice_panics ..).bind fun nonce _ _ => ?_
        split
        · trivial
        · exact responseMessage_panics ..
  · trivial

theorem odohResponse_ends (odohQuery : ODoHQuery) :
    Ends (odohResponse p env odohQuery) (fun response => ∀ data, response = some data →
        decryptResponse p.pkgs.hpke odohQuery env.odoh.body = .ok (.ok data))
      fun panic => panic = .indexOutOfRange := by
  unfold odohResponse
  split
  · refine (decryptResponse_panics ..).bind fun r hr _ => ?_
    cases r with
    | error e => exact nofun
    | ok response =>
      rintro _ ⟨⟩
      exact hr
  · exact nofun

theorem exchangeODoH_ends (h : Sound p caller env world U flow) (query : Bytes)
    {odohQuery : ODoHQuery} {target : ODoHTargetConfig} {query' : Bytes}
    (he : encryptQuery p.pkgs.hpke target query' = .ok odohQuery) :
    Ends (exchangeODoH p env flow query odohQuery) (Fetched p caller env world U flow)
      (FetchStop p caller env world U flow) := by
  unfold exchangeODoH
  split
  · next panic hpanic =>
    refine ⟨rfl, ?_⟩
    rintro _ ⟨⟩
    exact (odohResponse_ends odohQuery).of_error hpanic
  · dsimp only
    split
    · exact ⟨(h.noticed .failure).leaveFailing _, rfl⟩
    · exact ⟨h.leaveFailing _, rfl⟩
  · next response hresponse =>
    have hd := (odohResponse_ends odohQuery).of_ok hresponse response rfl
    exact ⟨h.answered ⟨.odoh he hd, .withID .self query⟩, rfl, rfl, rfl⟩

/-! ## The exchange -/

/-- What a query that is ready to be sent was made of. -/
def Prepared.MadeOf (p : Proxy) (env : CallEnv) (minQuestionSize : Nat) (serverInfo : ServerInfo)
    (query : Bytes) : Prepared → Prop
  | .dnscrypt proto encrypted => serverInfo.proto = .dnscrypt ∧
      ∃ entropy ∈ [env.entropy, env.entropyForTCP],
        encrypt p.pkgs.prims p.keys minQuestionSize serverInfo query proto entropy = .ok encrypted
  | .doh => serverInfo.proto = .doh
  | .odoh odohQuery => serverInfo.proto = .odohTarget ∧
      ∃ target, encryptQuery p.pkgs.hpke target query = .ok odohQuery

theorem encryptQueryFor_encrypts {serverProto : NetProto}
    (h : encryptQueryFor p env minQuestionSize serverInfo query serverProto =
      .ok (proto, encrypted)) : ∃ entropy ∈ [env.entropy, env.entropyForTCP],
    encrypt p.pkgs.prims p.keys minQuestionSize serverInfo query proto entropy = .ok encrypted := by
  unfold encryptQueryFor at h
  split at h
  · next he =>
    cases h
    exact ⟨_, by simp, he⟩
  · split at h
    · obtain ⟨encrypted', he, h⟩ := ok_of_map h
      cases h
      exact ⟨_, by simp, he⟩
    · cases h

theorem prepare_madeOf {prepared : Prepared}
    (h : prepare p env flow serverInfo query = .ok prepared) :
    prepared.MadeOf p env flow.world.minQuestionSize serverInfo query := by
  unfold prepare at h
  split at h
  · next hproto =>
    split at h
    · cases h
    · next hencrypt =>
      cases h
      exact ⟨hproto, encryptQueryFor_encrypts hencrypt⟩
  · next hproto =>
    cases h
    exact hproto
  · next hproto =>
    split at h
    · cases h
    · next target _ =>
      split at h
      · cases h
      · next he =>
        cases h
        exact ⟨hproto, target, he⟩
  · cases h

theorem prepare_ends (h : Sound p caller env world U flow) (serverInfo : ServerInfo)
    (query : Bytes) :
    Ends (prepare p env flow serverInfo query) (fun _ => True)
      (FetchStop p caller env world U flow) := by
  unfold prepare
  split
  · split
    · exact ⟨h.leaveWith _, rfl⟩
    · trivial
  · trivial
  · split
    · exact ⟨h.leaveSilently, rfl⟩
    · split
      · exact ⟨h.leaveFailing _, rfl⟩
      · trivial
  · exact ⟨rfl, nofun⟩

theorem fetch_of_prepare {prepared : Prepared}
    (h : prepare p env flow serverInfo query = .ok prepared) :
    fetch p env flow serverInfo query = exchange p env flow serverInfo query prepared := by
  rw [fetch, h]
  rfl

theorem fetch_settles
    (hprepared : prepare p env flow serverInfo query = .ok (.dnscrypt proto encrypted))
    (hlast : lastExchange p env flow.world.minQuestionSize serverInfo query proto encrypted =
      some exchanged) :
    fetch p env flow serverInfo query = settle p (flow.noticed .begin) exchanged := by
  have hlast : lastExchange p env (flow.noticed .begin).world.minQuestionSize serverInfo query proto
      encrypted = some exchanged := hlast
  rw [fetch_of_prepare hprepared, exchange, exchangeDNSCrypt_eq hlast]

def Unauthenticated (p : Proxy) (env : CallEnv) (flow : Flow) (serverInfo : ServerInfo)
    (query : Bytes) : Prop :=
  ∃ proto encrypted, prepare p env flow serverInfo query = .ok (.dnscrypt proto encrypted) ∧
    flow.st.stale = none ∧
    ReplyRejected p env flow.world.minQuestionSize serverInfo query proto encrypted

theorem fetch_ends (h : Sound p caller env world U flow) (hs : env.server = some serverInfo)
    (query : Bytes) (hU : Unauthenticated p env flow serverInfo query → U) :
    Ends (fetch p env flow serverInfo query) (Fetched p caller env world U flow)
      (FetchStop p caller env world U flow) := by
  refine (prepare_ends h serverInfo query).bind fun prepared hprepared _ => ?_
  have hbegin : ∀ flow', Fetched p caller env world U (flow.noticed .begin) flow' →
      Fetched p caller env world U flow flow' := fun _ hf => ⟨hf.sound, hf.st, hf.handed, hf.world⟩
  have hmade := prepare_madeOf hprepared
  unfold exchange
  cases prepared with
  | dnscrypt proto encrypted =>
    obtain ⟨-, _, -, he⟩ := hmade
    exact (exchangeDNSCrypt_ends (h.noticed .begin) hs he fun hstale hr =>
      hU ⟨proto, encrypted, hprepared, hstale, hr⟩).mono (fun _ _ => hbegin _) fun _ he => he
  | doh => exact (exchangeDoH_ends (h.noticed .begin) query).mono (fun _ _ => hbegin _) fun _ he => he
  | odoh odohQuery =>
    obtain ⟨-, _, he⟩ := hmade
    exact exchangeODoH_ends h query he

theorem dispatch_forwarded {query' : Bytes}
    (h : dispatch p caller env world query = .ok (.forward flow serverInfo query')) :
    Forwarded p caller env world True query flow serverInfo query' :=
  (dispatch_ends query).of_ok h

theorem Forwarded.fetch_ends {query' : Bytes}
    (h : Forwarded p caller env world True query flow serverInfo query') :
    Ends (fetch p env flow serverInfo query') (Fetched p caller env world True flow)
      (FetchStop p caller env world True flow) :=
  DnscryptProxy.fetch_ends h.sound h.server query' fun _ => trivial

end Phases

end DnscryptProxy
