import DnscryptProxy.Cloaking
import DnscryptProxy.Resolving

/-! `Fetch` of `xtransport.go`, over HTTP/2 or HTTP/3. After a response with an `Alt-Svc` header, a
port is remembered for the host of the URL; the requests that follow use HTTP/3 where it is the port
of the URL. The port is that of the URL to begin with, and is remembered whatever the header says;
a header is split where the parameters of an alternative begin, not between alternatives; and the
response may come from another host, since redirects are followed.

* `http3_advertised`: in which runs HTTP/3 is used only after it was advertised.
* `http3_unadvertised`: a response that is not like those lets HTTP/3 be used without. -/

namespace DnscryptProxy

open Library

/-! ## Alternative services -/

/-- `strconv.ParseUint`, for numbers of 16 bits. -/
def parseUint16 (text : Text) : Option UInt16 :=
  if text = [] || !text.all Char.isDigit then none
  else
    let n : Nat := text.foldl (fun n c => n * 10 + (c.toNat - '0'.toNat)) 0
    if n < 2 ^ 16 then some (.ofNat n) else none

def h3Prefix : Text := "h3=\":".toList

/-- The port of an alternative for HTTP/3. -/
def h3Port (v : Text) : Option UInt16 :=
  let v := trimSpace v
  if h3Prefix.isPrefixOf v then
    let v := v.drop h3Prefix.length
    parseUint16 (if v.getLast? = some '"' then v.dropLast else v)
  else none

/-- The inner loop, over the parts of one header. -/
def altPortOf (xalt : Text) : Option UInt16 := ((xalt.splitOn ';').take 17).findSome? h3Port

def altPort (port : Int) (alt : List Text) : UInt16 :=
  (alt.take 9).foldl (fun altPort xalt => (altPortOf xalt).getD altPort)
    (.ofNat (port % 2 ^ 16).toNat)

example : altPort 443 ["h2=\":443\"".toList, "h3-29=\":1\"; h3=\":8443\"; ma=60".toList] = 8443 := by
  decide

/-! ## Requests -/

/-- The two transports. -/
inductive RoundTripper where
  | transport
  | h3Transport
  deriving DecidableEq, Repr

structure WebRequest where
  method : Text
  url : URL
  header : List (Text × Text)
  body : Option Bytes
  deriving DecidableEq, Repr

/-- The state of a TLS connection, with the signed part of each certificate of the peer. -/
structure TLSState where
  handshakeComplete : Bool
  peerCertificates : List Bytes
  deriving DecidableEq, Repr

structure WebResponse where
  statusCode : Nat
  status : String
  altSvc : Option (List Text)
  tls : Option TLSState
  body : Bytes
  bodyErr : Option GoError

/-- A response that redirects to a URL. -/
structure Redirect where
  resp : WebResponse
  location : URL

structure WebOutcome where
  followed : List Redirect
  resp : Option WebResponse
  err : Option GoError

/-- The response, unless it is an error to `Fetch`. -/
def WebOutcome.accepted (outcome : WebOutcome) : Except GoError WebResponse :=
  match outcome.err, outcome.resp with
  | some e, _ => .error e
  | none, none => .error (.plain "Webserver returned an error")
  | none, some resp =>
    if resp.statusCode < 200 ∨ 299 < resp.statusCode then .error (.plain resp.status) else .ok resp

def WebOutcome.statusCode (outcome : WebOutcome) : Nat :=
  (outcome.resp.map WebResponse.statusCode).getD 503

structure FetchCall where
  method : Text
  url : URL
  accept : Text
  contentType : Text
  body : Option Bytes
  answers : Answers
  now : Time
  later : Time
  roundTrip : RoundTripper → WebRequest → WebOutcome
  rtt : Time

structure FetchResult where
  bin : Bytes
  statusCode : Nat
  tls : Option TLSState
  rtt : Time
  err : Option GoError

/-- A call in the past: what was sent and what came of it. -/
structure FetchEvent where
  call : FetchCall
  sent : Option (RoundTripper × WebOutcome)
  result : FetchResult

/-- One of the requests of a call: the host that it is sent to, and the response from there. -/
structure WebExchange where
  host : Text
  resp : Option WebResponse

/-- The requests of `client.Do`, from the first host on. -/
def webExchanges (host : Text) (resp : Option WebResponse) : List Redirect → List WebExchange
  | [] => [⟨host, resp⟩]
  | redirect :: followed =>
    ⟨host, some redirect.resp⟩ :: webExchanges redirect.location.host resp followed

def FetchEvent.exchanges (event : FetchEvent) : List WebExchange :=
  match event.sent with
  | none => []
  | some (_, outcome) => webExchanges event.call.url.host outcome.resp outcome.followed

/-- The settings of the transport. `bodyHash` is one half of the SHA-512 of a body, in
hexadecimal. -/
structure FetchTransport extends ResolvingTransport where
  http3 : Bool
  bodyHash : Bytes → Text

structure FetchState where
  altSupport : Text → Option UInt16
  cachedIPs : CachedIPs
  tlsCipherSuite : Option (List UInt16)

def maxHTTPBodyLength : Nat := 1000000

section Fetch

variable (x : FetchTransport)

def webRequest (call : FetchCall) : WebRequest where
  method := call.method
  url := match call.body with
    | some body => { call.url with
        rawQuery := x.net.addQuery call.url.rawQuery [("body_hash".toList, x.bodyHash body)] }
    | none => call.url
  header := [("User-Agent".toList, "dnscrypt-proxy".toList)] ++
    (if call.accept ≠ [] then [("Accept".toList, call.accept)] else []) ++
    (if call.contentType ≠ [] then [("Content-Type".toList, call.contentType)] else []) ++
    [("Cache-Control".toList, "max-stale".toList)]
  body := call.body

/-- HTTP/3 is used where the port that is remembered for the host is that of the URL. -/
def roundTripper (st : FetchState) (url : URL) : RoundTripper :=
  let port := (extractHostAndPort url.host 443).2
  if x.http3 && (st.altSupport url.host).any fun altPort => (altPort.toNat : Int) = port then
    .h3Transport
  else .transport

def learnAltSupport (url : URL) (resp : WebResponse) (altSupport : Text → Option UInt16) :
    Text → Option UInt16 :=
  match x.http3, resp.altSvc with
  | true, some alt => fun host =>
    if host = url.host then some (altPort (extractHostAndPort url.host 443).2 alt)
    else altSupport host
  | _, _ => altSupport

/-- The end of `Fetch`, with a response. -/
def fetchBody (call : FetchCall) (resp : WebResponse) : FetchResult :=
  match readAllLimited maxHTTPBodyLength resp.body resp.bodyErr with
  | .error e => ⟨[], resp.statusCode, resp.tls, call.rtt, some e⟩
  | .ok bin => ⟨bin, resp.statusCode, resp.tls, call.rtt, none⟩

/-- A handshake that failed is tried without the list of cipher suites from then on. -/
def suitesAfter (e : GoError) (tlsCipherSuite : Option (List UInt16)) : Option (List UInt16) :=
  if "handshake failure".toList <:+: e.text.toList then none else tlsCipherSuite

/-- `Fetch`, where the host is resolved. -/
def FetchTransport.fetchResolved (st : FetchState) (call : FetchCall) : FetchState × FetchEvent :=
  let tripper := roundTripper x st call.url
  let outcome := call.roundTrip tripper (webRequest x call)
  match outcome.accepted with
  | .error e =>
    ({ st with tlsCipherSuite := suitesAfter e st.tlsCipherSuite },
      ⟨call, some (tripper, outcome), ⟨[], outcome.statusCode, none, call.rtt, some e⟩⟩)
  | .ok resp =>
    ({ st with altSupport := learnAltSupport x call.url resp st.altSupport },
      ⟨call, some (tripper, outcome), fetchBody call resp⟩)

def FetchTransport.fetch (st : FetchState) (call : FetchCall) : FetchState × FetchEvent :=
  let host := (extractHostAndPort call.url.host 443).1
  let failed := fun e => (⟨call, none, ⟨[], 0, none, 0, some e⟩⟩ : FetchEvent)
  if !x.proxyDialer && ".onion".toList.isSuffixOf host then
    (st, failed (.plain "Onion service is not reachable without Tor"))
  else
    match resolveAndUpdateCache x.toResolvingTransport call.answers call.now call.later host
        st.cachedIPs with
    | (cachedIPs, some e) => ({ st with cachedIPs := cachedIPs }, failed e)
    | (cachedIPs, none) => x.fetchResolved { st with cachedIPs := cachedIPs } call

/-! ## Histories -/

/-- The calls so far and the state they leave, from a state in which no port is remembered. -/
inductive FetchHistory : List FetchEvent → FetchState → Prop
  | start (cachedIPs : CachedIPs) (tlsCipherSuite : Option (List UInt16)) :
      FetchHistory [] ⟨fun _ => none, cachedIPs, tlsCipherSuite⟩
  | fetch {history : List FetchEvent} {st : FetchState} (before : FetchHistory history st)
      (call : FetchCall) : FetchHistory (history ++ [(x.fetch st call).2]) (x.fetch st call).1

/-- The `Alt-Svc` headers of a response that `Fetch` accepted. -/
def FetchEvent.learnt (event : FetchEvent) : Option (List Text) := do
  let (_, outcome) ← event.sent
  let resp ← outcome.accepted.toOption
  resp.altSvc

/-- The headers in the last response from the host that had any. -/
def lastLearnt (history : List FetchEvent) (host : Text) : Option (List Text) :=
  (history.filter fun event => event.call.url.host = host).reverse.findSome? FetchEvent.learnt

/-- A text in parts, divided where the separator stands outside of double quotes. -/
def splitUnquoted (sep : Char) : Bool → Text → List Text
  | _, [] => [[]]
  | quoted, c :: text =>
    if c = sep ∧ quoted = false then [] :: splitUnquoted sep false text
    else match splitUnquoted sep (if c = '"' then !quoted else quoted) text with
      | [] => [[c]]
      | part :: parts => (c :: part) :: parts

/-- The alternatives of a header, which commas divide, each without the parameters behind it. -/
def alternatives (xalt : Text) : List Text :=
  (splitUnquoted ',' false xalt).map fun value =>
    trimSpace ((splitUnquoted ';' false value).headD [])

example : alternatives "h3=\":443\"; ma=86400, h3-29=\":443\"; ma=86400".toList =
    ["h3=\":443\"".toList, "h3-29=\":443\"".toList] := by decide

/-- HTTP/3 on a port of the same host. -/
def IsH3On (port : UInt16) (alternative : Text) : Prop :=
  ∃ digits, alternative = h3Prefix ++ digits ++ ['"'] ∧ parseUint16 digits = some port

/-- One of the alternatives in the headers, however many there are, is HTTP/3 on the port. -/
def Advertises (alt : List Text) (port : UInt16) : Prop :=
  ∃ xalt ∈ alt, ∃ alternative ∈ alternatives xalt, IsH3On port alternative

def Advertised (past : List WebExchange) (host : Text) : Prop :=
  ∃ exchange ∈ past, exchange.host = host ∧
    ∃ resp alt port, exchange.resp = some resp ∧ resp.altSvc = some alt ∧ Advertises alt port ∧
      (port.toNat : Int) = (extractHostAndPort host 443).2

/-- Where a call uses HTTP/3 for a host, the host has advertised it before, in an earlier call or in
an earlier response of this one. -/
def FetchEvent.UsesAdvertised (history : List FetchEvent) (event : FetchEvent) : Prop :=
  ∀ outcome, event.sent = some (.h3Transport, outcome) →
    ∀ before exchange after, event.exchanges = before ++ exchange :: after →
      Advertised (history.flatMap FetchEvent.exchanges ++ before) exchange.host

def Explicit (host : Text) (alt : List Text) : Prop :=
  ((altPort (extractHostAndPort host 443).2 alt).toNat : Int) = (extractHostAndPort host 443).2 →
    Advertises alt (altPort (extractHostAndPort host 443).2 alt)

/-- Over any transport, redirects stay on the host of the URL, and the headers of the response are
explicit. -/
structure FetchCall.Faithful (call : FetchCall) : Prop where
  redirects : ∀ tripper, ∀ redirect ∈ (call.roundTrip tripper (webRequest x call)).followed,
    redirect.location.host = call.url.host
  headers : ∀ tripper resp alt, (call.roundTrip tripper (webRequest x call)).accepted = .ok resp →
    resp.altSvc = some alt → Explicit call.url.host alt

variable {x}

/-! ## One call -/

section Call

variable {st : FetchState} {call : FetchCall}

theorem learnAltSupport_eq (hhttp3 : x.http3 = true) (url : URL) (resp : WebResponse)
    (altSupport : Text → Option UInt16) (host : Text) :
    learnAltSupport x url resp altSupport host =
      if url.host = host then (resp.altSvc.map (altPort (extractHostAndPort host 443).2)).or
        (altSupport host)
      else altSupport host := by
  unfold learnAltSupport
  rw [hhttp3]
  cases resp.altSvc with
  | none => simp
  | some alt =>
    by_cases hhost : url.host = host
    · simp [hhost]
    · simp [hhost, Ne.symm hhost]

theorem fetch_cases (x : FetchTransport) (st : FetchState) (call : FetchCall) :
    ∃ cachedIPs,
      (∃ e, x.fetch st call =
        ({ st with cachedIPs := cachedIPs }, ⟨call, none, ⟨[], 0, none, 0, some e⟩⟩)) ∨
      x.fetch st call = x.fetchResolved { st with cachedIPs := cachedIPs } call := by
  unfold FetchTransport.fetch
  dsimp only
  split
  · exact ⟨st.cachedIPs, .inl ⟨_, rfl⟩⟩
  · split
    · exact ⟨_, .inl ⟨_, rfl⟩⟩
    · exact ⟨_, .inr rfl⟩

theorem fetchResolved_cases (x : FetchTransport) (st : FetchState) (call : FetchCall) :
    ∃ outcome, outcome = call.roundTrip (roundTripper x st call.url) (webRequest x call) ∧
      (x.fetchResolved st call).2.call = call ∧
      (x.fetchResolved st call).2.sent = some (roundTripper x st call.url, outcome) ∧
      ((∃ e, outcome.accepted = .error e ∧
          (x.fetchResolved st call).1.altSupport = st.altSupport) ∨
        ∃ resp, outcome.accepted = .ok resp ∧ (x.fetchResolved st call).1.altSupport =
          learnAltSupport x call.url resp st.altSupport) := by
  unfold FetchTransport.fetchResolved
  dsimp only
  split
  · next e haccepted => exact ⟨_, rfl, rfl, rfl, .inl ⟨e, haccepted, rfl⟩⟩
  · next resp haccepted => exact ⟨_, rfl, rfl, rfl, .inr ⟨resp, haccepted, rfl⟩⟩

theorem fetch_altSupport (hhttp3 : x.http3 = true) (host : Text) :
    (x.fetch st call).1.altSupport host =
      if call.url.host = host then
        ((x.fetch st call).2.learnt.map (altPort (extractHostAndPort host 443).2)).or
          (st.altSupport host)
      else st.altSupport host := by
  obtain ⟨cachedIPs, ⟨e, heq⟩ | heq⟩ := fetch_cases x st call
  · simp [heq, FetchEvent.learnt]
  · obtain ⟨outcome, -, -, hsent, ⟨e, haccepted, halt⟩ | ⟨resp, haccepted, halt⟩⟩ :=
      fetchResolved_cases x { st with cachedIPs := cachedIPs } call
    · simp [heq, FetchEvent.learnt, hsent, haccepted, halt, Except.toOption]
    · simp [heq, FetchEvent.learnt, hsent, haccepted, halt, Except.toOption,
        learnAltSupport_eq hhttp3]

theorem fetch_call : (x.fetch st call).2.call = call := by
  obtain ⟨cachedIPs, ⟨e, heq⟩ | heq⟩ := fetch_cases x st call
  · rw [heq]
  · obtain ⟨outcome, -, hcall, -⟩ := fetchResolved_cases x { st with cachedIPs := cachedIPs } call
    rw [heq, hcall]

theorem fetch_sent {tripper : RoundTripper} {outcome : WebOutcome}
    (h : (x.fetch st call).2.sent = some (tripper, outcome)) :
    tripper = roundTripper x st call.url ∧ outcome = call.roundTrip tripper (webRequest x call) := by
  obtain ⟨cachedIPs, ⟨e, heq⟩ | heq⟩ := fetch_cases x st call
  · rw [heq] at h
    cases h
  · obtain ⟨outcome', houtcome, -, hsent, -⟩ :=
      fetchResolved_cases x { st with cachedIPs := cachedIPs } call
    rw [heq, hsent] at h
    cases h
    exact ⟨rfl, houtcome⟩

end Call

theorem lastLearnt_append (history : List FetchEvent) (event : FetchEvent) (host : Text) :
    lastLearnt (history ++ [event]) host =
      if event.call.url.host = host then event.learnt.or (lastLearnt history host)
      else lastLearnt history host := by
  unfold lastLearnt
  split
  · next h =>
    rw [List.filter_append, List.filter_cons_of_pos (by simpa using h), List.reverse_append]
    simp only [List.filter_nil, List.reverse_cons, List.reverse_nil, List.nil_append,
      List.singleton_append, List.findSome?_cons]
    cases event.learnt <;> rfl
  · next h => simp [h]

variable {history : List FetchEvent} {st : FetchState}

theorem FetchHistory.altSupport (h : FetchHistory x history st) (hhttp3 : x.http3 = true)
    (host : Text) :
    st.altSupport host = (lastLearnt history host).map
      (altPort (extractHostAndPort host 443).2) := by
  induction h with
  | start cachedIPs tlsCipherSuite => rfl
  | fetch before call ih =>
    rw [fetch_altSupport hhttp3, lastLearnt_append, fetch_call, ih]
    split
    · rw [Option.map_or]
    · rfl

/-! ## HTTP/3 and what was advertised -/

theorem roundTripper_eq_h3 {url : URL} : roundTripper x st url = .h3Transport ↔
    x.http3 = true ∧ ∃ port, st.altSupport url.host = some port ∧
      (port.toNat : Int) = (extractHostAndPort url.host 443).2 := by
  unfold roundTripper
  cases st.altSupport url.host <;> simp

theorem accepted_resp {outcome : WebOutcome} {resp : WebResponse}
    (h : outcome.accepted = .ok resp) : outcome.resp = some resp := by
  obtain ⟨followed, resp', err⟩ := outcome
  cases err with
  | some e => cases h
  | none =>
    cases resp' with
    | none => cases h
    | some resp' =>
      unfold WebOutcome.accepted at h
      dsimp only at h
      split at h
      · cases h
      · cases h
        rfl

theorem FetchHistory.outcome_eq (h : FetchHistory x history st) :
    ∀ event ∈ history, ∀ tripper outcome,
      event.sent = some (tripper, outcome) →
      outcome = event.call.roundTrip tripper (webRequest x event.call) := by
  induction h with
  | start => exact fun event hmem => absurd hmem List.not_mem_nil
  | fetch before call ih =>
    intro event hmem tripper outcome hsent
    rcases List.mem_append.mp hmem with hmem | hmem
    · exact ih event hmem tripper outcome hsent
    · rw [List.mem_singleton.mp hmem] at hsent ⊢
      rw [fetch_call]
      exact (fetch_sent hsent).2

theorem webExchanges_host {host : Text} {resp : Option WebResponse} {followed : List Redirect}
    (h : ∀ redirect ∈ followed, redirect.location.host = host) :
    ∀ exchange ∈ webExchanges host resp followed, exchange.host = host := by
  induction followed with
  | nil =>
    intro exchange hmem
    rw [List.mem_singleton.mp hmem]
  | cons redirect followed ih =>
    intro exchange hmem
    rcases List.mem_cons.mp hmem with rfl | hmem
    · rfl
    · rw [h redirect List.mem_cons_self] at hmem
      exact ih (fun r hr => h r (List.mem_cons_of_mem _ hr)) exchange hmem

theorem webExchanges_eq_cons (host : Text) (resp : Option WebResponse) (followed : List Redirect) :
    ∃ exchange after, webExchanges host resp followed = exchange :: after ∧ exchange.host = host := by
  cases followed with
  | nil => exact ⟨⟨host, resp⟩, [], rfl, rfl⟩
  | cons redirect followed => exact ⟨⟨host, some redirect.resp⟩, _, rfl, rfl⟩

theorem last_mem_webExchanges (host : Text) (resp : Option WebResponse) (followed : List Redirect) :
    ∃ exchange ∈ webExchanges host resp followed, exchange.resp = resp := by
  induction followed generalizing host with
  | nil => exact ⟨_, List.mem_singleton_self _, rfl⟩
  | cons redirect followed ih =>
    obtain ⟨exchange, hmem, hresp⟩ := ih redirect.location.host
    exact ⟨exchange, List.mem_cons_of_mem _ hmem, hresp⟩

theorem of_lastLearnt {host : Text} {alt : List Text} (h : lastLearnt history host = some alt) :
    ∃ event ∈ history, event.call.url.host = host ∧
      ∃ tripper outcome resp, event.sent = some (tripper, outcome) ∧ outcome.accepted = .ok resp ∧
        resp.altSvc = some alt := by
  obtain ⟨event, hmem, hlearnt⟩ := List.exists_of_findSome?_eq_some h
  obtain ⟨hmem, hhost⟩ := List.mem_filter.mp (List.mem_reverse.mp hmem)
  obtain ⟨⟨tripper, outcome⟩, hsent, hlearnt⟩ := Option.bind_eq_some_iff.mp hlearnt
  obtain ⟨resp, haccepted, haltSvc⟩ := Option.bind_eq_some_iff.mp hlearnt
  refine ⟨event, hmem, by simpa using hhost, tripper, outcome, resp, hsent, ?_, haltSvc⟩
  cases hout : outcome.accepted with
  | error e =>
    rw [hout] at haccepted
    cases haccepted
  | ok resp' =>
    rw [hout] at haccepted
    exact congrArg _ (Option.some.inj haccepted)

theorem FetchHistory.roundTripper_eq_h3 (h : FetchHistory x history st) (url : URL) :
    roundTripper x st url = .h3Transport ↔
      x.http3 = true ∧ ∃ alt, lastLearnt history url.host = some alt ∧
        ((altPort (extractHostAndPort url.host 443).2 alt).toNat : Int) =
          (extractHostAndPort url.host 443).2 := by
  rw [DnscryptProxy.roundTripper_eq_h3]
  refine and_congr_right fun hhttp3 => ?_
  rw [h.altSupport hhttp3]
  cases lastLearnt history url.host <;> simp

theorem FetchHistory.usesAdvertised (h : FetchHistory x history st)
    (hfaithful : ∀ event ∈ history, event.call.Faithful x) {call : FetchCall}
    (hcall : call.Faithful x) : (x.fetch st call).2.UsesAdvertised history := by
  intro outcome hsent before exchange after hsplit
  obtain ⟨htripper, houtcome⟩ := fetch_sent hsent
  obtain ⟨-, alt, hlearnt, hport⟩ := (h.roundTripper_eq_h3 call.url).mp htripper.symm
  -- every request of the call goes to the host of the URL
  have hhost : exchange.host = call.url.host := by
    have hmem : exchange ∈ webExchanges call.url.host outcome.resp outcome.followed := by
      have hexchanges : (x.fetch st call).2.exchanges =
          webExchanges call.url.host outcome.resp outcome.followed := by
        rw [FetchEvent.exchanges, hsent, fetch_call]
      rw [← hexchanges, hsplit]
      exact List.mem_append_right _ List.mem_cons_self
    refine webExchanges_host (fun redirect hr => ?_) exchange hmem
    exact hcall.redirects .h3Transport redirect (houtcome ▸ hr)
  -- the headers came from there as well
  obtain ⟨event, hmem, heventHost, tripper, outcome', resp, hsent', haccepted, haltSvc⟩ :=
    of_lastLearnt hlearnt
  have houtcome' := h.outcome_eq event hmem tripper outcome' hsent'
  obtain ⟨last, hlast, hresp⟩ := last_mem_webExchanges event.call.url.host outcome'.resp
    outcome'.followed
  have hlastHost := webExchanges_host (fun redirect hr =>
    (hfaithful event hmem).redirects tripper redirect (houtcome' ▸ hr)) last hlast
  have hexplicit := (hfaithful event hmem).headers tripper resp alt (houtcome' ▸ haccepted) haltSvc
  rw [heventHost] at hexplicit hlastHost
  rw [hhost]
  refine ⟨last, List.mem_append_left _ (List.mem_flatMap.mpr ⟨event, hmem, ?_⟩), hlastHost, resp, alt,
    _, hresp.trans (accepted_resp haccepted), haltSvc, hexplicit hport, hport⟩
  rw [FetchEvent.exchanges, hsent']
  exact hlast

/-- **HTTP/3 after it was advertised.** In every run in which redirects stay on the host and headers
are explicit, HTTP/3 is used for a host only after a response from it has advertised it, on the port
that it is used on. -/
theorem http3_advertised {history : List FetchEvent} {st : FetchState}
    (h : FetchHistory x history st) (hfaithful : ∀ event ∈ history, event.call.Faithful x)
    {before after : List FetchEvent} {event : FetchEvent}
    (hsplit : history = before ++ event :: after) : event.UsesAdvertised before := by
  induction h generalizing before event after with
  | start => simp at hsplit
  | @fetch history st h call ih =>
    have hbefore : ∀ event ∈ history, event.call.Faithful x := fun event hmem =>
      hfaithful event (List.mem_append_left _ hmem)
    rcases List.eq_nil_or_concat after with rfl | ⟨after, last, rfl⟩
    · obtain ⟨rfl, hevent⟩ := List.append_inj' hsplit rfl
      cases hevent
      have hcall : ((x.fetch st call).2.call).Faithful x :=
        hfaithful _ (List.mem_append_right _ (List.mem_singleton_self _))
      rw [fetch_call] at hcall
      exact h.usesAdvertised hbefore hcall
    · have hsplit' : history ++ [(x.fetch st call).2] = (before ++ event :: after) ++ [last] := by
        simpa using hsplit
      exact ih hbefore (List.append_inj' hsplit' rfl).1

theorem http3_unadvertised (hhttp3 : x.http3 = true) (h : FetchHistory x history st)
    {call : FetchCall} {alt : List Text} (hlearnt : lastLearnt history call.url.host = some alt)
    (hexplicit : ¬ Explicit call.url.host alt) (hsent : (x.fetch st call).2.sent ≠ none)
    (hnever : ¬ Advertised (history.flatMap FetchEvent.exchanges) call.url.host) :
    ¬ (x.fetch st call).2.UsesAdvertised history := by
  intro huses
  obtain ⟨hport, -⟩ := Classical.not_imp.mp hexplicit
  obtain ⟨⟨tripper, outcome⟩, hsent⟩ := Option.ne_none_iff_exists'.mp hsent
  obtain rfl : tripper = .h3Transport :=
    (fetch_sent hsent).1.trans ((h.roundTripper_eq_h3 call.url).mpr ⟨hhttp3, alt, hlearnt, hport⟩)
  obtain ⟨exchange, after, hfirst, hhost⟩ : ∃ exchange after,
      (x.fetch st call).2.exchanges = exchange :: after ∧ exchange.host = call.url.host := by
    rw [FetchEvent.exchanges, hsent, fetch_call]
    exact webExchanges_eq_cons ..
  have hadvertised := huses outcome hsent [] exchange after hfirst
  rw [List.append_nil, hhost] at hadvertised
  exact hnever hadvertised

end Fetch

namespace Sample

def fetching : FetchTransport := { resolving with http3 := true, bodyHash := fun _ => [] }

def dohURL : URL := ⟨"https".toList, dohHost, "/dns-query".toList, []⟩

/-- A request to a server that answers with the given headers. -/
def fetchFrom (alt : List Text) : FetchCall where
  method := "GET".toList
  url := dohURL
  accept := []
  contentType := []
  body := none
  answers := systemAnswers ["192.0.2.1".toList]
  now := 0
  later := 0
  roundTrip _ _ := ⟨[], some ⟨200, "200 OK", some alt, none, [], none⟩, none⟩
  rtt := 0

/-- The calls from a state in which nothing is remembered. -/
def fetchEvents (calls : List FetchCall) : List FetchEvent × FetchState :=
  calls.foldl (fun (history, st) call =>
    (history ++ [(fetching.fetch st call).2], (fetching.fetch st call).1))
    ([], ⟨fun _ => none, fun _ => none, none⟩)

theorem fetchEvents_history (calls : List FetchCall) :
    FetchHistory fetching (fetchEvents calls).1 (fetchEvents calls).2 := by
  induction calls using List.reverseRecOn with
  | nil => exact .start ..
  | append_singleton calls call ih =>
    rw [fetchEvents, List.foldl_append]
    exact .fetch ih call

theorem fetchFrom_faithful {alt : List Text} (h : Explicit dohHost alt) :
    (fetchFrom alt).Faithful fetching where
  redirects tripper redirect hr := absurd hr List.not_mem_nil
  headers tripper resp alt' haccepted haltSvc := by
    cases haccepted
    cases haltSvc
    exact h

def withH3 : List Text := ["h2=\":443\"; ma=60".toList, "h3=\":443\"; ma=60".toList]

theorem withH3_explicit : Explicit dohHost withH3 := by
  intro _
  exact ⟨"h3=\":443\"; ma=60".toList, by decide, "h3=\":443\"".toList, by decide, "443".toList, rfl, rfl⟩

/-- The server offers HTTP/3 in the second of its headers, and the next request uses it. -/
theorem http3_after_h3 :
    ∃ first second, (fetchEvents [fetchFrom withH3, fetchFrom withH3]).1 = [first, second] ∧
      (∃ outcome, second.sent = some (.h3Transport, outcome)) ∧ second.UsesAdvertised [first] := by
  have hfaithful : ∀ event ∈ (fetchEvents [fetchFrom withH3, fetchFrom withH3]).1,
      event.call.Faithful fetching := by
    have hcall : ∀ event ∈ (fetchEvents [fetchFrom withH3, fetchFrom withH3]).1,
        event.call = fetchFrom withH3 := List.forall_mem_cons.mpr ⟨rfl, by simp; rfl⟩
    intro event hmem
    rw [hcall event hmem]
    exact fetchFrom_faithful withH3_explicit
  exact ⟨_, _, rfl, ⟨_, rfl⟩, http3_advertised (fetchEvents_history _) hfaithful rfl⟩

def onlyH2 : List Text := ["h2=\":443\"; ma=60".toList]

theorem onlyH2_advertises_nothing (port : UInt16) : ¬ Advertises onlyH2 port := by
  have hnone : ∀ xalt ∈ onlyH2, ∀ v ∈ alternatives xalt, ¬ h3Prefix <+: v := by decide
  rintro ⟨xalt, hxalt, v, hv, digits, rfl, -⟩
  rw [List.append_assoc] at hv
  exact hnone xalt hxalt _ hv (List.prefix_append ..)

/-- The server offers HTTP/2 only, and the next request is sent over HTTP/3. -/
theorem http3_after_h2 :
    ∃ first second st, FetchHistory fetching [first, second] st ∧
      first.sent.bind (fun sent => sent.2.resp.bind WebResponse.altSvc) = some onlyH2 ∧
      (∃ outcome, second.sent = some (.h3Transport, outcome)) ∧ ¬ second.UsesAdvertised [first] := by
  refine ⟨_, _, _, fetchEvents_history [fetchFrom onlyH2, fetchFrom onlyH2], rfl, ⟨_, rfl⟩, ?_⟩
  refine http3_unadvertised rfl (fetchEvents_history [fetchFrom onlyH2]) rfl ?_ nofun ?_
  · exact fun hexplicit => onlyH2_advertises_nothing _ (hexplicit rfl)
  · rintro ⟨exchange, hmem, -, resp, alt, port, hresp, halt, hadvertises, -⟩
    obtain rfl := List.mem_singleton.mp hmem
    cases hresp
    cases halt
    exact onlyH2_advertises_nothing port hadvertises

end Sample

end DnscryptProxy
