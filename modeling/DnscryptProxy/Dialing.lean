import DnscryptProxy.Relays
import DnscryptProxy.Phases.Call

/-! How DNSCrypt servers are reached when a proxy is configured: the dialer and the main
protocol that `ConfigLoad` sets, the retrieval of certificates (`DNSExchange` and its
caller `FetchCurrentDNSCryptCert`), and the exchanges of queries.

Every run on the network is a list of sockets, each with what is written to it;
`SentThrough` says by which dialer they were opened. -/

namespace DnscryptProxy

open Library

/-! ## The configuration -/

/-- The options that the dialer and the main protocol depend on. -/
structure TransportConfig where
  httpProxyURL : Text
  proxy : Text
  forceTCP : Bool
  deriving DecidableEq, Repr

/-- What `ConfigLoad` sets of a proxy and its transport. No main protocol is the empty
string that `NewProxy` leaves there. -/
structure Transport where
  httpProxyURL : Option URL
  dialer : Dialer
  mainProto : Option NetProto
  deriving DecidableEq, Repr

section ConfigLoad

variable (net : NetLibrary) (fromURL : URL → Except GoError Unit) (config : TransportConfig)

def setHTTPProxy (transport : Transport) : Except GoError Transport :=
  if config.httpProxyURL = [] then .ok transport
  else match net.parseURL config.httpProxyURL with
    | .error _ => .error (.plain ("Unable to parse the HTTP proxy URL [" ++
        String.ofList config.httpProxyURL ++ "]"))
    | .ok httpProxyURL => .ok { transport with httpProxyURL := some httpProxyURL }

def setProxy (transport : Transport) : Except GoError Transport :=
  if config.proxy = [] then .ok transport
  else match net.parseURL config.proxy with
    | .error _ => .error (.plain ("Unable to parse the proxy URL [" ++
        String.ofList config.proxy ++ "]"))
    | .ok proxyDialerURL =>
      match fromURL proxyDialerURL with
      | .error e => .error (.plain ("Unable to use the proxy: [" ++ e.text ++ "]"))
      | .ok () => .ok { transport with dialer := .proxyDialer, mainProto := some .tcp }

/-- The lines of `ConfigLoad` that set the transport, in their order. -/
def configLoad : Except GoError Transport := do
  let transport ← setHTTPProxy net config ⟨none, .direct, none⟩
  let transport ← setProxy net fromURL config transport
  let transport := { transport with mainProto := some .udp }
  return if config.forceTCP then { transport with mainProto := some .tcp } else transport

variable {net fromURL config}

theorem configLoad_ok {transport : Transport} (hproxy : config.proxy ≠ [])
    (h : configLoad net fromURL config = .ok transport) :
    transport.dialer = .proxyDialer ∧
      transport.mainProto = some (if config.forceTCP then .tcp else .udp) := by
  unfold configLoad at h
  obtain ⟨first, -, h⟩ := ok_of_bind h
  obtain ⟨second, hsecond, h⟩ := ok_of_bind h
  have hdialer : second.dialer = .proxyDialer := by
    unfold setProxy at hsecond
    rw [if_neg hproxy] at hsecond
    split at hsecond
    · cases hsecond
    · split at hsecond <;> cases hsecond
      rfl
  cases h
  split
  · exact ⟨hdialer, rfl⟩
  · exact ⟨hdialer, rfl⟩

end ConfigLoad

/-- A proxy that runs with the transport. -/
def Transport.Runs (transport : Transport) (p : Proxy) : Prop :=
  p.dialer = transport.dialer ∧ some p.mainProto = transport.mainProto

/-! ## Sockets -/

/-- Every socket was opened by the dialer, and everything was written to one of them. -/
inductive SentThrough (dialer : Dialer) : List NetOp → Prop where
  | nil : SentThrough dialer []
  | socket {proto : NetProto} {addr : Endpoint} {writes rest : List NetOp}
      (written : ∀ op ∈ writes, ∃ bytes, op = .write addr bytes)
      (others : SentThrough dialer rest) :
      SentThrough dialer (.dial proto dialer addr :: (writes ++ rest))

namespace SentThrough

variable {dialer dialer' : Dialer} {ops ops' : List NetOp}

theorem append (h : SentThrough dialer ops) (h' : SentThrough dialer ops') :
    SentThrough dialer (ops ++ ops') := by
  induction h with
  | nil => exact h'
  | socket written _ ih =>
    rw [List.cons_append, List.append_assoc]
    exact .socket written ih

theorem flatten {parts : List (List NetOp)} (h : ∀ part ∈ parts, SentThrough dialer part) :
    SentThrough dialer parts.flatten := by
  induction parts with
  | nil => exact .nil
  | cons part parts ih =>
    exact (h part List.mem_cons_self).append (ih fun q hq => h q (List.mem_cons_of_mem _ hq))

theorem single {proto : NetProto} {addr : Endpoint} {writes : List NetOp}
    (written : ∀ op ∈ writes, ∃ bytes, op = .write addr bytes) :
    SentThrough dialer (.dial proto dialer addr :: writes) := by
  have h : SentThrough dialer (.dial proto dialer addr :: (writes ++ [])) := .socket written .nil
  rwa [List.append_nil] at h

theorem begins (h : SentThrough dialer ops) :
    ops = [] ∨ ∃ proto addr rest, ops = .dial proto dialer addr :: rest := by
  cases h with
  | nil => exact .inl rfl
  | socket => exact .inr ⟨_, _, _, rfl⟩

theorem eq_or_eq_nil (h : SentThrough dialer ops) (h' : SentThrough dialer' ops) :
    dialer = dialer' ∨ ops = [] := by
  rcases h.begins with hnil | ⟨proto, addr, rest, rfl⟩
  · exact .inr hnil
  · rcases h'.begins with hnil | ⟨proto', addr', rest', heq⟩
    · exact .inr hnil
    · cases heq
      exact .inl rfl

end SentThrough

theorem exchangeWithUDPServer_sentThrough (prims : Primitives) (dialer : Dialer)
    (serverInfo : ServerInfo) (sharedKey query clientNonce : Bytes) (conn : UDPConn) :
    SentThrough dialer
      (exchangeWithUDPServer prims dialer serverInfo sharedKey query clientNonce conn).ops := by
  unfold exchangeWithUDPServer
  dsimp only
  split
  · exact .single nofun
  · split
    · exact .single nofun
    · split <;> next hr => exact .single fun op hop => ⟨_, udpTries_ops hr hop⟩

theorem sentThrough_pair (dialer : Dialer) (proto : NetProto) (addr : Endpoint) (bytes : Bytes) :
    SentThrough dialer [.dial proto dialer addr, .write addr bytes] :=
  .single fun _ hop => ⟨bytes, List.mem_singleton.mp hop⟩

theorem exchangeWithTCPServer_sentThrough (prims : Primitives) (dialer : Dialer)
    (serverInfo : ServerInfo) (sharedKey query clientNonce : Bytes) (conn : TCPConn) :
    SentThrough dialer
      (exchangeWithTCPServer prims dialer serverInfo sharedKey query clientNonce conn).ops := by
  unfold exchangeWithTCPServer
  dsimp only
  split
  · exact .single nofun
  · split
    · exact .single nofun
    · split
      · exact .single nofun
      · split
        · exact sentThrough_pair ..
        · split <;> exact sentThrough_pair ..

/-- The dialer of a certificate query: none is consulted over UDP. -/
def certDialer (proto : NetProto) (dialer : Dialer) : Dialer :=
  match proto with
  | .udp => .direct
  | .tcp => dialer

theorem dnsExchange_sentThrough {lib : DNSLibrary}
    {resolve : NetProto → Text → Except GoError Endpoint} {dialer : Dialer} {serverAddress : Text}
    {relay : Option DNSCryptRelay} {proto : NetProto} {query : Msg} {paddedLen : Nat}
    {udp : UDPConn} {tcp : TCPConn} {exchanged : DNSExchangeResponse}
    (h : dnsExchange lib resolve dialer serverAddress relay proto query paddedLen udp tcp =
      .ok exchanged) : SentThrough (certDialer proto dialer) exchanged.ops := by
  unfold dnsExchange at h
  obtain ⟨padded, -, h⟩ := ok_of_bind h
  cases proto with
  | udp =>
    cases h
    unfold dnsExchangeUDP
    split
    · exact .nil
    · split
      · exact .nil
      · dsimp only
        split
        · exact .single nofun
        · split
          · exact .single nofun
          · split
            · exact sentThrough_pair ..
            · split <;> exact sentThrough_pair ..
  | tcp =>
    cases h
    unfold dnsExchangeTCP
    split
    · exact .nil
    · split
      · exact .nil
      · dsimp only
        split
        · exact .single nofun
        · split
          · exact .single nofun
          · split
            · exact .single nofun
            · split
              · exact sentThrough_pair ..
              · split <;> exact sentThrough_pair ..

/-! ## Certificates -/

structure CertTry where
  canceled : Bool
  udp : UDPConn
  tcp : TCPConn
  rtt : Time

/-- A `DNSExchangeResponse`, with what was done for it. -/
structure CertOption where
  response : Except GoError Msg
  rtt : Time
  priority : Nat
  fragmentsBlocked : Bool
  ops : List NetOp

/-- One turn of the loop of `DNSExchange`: its goroutines, and the order in which their
responses arrive. -/
structure CertRound where
  tries : Nat → CertTry
  arrivals : List CertOption → List CertOption
  arrivals_perm : ∀ options, (arrivals options).Perm options

/-- The padded lengths of the queries of a round, and whether fragments are given up. -/
def certPaddings (tryFragmentsSupport : Bool) : List (Nat × Bool) :=
  (List.replicate 3 ((if tryFragmentsSupport then [(1500, false)] else []) ++ [(480, true)])).flatten

/-- The loop that receives the responses. It ends with the first one that needs no other
to be awaited. -/
def receiveBest : Option CertOption → Option GoError → List CertOption →
    Option CertOption × Option GoError
  | best, err, [] => (best, err)
  | best, err, option :: options =>
    match option.response with
    | .error e => receiveBest best (some e) options
    | .ok _ =>
      let better := best.all fun best => option.priority < best.priority ||
        (option.priority = best.priority && option.rtt < best.rtt)
      if better then
        if option.priority = 0 then (some option, err) else receiveBest (some option) err options
      else receiveBest best err options

/-- The message and its round trip, whether fragments are blocked, and what was done. -/
structure CertFetched where
  result : Except GoError (Msg × Time × Bool)
  ops : List NetOp

section Certificate

variable (lib : DNSLibrary) (net : NetLibrary) (dialer : Dialer) (proto : NetProto)
  (serverAddress : Text) (query : Msg) (tryFragmentsSupport : Bool)

def certOption (relay : Option DNSCryptRelay) (round : CertRound) (padding : Nat × Bool) (i : Nat) :
    Except Panic CertOption :=
  let (paddedLen, fragmentsBlocked) := padding
  let priority := if fragmentsBlocked then 1 else 0
  let attempt := round.tries i
  if attempt.canceled then
    .ok ⟨.error (.plain "Canceled"), 0, priority, fragmentsBlocked, []⟩
  else do
    let query := { query with id := query.id + UInt16.ofNat i }
    let exchanged ← dnsExchange lib net.resolve dialer serverAddress relay proto query paddedLen
      attempt.udp attempt.tcp
    return ⟨exchanged.response, attempt.rtt, priority, fragmentsBlocked, exchanged.ops⟩

def certOptions (relay : Option DNSCryptRelay) (round : CertRound) :
    Except Panic (List CertOption) :=
  (certPaddings tryFragmentsSupport).zipIdx.mapM fun option =>
    certOption lib net dialer proto serverAddress query relay round option.1 option.2

/-- One turn of the loop of `DNSExchange`: the best response, the last error, and what was
done. -/
def certRound (relay : Option DNSCryptRelay) (round : CertRound) :
    Except Panic ((Option CertOption × Option GoError) × List NetOp) := do
  let options ← certOptions lib net dialer proto serverAddress query tryFragmentsSupport relay round
  return (receiveBest none none (round.arrivals options), (options.map CertOption.ops).flatten)

/-- What `DNSExchange` returns of a turn. -/
def certResult (received : Option CertOption × Option GoError) :
    Except GoError (Msg × Time × Bool) :=
  match received with
  | (some best, _) => best.response.map fun msg => (msg, best.rtt, best.fragmentsBlocked)
  | (none, err) => .error (err.getD (.plain "Unable to reach the server"))

/-- `DNSExchange`. The loop has a second turn at most, without the relay. -/
def dnsExchangeTries (anonDirectCertFallback : Bool) (relay : Option DNSCryptRelay)
    (first second : CertRound) : Except Panic CertFetched := do
  let (received, ops) ← certRound lib net dialer proto serverAddress query tryFragmentsSupport relay
    first
  if received.1.isSome || relay.isNone || !anonDirectCertFallback then
    return ⟨certResult received, ops⟩
  else
    let (received, more) ← certRound lib net dialer proto serverAddress query tryFragmentsSupport
      none second
    return ⟨certResult received, ops ++ more⟩

end Certificate

/-- The query for the certificate of a provider. -/
def certQuery (id : UInt16) (providerName : Text) : Msg :=
  ⟨id, false, 0, false, false, true, false, false, false, false, 0, false,
    [⟨providerName, typeTXT, classINET⟩], [], [], []⟩

/-- The server whose certificate is retrieved, the relay that was found for it, and how the
network behaves. -/
structure CertRequest where
  serverPk : Bytes
  serverAddress : Text
  providerName : Text
  relay : Option DNSCryptRelay
  fragmentsBlocked : Bool
  anonDirectCertFallback : Bool
  id : UInt16
  first : CertRound
  second : CertRound

/-- The provider name, with a final dot. -/
def CertRequest.fqdn (request : CertRequest) : Text :=
  if ['.'].isSuffixOf request.providerName then request.providerName
  else request.providerName ++ ['.']

/-- The first half of `FetchCurrentDNSCryptCert`, up to the certificates in the answer. -/
def fetchCurrentDNSCryptCert (lib : DNSLibrary) (net : NetLibrary) (dialer : Dialer)
    (proto : NetProto) (request : CertRequest) : Except Panic CertFetched :=
  if request.serverPk.length ≠ publicKeySize then
    .ok ⟨.error (.plain "Invalid public key length"), []⟩
  else
    let providerName := request.fqdn
    let relay := if "2.dnscrypt-cert.".toList.isPrefixOf providerName then request.relay
      else if request.relay.isSome && !request.anonDirectCertFallback then request.relay
      else none
    dnsExchangeTries lib net dialer proto request.serverAddress
      (certQuery request.id providerName) (!request.fragmentsBlocked)
      request.anonDirectCertFallback relay request.first request.second

section Certificate

variable {lib : DNSLibrary} {net : NetLibrary} {dialer : Dialer} {proto : NetProto}
  {serverAddress : Text} {query : Msg} {tryFragmentsSupport : Bool} {relay : Option DNSCryptRelay}

theorem certOption_sentThrough {round : CertRound} {padding : Nat × Bool} {i : Nat}
    {option : CertOption}
    (h : certOption lib net dialer proto serverAddress query relay round padding i = .ok option) :
    SentThrough (certDialer proto dialer) option.ops := by
  unfold certOption at h
  dsimp only at h
  split at h
  · cases h
    exact .nil
  · obtain ⟨exchanged, hexchanged, h⟩ := ok_of_bind h
    cases h
    exact dnsExchange_sentThrough hexchanged

theorem certRound_sentThrough {round : CertRound}
    {received : (Option CertOption × Option GoError) × List NetOp}
    (h : certRound lib net dialer proto serverAddress query tryFragmentsSupport relay round =
      .ok received) : SentThrough (certDialer proto dialer) received.2 := by
  unfold certRound at h
  obtain ⟨options, hoptions, h⟩ := ok_of_bind h
  cases h
  refine .flatten fun part hpart => ?_
  obtain ⟨option, hoption, rfl⟩ := List.mem_map.mp hpart
  obtain ⟨padding, -, hpadding⟩ := mapM_mem hoptions hoption
  exact certOption_sentThrough hpadding

theorem dnsExchangeTries_sentThrough {anonDirectCertFallback : Bool} {first second : CertRound}
    {fetched : CertFetched}
    (h : dnsExchangeTries lib net dialer proto serverAddress query tryFragmentsSupport
      anonDirectCertFallback relay first second = .ok fetched) :
    SentThrough (certDialer proto dialer) fetched.ops := by
  unfold dnsExchangeTries at h
  obtain ⟨⟨received, ops⟩, hfirst, h⟩ := ok_of_bind h
  have hops : SentThrough (certDialer proto dialer) ops := certRound_sentThrough hfirst
  dsimp only at h
  split at h
  · cases h
    exact hops
  · obtain ⟨⟨received', more⟩, hsecond, h⟩ := ok_of_bind h
    cases h
    exact hops.append (certRound_sentThrough hsecond)

theorem fetchCurrentDNSCryptCert_sentThrough {request : CertRequest} {fetched : CertFetched}
    (h : fetchCurrentDNSCryptCert lib net dialer proto request = .ok fetched) :
    SentThrough (certDialer proto dialer) fetched.ops := by
  unfold fetchCurrentDNSCryptCert at h
  split at h
  · cases h
    exact .nil
  · exact dnsExchangeTries_sentThrough h

end Certificate

/-! ### Retrievals that send nothing -/

/-- No goroutine of a round opens a UDP socket: it was canceled, or cannot pack its query. -/
def CertRound.Quiet (lib : DNSLibrary) (query : Msg) (tryFragmentsSupport : Bool)
    (round : CertRound) : Prop :=
  ∀ option ∈ (certPaddings tryFragmentsSupport).zipIdx,
    (round.tries option.2).canceled = true ∨ ∃ msg e,
      certificateQuery .udp { query with id := query.id + UInt16.ofNat option.2 } option.1.1 = .ok msg ∧
        lib.pack msg = .error e

/-- The key of the server is of the wrong length, its address cannot be resolved, or no round opens
a socket. There may be a second round only where a relay may be left out. -/
def CertRequest.Quiet (lib : DNSLibrary) (net : NetLibrary) (request : CertRequest) : Prop :=
  request.serverPk.length ≠ publicKeySize ∨
    (∃ e, net.resolve .udp request.serverAddress = .error e) ∨
    request.first.Quiet lib (certQuery request.id request.fqdn) (!request.fragmentsBlocked) ∧
      ("2.dnscrypt-cert.".toList.isPrefixOf request.fqdn = true → request.relay.isSome = true →
        request.anonDirectCertFallback = true →
        request.second.Quiet lib (certQuery request.id request.fqdn) (!request.fragmentsBlocked))

section Quiet

variable {lib : DNSLibrary} {net : NetLibrary} {dialer : Dialer} {serverAddress : Text} {query : Msg}
  {tryFragmentsSupport : Bool} {relay : Option DNSCryptRelay}

theorem dnsExchangeUDP_quiet_iff {resolve : NetProto → Text → Except GoError Endpoint}
    {conn : UDPConn} :
    ((dnsExchangeUDP lib resolve serverAddress relay query conn).ops = [] ↔
      (∃ e, resolve .udp serverAddress = .error e) ∨ ∃ e, lib.pack query = .error e) ∧
    ((dnsExchangeUDP lib resolve serverAddress relay query conn).ops = [] →
      ∃ e, (dnsExchangeUDP lib resolve serverAddress relay query conn).response = .error e) := by
  unfold dnsExchangeUDP
  cases lib.pack query with
  | error e => simp
  | ok binQuery =>
    cases resolve .udp serverAddress with
    | error e => simp
    | ok udpAddr =>
      cases conn.dial with
      | some e => simp
      | none =>
        cases conn.setDeadline with
        | some e => simp
        | none =>
          cases conn.first.write with
          | some e => simp
          | none => cases conn.first.read <;> simp

theorem certOption_quiet_iff {round : CertRound} {padding : Nat × Bool} {i : Nat}
    {option : CertOption}
    (h : certOption lib net dialer .udp serverAddress query relay round padding i = .ok option) :
    (option.ops = [] ↔ (∃ e, net.resolve .udp serverAddress = .error e) ∨
      (round.tries i).canceled = true ∨ ∃ msg e,
        certificateQuery .udp { query with id := query.id + UInt16.ofNat i } padding.1 = .ok msg ∧
          lib.pack msg = .error e) ∧
    (option.ops = [] → ∃ e, option.response = .error e) := by
  unfold certOption at h
  dsimp only at h
  split at h
  · next hcanceled =>
    cases h
    simp [hcanceled]
  · next hcanceled =>
    obtain ⟨exchanged, hexchanged, h⟩ := ok_of_bind h
    cases h
    unfold dnsExchange at hexchanged
    obtain ⟨msg, hmsg, hexchanged⟩ := ok_of_bind hexchanged
    cases hexchanged
    simpa [hcanceled, hmsg] using dnsExchangeUDP_quiet_iff

theorem receiveBest_of_failed {options : List CertOption} (err : Option GoError)
    (h : ∀ option ∈ options, ∃ e, option.response = .error e) :
    (receiveBest none err options).1 = none := by
  induction options generalizing err with
  | nil => rfl
  | cons option options ih =>
    obtain ⟨⟨e, hfirst⟩, hrest⟩ := List.forall_mem_cons.mp h
    rw [receiveBest, hfirst]
    exact ih (some e) hrest

theorem certRound_quiet_iff {round : CertRound} {received : Option CertOption × Option GoError}
    {ops : List NetOp}
    (h : certRound lib net dialer .udp serverAddress query tryFragmentsSupport relay round =
      .ok (received, ops)) :
    (ops = [] ↔ (∃ e, net.resolve .udp serverAddress = .error e) ∨
      round.Quiet lib query tryFragmentsSupport) ∧ (ops = [] → received.1 = none) := by
  unfold certRound at h
  obtain ⟨options, hoptions, h⟩ := ok_of_bind h
  cases h
  have hnil : (options.map CertOption.ops).flatten = [] ↔ ∀ option ∈ options, option.ops = [] := by
    simp
  rw [hnil]
  constructor
  · constructor
    · intro hquiet
      refine or_iff_not_imp_left.mpr fun hresolves padding hpadding => ?_
      rcases mapM_cases (fun option : (Nat × Bool) × Nat => certOption lib net dialer .udp
        serverAddress query relay round option.1 option.2) _ with ⟨-, hall⟩ | ⟨_, _, _, _, hfails⟩
      · obtain ⟨option, hoption⟩ := hall padding hpadding
        have hmem := mem_of_mapM hoptions hpadding hoption
        exact ((certOption_quiet_iff hoption).1.mp (hquiet option hmem)).resolve_left hresolves
      · cases hfails.symm.trans hoptions
    · intro hquiet option hmem
      obtain ⟨padding, hpadding, hoption⟩ := mapM_mem hoptions hmem
      exact (certOption_quiet_iff hoption).1.mpr (hquiet.imp_right fun h => h padding hpadding)
  · intro hquiet
    refine receiveBest_of_failed none fun option hmem => ?_
    have hoption := (round.arrivals_perm options).mem_iff.mp hmem
    obtain ⟨padding, -, hpadding⟩ := mapM_mem hoptions hoption
    exact (certOption_quiet_iff hpadding).2 (hquiet option hoption)

theorem dnsExchangeTries_quiet_iff {anonDirectCertFallback : Bool} {first second : CertRound}
    {fetched : CertFetched}
    (h : dnsExchangeTries lib net dialer .udp serverAddress query tryFragmentsSupport
      anonDirectCertFallback relay first second = .ok fetched) :
    fetched.ops = [] ↔ (∃ e, net.resolve .udp serverAddress = .error e) ∨
      first.Quiet lib query tryFragmentsSupport ∧
        (relay.isSome = true → anonDirectCertFallback = true →
          second.Quiet lib query tryFragmentsSupport) := by
  unfold dnsExchangeTries at h
  obtain ⟨⟨received, ops⟩, hfirst, h⟩ := ok_of_bind h
  obtain ⟨hquiet, hnone⟩ := certRound_quiet_iff hfirst
  dsimp only at h
  split at h
  · next hends =>
    cases h
    -- a round that is not quiet may end the loop with a response
    have hlast (hops : ops = []) (hrelay : relay.isSome = true) : anonDirectCertFallback ≠ true := by
      rw [hnone hops, ← Option.not_isSome, hrelay] at hends
      simpa using hends
    rw [hquiet, or_and_left]
    refine ⟨fun hfirst => ⟨hfirst, .inr fun hrelay hfallback => ?_⟩, And.left⟩
    exact absurd hfallback (hlast (hquiet.mpr hfirst) hrelay)
  · next hends =>
    obtain ⟨⟨received', more⟩, hsecond, h⟩ := ok_of_bind h
    cases h
    simp only [Bool.or_eq_true, not_or, Bool.not_eq_true', Bool.not_eq_false,
      Bool.not_eq_true] at hends
    obtain ⟨⟨-, hrelay⟩, hfallback⟩ := hends
    rw [Option.isNone_eq_false_iff] at hrelay
    rw [List.append_eq_nil_iff, hquiet, (certRound_quiet_iff hsecond).1, ← or_and_left]
    simp [hrelay, hfallback]

theorem fetchCurrentDNSCryptCert_quiet_iff {request : CertRequest} {fetched : CertFetched}
    (h : fetchCurrentDNSCryptCert lib net dialer .udp request = .ok fetched) :
    fetched.ops = [] ↔ request.Quiet lib net := by
  unfold fetchCurrentDNSCryptCert at h
  unfold CertRequest.Quiet
  split at h
  · next hkey =>
    cases h
    simp [hkey]
  · next hkey =>
    rw [dnsExchangeTries_quiet_iff h, or_iff_right hkey]
    refine or_congr_right (and_congr_right fun _ => ?_)
    by_cases hversion : "2.dnscrypt-cert.".toList.isPrefixOf request.fqdn = true
    · rw [if_pos hversion]
      exact ⟨fun h _ => h, fun h => h hversion⟩
    · rw [if_neg hversion]
      refine iff_of_true (fun hrelay hfallback => ?_) fun hprefix => absurd hprefix hversion
      simp [hfallback] at hrelay

end Quiet

/-! ## Queries -/

/-- What a call does on the network for a query that was encrypted for a DNSCrypt server. -/
def queryOps (p : Proxy) (env : CallEnv) (minQuestionSize : Nat) (serverInfo : ServerInfo)
    (query : Bytes) (proto : NetProto) (encrypted : Encrypted) : List NetOp :=
  match proto with
  | .tcp => (overTCP p env serverInfo encrypted).ops
  | .udp =>
    let exchanged := overUDP p env serverInfo encrypted
    exchanged.ops ++
      if retryOverTCP exchanged then
        match encrypt p.pkgs.prims p.keys minQuestionSize serverInfo query .tcp
            env.entropyForRetry with
        | .ok encrypted => (overTCP p env serverInfo encrypted).ops
        | .error _ => []
      else []

theorem queryOps_sentThrough (p : Proxy) (env : CallEnv) (minQuestionSize : Nat)
    (serverInfo : ServerInfo) (query : Bytes) (proto : NetProto) (encrypted : Encrypted) :
    SentThrough p.dialer (queryOps p env minQuestionSize serverInfo query proto encrypted) := by
  unfold queryOps
  cases proto with
  | tcp => exact exchangeWithTCPServer_sentThrough ..
  | udp =>
    refine (exchangeWithUDPServer_sentThrough ..).append ?_
    split
    · split
      · exact exchangeWithTCPServer_sentThrough ..
      · exact .nil
    · exact .nil

/-- **With a proxy configured**, every query goes through it, over UDP and over TCP. A
certificate is retrieved through it exactly when TCP is forced, or when nothing can be sent for
it at all (`CertRequest.Quiet`). -/
theorem proxied_iff_forceTCP {net : NetLibrary} {fromURL : URL → Except GoError Unit}
    {config : TransportConfig} {transport : Transport} {p : Proxy} (hproxy : config.proxy ≠ [])
    (hload : configLoad net fromURL config = .ok transport) (hruns : transport.Runs p) :
    (∀ request fetched,
      fetchCurrentDNSCryptCert p.pkgs.dns net p.dialer p.mainProto request = .ok fetched →
      (SentThrough .proxyDialer fetched.ops ↔
        config.forceTCP = true ∨ request.Quiet p.pkgs.dns net)) ∧
    (∀ env minQuestionSize serverInfo query proto encrypted, SentThrough .proxyDialer
      (queryOps p env minQuestionSize serverInfo query proto encrypted)) := by
  obtain ⟨hdialer, hmain⟩ := configLoad_ok hproxy hload
  have hp : p.dialer = .proxyDialer := hruns.1.trans hdialer
  have hproto : p.mainProto = if config.forceTCP then .tcp else .udp :=
    Option.some.inj (hruns.2.trans hmain)
  refine ⟨fun request fetched hfetched => ?_, fun env m serverInfo query proto encrypted => ?_⟩
  · have hsent := fetchCurrentDNSCryptCert_sentThrough hfetched
    rw [hp, hproto] at hsent
    by_cases hforce : config.forceTCP = true
    · rw [if_pos hforce] at hsent
      exact iff_of_true hsent (.inl hforce)
    · rw [hproto, if_neg hforce] at hfetched
      rw [if_neg hforce] at hsent
      rw [or_iff_right hforce, ← fetchCurrentDNSCryptCert_quiet_iff hfetched]
      refine ⟨fun hproxied => ?_, fun hnil => hnil ▸ .nil⟩
      exact (hsent.eq_or_eq_nil hproxied).resolve_left nofun
  · exact hp ▸ queryOps_sentThrough p env m serverInfo query proto encrypted

/-! A SOCKS proxy, and a server that is known to block fragments and does not answer. -/

namespace Sample

def socksConfig (forceTCP : Bool) : TransportConfig :=
  ⟨[], "socks5://127.0.0.1:9050".toList, forceTCP⟩

def socksNet : NetLibrary :=
  { net with parseURL := fun _ => .ok ⟨"socks5".toList, "127.0.0.1:9050".toList, [], []⟩ }

def certName : Text := "2.dnscrypt-cert.example.".toList

def certPacket (id : UInt8) : Bytes :=
  [0x12, id, 1, 0, 0, 1, 0, 0, 0, 0, 0, 0] ++ Sender.certificatePacket.drop 12

def paddedCertPacket (id : UInt8) : Bytes :=
  [0x12, id, 1, 0, 0, 1, 0, 0, 0, 0, 0, 1] ++ Sender.certificatePacket.drop 12 ++
    [0, 0, 0, 0, 0, 0, 0, 0, 0, 0x01, 0xcc, 0, 12] ++ putUint16 456 ++ List.replicate 456 0

/-- The certificate query of an identifier as it is sent over TCP, and over UDP. -/
def certEntries (id : UInt8) : List (Bytes × Msg) :=
  let query := certQuery (0x1200 + id.toUInt16) certName
  [(certPacket id, query), (paddedCertPacket id, padCertificateQuery query certName 480)]

def certDNS : DNSLibrary :=
  .ofTable (certEntries 0x34 ++ certEntries 0x35 ++ certEntries 0x36) (by decide +kernel)

def socksProxy (mainProto : NetProto) : Proxy :=
  { proxy .bare certDNS with dialer := .proxyDialer, mainProto := mainProto }

def socksTransport (mainProto : NetProto) : Transport := ⟨none, .proxyDialer, some mainProto⟩

def readTimeout : GoError := .net "i/o timeout" true

/-- Every goroutine sends its query and reads nothing. -/
def silentRound : CertRound where
  tries _ := ⟨false, ⟨none, none, ⟨none, .error readTimeout⟩, ⟨none, .error readTimeout⟩⟩,
    Sender.silentConn, 5000⟩
  arrivals := id
  arrivals_perm _ := .refl _

def certRequest : CertRequest :=
  ⟨List.replicate 32 7, "192.0.2.1:443".toList, certName, none, true, false, 0x1234,
    silentRound, silentRound⟩

/-- With TCP forced, the proxy is all that is dialed: three times, with a query each. -/
theorem forced_tcp_proxied :
    configLoad socksNet (fun _ => .ok ()) (socksConfig true) = .ok (socksTransport .tcp) ∧
    ∃ fetched, fetchCurrentDNSCryptCert certDNS socksNet .proxyDialer .tcp certRequest =
      .ok fetched ∧ fetched.ops.length = 6 ∧ SentThrough .proxyDialer fetched.ops := by
  have hsent : (fetchCurrentDNSCryptCert certDNS socksNet .proxyDialer .tcp certRequest).map
      (·.ops.length) = .ok 6 := by decide +kernel
  obtain ⟨fetched, hfetched, hops⟩ := ok_of_map hsent
  have h := @proxied_iff_forceTCP socksNet (fun _ => .ok ()) (socksConfig true) (socksTransport .tcp)
    (socksProxy .tcp) (by decide) rfl ⟨rfl, rfl⟩
  exact ⟨rfl, fetched, hfetched, hops, (h.1 certRequest fetched hfetched).mpr (.inl rfl)⟩

/-- Without it, the queries for the certificate leave by sockets of their own. -/
theorem certificate_over_direct_sockets :
    configLoad socksNet (fun _ => .ok ()) (socksConfig false) = .ok (socksTransport .udp) ∧
    (socksTransport .udp).Runs (socksProxy .udp) ∧
    (fetchCurrentDNSCryptCert certDNS socksNet .proxyDialer .udp certRequest).map
        CertFetched.ops =
      .ok ([0x34, 0x35, 0x36].flatMap fun id =>
        [.dial .udp .direct Sender.sampleServer,
          .write Sender.sampleServer (paddedCertPacket id)]) :=
  ⟨rfl, ⟨rfl, rfl⟩, by decide +kernel⟩

end Sample

end DnscryptProxy
