import DnscryptProxy.Crypto

/-! The exchanges with DNSCrypt servers, for queries (`exchangeWithUDPServer` and
`exchangeWithTCPServer` of `proxy.go`) and for certificates (`_dnsExchange` of
`dnsutils.go`), directly or through a relay. Every exchange returns the list of
what it did on the network, besides its result. -/

namespace DnscryptProxy

/-! ## Sockets -/

/-- A socket is opened directly or by the dialer of the configured proxy. -/
inductive Dialer where
  | direct
  | proxyDialer
  deriving DecidableEq, Repr

inductive NetOp where
  | dial (proto : NetProto) (dialer : Dialer) (addr : Endpoint)
  /-- Bytes written to a socket that was dialed to `addr`. -/
  | write (addr : Endpoint) (bytes : Bytes)
  deriving DecidableEq

/-- The address an operation is about. -/
def NetOp.addr : NetOp → Endpoint
  | .dial _ _ addr => addr
  | .write addr _ => addr

/-- One round of a datagram exchange. -/
structure Attempt where
  write : Option GoError
  read : Except GoError Bytes

/-- How the network behaves for one UDP socket; the query is sent at most twice. -/
structure UDPConn where
  dial : Option GoError
  setDeadline : Option GoError
  first : Attempt
  second : Attempt

/-- How the network behaves for one TCP connection. -/
structure TCPConn where
  dial : Option GoError
  setDeadline : Option GoError
  write : Option GoError
  reads : List (Except GoError Bytes)

/-- What an exchange returns, error and data together, and what it did. -/
structure Exchanged where
  data : Bytes
  err : Option GoError
  ops : List NetOp
  deriving DecidableEq

/-! ## Relays -/

def anonymizedDNSHeader : Bytes := [0xff, 0xff, 0xff, 0xff, 0xff, 0xff, 0xff, 0xff, 0x00, 0x00]

def prepareForRelay (ip : IP) (port : UInt16) (encryptedQuery : Bytes) : Bytes :=
  anonymizedDNSHeader ++ (IP.to16 ip).getD [] ++ putUint16 port.toNat ++ encryptedQuery

/-- The packet for a server, wrapped when it goes through a relay. -/
def wrapFor (server : Endpoint) (relay : Option Endpoint) (packet : Bytes) : Bytes :=
  match relay with
  | some _ => prepareForRelay server.ip server.port packet
  | none => packet

/-! ## Queries -/

section Query

variable (prims : Primitives) (dialer : Dialer) (serverInfo : ServerInfo)
  (sharedKey encryptedQuery clientNonce : Bytes)

def udpTries (addr : Endpoint) (query : Bytes) : List Attempt → Except GoError Bytes × List NetOp
  | [] => (.ok (List.replicate maxDNSPacketSize 0), [])
  | attempt :: attempts =>
    match attempt.write with
    | some e => (.error e, [.write addr query])
    | none =>
      match attempt.read with
      | .ok reply => (.ok (reply.take maxDNSPacketSize), [.write addr query])
      | .error _ =>
        let (result, ops) := udpTries addr query attempts
        (result, .write addr query :: ops)

def exchangeWithUDPServer (conn : UDPConn) : Exchanged :=
  let relay := serverInfo.dnscryptRelay.map (·.relayUDPAddr)
  let upstreamAddr := relay.getD serverInfo.udpAddr
  let dialed := NetOp.dial .udp dialer upstreamAddr
  match conn.dial with
  | some e => ⟨[], some e, [dialed]⟩
  | none =>
    match conn.setDeadline with
    | some e => ⟨[], some e, [dialed]⟩
    | none =>
      let query := wrapFor serverInfo.udpAddr relay encryptedQuery
      match udpTries upstreamAddr query [conn.first, conn.second] with
      | (.error e, ops) => ⟨[], some e, dialed :: ops⟩
      | (.ok encryptedResponse, ops) =>
        let (data, err) := decrypt prims serverInfo sharedKey encryptedResponse clientNonce
        ⟨data, err, dialed :: ops⟩

def exchangeWithTCPServer (conn : TCPConn) : Exchanged :=
  let relay := serverInfo.dnscryptRelay.map (·.relayTCPAddr)
  let upstreamAddr := relay.getD serverInfo.tcpAddr
  let dialed := NetOp.dial .tcp dialer upstreamAddr
  match conn.dial with
  | some e => ⟨[], some e, [dialed]⟩
  | none =>
    match conn.setDeadline with
    | some e => ⟨[], some e, [dialed]⟩
    | none =>
      match prefixWithSize (wrapFor serverInfo.tcpAddr relay encryptedQuery) with
      | .error e => ⟨[], some e, [dialed]⟩
      | .ok query =>
        let ops := [dialed, .write upstreamAddr query]
        match conn.write with
        | some e => ⟨[], some e, ops⟩
        | none =>
          match readPrefixed conn.reads with
          | .error e => ⟨[], some e, ops⟩
          | .ok encryptedResponse =>
            let (data, err) := decrypt prims serverInfo sharedKey encryptedResponse clientNonce
            ⟨data, err, ops⟩

end Query

/-! ## Certificates -/

structure DNSExchangeResponse where
  response : Except GoError Msg
  ops : List NetOp

/-- The padding record of a certificate query. Its header is left without a type. -/
def certificatePadding (padding : Nat) : RR :=
  ⟨['.'], 0, 0, .other 0 (by decide)
    ([0, 12] ++ putUint16 padding ++ List.replicate padding 0)⟩

/-- Over UDP the query for a certificate is padded to `paddedLen`. -/
def padCertificateQuery (query : Msg) (name : Text) (paddedLen : Nat) : Msg :=
  if name.length < paddedLen then
    { query with extra := [certificatePadding (paddedLen - name.length)] }
  else query

/-- The query that `_dnsExchange` packs. -/
def certificateQuery (proto : NetProto) (query : Msg) (paddedLen : Nat) : Except Panic Msg :=
  match proto with
  | .udp =>
    match query.question with
    | [] => .error .indexOutOfRange
    | question :: _ => .ok (padCertificateQuery query question.name paddedLen)
  | .tcp => .ok query

def tcpDialedAddr (dialer : Dialer) (relay : Option Endpoint) (server : Endpoint) : Endpoint :=
  match dialer with
  | .direct => relay.getD server
  | .proxyDialer => server

section Certificate

variable (lib : DNSLibrary) (resolve : NetProto → Text → Except GoError Endpoint)
  (dialer : Dialer) (serverAddress : Text) (relay : Option DNSCryptRelay)

/-- The UDP half of `_dnsExchange`. The socket is always opened directly. -/
def dnsExchangeUDP (query : Msg) (conn : UDPConn) : DNSExchangeResponse :=
  match lib.pack query with
  | .error e => ⟨.error e, []⟩
  | .ok binQuery =>
    match resolve .udp serverAddress with
    | .error e => ⟨.error e, []⟩
    | .ok udpAddr =>
      let relay := relay.map (·.relayUDPAddr)
      let binQuery := wrapFor udpAddr relay binQuery
      let upstreamAddr := relay.getD udpAddr
      let dialed := NetOp.dial .udp .direct upstreamAddr
      match conn.dial with
      | some e => ⟨.error e, [dialed]⟩
      | none =>
        match conn.setDeadline with
        | some e => ⟨.error e, [dialed]⟩
        | none =>
          let ops := [dialed, .write upstreamAddr binQuery]
          match conn.first.write with
          | some e => ⟨.error e, ops⟩
          | none =>
            match conn.first.read with
            | .error e => ⟨.error e, ops⟩
            | .ok packet => ⟨lib.unpack (packet.take maxDNSPacketSize), ops⟩

/-- The TCP half of `_dnsExchange`. -/
def dnsExchangeTCP (query : Msg) (conn : TCPConn) : DNSExchangeResponse :=
  match lib.pack query with
  | .error e => ⟨.error e, []⟩
  | .ok binQuery =>
    match resolve .tcp serverAddress with
    | .error e => ⟨.error e, []⟩
    | .ok tcpAddr =>
      let relay := relay.map (·.relayTCPAddr)
      let binQuery := wrapFor tcpAddr relay binQuery
      let dialedAddr := tcpDialedAddr dialer relay tcpAddr
      let dialed := NetOp.dial .tcp dialer dialedAddr
      match conn.dial with
      | some e => ⟨.error e, [dialed]⟩
      | none =>
        match conn.setDeadline with
        | some e => ⟨.error e, [dialed]⟩
        | none =>
          match prefixWithSize binQuery with
          | .error e => ⟨.error e, [dialed]⟩
          | .ok binQuery =>
            let ops := [dialed, .write dialedAddr binQuery]
            match conn.write with
            | some e => ⟨.error e, ops⟩
            | none =>
              match readPrefixed conn.reads with
              | .error e => ⟨.error e, ops⟩
              | .ok packet => ⟨lib.unpack packet, ops⟩

/-- `_dnsExchange`, on the socket of its protocol. -/
def dnsExchange (proto : NetProto) (query : Msg) (paddedLen : Nat) (udp : UDPConn)
    (tcp : TCPConn) : Except Panic DNSExchangeResponse := do
  let query ← certificateQuery proto query paddedLen
  match proto with
  | .udp => return dnsExchangeUDP lib resolve serverAddress relay query udp
  | .tcp => return dnsExchangeTCP lib resolve dialer serverAddress relay query tcp

end Certificate

/-! ## Decoding what a relay gets -/

def unprefixed (proto : NetProto) (bytes : Bytes) : Option Bytes :=
  match proto, bytes with
  | .udp, bytes => some bytes
  | .tcp, hi :: lo :: rest => if uint16 hi lo = rest.length then some rest else none
  | .tcp, _ => none

/-- A relayed packet: the header, the server's IP and port, and the packet for it. -/
def parseRelayed (bytes : Bytes) : Option (Bytes × Nat × Bytes) :=
  match bytes.drop 26 with
  | hi :: lo :: packet =>
    if bytes.take 10 = anonymizedDNSHeader then
      some ((bytes.drop 10).take 16, uint16 hi lo, packet)
    else none
  | _ => none

theorem parseRelayed_prepareForRelay (server : Endpoint) (packet : Bytes) :
    parseRelayed (prepareForRelay server.ip server.port packet) =
      some (server.ip16, server.port.toNat, packet) := by
  have hbytes : prepareForRelay server.ip server.port packet =
      anonymizedDNSHeader ++ (server.ip16 ++ (putUint16 server.port.toNat ++ packet)) := by
    simp [prepareForRelay, Endpoint.ip16]
  have hlen := server.ip16_length
  have htake : (prepareForRelay server.ip server.port packet).take 10 = anonymizedDNSHeader := by
    rw [hbytes]
    exact List.take_left' rfl
  have hdrop : (prepareForRelay server.ip server.port packet).drop 10 =
      server.ip16 ++ (putUint16 server.port.toNat ++ packet) := by
    rw [hbytes]
    exact List.drop_left' rfl
  have hrest : (prepareForRelay server.ip server.port packet).drop 26 =
      putUint16 server.port.toNat ++ packet := by
    rw [← List.drop_drop (i := 16) (j := 10), hdrop]
    exact List.drop_left' hlen
  unfold parseRelayed
  rw [hrest, htake, hdrop, List.take_left' hlen]
  simp only [putUint16, List.cons_append, List.nil_append,
    uint16_putUint16 _ server.port.toNat_lt, ↓reduceIte]

theorem unprefixed_prefixWithSize {packet bytes : Bytes} (h : prefixWithSize packet = .ok bytes) :
    unprefixed .tcp bytes = some packet := by
  unfold prefixWithSize at h
  split at h
  · cases h
  · cases h
    simp only [putUint16, List.cons_append, List.nil_append, unprefixed]
    rw [uint16_putUint16 _ (by omega)]
    simp

/-- The bytes decode, in one way only, as a packet relayed to the server. -/
def Carries (proto : NetProto) (bytes : Bytes) (server : Endpoint) (packet : Bytes) : Prop :=
  ∃ framed, unprefixed proto bytes = some framed ∧ ∀ ip port inner,
    parseRelayed framed = some (ip, port, inner) ↔
      ip = server.ip16 ∧ port = server.port.toNat ∧ inner = packet

theorem carries_wrapFor {proto : NetProto} {bytes : Bytes} {server relay : Endpoint}
    {packet : Bytes} (h : unprefixed proto bytes = some (wrapFor server (some relay) packet)) :
    Carries proto bytes server packet := by
  refine ⟨_, h, fun ip port inner => ?_⟩
  rw [wrapFor, parseRelayed_prepareForRelay, Option.some.injEq, Prod.mk.injEq, Prod.mk.injEq]
  exact ⟨fun h => ⟨h.1.symm, h.2.1.symm, h.2.2.symm⟩, fun h => ⟨h.1.symm, h.2.1.symm, h.2.2.symm⟩⟩

/-! ## What goes to a relay -/

/-- The functions that send a packet to a server, or to the relay in front of it, with
their arguments: `exchangeWithUDPServer`, `exchangeWithTCPServer` and `_dnsExchange`. -/
inductive Sender where
  | udpQuery (serverInfo : ServerInfo) (sharedKey encryptedQuery clientNonce : Bytes)
      (conn : UDPConn)
  | tcpQuery (serverInfo : ServerInfo) (sharedKey encryptedQuery clientNonce : Bytes)
      (conn : TCPConn)
  | certificate (proto : NetProto) (serverAddress : Text) (relay : Option DNSCryptRelay)
      (query : Msg) (paddedLen : Nat) (udp : UDPConn) (tcp : TCPConn)

namespace Sender

variable (lib : DNSLibrary) (prims : Primitives) (dialer : Dialer)
  (resolve : NetProto → Text → Except GoError Endpoint)

def ops : Sender → List NetOp
  | .udpQuery serverInfo sharedKey encryptedQuery clientNonce conn =>
    (exchangeWithUDPServer prims dialer serverInfo sharedKey encryptedQuery clientNonce conn).ops
  | .tcpQuery serverInfo sharedKey encryptedQuery clientNonce conn =>
    (exchangeWithTCPServer prims dialer serverInfo sharedKey encryptedQuery clientNonce conn).ops
  | .certificate proto serverAddress relay query paddedLen udp tcp =>
    match dnsExchange lib resolve dialer serverAddress relay proto query paddedLen udp tcp with
    | .ok exchanged => exchanged.ops
    | .error _ => []

def proto : Sender → NetProto
  | .udpQuery .. => .udp
  | .tcpQuery .. => .tcp
  | .certificate proto .. => proto

/-- The address of the relay in use. -/
def relayAddr : Sender → Option Endpoint
  | .udpQuery serverInfo .. => serverInfo.dnscryptRelay.map (·.relayUDPAddr)
  | .tcpQuery serverInfo .. => serverInfo.dnscryptRelay.map (·.relayTCPAddr)
  | .certificate .udp _ relay .. => relay.map (·.relayUDPAddr)
  | .certificate .tcp _ relay .. => relay.map (·.relayTCPAddr)

/-- The address of the server and the packet that is meant for it. -/
def subject : Sender → Option (Endpoint × Bytes)
  | .udpQuery serverInfo _ encryptedQuery .. => some (serverInfo.udpAddr, encryptedQuery)
  | .tcpQuery serverInfo _ encryptedQuery .. => some (serverInfo.tcpAddr, encryptedQuery)
  | .certificate proto serverAddress _ query paddedLen .. =>
    match certificateQuery proto query paddedLen with
    | .error _ => none
    | .ok query =>
      match lib.pack query, resolve proto serverAddress with
      | .ok packet, .ok server => some (server, packet)
      | _, _ => none

/-- Nothing is contacted but the relay, and what it gets decodes to the packet and
the address of the server. -/
def Anonymized (sender : Sender) (relay : Endpoint) : Prop :=
  ∀ op ∈ sender.ops lib prims dialer resolve, op.addr = relay ∧
    ∀ bytes, op = .write relay bytes → ∃ server packet,
      sender.subject lib resolve = some (server, packet) ∧ Carries sender.proto bytes server packet

/-- A certificate is retrieved over TCP through the proxy dialer, from a server
that is not its own relay, and the query for it gets as far as the network. -/
def DialsServer (sender : Sender) (relay : Endpoint) : Prop :=
  match sender with
  | .certificate .tcp .. => dialer = .proxyDialer ∧
      ∃ server packet, sender.subject lib resolve = some (server, packet) ∧ server ≠ relay
  | _ => False

/-- The address the socket is dialed to. -/
def dialedAddr (sender : Sender) (server : Endpoint) : Endpoint :=
  match sender with
  | .certificate .tcp .. => tcpDialedAddr dialer sender.relayAddr server
  | sender => sender.relayAddr.getD server

end Sender

section Ops

variable {op : NetOp}

theorem udpTries_ops {addr : Endpoint} {query : Bytes} {attempts : List Attempt}
    {r : Except GoError Bytes × List NetOp} (hr : udpTries addr query attempts = r)
    (h : op ∈ r.2) : op = .write addr query := by
  subst hr
  induction attempts with
  | nil => cases h
  | cons attempt attempts ih =>
    unfold udpTries at h
    split at h
    · simpa using h
    · split at h
      · simpa using h
      · exact (List.mem_cons.mp h).elim id ih

def SendsTo (proto : NetProto) (addr : Endpoint) (message : Bytes) (op : NetOp) : Prop :=
  (∃ dialer, op = .dial proto dialer addr) ∨
    ∃ bytes, op = .write addr bytes ∧ unprefixed proto bytes = some message

theorem exchangeWithUDPServer_ops {prims : Primitives} {dialer : Dialer} {serverInfo : ServerInfo}
    {sharedKey query clientNonce : Bytes} {conn : UDPConn}
    (h : op ∈ (exchangeWithUDPServer prims dialer serverInfo sharedKey query clientNonce conn).ops) :
    SendsTo .udp ((serverInfo.dnscryptRelay.map (·.relayUDPAddr)).getD serverInfo.udpAddr)
      (wrapFor serverInfo.udpAddr (serverInfo.dnscryptRelay.map (·.relayUDPAddr)) query) op := by
  unfold exchangeWithUDPServer at h
  dsimp only at h
  split at h
  · exact .inl ⟨_, List.mem_singleton.mp h⟩
  · split at h
    · exact .inl ⟨_, List.mem_singleton.mp h⟩
    · split at h <;> next hr =>
        rcases List.mem_cons.mp h with h | h
        · exact .inl ⟨_, h⟩
        · exact .inr ⟨_, udpTries_ops hr h, rfl⟩

theorem sendsTo_of_mem_pair {proto : NetProto} {dialer : Dialer} {addr : Endpoint}
    {message bytes : Bytes} (hb : unprefixed proto bytes = some message)
    (h : op ∈ [NetOp.dial proto dialer addr, .write addr bytes]) :
    SendsTo proto addr message op := by
  rcases List.mem_cons.mp h with h | h
  · exact .inl ⟨_, h⟩
  · exact .inr ⟨_, List.mem_singleton.mp h, hb⟩

theorem exchangeWithTCPServer_ops {prims : Primitives} {dialer : Dialer} {serverInfo : ServerInfo}
    {sharedKey query clientNonce : Bytes} {conn : TCPConn}
    (h : op ∈ (exchangeWithTCPServer prims dialer serverInfo sharedKey query clientNonce conn).ops) :
    SendsTo .tcp ((serverInfo.dnscryptRelay.map (·.relayTCPAddr)).getD serverInfo.tcpAddr)
      (wrapFor serverInfo.tcpAddr (serverInfo.dnscryptRelay.map (·.relayTCPAddr)) query) op := by
  unfold exchangeWithTCPServer at h
  dsimp only at h
  split at h
  · exact .inl ⟨_, List.mem_singleton.mp h⟩
  · split at h
    · exact .inl ⟨_, List.mem_singleton.mp h⟩
    · split at h
      · exact .inl ⟨_, List.mem_singleton.mp h⟩
      · next hp =>
        have hb := unprefixed_prefixWithSize hp
        split at h
        · exact sendsTo_of_mem_pair hb h
        · split at h <;> exact sendsTo_of_mem_pair hb h

variable {lib : DNSLibrary} {resolve : NetProto → Text → Except GoError Endpoint}
  {dialer : Dialer} {serverAddress : Text} {relay : Option DNSCryptRelay} {query : Msg}

theorem dnsExchangeUDP_ops {conn : UDPConn}
    (h : op ∈ (dnsExchangeUDP lib resolve serverAddress relay query conn).ops) :
    ∃ server packet, lib.pack query = .ok packet ∧ resolve .udp serverAddress = .ok server ∧
      SendsTo .udp ((relay.map (·.relayUDPAddr)).getD server)
        (wrapFor server (relay.map (·.relayUDPAddr)) packet) op := by
  unfold dnsExchangeUDP at h
  split at h
  · cases h
  · next packet hp =>
    split at h
    · cases h
    · next server hs =>
      refine ⟨server, packet, hp, hs, ?_⟩
      split at h
      · exact .inl ⟨_, List.mem_singleton.mp h⟩
      · split at h
        · exact .inl ⟨_, List.mem_singleton.mp h⟩
        · split at h
          · exact sendsTo_of_mem_pair rfl h
          · split at h <;> exact sendsTo_of_mem_pair rfl h

theorem dnsExchangeTCP_ops {conn : TCPConn}
    (h : op ∈ (dnsExchangeTCP lib resolve dialer serverAddress relay query conn).ops) :
    ∃ server packet, lib.pack query = .ok packet ∧ resolve .tcp serverAddress = .ok server ∧
      SendsTo .tcp (tcpDialedAddr dialer (relay.map (·.relayTCPAddr)) server)
        (wrapFor server (relay.map (·.relayTCPAddr)) packet) op := by
  unfold dnsExchangeTCP at h
  split at h
  · cases h
  · next packet hp =>
    split at h
    · cases h
    · next server hs =>
      refine ⟨server, packet, hp, hs, ?_⟩
      dsimp only at h
      split at h
      · exact .inl ⟨_, List.mem_singleton.mp h⟩
      · split at h
        · exact .inl ⟨_, List.mem_singleton.mp h⟩
        · split at h
          · exact .inl ⟨_, List.mem_singleton.mp h⟩
          · next hf =>
            have hb := unprefixed_prefixWithSize hf
            split at h
            · exact sendsTo_of_mem_pair hb h
            · split at h <;> exact sendsTo_of_mem_pair hb h

theorem dnsExchangeTCP_dials {conn : TCPConn} {server : Endpoint} {packet : Bytes}
    (hp : lib.pack query = .ok packet) (hs : resolve .tcp serverAddress = .ok server) :
    .dial .tcp dialer (tcpDialedAddr dialer (relay.map (·.relayTCPAddr)) server) ∈
      (dnsExchangeTCP lib resolve dialer serverAddress relay query conn).ops := by
  unfold dnsExchangeTCP
  rw [hp, hs]
  dsimp only
  split
  · exact List.mem_singleton.mpr rfl
  · split
    · exact List.mem_singleton.mpr rfl
    · split
      · exact List.mem_singleton.mpr rfl
      · split
        · exact List.mem_cons_self
        · split <;> exact List.mem_cons_self

end Ops

namespace Sender

variable (lib : DNSLibrary) (prims : Primitives) (dialer : Dialer)
  (resolve : NetProto → Text → Except GoError Endpoint)

theorem ops_cases {sender : Sender} {op : NetOp} (h : op ∈ sender.ops lib prims dialer resolve) :
    ∃ server packet, sender.subject lib resolve = some (server, packet) ∧
      SendsTo sender.proto (sender.dialedAddr dialer server)
        (wrapFor server sender.relayAddr packet) op := by
  cases sender with
  | udpQuery serverInfo _ encryptedQuery =>
    exact ⟨_, _, rfl, exchangeWithUDPServer_ops h⟩
  | tcpQuery serverInfo _ encryptedQuery =>
    exact ⟨_, _, rfl, exchangeWithTCPServer_ops h⟩
  | certificate proto serverAddress relay query paddedLen udp tcp =>
    simp only [ops, dnsExchange] at h
    cases hq : certificateQuery proto query paddedLen with
    | error panic =>
      rw [hq] at h
      cases h
    | ok padded =>
      rw [hq] at h
      cases proto with
      | udp =>
        obtain ⟨server, packet, hp, hs, hop⟩ := dnsExchangeUDP_ops h
        exact ⟨server, packet, by simp [subject, hq, hp, hs], hop⟩
      | tcp =>
        obtain ⟨server, packet, hp, hs, hop⟩ := dnsExchangeTCP_ops h
        exact ⟨server, packet, by simp [subject, hq, hp, hs], hop⟩

/-- With a relay in use, nothing is contacted but the relay and what it gets decodes
uniquely, unless a certificate is fetched over TCP by the proxy dialer, which is
given the address of the server. -/
theorem anonymized_iff (sender : Sender) (relay : Endpoint) (h : sender.relayAddr = some relay) :
    sender.Anonymized lib prims dialer resolve relay ↔
      ¬ sender.DialsServer lib dialer resolve relay := by
  constructor
  · intro hanon hdials
    cases sender with
    | udpQuery => exact hdials
    | tcpQuery => exact hdials
    | certificate proto serverAddress r query paddedLen udp tcp =>
      cases proto with
      | udp => exact hdials
      | tcp =>
        obtain ⟨hproxy, server, packet, hsub, hne⟩ := hdials
        simp only [subject, certificateQuery] at hsub
        split at hsub
        · next p s hp hs =>
          cases hsub
          -- the socket was dialed to the server
          have haddr := (hanon _ (dnsExchangeTCP_dials hp hs)).1
          rw [hproxy] at haddr
          exact hne haddr
        · cases hsub
  · intro hdials op hop
    obtain ⟨server, packet, hsub, hsend⟩ := ops_cases lib prims dialer resolve hop
    have haddr : sender.dialedAddr dialer server = relay := by
      cases sender with
      | udpQuery => simp [dialedAddr, h]
      | tcpQuery => simp [dialedAddr, h]
      | certificate proto serverAddress r query paddedLen udp tcp =>
        cases proto with
        | udp => simp [dialedAddr, h]
        | tcp =>
          cases dialer with
          | direct => simp [dialedAddr, tcpDialedAddr, h]
          | proxyDialer =>
            by_contra hne
            exact hdials ⟨rfl, server, packet, hsub, hne⟩
    rw [haddr, h] at hsend
    rcases hsend with ⟨d, rfl⟩ | ⟨bytes, rfl, hb⟩
    · exact ⟨rfl, fun bytes hw => nomatch hw⟩
    · refine ⟨rfl, fun bytes' hw => ?_⟩
      cases hw
      exact ⟨server, packet, hsub, carries_wrapFor hb⟩

end Sender

/-! The certificate of a server behind a relay, retrieved with a proxy configured. -/

namespace Sender

def sampleServer : Endpoint := ⟨[192, 0, 2, 1], 443, by decide⟩

def sampleRelay : DNSCryptRelay :=
  ⟨⟨[198, 51, 100, 1], 443, by decide⟩, ⟨[198, 51, 100, 1], 443, by decide⟩⟩

/-- A query for the TXT records of `2.dnscrypt-cert.example.`. -/
def certificateMsg : Msg :=
  ⟨0x1234, false, 0, false, false, true, false, false, false, false, 0, false,
    [⟨"2.dnscrypt-cert.example.".toList, typeTXT, classINET⟩], [], [], []⟩

def certificatePacket : Bytes :=
  [0x12, 0x34, 1, 0, 0, 1, 0, 0, 0, 0, 0, 0, 1, 50, 13, 100, 110, 115, 99, 114, 121, 112, 116,
    45, 99, 101, 114, 116, 7, 101, 120, 97, 109, 112, 108, 101, 0, 0, 16, 0, 1]

def certificateLib : DNSLibrary := .ofTable [(certificatePacket, certificateMsg)] (by decide)

def samplePrims : Primitives where
  sum512_256 b := b
  scalarBaseMult b := b
  xsecretboxSharedKey _ b := b
  boxPrecompute _ b := b
  xsecretboxSeal _ b _ := b
  secretboxSeal b _ _ := b
  xsecretboxOpen _ _ _ := .error "ciphertext is too short"
  secretboxOpen _ _ _ := none

/-- Nothing answers: the connection opens, the query is written, and the read times
out. -/
def silentConn : TCPConn := ⟨none, none, none, []⟩

def unusedConn : UDPConn := ⟨none, none, ⟨none, .ok []⟩, ⟨none, .ok []⟩⟩

def certificateSender : Sender :=
  .certificate .tcp "192.0.2.1:443".toList (some sampleRelay) certificateMsg 0 unusedConn silentConn

/-- Dialed directly, only the relay is contacted. -/
theorem certificate_direct_anonymized :
    certificateSender.relayAddr = some sampleRelay.relayTCPAddr ∧
      certificateSender.Anonymized certificateLib samplePrims .direct
        (fun _ _ => .ok sampleServer) sampleRelay.relayTCPAddr :=
  ⟨rfl, (anonymized_iff certificateLib samplePrims .direct (fun _ _ => .ok sampleServer)
    certificateSender sampleRelay.relayTCPAddr rfl).mpr fun h => nomatch h.1⟩

/-- Dialed by the proxy, the server itself is contacted, and it gets the packet that
was wrapped for the relay. -/
theorem certificate_proxied_contacts_server :
    certificateSender.relayAddr = some sampleRelay.relayTCPAddr ∧
      .dial .tcp .proxyDialer sampleServer ∈ certificateSender.ops certificateLib samplePrims
        .proxyDialer (fun _ _ => .ok sampleServer) ∧
      sampleServer ≠ sampleRelay.relayTCPAddr := by
  refine ⟨rfl, ?_, by decide⟩
  exact List.mem_cons_self

end Sender

end DnscryptProxy
