import DnscryptProxy.Exchange
import DnscryptProxy.Plugins.Pipeline

/-! `processIncomingQuery` of `proxy.go`. The function has one variable for the
response and more than fifteen exits; it is cut into phases here, each of which
goes on with a `Flow` or leaves by an exit:

* `dispatch`: the query plugins, and whether the query is forwarded;
* `fetch`: the query in the form the server gets it, and its answer;
* `filter`: the response plugins;
* `deliver`: what the client gets.

Every exit that calls `ApplyLoggingPlugins` does so last, in `leave`. -/

namespace DnscryptProxy

open Library

/-! ## The world outside -/

/-- What `ObliviousDoHQuery` returns, and whether the key update that some replies
ask for fails. -/
structure ODoHReply where
  body : Bytes
  code : Nat
  err : Option GoError
  keyUpdateFails : Bool

def ODoHReply.successful (reply : ODoHReply) : Bool :=
  reply.err.isNone && reply.body ≠ [] && reply.code = 200

def ODoHReply.asksForKeyUpdate (reply : ODoHReply) : Bool :=
  !reply.successful && (reply.code = 401 || (reply.code = 200 && reply.body = []))

/-- Everything that one call of `processIncomingQuery` learns from outside: the
server that `getOne` chose, random bytes for each of its calls of `Encrypt`, and the
behaviour of the network. A `DoHQuery` without error returns a body and whether the TLS
handshake is complete. -/
structure CallEnv where
  server : Option ServerInfo
  query : QueryEnv
  entropy : Entropy
  entropyForTCP : Entropy
  entropyForRetry : Entropy
  udp : UDPConn
  tcp : TCPConn
  doh : Except GoError (Bytes × Bool)
  odohTarget : Nat
  odoh : ODoHReply
  responseTime : Time
  freshID : UInt16
  movingAverage : Int

structure Proxy where
  settings : Settings
  pkgs : Packages
  keys : ProxyKeys
  dialer : Dialer
  mainProto : NetProto

/-- The callers of `processIncomingQuery`, with the client's address and port. -/
inductive Caller where
  | udpListener (ip : IP) (port : UInt16) (onlyCached : Bool)
  | tcpListener (ip : IP) (port : UInt16)
  | localDoH (ip : IP) (port : UInt16)
  | trampoline
  deriving DecidableEq, Repr

namespace Caller

def clientProto : Caller → ClientProto
  | .udpListener .. => .udp
  | .tcpListener .. => .tcp
  | .localDoH .. => .localDoH
  | .trampoline => .trampoline

def serverProto (mainProto : NetProto) : Caller → NetProto
  | .tcpListener .. => .tcp
  | _ => mainProto

def clientAddr : Caller → Option ClientAddr
  | .udpListener ip port _ => some (.udp ip port)
  | .tcpListener ip port => some (.tcp ip port)
  | .localDoH ip port => some (.tcp ip port)
  | .trampoline => none

def onlyCached : Caller → Bool
  | .udpListener _ _ onlyCached => onlyCached
  | _ => false

end Caller

/-! ## Flows and exits -/

/-- Where the bytes in the variable `response` come from. -/
inductive Origin where
  | nothing
  /-- Packed from a message that was synthesized, cached or kept stale here. -/
  | localMsg (msg : Msg)
  /-- From a payload that was accepted from the server. -/
  | accepted (payload : Bytes)
  /-- From bytes that came with an error. -/
  | unverified (bytes : Bytes)
  deriving DecidableEq

/-- A call on `ServerInfo` that feeds the load balancer. -/
inductive Notice where
  | begin
  | failure
  | success
  deriving DecidableEq, Repr

/-- The variables of `processIncomingQuery`. What the response plugins were given is
kept for the theorems only, like the origin of the response. -/
structure Flow where
  st : PluginsState
  world : World
  response : Bytes
  origin : Origin
  handed : Option Bytes
  notices : List Notice

/-- How the function is left: with the response, after the given writes to the
client, and with or without calling the logging plugins. -/
structure Exit extends Flow where
  logs : Bool
  writes : List Bytes
  completed : Bool

/-- The two ways in which a phase does not go on. -/
inductive Stop where
  | exit (exit : Exit)
  | halt (halted : Halted)

namespace Flow

/-- `return response` -/
def leaveSilently (flow : Flow) : Exit := ⟨flow, false, [], false⟩

/-- Set the return code, log, and return. -/
def leaveWith (flow : Flow) (returnCode : PluginsReturnCode) : Exit :=
  ⟨{ flow with st.returnCode := returnCode }, true, [], false⟩

/-- The same, with a failure charged to the server. -/
def leaveFailing (flow : Flow) (returnCode : PluginsReturnCode) : Exit :=
  Flow.leaveWith { flow with notices := flow.notices ++ [.failure] } returnCode

def answered (flow : Flow) (response : Bytes) (origin : Origin) : Flow :=
  { flow with response := response, origin := origin }

def noticed (flow : Flow) (notice : Notice) : Flow :=
  { flow with notices := flow.notices ++ [notice] }

end Flow

def fits (packet : Bytes) : Bool :=
  minDNSPacketSize ≤ packet.length && packet.length ≤ maxDNSPacketSize

/-! ## The query -/

/-- What is decided before any server is involved. -/
inductive Decision where
  /-- On to the client; there may be a server to charge for a response that is
  unfit. -/
  | respond (flow : Flow) (charged : Bool)
  | forward (flow : Flow) (serverInfo : ServerInfo) (query : Bytes)

/-- `synthResponse`, where there is one, becomes the response. -/
def Flow.packSynth (p : Proxy) (flow : Flow) : Except Stop Flow :=
  match flow.st.synthResponse with
  | none => .ok flow
  | some synth =>
    match p.pkgs.dns.pack synth with
    | .error _ => .error (.exit ((flow.answered [] .nothing).leaveWith .parseError))
    | .ok response => .ok (flow.answered response (.localMsg synth))

/-- To the client or to the server. -/
def route (caller : Caller) (server : Option ServerInfo) (query : Bytes) (flow : Flow) :
    Except Stop Decision :=
  if caller.onlyCached then
    if flow.response = [] then .error (.exit flow.leaveSilently) else .ok (.respond flow false)
  else if flow.response ≠ [] then .ok (.respond flow server.isSome)
  else match server with
    | none => .ok (.respond flow false)
    | some serverInfo =>
      .ok (.forward { flow with st.serverName := serverInfo.name } serverInfo query)

/-- The first phase after the query plugins. -/
def afterQueryPlugins (p : Proxy) (caller : Caller) (server : Option ServerInfo)
    (applied : Applied) : Except Stop Decision :=
  let flow : Flow := ⟨applied.st, applied.world, [], .nothing, none, []⟩
  if !fits applied.packet then .error (.exit flow.leaveSilently)
  else if applied.st.action = .drop then .error (.exit (flow.leaveWith .drop))
  else flow.packSynth p >>= route caller server applied.packet

def dispatch (p : Proxy) (caller : Caller) (env : CallEnv) (world : World) (query : Bytes) :
    Except Stop Decision :=
  let st := newPluginsState p.settings.query caller.clientProto caller.clientAddr
    (caller.serverProto p.mainProto)
  if query.length < minDNSPacketSize then
    .error (.exit (Flow.leaveSilently ⟨st, world, [], .nothing, none, []⟩))
  else
    let needsEDNS0Padding := env.server.any fun s => s.proto = .doh || s.proto = .tls
    match applyQueryPlugins p.settings p.pkgs env.query st world query needsEDNS0Padding with
    | .error halted => .error (.halt halted)
    | .ok applied => afterQueryPlugins p caller env.server applied

/-! ## The exchange with the server -/

/-- The query in the form in which it is sent. -/
inductive Prepared where
  | dnscrypt (proto : NetProto) (encrypted : Encrypted)
  | doh
  | odoh (odohQuery : ODoHQuery)

/-- `Encrypt`, with a second try for TCP where a query cannot be padded for UDP. -/
def encryptQueryFor (p : Proxy) (env : CallEnv) (minQuestionSize : Nat) (serverInfo : ServerInfo)
    (query : Bytes) (serverProto : NetProto) : Except GoError (NetProto × Encrypted) :=
  match encrypt p.pkgs.prims p.keys minQuestionSize serverInfo query serverProto env.entropy with
  | .ok encrypted => .ok (serverProto, encrypted)
  | .error e =>
    if serverProto = .udp then
      (encrypt p.pkgs.prims p.keys minQuestionSize serverInfo query .tcp env.entropyForTCP).map
        fun encrypted => (.tcp, encrypted)
    else .error e

def prepare (p : Proxy) (env : CallEnv) (flow : Flow) (serverInfo : ServerInfo) (query : Bytes) :
    Except Stop Prepared :=
  match serverInfo.proto with
  | .dnscrypt =>
    match encryptQueryFor p env flow.world.minQuestionSize serverInfo query flow.st.serverProto with
    | .error _ => .error (.exit (flow.leaveWith .parseError))
    | .ok (proto, encrypted) => .ok (.dnscrypt proto encrypted)
  | .doh => .ok .doh
  | .odohTarget =>
    match serverInfo.odohTargetConfigs[env.odohTarget % serverInfo.odohTargetConfigs.length]? with
    | none => .error (.exit flow.leaveSilently)
    | some target =>
      match encryptQuery p.pkgs.hpke target query with
      | .error _ => .error (.exit (flow.leaveFailing .networkError))
      | .ok odohQuery => .ok (.odoh odohQuery)
  | _ => .error (.halt ⟨.fatal "Unsupported protocol", flow.world⟩)

def serveStale (p : Proxy) (flow : Flow) (e : GoError) (data : Bytes) : Except Stop Flow :=
  let fail := fun (flow : Flow) (e : GoError) =>
    .error (.exit (flow.leaveFailing (if e.isTimeout then .serverTimeout else .networkError)))
  match flow.st.stale with
  | none => fail (flow.answered data (.unverified data)) e
  | some stale =>
    match p.pkgs.dns.pack stale with
    | .error e => fail (flow.answered [] .nothing) e
    | .ok response => .ok (flow.answered response (.localMsg stale))

/-- The end of a DNSCrypt exchange. -/
def settle (p : Proxy) (flow : Flow) (exchanged : Exchanged) : Except Stop Flow :=
  match exchanged.err with
  | none => .ok (flow.answered exchanged.data (.accepted exchanged.data))
  | some e => serveStale p flow e exchanged.data

/-- A truncated answer or a timeout over UDP. -/
def retryOverTCP (exchanged : Exchanged) : Bool :=
  match exchanged.err with
  | none => minDNSPacketSize ≤ exchanged.data.length && hasTCFlag exchanged.data
  | some e => e.isTimeout

def overTCP (p : Proxy) (env : CallEnv) (serverInfo : ServerInfo) (encrypted : Encrypted) :
    Exchanged :=
  exchangeWithTCPServer p.pkgs.prims p.dialer serverInfo encrypted.sharedKey encrypted.encrypted
    encrypted.clientNonce env.tcp

def overUDP (p : Proxy) (env : CallEnv) (serverInfo : ServerInfo) (encrypted : Encrypted) :
    Exchanged :=
  exchangeWithUDPServer p.pkgs.prims p.dialer serverInfo encrypted.sharedKey encrypted.encrypted
    encrypted.clientNonce env.udp

def exchangeDNSCrypt (p : Proxy) (env : CallEnv) (flow : Flow) (serverInfo : ServerInfo)
    (query : Bytes) (proto : NetProto) (encrypted : Encrypted) : Except Stop Flow :=
  match proto with
  | .tcp => settle p flow (overTCP p env serverInfo encrypted)
  | .udp =>
    let exchanged := overUDP p env serverInfo encrypted
    if retryOverTCP exchanged then
      match encrypt p.pkgs.prims p.keys flow.world.minQuestionSize serverInfo query .tcp
          env.entropyForRetry with
      | .ok encrypted => settle p flow (overTCP p env serverInfo encrypted)
      | .error _ =>
        let origin := match exchanged.err with
          | none => .accepted exchanged.data
          | some _ => .unverified exchanged.data
        .error (.exit ((flow.answered exchanged.data origin).leaveWith .parseError))
    else settle p flow exchanged

/-- `SetTransactionID`, on packets that have one. -/
def restoreID (query response : Bytes) : Bytes :=
  if minDNSPacketSize ≤ response.length then setTransactionID response (transactionID query)
  else response

/-- A stale answer in place of that of a DoH exchange. -/
def serveStaleDoH (p : Proxy) (flow : Flow) (stale : Msg) : Except Stop Flow :=
  match p.pkgs.dns.pack stale with
  | .error _ => .error (.exit (flow.leaveFailing .networkError))
  | .ok response => .ok (flow.answered response (.localMsg stale))

def dohResponse (p : Proxy) (env : CallEnv) (flow : Flow) : Except Stop Flow :=
  match env.doh, flow.st.stale with
  | .ok (body, true), _ => .ok (flow.answered body (.accepted body))
  | .ok (body, false), none => .ok (flow.answered body (.accepted body))
  | .ok (_, false), some stale => serveStaleDoH p flow stale
  | .error _, none => .error (.exit (flow.leaveFailing .networkError))
  | .error _, some stale => serveStaleDoH p flow stale

def exchangeDoH (p : Proxy) (env : CallEnv) (flow : Flow) (query : Bytes) : Except Stop Flow := do
  let flow ← dohResponse p env flow
  return flow.answered (restoreID query flow.response) flow.origin

/-- The answer of an ODoH exchange, `none` for a nil slice. -/
def odohResponse (p : Proxy) (env : CallEnv) (odohQuery : ODoHQuery) :
    Except Panic (Option Bytes) :=
  if env.odoh.successful then do
    match ← decryptResponse p.pkgs.hpke odohQuery env.odoh.body with
    | .error _ => return none
    | .ok response => return some response
  else .ok none

def exchangeODoH (p : Proxy) (env : CallEnv) (flow : Flow) (query : Bytes)
    (odohQuery : ODoHQuery) : Except Stop Flow :=
  match odohResponse p env odohQuery with
  | .error panic => .error (.halt ⟨.panic panic, flow.world⟩)
  | .ok none =>
    let flow := if env.odoh.asksForKeyUpdate && env.odoh.keyUpdateFails then flow.noticed .failure
      else flow
    .error (.exit (flow.leaveFailing .networkError))
  | .ok (some response) => .ok (flow.answered (restoreID query response) (.accepted response))

def exchange (p : Proxy) (env : CallEnv) (flow : Flow) (serverInfo : ServerInfo) (query : Bytes)
    (prepared : Prepared) : Except Stop Flow :=
  match prepared with
  | .dnscrypt proto encrypted =>
    exchangeDNSCrypt p env (flow.noticed .begin) serverInfo query proto encrypted
  | .doh => exchangeDoH p env (flow.noticed .begin) query
  | .odoh odohQuery => exchangeODoH p env flow query odohQuery

/-- The query in its prepared form is sent, and its answer awaited. -/
def fetch (p : Proxy) (env : CallEnv) (flow : Flow) (serverInfo : ServerInfo) (query : Bytes) :
    Except Stop Flow := do
  let prepared ← prepare p env flow serverInfo query
  exchange p env flow serverInfo query prepared

/-! ## The response -/

abbrev Subquery := Option (World → Bytes → Except Halted (Bytes × World))

def Origin.source : Origin → Source
  | .localMsg _ => .stale
  | _ => .server

/-- The events of one call, with the packet that its response plugins are given. -/
def Flow.hand (flow : Flow) (time : Time) : Flow :=
  { flow with
    handed := some flow.response
    world := flow.world.log (.received flow.origin.source flow.st.questionMsg flow.response time) }

/-- What a flow becomes when the response plugins were applied to it. -/
def Flow.applied (flow : Flow) (applied : Applied) : Flow :=
  { flow with st := applied.st, world := applied.world, response := applied.packet }

/-- The server is charged by the response code. -/
def Flow.charge (flow : Flow) : Flow :=
  if packetRcode flow.response = rcodeServerFailure then
    if flow.st.dnssec then flow else flow.noticed .failure
  else flow.noticed .success

/-- After the response plugins, a synthesized message takes the place of the
response. -/
def afterResponsePlugins (p : Proxy) (flow : Flow) : Except Stop Flow :=
  if flow.st.action = .drop then .error (.exit (flow.leaveWith .drop))
  else do
    let flow ← flow.packSynth p
    return flow.charge

def filter (p : Proxy) (env : CallEnv) (subquery : Subquery) (flow : Flow) : Except Stop Flow :=
  if !fits flow.response then .error (.exit (flow.leaveFailing .parseError))
  else
    let flow := flow.hand env.responseTime
    let renv : ResponseEnv := ⟨env.responseTime, env.freshID, subquery⟩
    match applyResponsePlugins p.settings p.pkgs renv flow.st flow.world flow.response none with
    | .error halted => .error (.halt halted)
    | .ok applied =>
      let flow := flow.applied applied
      match applied.err with
      | some _ => .error (.exit (flow.leaveFailing .parseError))
      | none => afterResponsePlugins p flow

/-! ## The client -/

def blindAdjust (minQuestionSize : Nat) : Nat :=
  if maxDNSUDPPacketSize - minQuestionSize < minQuestionSize then maxDNSUDPPacketSize
  else minQuestionSize * 2

/-- `adjust`, with the moving average that it computes. -/
def adjust (minQuestionSize : Nat) (movingAverage : Int) : Nat :=
  if movingAverage > initialMinQuestionSize ∧ movingAverage < (minQuestionSize / 2 : Nat) then
    max initialMinQuestionSize (minQuestionSize / 2)
  else minQuestionSize

/-- The last lines of `processIncomingQuery`. -/
def Flow.complete (flow : Flow) (writes : List Bytes) : Exit := ⟨flow, true, writes, true⟩

def truncateFor (p : Proxy) (flow : Flow) : Except Stop Flow :=
  if flow.response.length > flow.st.maxUnencryptedUDPSafePayloadSize then
    match truncatedResponse p.pkgs.dns flow.response with
    | .error _ => .error (.exit ((flow.answered [] .nothing).leaveWith .parseError))
    | .ok response => .ok (flow.answered response flow.origin)
  else .ok flow

def deliverUDP (p : Proxy) (caller : Caller) (env : CallEnv) (flow : Flow) : Except Stop Exit := do
  let flow ← truncateFor p flow
  match caller.clientAddr with
  | none => .error (.halt ⟨.panic .nilDereference, flow.world⟩)
  | some _ =>
    let minQuestionSize := if hasTCFlag flow.response then blindAdjust flow.world.minQuestionSize
      else adjust flow.world.minQuestionSize env.movingAverage
    return Flow.complete { flow with world.minQuestionSize := minQuestionSize } [flow.response]

def deliver (p : Proxy) (caller : Caller) (env : CallEnv) (flow : Flow) (charged : Bool) :
    Except Stop Exit :=
  let fail := fun (flow : Flow) returnCode =>
    if charged then flow.leaveFailing returnCode else flow.leaveWith returnCode
  if !fits flow.response then
    .error (.exit (fail flow (if flow.response = [] then .notReady else .parseError)))
  else match caller.clientProto with
    | .udp => deliverUDP p caller env flow
    | .tcp =>
      match prefixWithSize flow.response with
      | .error _ => .error (.exit (fail flow .parseError))
      | .ok response => .ok ((flow.answered response flow.origin).complete [response])
    | _ => .ok (flow.complete [])

/-! ## The whole function -/

def phases (p : Proxy) (caller : Caller) (env : CallEnv) (subquery : Subquery) (world : World)
    (query : Bytes) : Except Stop Exit := do
  match ← dispatch p caller env world query with
  | .respond flow charged => deliver p caller env flow charged
  | .forward flow serverInfo query =>
    let flow ← fetch p env flow serverInfo query
    let flow ← filter p env subquery flow
    deliver p caller env flow true

/-- The exit by which the function is left, before the logging plugins are called. -/
def handle (p : Proxy) (caller : Caller) (env : CallEnv) (subquery : Subquery) (world : World)
    (query : Bytes) : Except Halted Exit :=
  match phases p caller env subquery world query with
  | .ok exit => .ok exit
  | .error (.exit exit) => .ok exit
  | .error (.halt halted) => .error halted

def leave (p : Proxy) (exit : Exit) : Except Halted Exit := do
  if exit.logs then applyLoggingPlugins p.settings p.pkgs exit.st exit.world
  return exit

def serve (p : Proxy) (caller : Caller) (env : CallEnv) (subquery : Subquery) (world : World)
    (query : Bytes) : Except Halted Exit := do
  leave p (← handle p caller env subquery world query)

/-- The handler of the sub-query of a call: a call of its own, in the first of the
given environments, whose sub-query has the next one. Where they end, the limit of
clients is reached. -/
def subqueryWith (p : Proxy) : List CallEnv → Subquery
  | [] => none
  | env :: envs => some fun world query =>
    (serve p .trampoline env (subqueryWith p envs) world query).map fun exit =>
      (exit.response, exit.world)

def processIncomingQuery (p : Proxy) (caller : Caller) (env : CallEnv) (envs : List CallEnv)
    (world : World) (query : Bytes) : Except Halted Exit :=
  serve p caller env (subqueryWith p envs) world query

end DnscryptProxy
