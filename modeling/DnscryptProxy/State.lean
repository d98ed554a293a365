import DnscryptProxy.Library.ArcCache
import DnscryptProxy.Message

/-! The state that a query carries through the plugins (`PluginsState`), the state
that the proxy keeps between queries, and the ways in which the program can come
to a halt. -/

namespace DnscryptProxy

open Library

/-! ## Halting -/

inductive Panic where
  | indexOutOfRange
  | nilDereference
  /-- `*pluginsState.clientAddr` of a nil pointer. -/
  | clientAddrMissing
  /-- `.(*net.UDPAddr)` or `.(*net.TCPAddr)` of an address of the other type. -/
  | clientAddrType
  deriving DecidableEq, Repr

inductive Halt where
  | panic (panic : Panic)
  /-- `dlog.Fatal` -/
  | fatal (text : String)
  deriving DecidableEq, Repr

/-! ## Protocols and addresses -/

/-- `clientProto`: how the query came in. -/
inductive ClientProto where
  | udp
  | tcp
  | localDoH
  | trampoline
  deriving DecidableEq, Repr

/-- `serverProto` and the network of a socket. -/
inductive NetProto where
  | udp
  | tcp
  deriving DecidableEq, Repr

/-- The two implementations of `net.Addr` that clients have. -/
inductive ClientAddr where
  | udp (ip : IP) (port : UInt16)
  | tcp (ip : IP) (port : UInt16)
  deriving DecidableEq, Repr

/-! ## The state of one query -/

inductive PluginsAction where
  | none
  | cont
  | drop
  | reject
  | synth
  deriving DecidableEq, Repr

inductive PluginsReturnCode where
  | pass
  | forward
  | drop
  | reject
  | synth
  | parseError
  | nxDomain
  | responseError
  | servFail
  | networkError
  | cloak
  | serverTimeout
  | notReady
  deriving DecidableEq, Repr

def queryOverhead : Nat := clientMagicLen + 32 + 12 + 16
def responseOverhead : Nat := serverMagic.length + 24 + 16

/-- `PluginsState`. The entries of `sessionData` are the fields `whitelisted` and
`stale`. -/
structure PluginsState where
  clientProto : ClientProto
  serverName : Text
  serverProto : NetProto
  qName : Text
  clientAddr : Option ClientAddr
  synthResponse : Option Msg
  questionMsg : Option Msg
  whitelisted : Bool
  stale : Option Msg
  action : PluginsAction
  returnCode : PluginsReturnCode
  maxPayloadSize : Nat
  cacheSize : Int
  originalMaxPayloadSize : Nat
  maxUnencryptedUDPSafePayloadSize : Nat
  rejectTTL : UInt32
  ttls : TTLSettings
  cacheHit : Bool
  dnssec : Bool
  deriving DecidableEq

/-- The settings of the proxy that a new `PluginsState` takes over. -/
structure QuerySettings where
  cacheSize : Int
  ttls : TTLSettings
  rejectTTL : UInt32
  deriving DecidableEq, Repr

/-- What was taken over, which no plugin changes. -/
def PluginsState.settings (st : PluginsState) : QuerySettings := ⟨st.cacheSize, st.ttls, st.rejectTTL⟩

def newPluginsState (settings : QuerySettings) (clientProto : ClientProto)
    (clientAddr : Option ClientAddr) (serverProto : NetProto) : PluginsState where
  action := .cont
  returnCode := .pass
  maxPayloadSize := maxDNSUDPPacketSize - responseOverhead
  clientProto := clientProto
  clientAddr := clientAddr
  cacheSize := settings.cacheSize
  ttls := settings.ttls
  rejectTTL := settings.rejectTTL
  questionMsg := none
  qName := []
  serverName := ['-']
  serverProto := serverProto
  maxUnencryptedUDPSafePayloadSize := maxDNSUDPSafePacketSize
  synthResponse := none
  whitelisted := false
  stale := none
  originalMaxPayloadSize := 0
  cacheHit := false
  dnssec := false

/-- The client address as every logger reads it. -/
def PluginsState.clientIPStr (st : PluginsState) : Except Panic Text :=
  match st.clientAddr with
  | none => .error .clientAddrMissing
  | some addr =>
    match st.clientProto, addr with
    | .udp, .udp ip _ => .ok (IP.string ip)
    | .udp, .tcp _ _ => .error .clientAddrType
    | _, .tcp ip _ => .ok (IP.string ip)
    | _, .udp _ _ => .error .clientAddrType

/-- Reading the client address for a log line, when there is a log. -/
def PluginsState.logTo (st : PluginsState) (logger : Bool) : Except Panic Unit :=
  if logger then st.clientIPStr.map fun _ => () else .ok ()

/-! ## The state of the proxy -/

/-- The clock on the wall, for weekly schedules. -/
structure LocalTime where
  weekday : Fin 7
  hour : Nat
  minute : Nat
  deriving DecidableEq, Repr

structure CachedResponse where
  expiration : Time
  msg : Msg
  deriving DecidableEq

/-- The sum that `computeCacheKey` returns. -/
abbrev CacheKey := Bytes

/-- `CloakedName`; a nil slice of addresses is an empty one. -/
structure CloakedName where
  target : Text
  ipv4 : List IP
  ipv6 : List IP
  lastUpdate : Option Time
  isIP : Bool
  ptr : List Text
  deriving DecidableEq

/-- Where the bytes that enter the response plugins come from. -/
inductive Source where
  | server
  | stale
  deriving DecidableEq, Repr

/-- What the theorems about whole runs look back at. Nothing in the program reads
it. -/
inductive Event where
  /-- A packet was handed to the response plugins for the client's message. -/
  | received (source : Source) (client : Option Msg) (packet : Bytes) (time : Time)
  /-- The cache writer stored an answer while the client's message was processed. -/
  | stored (client : Option Msg) (dnssec : Bool) (response : CachedResponse)
  /-- The cache reader found an answer, fresh or not, for a question. -/
  | found (fresh : Bool) (question : Question) (dnssec : Bool) (answer : Msg) (time : Time)
  deriving DecidableEq

/-- What outlives a query: the shared cache (`nil` until the first answer is
stored), the cloaked names behind their pointers, the size estimator, and the
history, newest event first. -/
structure World where
  cache : Option (ArcCache CacheKey CachedResponse)
  cloakedNames : Nat → CloakedName
  minQuestionSize : Nat
  history : List Event

def World.log (w : World) (event : Event) : World := { w with history := event :: w.history }

/-- A halt, with the state of the proxy at that moment: a panic in a request of
the local DoH server ends that request only. -/
structure Halted where
  cause : Halt
  world : World

/-- Run a step that does not touch the state of the proxy. -/
def World.lift {α : Type} (w : World) (x : Except Panic α) : Except Halted α :=
  x.mapError fun p => ⟨.panic p, w⟩

end DnscryptProxy
