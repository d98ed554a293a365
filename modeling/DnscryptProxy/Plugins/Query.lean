import DnscryptProxy.BlockedNames
import DnscryptProxy.ObliviousDoH

/-! The query plugins. Each `Eval` takes the state of the query, the message, which
it may change, and the state of the proxy, and returns them with the error it
reports, if any. What a plugin learns from the outside (the time, random choices,
answers of other resolvers) is in `QueryEnv`. -/

namespace DnscryptProxy

open Library

/-- The packages the program is linked with. -/
structure Packages where
  dns : DNSLibrary
  prims : Primitives
  hpke : HPKE
  equalFold : Text → Text → Bool
  /-- `time.Time.Local` -/
  zone : Time → LocalTime

/-- What the evaluation of a plugin reads and writes. -/
structure Ctx where
  st : PluginsState
  msg : Msg
  world : World

/-- An error that a plugin returns is handed to the caller with the state it left;
a panic takes the state of the proxy with it. -/
abbrev Evaluated := Except Halted (Ctx × Option GoError)

namespace Ctx

def panic {α : Type} (ctx : Ctx) (p : Panic) : Except Halted α := .error ⟨.panic p, ctx.world⟩

def ok (ctx : Ctx) : Evaluated := .ok (ctx, none)

def fails (ctx : Ctx) (e : GoError) : Evaluated := .ok (ctx, some e)

/-- `msg.Question[0]` -/
def question (ctx : Ctx) : Except Halted Question :=
  match ctx.msg.question with
  | [] => ctx.panic .indexOutOfRange
  | question :: _ => .ok question

/-- Answer the query with `synth`. -/
def answer (ctx : Ctx) (synth : Msg) : Ctx :=
  { ctx with st := { ctx.st with synthResponse := some synth, action := .synth } }

def withCode (ctx : Ctx) (returnCode : PluginsReturnCode) : Ctx :=
  { ctx with st := { ctx.st with returnCode := returnCode } }

/-- Read the client address for a log line, when there is a log. -/
def logTo (ctx : Ctx) (logger : Bool) : Except Halted Unit := ctx.world.lift (ctx.st.logTo logger)

end Ctx

def Question.isAddress (question : Question) : Bool :=
  question.qclass = classINET && (question.qtype = typeA || question.qtype = typeAAAA)

/-- The answers that are a bare error code. -/
def nameErrorFor (msg : Msg) : Msg := { emptyResponseFromMessage msg with rcode := rcodeNameError }

/-! ## Captive portals and query metadata -/

abbrev CaptivePortalMap := List (Text × List IP)

def CaptivePortalMap.getEntry (ipsMap : CaptivePortalMap) (msg : Msg) :
    Option (Question × List IP) :=
  match msg.question with
  | [question] =>
    match normalizeQName question.name with
    | .error _ => none
    | .ok name =>
      match lookupMap ipsMap name with
      | none => none
      | some ips => if question.qclass ≠ classINET then none else some (question, ips)
  | _ => none

def handleCaptivePortalQuery (msg : Msg) (question : Question) (ips : List IP) : Msg :=
  let respMsg := emptyResponseFromMessage msg
  let data :=
    if question.qtype = typeA then ips.filterMap fun ip => (IP.to4 ip).map RData.a
    else if question.qtype = typeAAAA then ips.filterMap fun ip =>
      if (IP.to4 ip).isNone then (IP.to16 ip).map RData.aaaa else none
    else []
  { respMsg with answer := data.map fun d => ⟨question.name, classINET, 1, d⟩ }

def captivePortalEval (ipsMap : CaptivePortalMap) (ctx : Ctx) : Evaluated :=
  match ipsMap.getEntry ctx.msg with
  | none => ctx.ok
  | some (question, ips) => (ctx.answer (handleCaptivePortalQuery ctx.msg question ips)).ok

def queryMetaEval (queryMeta : List Text) (ctx : Ctx) : Evaluated :=
  Ctx.ok { ctx with msg.extra := [⟨['.'], classINET, 86400, .txt queryMeta⟩] }

/-! ## Names -/

def allowNameEval (pkgs : Packages) (now : Time) (names : BlockedNames) (ctx : Ctx) : Evaluated := do
  let verdict := names.patternMatcher.eval ctx.st.qName
  let allowList := verdict.reject && BlockedNames.inForce (pkgs.zone now) verdict.val.join
  if allowList then
    let ctx := { ctx with st.whitelisted := true }
    ctx.logTo names.logger
    ctx.ok
  else ctx.ok

def firefoxEval (ctx : Ctx) : Evaluated := do
  if ctx.st.clientProto = .localDoH then ctx.ok
  else
    let question ← ctx.question
    if !question.isAddress then ctx.ok
    else if PatternMatcher.AtLabel "use-application-dns.net".toList ctx.st.qName then
      ((ctx.answer (nameErrorFor ctx.msg)).withCode .synth).ok
    else ctx.ok

def blockNameEval (pkgs : Packages) (now : Time) (names : BlockedNames) (ctx : Ctx) : Evaluated := do
  if ctx.st.whitelisted then ctx.ok
  else
    let (_, st) ← ctx.world.lift (names.check (pkgs.zone now) ctx.st ctx.st.qName)
    Ctx.ok { ctx with st := st }

def blockIPv6Eval (ctx : Ctx) : Evaluated := do
  let question ← ctx.question
  if question.qclass ≠ classINET ∨ question.qtype ≠ typeAAAA then ctx.ok
  else
    let parentZone := match PatternMatcher.dropLabel question.name with
      | [] => ['.']
      | zone => zone
    let hinfo : RData := .hinfo "AAAA queries have been locally blocked by dnscrypt-proxy"
      "Set block_ipv6 to false to disable that feature"
    let soa : RData := .soa "a.root-servers.net.".toList "h.invalid.".toList 1 10000 300 604800 2400
    let synth := { emptyResponseFromMessage ctx.msg with
      answer := [⟨question.name, classINET, 86400, hinfo⟩]
      ns := [⟨parentZone, classINET, 60, soa⟩] }
    ((ctx.answer synth).withCode .synth).ok

def blockUnqualifiedEval (ctx : Ctx) : Evaluated := do
  let question ← ctx.question
  if !question.isAddress then ctx.ok
  else if ctx.st.qName.any (· = '.') then ctx.ok
  else ((ctx.answer (nameErrorFor ctx.msg)).withCode .synth).ok

def undelegatedSet : List String :=
  ["0.0.0.0.0.0.0.0.0.0.0.0.0.0.0.0.0.0.0.0.0.0.0.0.0.0.0.0.0.0.0.0.ip6.arpa", "0.in-addr.arpa",
    "1", "1.0.0.0.0.0.0.0.0.0.0.0.0.0.0.0.0.0.0.0.0.0.0.0.0.0.0.0.0.0.0.0.ip6.arpa",
    "10.in-addr.arpa", "100.100.in-addr.arpa", "100.51.198.in-addr.arpa", "101.100.in-addr.arpa",
    "102.100.in-addr.arpa", "103.100.in-addr.arpa", "104.100.in-addr.arpa", "105.100.in-addr.arpa",
    "106.100.in-addr.arpa", "107.100.in-addr.arpa", "108.100.in-addr.arpa", "109.100.in-addr.arpa",
    "110.100.in-addr.arpa", "111.100.in-addr.arpa", "112.100.in-addr.arpa",
    "113.0.203.in-addr.arpa", "113.100.in-addr.arpa", "114.100.in-addr.arpa",
    "115.100.in-addr.arpa", "116.100.in-addr.arpa", "117.100.in-addr.arpa", "118.100.in-addr.arpa",
    "119.100.in-addr.arpa", "120.100.in-addr.arpa", "121.100.in-addr.arpa", "122.100.in-addr.arpa",
    "123.100.in-addr.arpa", "124.100.in-addr.arpa", "125.100.in-addr.arpa", "126.100.in-addr.arpa",
    "127.100.in-addr.arpa", "127.in-addr.arpa", "16.172.in-addr.arpa", "168.192.in-addr.arpa",
    "17.172.in-addr.arpa", "18.172.in-addr.arpa", "19.172.in-addr.arpa", "2.0.192.in-addr.arpa",
    "20.172.in-addr.arpa", "21.172.in-addr.arpa", "22.172.in-addr.arpa", "23.172.in-addr.arpa",
    "24.172.in-addr.arpa", "25.172.in-addr.arpa", "254.169.in-addr.arpa",
    "255.255.255.255.in-addr.arpa", "26.172.in-addr.arpa", "27.172.in-addr.arpa",
    "28.172.in-addr.arpa", "29.172.in-addr.arpa", "30.172.in-addr.arpa", "31.172.in-addr.arpa",
    "64.100.in-addr.arpa", "65.100.in-addr.arpa", "66.100.in-addr.arpa", "67.100.in-addr.arpa",
    "68.100.in-addr.arpa", "69.100.in-addr.arpa", "70.100.in-addr.arpa", "71.100.in-addr.arpa",
    "72.100.in-addr.arpa", "73.100.in-addr.arpa", "74.100.in-addr.arpa", "75.100.in-addr.arpa",
    "76.100.in-addr.arpa", "77.100.in-addr.arpa", "78.100.in-addr.arpa", "79.100.in-addr.arpa",
    "8.b.d.0.1.0.0.2.ip6.arpa", "8.e.f.ip6.arpa", "80.100.in-addr.arpa", "81.100.in-addr.arpa",
    "82.100.in-addr.arpa", "83.100.in-addr.arpa", "84.100.in-addr.arpa", "85.100.in-addr.arpa",
    "86.100.in-addr.arpa", "87.100.in-addr.arpa", "88.100.in-addr.arpa", "89.100.in-addr.arpa",
    "9.e.f.ip6.arpa", "90.100.in-addr.arpa", "91.100.in-addr.arpa", "92.100.in-addr.arpa",
    "93.100.in-addr.arpa", "94.100.in-addr.arpa", "95.100.in-addr.arpa", "96.100.in-addr.arpa",
    "97.100.in-addr.arpa", "98.100.in-addr.arpa", "99.100.in-addr.arpa", "a.e.f.ip6.arpa",
    "airdream", "api", "b.e.f.ip6.arpa", "bbrouter", "belkin", "bind", "blinkap", "corp",
    "d.f.ip6.arpa", "davolink", "dearmyrouter", "dhcp", "dlink", "domain", "envoy", "example",
    "f.f.ip6.arpa", "grp", "gw==", "home", "hub", "internal", "intra", "intranet", "invalid",
    "ksyun", "lan", "loc", "local", "localdomain", "localhost", "localnet", "modem", "mynet",
    "myrouter", "novalocal", "onion", "openstacklocal", "priv", "private", "prv", "router", "telus",
    "test", "totolink", "wlan_ap", "workgroup", "zghjccbob3n0"]

@[irreducible] def undelegatedSuffixes : PrefixMap Char Unit :=
  .ofList (undelegatedSet.map fun line => (line.toList.reverse, ()))

def blockUndelegatedEval (suffixes : PrefixMap Char Unit) (ctx : Ctx) : Evaluated :=
  let revQname := ctx.st.qName.reverse
  match suffixes.longestPrefix revQname with
  | none => ctx.ok
  | some (hit, _) =>
    if PatternMatcher.endsAtLabel hit revQname then
      ((ctx.answer (nameErrorFor ctx.msg)).withCode .synth).ok
    else ctx.ok

/-! ## Cloaking -/

/-- The values of the matcher are pointers to the names in `World.cloakedNames`. -/
structure CloakRules where
  patternMatcher : PatternMatcher Nat
  ttl : UInt32

/-- At most 16 addresses of a family are kept; the loop ends where one family has
as many. -/
def splitFamilies : List IP → List IP → List IP → List IP × List IP
  | ipv4, ipv6, [] => (ipv4, ipv6)
  | ipv4, ipv6, ip :: ips =>
    if (IP.to4 ip).isSome then
      let ipv4 := ipv4 ++ [ip]
      if ipv4.length ≥ 16 then (ipv4, ipv6) else splitFamilies ipv4 ipv6 ips
    else
      let ipv6 := ipv6 ++ [ip]
      if ipv6.length ≥ 16 then (ipv4, ipv6) else splitFamilies ipv4 ipv6 ips

/-- The TTL left since the last lookup, and whether it is over. -/
def cloakTTL (ttl : UInt32) (lastUpdate : Option Time) (now : Time) : UInt32 × Bool :=
  match lastUpdate with
  | none => (ttl, false)
  | some last =>
    let elapsed := UInt32.ofNat ((now - last) / second).toNat
    if elapsed < ttl then (ttl - elapsed, false) else (ttl, true)

def cloakAnswers (name : CloakedName) (question : Question) (ttl : UInt32) : List RR :=
  let data :=
    if question.qtype = typeA then name.ipv4.map RData.a
    else if question.qtype = typeAAAA then name.ipv6.map RData.aaaa
    else name.ptr.map RData.ptr
  data.map fun d => ⟨question.name, classINET, ttl, d⟩

/-- What the query plugins learn from outside while one query is processed. -/
structure QueryEnv where
  now : Time
  /-- The random choices of a client subnet and of a forwarding server. -/
  subnet : Nat
  forwarder : Nat
  lookupIP : Text → Except GoError (List IP)
  shuffle : List RR → List RR
  shuffle_perm : ∀ rrs, (shuffle rrs).Perm rrs
  /-- `dns.Client.Exchange` with a forwarding server. -/
  exchange : NetProto → Text → Msg → Except GoError Msg

def cloakEval (rules : CloakRules) (env : QueryEnv) (ctx : Ctx) : Evaluated := do
  let question ← ctx.question
  if question.qclass ≠ classINET ∨ (question.qtype ≠ typeA ∧ question.qtype ≠ typeAAAA ∧
      question.qtype ≠ typePTR) then ctx.ok
  else
    match (rules.patternMatcher.eval ctx.st.qName).val with
    | none => ctx.ok
    | some pointer =>
      let name := ctx.world.cloakedNames pointer
      let (ttl, expired) := cloakTTL rules.ttl name.lastUpdate env.now
      let respond := fun (ctx : Ctx) (name : CloakedName) =>
        let synth := { emptyResponseFromMessage ctx.msg with
          answer := env.shuffle (cloakAnswers name question ttl) }
        ((ctx.answer synth).withCode .cloak).ok
      if !name.isIP ∧ ((name.ipv4 = [] ∧ name.ipv6 = []) ∨ expired) then
        match env.lookupIP name.target with
        | .error _ => ctx.ok
        | .ok foundIPs =>
          let (ipv4, ipv6) := splitFamilies [] [] foundIPs
          let name := { name with lastUpdate := some env.now, ipv4 := ipv4, ipv6 := ipv6 }
          respond { ctx with
            world.cloakedNames := Function.update ctx.world.cloakedNames pointer name } name
      else respond ctx name

/-! ## EDNS0 -/

/-- A `*net.IPNet`, with the two results of `Mask.Size`. -/
structure IPNet where
  ip : IP
  ones : Nat
  bits : Nat
  deriving DecidableEq, Repr

def isOPT (rr : RR) : Bool := rr.rrtype = typeOPT

/-- The EDNS-client-subnet option for a network, by its fields. -/
def subnetOption (net : IPNet) : Option EDNS0Option :=
  let option := fun family => some ⟨edns0Subnet, putUint16 family ++ [UInt8.ofNat net.ones, 0] ++ net.ip⟩
  if net.bits = 32 then option 1 else if net.bits = 128 then option 2 else none

def ecsEval (nets : List IPNet) (env : QueryEnv) (ctx : Ctx) : Evaluated :=
  let found := ctx.msg.extra.find? isOPT
  if (found.map RR.options).any fun options => options.any fun option => option.code = edns0Subnet
  then ctx.ok
  else
    let msg := if found.isNone
      then ctx.msg.setEdns0 (UInt16.ofNat ctx.st.maxPayloadSize) false
      else ctx.msg
    match nets[env.subnet % nets.length]? with
    | none => ctx.panic .indexOutOfRange
    | some net =>
      match subnetOption net with
      | none => Ctx.ok { ctx with msg := msg }
      | some option =>
        Ctx.ok { ctx with msg := { msg with
          extra := modifyFirst isOPT (fun rr => rr.setOptions (rr.options ++ [option])) msg.extra } }

/-- The options of the first OPT record that has any. -/
def firstOptions (extra : List RR) : Option (List EDNS0Option) :=
  (extra.find? fun rr => isOPT rr && rr.options ≠ []).map RR.options

def getSetPayloadSizeEval (ctx : Ctx) : Evaluated :=
  let st := { ctx.st with originalMaxPayloadSize := 512 - responseOverhead }
  let edns0 := ctx.msg.isEdns0
  let st := match edns0 with
    | some rr => { st with
        maxUnencryptedUDPSafePayloadSize := rr.udpSize.toNat
        originalMaxPayloadSize :=
          max (rr.udpSize.toNat - responseOverhead) st.originalMaxPayloadSize }
    | none => st
  let dnssec := edns0.any RR.edns0Do
  let maxPayloadSize := min (maxDNSUDPPacketSize - responseOverhead)
    (max st.originalMaxPayloadSize st.maxPayloadSize)
  let st := { st with dnssec := dnssec, maxPayloadSize := maxPayloadSize }
  if maxPayloadSize > 512 then
    let msg := { ctx.msg with extra := ctx.msg.extra.filter fun rr => !isOPT rr }
    let msg := msg.setEdns0 (UInt16.ofNat maxPayloadSize) dnssec
    let msg := match firstOptions ctx.msg.extra with
      | some options => { msg with
          extra := modifyFirst isOPT (fun rr => rr.setOptions options) msg.extra }
      | none => msg
    Ctx.ok { ctx with st := st, msg := msg }
  else Ctx.ok { ctx with st := st }

/-! ## Forwarding -/

structure ForwardEntry where
  domain : Text
  servers : List Text
  deriving DecidableEq, Repr

def forwardEval (forwardMap : List ForwardEntry) (env : QueryEnv) (ctx : Ctx) : Evaluated :=
  let servers := ((forwardMap.find? fun candidate =>
    PatternMatcher.AtLabel candidate.domain ctx.st.qName).map (·.servers)).getD []
  match servers[env.forwarder % servers.length]? with
  | none => ctx.ok
  | some server =>
    let ctx := { ctx with st.serverName := server }
    let reply := do
      let respMsg ← env.exchange ctx.st.serverProto server ctx.msg
      if respMsg.truncated then env.exchange .tcp server ctx.msg else return respMsg
    match reply with
    | .error e => ctx.fails e
    | .ok respMsg =>
      let respMsg := if respMsg.isEdns0.any RR.edns0Do then respMsg
        else { respMsg with authenticatedData := false }
      ((ctx.answer { respMsg with id := ctx.msg.id }).withCode .forward).ok

/-! ## The cache reader -/

def staleResponseTTL : Time := 30 * second

/-- The UTF-8 bytes of a name. -/
def nameBytes (name : Text) : Bytes := name.flatMap String.utf8EncodeChar

/-- `computeCacheKey`, for the first question of a message. -/
def cacheKey (prims : Primitives) (dnssec : Bool) (question : Question) : CacheKey :=
  prims.sum512_256
    ([question.qtype.toUInt8, (question.qtype >>> 8).toUInt8,
      question.qclass.toUInt8, (question.qclass >>> 8).toUInt8, if dnssec then 1 else 0] ++
      nameBytes (normalizeRawQName question.name))

/-- A cached message as it is served for a query. -/
def servedFor (msg cached : Msg) : Msg :=
  { cached with id := msg.id, response := true, compress := true, question := msg.question }

def cacheEval (pkgs : Packages) (now : Time) (ctx : Ctx) : Evaluated := do
  let question ← ctx.question
  let key := cacheKey pkgs.prims ctx.st.dnssec question
  match ctx.world.cache with
  | none => ctx.ok
  | some cache =>
    let (hit, cache) := cache.get key
    let world := { ctx.world with cache := some cache }
    match hit with
    | none => Ctx.ok { ctx with world := world }
    | some cached =>
      let synth := servedFor ctx.msg cached.msg
      if now > cached.expiration then
        let synth := updateTTL synth (now + staleResponseTTL) now
        Ctx.ok { ctx with
          st.stale := some synth
          world := world.log (.found false question ctx.st.dnssec synth now) }
      else
        let synth := updateTTL synth cached.expiration now
        let ctx := Ctx.answer { ctx with
          world := world.log (.found true question ctx.st.dnssec synth now) } synth
        Ctx.ok { ctx with st.cacheHit := true }

/-! ## The plugins in use -/

inductive QueryPlugin where
  | captivePortal (ipsMap : CaptivePortalMap)
  | queryMeta (txt : List Text)
  | allowName (names : BlockedNames)
  | firefox
  | ecs (nets : List IPNet)
  | blockName (names : BlockedNames)
  | blockIPv6
  | cloak (rules : CloakRules)
  | getSetPayloadSize
  | cache
  | forward (forwardMap : List ForwardEntry)
  | blockUnqualified
  | blockUndelegated

def QueryPlugin.eval (pkgs : Packages) (env : QueryEnv) : QueryPlugin → Ctx → Evaluated
  | .captivePortal ipsMap => captivePortalEval ipsMap
  | .queryMeta txt => queryMetaEval txt
  | .allowName names => allowNameEval pkgs env.now names
  | .firefox => firefoxEval
  | .ecs nets => ecsEval nets env
  | .blockName names => blockNameEval pkgs env.now names
  | .blockIPv6 => blockIPv6Eval
  | .cloak rules => cloakEval rules env
  | .getSetPayloadSize => getSetPayloadSizeEval
  | .cache => cacheEval pkgs env.now
  | .forward forwardMap => forwardEval forwardMap env
  | .blockUnqualified => blockUnqualifiedEval
  | .blockUndelegated => blockUndelegatedEval undelegatedSuffixes

end DnscryptProxy
