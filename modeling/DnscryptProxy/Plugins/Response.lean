import DnscryptProxy.Plugins.Query

/-! The response plugins and the query log. DNS64 sends a query of its own through
the proxy; here that is a parameter, closed in `Proxy`. -/

namespace DnscryptProxy

open Library

/-! ## Logs -/

def nxLogEval (ctx : Ctx) : Evaluated := do
  if ctx.msg.rcode ≠ rcodeNameError then ctx.ok
  else
    let _ ← ctx.question
    ctx.logTo true
    ctx.ok

/-- The query log ignores the given record types. -/
def queryLogEval (pkgs : Packages) (ignoredQtypes : List Text) (ctx : Ctx) : Evaluated := do
  let question ← ctx.question
  let qType := (pkgs.dns.typeToString question.qtype).getD []
  if ignoredQtypes.any fun ignored => pkgs.equalFold ignored qType then ctx.ok
  else
    ctx.logTo true
    let local? := ctx.st.cacheHit || ctx.st.returnCode = .synth || ctx.st.returnCode = .cloak ||
      ctx.st.returnCode = .parseError
    if local? then Ctx.ok { ctx with st.serverName := ['-'] } else ctx.ok

/-! ## Addresses in answers -/

/-- The rules of `PluginBlockIP` and `PluginAllowedIP`: whole addresses and the
starts of addresses, as texts. -/
structure IPRules where
  ips : List Text
  prefixes : PrefixMap Char Unit
  logger : Bool

/-- The address of an answer that the rules look at, as text. -/
def RR.ipStr (rr : RR) : Option Text :=
  if rr.cls ≠ classINET then none
  else match rr.data with
    | .a ip => some (IP.string ip)
    | .aaaa ip => some (IP.string ip)
    | _ => none

def IPRules.covers (rules : IPRules) (ipStr : Text) : Bool :=
  rules.ips.any (· = ipStr) ||
    match rules.prefixes.longestPrefix ipStr with
    | none => false
    | some (hit, _) =>
      hit.length = ipStr.length || ipStr[hit.length]? = some '.' || ipStr[hit.length]? = some ':'

/-- Some address among the answers is covered by a rule. -/
def IPRules.hits (rules : IPRules) (answers : List RR) : Bool :=
  answers.any fun rr => rr.ipStr.any rules.covers

def allowedIPEval (rules : IPRules) (ctx : Ctx) : Evaluated := do
  if rules.hits ctx.msg.answer then
    let ctx := { ctx with st.whitelisted := true }
    ctx.logTo rules.logger
    ctx.ok
  else ctx.ok

def blockIPEval (rules : IPRules) (ctx : Ctx) : Evaluated := do
  if ctx.st.whitelisted then ctx.ok
  else if rules.hits ctx.msg.answer then
    let ctx := { ctx with st.action := .reject, st.returnCode := .reject }
    ctx.logTo rules.logger
    ctx.ok
  else ctx.ok

/-! ## Aliases in answers -/

def aliasesLimit : Nat := 8

/-- The name that an answer is an alias for, where it is one. -/
def RR.aliasTarget (rr : RR) : Option Text :=
  if rr.cls ≠ classINET then none
  else match rr.data with
    | .cname target => some target
    | .svcb priority target => if priority = 0 then some target else none
    | .https priority target => if priority = 0 then some target else none
    | _ => none

def checkAliases (names : BlockedNames) (now : LocalTime) (ctx : Ctx) :
    Nat → List Text → Evaluated
  | 0, _ => ctx.ok
  | _, [] => ctx.ok
  | left + 1, target :: targets =>
    match normalizeQName target with
    | .error e => ctx.fails e
    | .ok target => do
      let (blocked, st) ← ctx.world.lift (names.check now ctx.st target)
      if blocked then Ctx.ok { ctx with st := st } else checkAliases names now ctx left targets

def blockNameResponseEval (pkgs : Packages) (now : Time) (names : BlockedNames) (ctx : Ctx) :
    Evaluated :=
  if ctx.st.whitelisted then ctx.ok
  else checkAliases names (pkgs.zone now) ctx aliasesLimit (ctx.msg.answer.filterMap RR.aliasTarget)

/-! ## DNS64 -/

/-- What the response plugins learn from outside: the time, the random ID of a DNS64
query, and the handler of that query, `none` when too many clients are active. -/
structure ResponseEnv where
  now : Time
  freshID : UInt16
  subquery : Option (World → Bytes → Except Halted (Bytes × World))

/-- The loop of `translateToIPv6` from octet `i` on; octet 8 of the result is
skipped. -/
def embedFrom (ipv6 : Bytes) (ipShift i : Nat) : Bytes → Except Panic Bytes
  | [] => .ok ipv6
  | b :: rest =>
    let ipShift := if ipShift + i = 8 then ipShift + 1 else ipShift
    if ipShift + i < ipv6.length then embedFrom (ipv6.set (ipShift + i) b) ipShift (i + 1) rest
    else .error .indexOutOfRange

def translateToIPv6 (ipv4 : IP) (pref : IPNet) : Except Panic IP :=
  let ipv6 := (pref.ip ++ List.replicate 16 0).take 16
  embedFrom ipv6 (pref.ones / 8) 0 (ipv4.take 4)

def hasAAAAAnswer (msg : Msg) : Bool := msg.answer.any fun rr => rr.rrtype = typeAAAA

/-- The records that one answer to the A query becomes. -/
def synthesize (pref64 : List IPNet) (initialTTL : UInt32) (answer : RR) : Except Panic (List RR) :=
  match answer.data with
  | .cname _ => .ok [answer]
  | .a ip =>
    let ttl := if initialTTL > answer.ttl then answer.ttl else initialTTL
    match IP.to4 ip with
    | none => .ok []
    | some ipv4 => pref64.mapM fun pref => do
        let ipv6 ← translateToIPv6 ipv4 pref
        return { answer with ttl := ttl, data := .aaaa ipv6 }
  | _ => .ok []

/-- The TTL of the last SOA record of the authority section. -/
def soaTTL (ns : List RR) : UInt32 :=
  ns.foldl (fun ttl rr => if rr.rrtype = typeSOA then rr.ttl else ttl) 600

/-- `SetQuestion` on a copy of the client's message. -/
def addressQuery (client : Msg) (question : Question) (id : UInt16) : Msg :=
  { client with id := id, recursionDesired := true, question := [⟨question.name, typeA, classINET⟩] }

/-- The end of `PluginDNS64.Eval`, with the answer to the A query. -/
def dns64Synthesize (pref64 : List IPNet) (ctx : Ctx) (resp : Msg) : Evaluated := do
  if resp.rcode ≠ rcodeSuccess ∨ resp.answer = [] then ctx.ok
  else
    let synth64 ← ctx.world.lift (resp.answer.mapM (synthesize pref64 (soaTTL resp.ns)))
    let synth := emptyResponseFromMessage ctx.msg
    let synth := { synth with answer := synth.answer ++ synth64.flatten }
    ((ctx.answer synth).withCode .cloak).ok

/-- The middle of `PluginDNS64.Eval`: the A query goes through the proxy. -/
def dns64Query (pkgs : Packages) (env : ResponseEnv) (pref64 : List IPNet) (ctx : Ctx)
    (packet : Bytes) : Evaluated :=
  match env.subquery with
  | none => ctx.fails (.plain "Too many concurrent connections to handle DNS64 subqueries")
  | some subquery => do
    let (respPacket, world) ← subquery ctx.world packet
    let ctx := { ctx with world := world }
    match pkgs.dns.unpack respPacket with
    | .error e => ctx.fails e
    | .ok resp => dns64Synthesize pref64 ctx resp

def dns64Eval (pkgs : Packages) (env : ResponseEnv) (pref64 : List IPNet) (ctx : Ctx) : Evaluated :=
  if hasAAAAAnswer ctx.msg then ctx.ok
  else match ctx.st.questionMsg with
    | none => ctx.panic .nilDereference
    | some client =>
      match client.question with
      | [] => ctx.panic .indexOutOfRange
      | question :: _ =>
        if question.qclass ≠ classINET ∨ question.qtype ≠ typeAAAA then ctx.ok
        else match pkgs.dns.pack (addressQuery client question env.freshID) with
          | .error e => ctx.fails e
          | .ok packet => dns64Query pkgs env pref64 ctx packet

/-! ## The cache writer -/

/-- The codes of the answers that are kept. -/
def cacheableRcode (rcode : Nat) : Bool :=
  rcode = rcodeSuccess || rcode = rcodeNameError || rcode = rcodeNotAuth

/-- The stored message shares its records with the one that is returned, so the
TTLs written there at the end are the stored ones too. -/
def cacheResponseEval (pkgs : Packages) (now : Time) (ctx : Ctx) : Evaluated := do
  if !cacheableRcode ctx.msg.rcode then ctx.ok
  else if ctx.msg.truncated then ctx.ok
  else
    let question ← ctx.question
    let key := cacheKey pkgs.prims ctx.st.dnssec question
    let expiration := now + getMinTTL ctx.msg ctx.st.ttls
    let msg := updateTTL ctx.msg expiration now
    let cachedResponse : CachedResponse := ⟨expiration, msg⟩
    match ctx.world.cache.or (ArcCache.new ctx.st.cacheSize) with
    | none => ctx.fails (.plain "Must provide a positive size")
    | some cache =>
      let world := { ctx.world with cache := some (cache.add key cachedResponse) }
      Ctx.ok { ctx with
        msg := msg
        world := world.log (.stored ctx.st.questionMsg ctx.st.dnssec cachedResponse) }

/-! ## The plugins in use -/

inductive ResponsePlugin where
  | nxLog
  | allowedIP (rules : IPRules)
  | blockName (names : BlockedNames)
  | blockIP (rules : IPRules)
  | dns64 (pref64 : List IPNet)
  | cacheResponse

def ResponsePlugin.eval (pkgs : Packages) (env : ResponseEnv) : ResponsePlugin → Ctx → Evaluated
  | .nxLog => nxLogEval
  | .allowedIP rules => allowedIPEval rules
  | .blockName names => blockNameResponseEval pkgs env.now names
  | .blockIP rules => blockIPEval rules
  | .dns64 pref64 => dns64Eval pkgs env pref64
  | .cacheResponse => cacheResponseEval pkgs env.now

end DnscryptProxy
