import DnscryptProxy.Library.Chain
import DnscryptProxy.Plugins.Response

/-! `plugins.go`: which plugins are in use and in which order, and how a query, a
response and a log line go through them. -/

namespace DnscryptProxy

open Library

/-! ## The plugins in use -/

/-- The settings that `InitPluginsGlobals` reads; an option with a file is `none`
when no file is given, and else holds what was loaded from it. -/
structure Settings where
  captivePortalMap : Option CaptivePortalMap
  queryMeta : List Text
  allowName : Option BlockedNames
  ednsClientSubnets : List IPNet
  blockName : Option BlockedNames
  pluginBlockIPv6 : Bool
  cloak : Option CloakRules
  cache : Bool
  forward : Option (List ForwardEntry)
  pluginBlockUnqualified : Bool
  pluginBlockUndelegated : Bool
  nxLog : Bool
  allowedIP : Option IPRules
  blockIP : Option IPRules
  dns64 : Option (List IPNet)
  queryLog : Option (List Text)
  refusedCodeInResponses : Bool
  respondWithIPv4 : IP
  respondWithIPv6 : IP
  query : QuerySettings

namespace Settings

/-- None of the optional plugins. -/
def bare : Settings where
  captivePortalMap := none
  queryMeta := []
  allowName := none
  ednsClientSubnets := []
  blockName := none
  pluginBlockIPv6 := false
  cloak := none
  cache := false
  forward := none
  pluginBlockUnqualified := false
  pluginBlockUndelegated := false
  nxLog := false
  allowedIP := none
  blockIP := none
  dns64 := none
  queryLog := none
  refusedCodeInResponses := false
  respondWithIPv4 := []
  respondWithIPv6 := []
  query := ⟨512, ⟨10, 86400, 60, 600⟩, 10⟩

def queryPlugins (s : Settings) : List QueryPlugin :=
  (s.captivePortalMap.map .captivePortal).toList ++
  (if s.queryMeta ≠ [] then [.queryMeta s.queryMeta] else []) ++
  (s.allowName.map .allowName).toList ++
  [.firefox] ++
  (if s.ednsClientSubnets ≠ [] then [.ecs s.ednsClientSubnets] else []) ++
  (s.blockName.map .blockName).toList ++
  (if s.pluginBlockIPv6 then [.blockIPv6] else []) ++
  (s.cloak.map .cloak).toList ++
  [.getSetPayloadSize] ++
  (if s.cache then [.cache] else []) ++
  (s.forward.map .forward).toList ++
  (if s.pluginBlockUnqualified then [.blockUnqualified] else []) ++
  (if s.pluginBlockUndelegated then [.blockUndelegated] else [])

/-- The response plugins that come before the cache writer. -/
def responseFilters (s : Settings) : List ResponsePlugin :=
  (if s.nxLog then [.nxLog] else []) ++
  (s.allowedIP.map .allowedIP).toList ++
  (s.blockName.map .blockName).toList ++
  (s.blockIP.map .blockIP).toList ++
  (s.dns64.map .dns64).toList

def responsePlugins (s : Settings) : List ResponsePlugin :=
  s.responseFilters ++ if s.cache then [.cacheResponse] else []

end Settings

/-! ## Applying them -/

/-- What the loops over the plugins do after each `Eval`. -/
def afterEval (s : Settings) (ctx : Ctx) (err : Option GoError) : Step Ctx GoError :=
  match err with
  | some e => .fail e { ctx with st.action := .drop }
  | none =>
    let ctx := if ctx.st.action = .reject then
        { ctx with st.synthResponse := some (refusedResponseFromMessage ctx.msg
            s.refusedCodeInResponses s.respondWithIPv4 s.respondWithIPv6 ctx.st.rejectTTL) }
      else ctx
    if ctx.st.action ≠ .cont then .stop ctx else .next ctx

def queryStage (s : Settings) (pkgs : Packages) (env : QueryEnv) (plugin : QueryPlugin)
    (ctx : Ctx) : Except Halted (Step Ctx GoError) := do
  let (ctx, err) ← plugin.eval pkgs env ctx
  return afterEval s ctx err

def responseStage (s : Settings) (pkgs : Packages) (env : ResponseEnv) (plugin : ResponsePlugin)
    (ctx : Ctx) : Except Halted (Step Ctx GoError) := do
  let (ctx, err) ← plugin.eval pkgs env ctx
  return afterEval s ctx err

/-- What an application of the plugins returns: a packet and an error together. -/
structure Applied where
  packet : Bytes
  err : Option GoError
  st : PluginsState
  world : World

/-- The checks that a query passes before any plugin sees it. -/
def parseQuery (lib : DNSLibrary) (packet : Bytes) : Except GoError (Msg × Text) := do
  let msg ← lib.unpack packet
  match msg.question with
  | [question] => return (msg, ← normalizeQName question.name)
  | _ => .error (.plain "Unexpected number of questions")

def repackQuery (lib : DNSLibrary) (packet : Bytes) (needsEDNS0Padding : Bool) (ctx : Ctx) :
    Applied :=
  let keep := fun msg : Msg => { ctx.st with questionMsg := some msg }
  match lib.pack ctx.msg with
  | .error e => ⟨lib.packFailure ctx.msg packet, some e, keep ctx.msg, ctx.world⟩
  | .ok packet2 =>
    if needsEDNS0Padding ∧ ctx.st.action = .cont then
      let padLen := 63 - (packet2.length + 63) % 64
      match addEDNS0PaddingIfNoneFound lib ctx.msg packet2 padLen with
      | (.ok paddedPacket2, msg) => ⟨paddedPacket2, none, keep msg, ctx.world⟩
      | (.error _, msg) => ⟨packet2, none, keep msg, ctx.world⟩
    else ⟨packet2, none, keep ctx.msg, ctx.world⟩

/-- `ApplyQueryPlugins`. The list of plugins is never empty, so its shortcut for
empty lists is not taken. -/
def applyQueryPlugins (s : Settings) (pkgs : Packages) (env : QueryEnv) (st : PluginsState)
    (world : World) (packet : Bytes) (needsEDNS0Padding : Bool) : Except Halted Applied :=
  match parseQuery pkgs.dns packet with
  | .error e => .ok ⟨packet, some e, st, world⟩
  | .ok (msg, qName) => do
    let st := { st with qName := qName, questionMsg := some msg }
    match ← chain (queryStage s pkgs env) s.queryPlugins ⟨st, msg, world⟩ with
    | .fail e ctx => return ⟨packet, some e, { ctx.st with questionMsg := some ctx.msg }, ctx.world⟩
    | .stop ctx => return repackQuery pkgs.dns packet needsEDNS0Padding ctx
    | .next ctx => return repackQuery pkgs.dns packet needsEDNS0Padding ctx

def returnCodeFor (rcode : Nat) : PluginsReturnCode :=
  if rcode = rcodeSuccess then .pass
  else if rcode = rcodeNameError then .nxDomain
  else if rcode = rcodeServerFailure then .servFail
  else .responseError

/-- The end of `ApplyResponsePlugins`. -/
def repackResponse (lib : DNSLibrary) (packet : Bytes) (ttl : Option UInt32) (ctx : Ctx) :
    Applied :=
  let msg := match ttl with
    | some ttl => setMaxTTL ctx.msg ttl
    | none => ctx.msg
  match lib.pack msg with
  | .error e => ⟨lib.packFailure msg packet, some e, ctx.st, ctx.world⟩
  | .ok packet2 => ⟨packet2, none, ctx.st, ctx.world⟩

/-- The message and the state with which the response plugins start. -/
def responseCtx (st : PluginsState) (world : World) (packet : Bytes) (msg : Msg) : Ctx :=
  ⟨{ st with returnCode := returnCodeFor (packetRcode packet) },
    removeEDNS0Options { msg with compress := true }, world⟩

def applyResponsePlugins (s : Settings) (pkgs : Packages) (env : ResponseEnv) (st : PluginsState)
    (world : World) (packet : Bytes) (ttl : Option UInt32) : Except Halted Applied :=
  match pkgs.dns.unpack packet with
  | .error e =>
    -- a truncated packet is delivered whether or not it can be parsed
    let err := if packet.length ≥ minDNSPacketSize ∧ hasTCFlag packet then none else some e
    .ok ⟨packet, err, st, world⟩
  | .ok msg => do
    match ← chain (responseStage s pkgs env) s.responsePlugins (responseCtx st world packet msg) with
    | .fail e ctx => return ⟨packet, some e, ctx.st, ctx.world⟩
    | .stop ctx => return repackResponse pkgs.dns packet ttl ctx
    | .next ctx => return repackResponse pkgs.dns packet ttl ctx

def applyLoggingPlugins (s : Settings) (pkgs : Packages) (st : PluginsState) (world : World) :
    Except Halted Unit :=
  match s.queryLog, st.questionMsg with
  | some ignoredQtypes, some questionMsg =>
    (queryLogEval pkgs ignoredQtypes ⟨st, questionMsg, world⟩).map fun _ => ()
  | _, _ => .ok ()

end DnscryptProxy
