import DnscryptProxy.Padding
import DnscryptProxy.Relays

/-! The local DoH server of `local-doh.go`. A reply is padded with a header, or with an EDNS0 option
where the client's query has one. `ServeHTTP` adds the option to the message that it finds in the
buffer of the query; `replies_alike_iff` says for which queries the replies hide the length of the
response.

`PackBuffer` packs a message in place where the buffer is long enough. The query plugins thereby
change the packet that `ServeHTTP` has given to `processIncomingQuery` and parses again afterwards;
`queryBuffer` is what it finds there. -/

namespace DnscryptProxy

open Library

/-! ## Requests and replies -/

/-- A request, with the bytes of its body that can be read, the error after them, and the
parameter `dns` of its URL. -/
structure HTTPRequest where
  path : Text
  method : Text
  contentType : Text
  accept : Text
  body : Bytes
  bodyErr : Option GoError
  dns : Bytes
  remoteAddr : Text

structure HTTPReply where
  code : Nat
  contentType : Option Text
  xPad : Option Text
  body : Bytes
  deriving DecidableEq, Repr

/-- A client of the local DoH server. -/
def Caller.ofLocalDoH (clientAddr : Endpoint) : Caller := .localDoH clientAddr.ip clientAddr.port

def dataType : Text := "application/dns-message".toList

namespace HTTPReply

/-- A handler that returns without writing anything. -/
def unanswered : HTTPReply := ⟨200, none, none, []⟩

def status (code : Nat) : HTTPReply := ⟨code, none, none, []⟩

/-- The body and the header for padding. -/
def length (reply : HTTPReply) : Nat := reply.body.length + (reply.xPad.getD []).length

end HTTPReply

def dohBoundaries : List Nat :=
  [64, 128, 192, 256, 320, 384, 512, 704, 768, 896, 960, 1024, 1088, 1152, 2688, 4080,
    maxDNSPacketSize]

def dohPaddedLen (unpaddedLen : Nat) : Nat :=
  (dohBoundaries.find? fun boundary => unpaddedLen ≤ boundary).getD unpaddedLen

def hasEDNS0Padding (lib : DNSLibrary) (packet : Bytes) : Except GoError Bool := do
  let msg ← lib.unpack packet
  match msg.isEdns0 with
  | some edns0 => return edns0.options.any fun option => option.code = edns0Padding
  | none => return false

/-! ## The handler -/

/-- The settings of the handler, and the packages it uses. -/
structure LocalDoHHandler where
  localDoHPath : Text
  dns : DNSLibrary
  net : NetLibrary
  decodeRawURL : Bytes → Except GoError Bytes

namespace LocalDoHHandler

/-- The query in a request. -/
def readPacket (handler : LocalDoHHandler) (request : HTTPRequest) : Except GoError Bytes :=
  if request.method = "POST".toList ∧ request.contentType = dataType then
    readAllLimited maxDNSPacketSize request.body request.bodyErr
  else if request.method = "GET".toList ∧ request.accept = dataType then
    if minDNSPacketSize * 4 / 3 ≤ request.dns.length ∧ request.dns.length ≤ maxDNSPacketSize * 4 / 3
    then handler.decodeRawURL request.dns
    else .ok []
  else .ok []

/-- The end of `ServeHTTP`, with the response and what the buffer of the query holds by then. -/
def reply (handler : LocalDoHHandler) (hasEDNS0Padding : Bool) (packet response : Bytes) :
    HTTPReply :=
  if response = [] then .status 500
  else match handler.dns.unpack packet with
    | .error _ => .status 500
    | .ok msg =>
      let padLen := dohPaddedLen response.length - response.length
      if hasEDNS0Padding then
        match (addEDNS0PaddingIfNoneFound handler.dns msg response padLen).1 with
        | .error _ => .unanswered
        | .ok response => ⟨200, some dataType, none, response⟩
      else ⟨200, some dataType, some (List.replicate padLen 'X'), response⟩

def serveHTTP (handler : LocalDoHHandler) (admitted : Bool)
    (process : Caller → Bytes → Except Halted (Bytes × Bytes)) (request : HTTPRequest) :
    Except Halted HTTPReply :=
  if !admitted then .ok .unanswered
  else if request.path ≠ handler.localDoHPath then .ok (.status 404)
  else match handler.readPacket request with
    | .error _ => .ok .unanswered
    | .ok packet =>
      if packet.length < minDNSPacketSize then
        .ok ⟨400, some "text/plain".toList, none,
          nameBytes "dnscrypt-proxy local DoH server\n".toList⟩
      else match handler.net.resolve .tcp request.remoteAddr with
        | .error _ => .ok .unanswered
        | .ok clientAddr =>
          match DnscryptProxy.hasEDNS0Padding handler.dns packet with
          | .error _ => .ok (.status 400)
          | .ok hasEDNS0Padding => do
            let (response, packet) ← process (.ofLocalDoH clientAddr) packet
            return handler.reply hasEDNS0Padding packet response

end LocalDoHHandler

/-! ## The buffer of the query -/

/-- What a call learns from outside. Behind a query that was packed in place, `rest` is left in the
buffer: the end of the client's packet, or what `pad` has written over it. -/
structure LocalDoHRun where
  env : CallEnv
  envs : List CallEnv
  world : World
  rest : Bytes

/-- `PackBuffer`, as far as the buffer is concerned. -/
def packBuffer (lib : DNSLibrary) (uncompressedLen : Msg → Nat) (msg : Msg) (buffer rest : Bytes) :
    Bytes :=
  if buffer.length < uncompressedLen msg + 1 then buffer
  else match lib.pack msg with
    | .ok packet => packet ++ rest
    | .error _ => lib.packFailure msg buffer

/-- What `ApplyQueryPlugins` makes of the buffer that it is given. -/
def queryBuffer (p : Proxy) (uncompressedLen : Msg → Nat) (run : LocalDoHRun) (caller : Caller)
    (packet : Bytes) : Bytes :=
  let st := newPluginsState p.settings.query caller.clientProto caller.clientAddr
    (caller.serverProto p.mainProto)
  match parseQuery p.pkgs.dns packet with
  | .error _ => packet
  | .ok (msg, qName) =>
    match chain (queryStage p.settings p.pkgs run.env.query) p.settings.queryPlugins
        (queryCtx st run.world msg qName) with
    | .ok (.next ctx) => packBuffer p.pkgs.dns uncompressedLen ctx.msg packet run.rest
    | .ok (.stop ctx) => packBuffer p.pkgs.dns uncompressedLen ctx.msg packet run.rest
    | _ => packet

/-- `processIncomingQuery`, as `ServeHTTP` sees it. -/
def Proxy.process (p : Proxy) (uncompressedLen : Msg → Nat) (run : LocalDoHRun) (caller : Caller)
    (packet : Bytes) : Except Halted (Bytes × Bytes) := do
  let exit ← processIncomingQuery p caller run.env run.envs run.world packet
  return (exit.response, queryBuffer p uncompressedLen run caller packet)

/-! ## The length of a reply -/

theorem le_dohPaddedLen (unpaddedLen : Nat) : unpaddedLen ≤ dohPaddedLen unpaddedLen := by
  unfold dohPaddedLen
  cases h : dohBoundaries.find? fun boundary => unpaddedLen ≤ boundary with
  | none => exact le_rfl
  | some boundary => simpa using List.find?_some h

theorem hasEDNS0Padding_eq (lib : DNSLibrary) (packet : Bytes) :
    hasEDNS0Padding lib packet = (lib.unpack packet).map Msg.hasPadding := by
  unfold hasEDNS0Padding Msg.hasPadding
  cases lib.unpack packet with
  | error e => rfl
  | ok msg =>
    simp only [bind, Except.bind, Except.map]
    cases msg.isEdns0 with
    | none => rfl
    | some rr => rfl

/-- The body is the response, or what comes of packing it with a padding option. -/
structure HTTPReply.Delivers (reply : HTTPReply) (lib : DNSLibrary) (response : Bytes) : Prop where
  code : reply.code = 200
  contentType : reply.contentType = some dataType
  body : reply.body = response ∨ ∃ msg padLen, lib.unpack response = .ok msg ∧
    lib.pack (msg.withEdns0.withOption (paddingOption padLen)) = .ok reply.body

namespace LocalDoHHandler

variable {handler : LocalDoHHandler} {request : HTTPRequest} {packet response : Bytes}
  {clientAddr : Endpoint} {msg : Msg}

/-- The request has a query that can be parsed, and comes from an address. -/
structure Asked (handler : LocalDoHHandler) (request : HTTPRequest) (packet : Bytes)
    (clientAddr : Endpoint) (msg : Msg) : Prop where
  path : request.path = handler.localDoHPath
  read : handler.readPacket request = .ok packet
  length : minDNSPacketSize ≤ packet.length
  client : handler.net.resolve .tcp request.remoteAddr = .ok clientAddr
  parsed : handler.dns.unpack packet = .ok msg

theorem Asked.serveHTTP_eq (h : handler.Asked request packet clientAddr msg)
    {process : Caller → Bytes → Except Halted (Bytes × Bytes)} {buffer : Bytes}
    (hprocess : process (.ofLocalDoH clientAddr) packet = .ok (response, buffer)) :
    handler.serveHTTP true process request = .ok (handler.reply msg.hasPadding buffer response) := by
  have hpadding : hasEDNS0Padding handler.dns packet = .ok msg.hasPadding := by
    rw [hasEDNS0Padding_eq, h.parsed]
    rfl
  unfold serveHTTP
  rw [if_neg (by decide), if_neg (by simpa using h.path), h.read]
  dsimp only
  rw [if_neg (Nat.not_lt.mpr h.length), h.client]
  rw [hpadding]
  dsimp only
  rw [hprocess]
  rfl

variable {buffer : Bytes} {left : Msg}

theorem reply_unpadded (hresponse : response ≠ []) (hleft : handler.dns.unpack buffer = .ok left) :
    (handler.reply false buffer response).Delivers handler.dns response ∧
      (handler.reply false buffer response).length = dohPaddedLen response.length := by
  have hle := le_dohPaddedLen response.length
  unfold reply
  rw [if_neg hresponse, hleft]
  refine ⟨⟨rfl, rfl, .inl rfl⟩, ?_⟩
  simp [HTTPReply.length]
  omega

theorem reply_padded (hresponse : response ≠ []) (hleft : handler.dns.unpack buffer = .ok left)
    {size : Msg → Nat} (hlib : handler.dns.Measured size)
    (hsent : (handler.reply true buffer response).contentType = some dataType) :
    (handler.reply true buffer response).length = if left.hasPadding then response.length
      else size left.withEdns0 + (dohPaddedLen response.length - response.length) + 4 := by
  obtain ⟨rr, hrr⟩ := withEdns0_isEdns0 left
  unfold reply at hsent ⊢
  rw [if_neg hresponse, hleft] at hsent ⊢
  dsimp only at hsent ⊢
  rw [if_pos rfl, addEDNS0PaddingIfNoneFound_eq] at hsent ⊢
  by_cases hpadding : left.hasPadding = true
  · simp [hpadding, HTTPReply.length]
  · rw [if_neg hpadding] at hsent ⊢
    rw [if_neg hpadding]
    generalize hpadLen : dohPaddedLen response.length - response.length = padLen at hsent ⊢
    cases hpack : handler.dns.pack (left.withEdns0.withOption (paddingOption padLen)) with
    | error e =>
      rw [hpack] at hsent
      cases hsent
    | ok body => simpa [HTTPReply.length] using hlib.padded_length hrr hpack

theorem unpack_of_delivers {hasEDNS0Padding : Bool}
    (h : (handler.reply hasEDNS0Padding buffer response).Delivers handler.dns response) :
    ∃ left, handler.dns.unpack buffer = .ok left := by
  have hcode := h.code
  unfold reply at hcode
  split at hcode
  · cases hcode
  · split at hcode
    · cases hcode
    · next left hleft => exact ⟨left, hleft⟩

theorem reply_padded_injective {response₁ response₂ : Bytes} {size : Msg → Nat}
    (hlib : handler.dns.Measured size) (hresponse₁ : response₁ ≠ []) (hresponse₂ : response₂ ≠ [])
    (hsame : dohPaddedLen response₁.length = dohPaddedLen response₂.length)
    (h₁ : (handler.reply true buffer response₁).Delivers handler.dns response₁)
    (h₂ : (handler.reply true buffer response₂).Delivers handler.dns response₂)
    (hlength : (handler.reply true buffer response₁).length =
      (handler.reply true buffer response₂).length) : response₁.length = response₂.length := by
  obtain ⟨left, hleft⟩ := unpack_of_delivers h₁
  have hle₁ := le_dohPaddedLen response₁.length
  have hle₂ := le_dohPaddedLen response₂.length
  rw [reply_padded hresponse₁ hleft hlib h₁.contentType,
    reply_padded hresponse₂ hleft hlib h₂.contentType] at hlength
  split at hlength
  · exact hlength
  · omega

end LocalDoHHandler

/-! ## Two runs -/

/-- Two responses that padding makes equally long. -/
structure Lookalikes (response₁ response₂ : Bytes) : Prop where
  nonempty₁ : response₁ ≠ []
  nonempty₂ : response₂ ≠ []
  fits₁ : response₁.length ≤ maxDNSPacketSize
  fits₂ : response₂.length ≤ maxDNSPacketSize
  padded : dohPaddedLen response₁.length = dohPaddedLen response₂.length

namespace LocalDoHHandler

variable {handler : LocalDoHHandler} {request : HTTPRequest} {packet : Bytes}
  {clientAddr : Endpoint} {msg : Msg}

/-- Whatever the two responses to a query are, the replies are equally long if padding makes them
so, and the responses are in them. -/
def Conceals (handler : LocalDoHHandler) (request : HTTPRequest) (clientAddr : Endpoint)
    (packet buffer₁ buffer₂ : Bytes) : Prop :=
  ∀ (process₁ process₂ : Caller → Bytes → Except Halted (Bytes × Bytes)) (response₁ response₂ : Bytes),
    process₁ (.ofLocalDoH clientAddr) packet = .ok (response₁, buffer₁) →
    process₂ (.ofLocalDoH clientAddr) packet = .ok (response₂, buffer₂) →
    Lookalikes response₁ response₂ →
    ∃ reply₁ reply₂, handler.serveHTTP true process₁ request = .ok reply₁ ∧
      handler.serveHTTP true process₂ request = .ok reply₂ ∧ reply₁.length = reply₂.length ∧
      reply₁.Delivers handler.dns response₁ ∧ reply₂.Delivers handler.dns response₂

theorem Asked.conceals_iff (h : handler.Asked request packet clientAddr msg)
    (buffer₁ buffer₂ : Bytes) : handler.Conceals request clientAddr packet buffer₁ buffer₂ ↔
      ∀ response₁ response₂, Lookalikes response₁ response₂ →
        (handler.reply msg.hasPadding buffer₁ response₁).length =
            (handler.reply msg.hasPadding buffer₂ response₂).length ∧
          (handler.reply msg.hasPadding buffer₁ response₁).Delivers handler.dns response₁ ∧
          (handler.reply msg.hasPadding buffer₂ response₂).Delivers handler.dns response₂ := by
  constructor
  · intro hall response₁ response₂ halike
    obtain ⟨reply₁, reply₂, h₁, h₂, hreplies⟩ := hall (fun _ _ => .ok (response₁, buffer₁))
      (fun _ _ => .ok (response₂, buffer₂)) response₁ response₂ rfl rfl halike
    obtain rfl := Except.ok.inj ((h.serveHTTP_eq rfl).symm.trans h₁)
    obtain rfl := Except.ok.inj ((h.serveHTTP_eq rfl).symm.trans h₂)
    exact hreplies
  · intro hall process₁ process₂ response₁ response₂ h₁ h₂ halike
    exact ⟨_, _, h.serveHTTP_eq h₁, h.serveHTTP_eq h₂, hall response₁ response₂ halike⟩

theorem Asked.conceals (h : handler.Asked request packet clientAddr msg)
    (hpadding : msg.hasPadding = false) {buffer₁ buffer₂ : Bytes} {left₁ left₂ : Msg}
    (hleft₁ : handler.dns.unpack buffer₁ = .ok left₁)
    (hleft₂ : handler.dns.unpack buffer₂ = .ok left₂) :
    handler.Conceals request clientAddr packet buffer₁ buffer₂ := by
  rw [h.conceals_iff, hpadding]
  intro response₁ response₂ halike
  obtain ⟨hdelivers₁, hlength₁⟩ := reply_unpadded halike.nonempty₁ hleft₁
  obtain ⟨hdelivers₂, hlength₂⟩ := reply_unpadded halike.nonempty₂ hleft₂
  exact ⟨hlength₁.trans (halike.padded.trans hlength₂.symm), hdelivers₁, hdelivers₂⟩

/-- The replies to a query conceal the responses exactly where the query has no padding option of
its own, and the buffer it was in can still be parsed. -/
theorem replies_alike_iff {size : Msg → Nat} (hlib : handler.dns.Measured size)
    (h : handler.Asked request packet clientAddr msg) (buffer₁ buffer₂ : Bytes) :
    handler.Conceals request clientAddr packet buffer₁ buffer₂ ↔
      msg.hasPadding = false ∧ (∃ left, handler.dns.unpack buffer₁ = .ok left) ∧
        ∃ left, handler.dns.unpack buffer₂ = .ok left := by
  constructor
  · intro hall
    rw [h.conceals_iff] at hall
    -- the shortest response there is, and one with a byte more
    have hshort : Lookalikes (.replicate 17 0) (.replicate 17 0) :=
      ⟨by decide, by decide, by decide, by decide, rfl⟩
    have hlong : Lookalikes (.replicate 18 0) (.replicate 17 0) :=
      ⟨by decide, by decide, by decide, by decide, by decide⟩
    obtain ⟨hlength, hdelivers₁, hdelivers₂⟩ := hall _ _ hshort
    refine ⟨?_, unpack_of_delivers hdelivers₁, unpack_of_delivers hdelivers₂⟩
    obtain ⟨hlength', hdelivers', -⟩ := hall _ _ hlong
    cases hpadding : msg.hasPadding with
    | false => rfl
    | true =>
      rw [hpadding] at hlength hlength' hdelivers₁ hdelivers'
      have hsame := reply_padded_injective hlib hshort.nonempty₁ hlong.nonempty₁ (by decide)
        hdelivers₁ hdelivers' (hlength.trans hlength'.symm)
      exact absurd hsame (by decide)
  · rintro ⟨hpadding, ⟨left₁, hleft₁⟩, left₂, hleft₂⟩
    exact h.conceals hpadding hleft₁ hleft₂

end LocalDoHHandler

namespace Sample

/-- An answer with two addresses. -/
def longReply : Msg :=
  { reply 60 with
    answer := [⟨question.name, classINET, 60, .a [192, 0, 2, 1]⟩,
      ⟨question.name, classINET, 60, .a [192, 0, 2, 2]⟩] }

def longReplyPacket : Bytes :=
  [0x12, 0x34, 0x81, 0x80, 0, 1, 0, 2, 0, 0, 0, 0] ++ questionWire ++
    [0xc0, 0x0c, 0, 1, 0, 1, 0, 0, 0, 60, 0, 4, 192, 0, 2, 1] ++
    [0xc0, 0x0c, 0, 1, 0, 1, 0, 0, 0, 60, 0, 4, 192, 0, 2, 2]

def localDoH : LocalDoHHandler where
  localDoHPath := "/dns-query".toList
  dns := .ofTable ((longReplyPacket, longReply) :: table) (by decide)
  net := net
  decodeRawURL _ := .error (.plain "illegal base64 data at input byte 0")

/-- A query over HTTP. -/
def post (packet : Bytes) : HTTPRequest where
  path := "/dns-query".toList
  method := "POST".toList
  contentType := dataType
  accept := []
  body := packet
  bodyErr := none
  dns := []
  remoteAddr := "192.0.2.1:443".toList

/-- A DoH server that gives the response. -/
def answeredBy (response : Bytes) : LocalDoHRun :=
  ⟨env .doh 0 (.ok (response, true)) [], [], world, []⟩

theorem plain_query_asked :
    localDoH.Asked (post queryPacket) queryPacket (v4 192 0 2 1 443) query :=
  ⟨rfl, rfl, by decide, rfl, rfl⟩

theorem plain_query_concealed :
    localDoH.Conceals (post queryPacket) (v4 192 0 2 1 443) queryPacket queryPacket queryPacket := by
  have hlib : localDoH.dns.Measured wireSize := measured_ofTable (by decide) (by decide)
  exact (LocalDoHHandler.replies_alike_iff hlib plain_query_asked _ _).mpr
    ⟨rfl, ⟨query, rfl⟩, query, rfl⟩

/-- A client that pads its query gets bodies of 45 and of 61 bytes, without any padding. -/
theorem padded_query_tells_length :
    dohPaddedLen (replyPacket 60).length = dohPaddedLen longReplyPacket.length ∧
    localDoH.serveHTTP true
        ((proxy .bare localDoH.dns).process wireSize (answeredBy (replyPacket 60)))
        (post paddedPacket) = .ok ⟨200, some dataType, none, replyPacket 60⟩ ∧
    localDoH.serveHTTP true
        ((proxy .bare localDoH.dns).process wireSize (answeredBy longReplyPacket))
        (post paddedPacket) = .ok ⟨200, some dataType, none, longReplyPacket⟩ ∧
    (replyPacket 60).length = 45 ∧ longReplyPacket.length = 61 :=
  ⟨by decide, rfl, rfl, rfl, rfl⟩

end Sample

end DnscryptProxy
