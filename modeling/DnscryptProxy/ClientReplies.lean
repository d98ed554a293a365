import DnscryptProxy.Authenticity
import DnscryptProxy.LocalDoH
import DnscryptProxy.Transactions

/-! What the client of a call is sent: the packets that the call writes or, over HTTP, what
`ServeHTTP` makes of the response that is returned to it. Every response that a client of the
listeners gets has the ID of its query. A client of the local DoH server can get bytes that stayed
in the variable `response` when the call was left early; `response_carries_id_iff` says when. -/

namespace DnscryptProxy

open Library

namespace LocalDoHHandler

variable (handler : LocalDoHHandler) (p : Proxy) (uncompressedLen : Msg → Nat) (run : LocalDoHRun)
  (caller : Caller) (query : Bytes)

/-- What a call that is left by `exit` sends to its client. -/
def sent (exit : Exit) : List Bytes :=
  match caller with
  | .localDoH .. =>
    match hasEDNS0Padding handler.dns query with
    | .error _ => []
    | .ok hasEDNS0Padding =>
      let reply := handler.reply hasEDNS0Padding (queryBuffer p uncompressedLen run caller query)
        exit.response
      if reply.contentType = some dataType then [reply.body] else []
  | _ => exit.writes

def PassesOn : Prop :=
  ∃ msg left, handler.dns.unpack query = .ok msg ∧
    handler.dns.unpack (queryBuffer p uncompressedLen run caller query) = .ok left ∧
    (msg.hasPadding = true → left.hasPadding = true)

/-- Bytes with another ID reach a client of the local DoH server. -/
structure Misled : Prop where
  client : caller.clientProto = .localDoH
  passesOn : handler.PassesOn p uncompressedLen run caller query
  stray : ∃ data, StrayReply p caller run.env run.world query data ∧ data ≠ [] ∧
    transactionID data ≠ transactionID query

section Replies

variable {handler p uncompressedLen run caller query} {msg : Msg} {buffer response : Bytes}

theorem Asked.serveHTTP_sent {request : HTTPRequest} {clientAddr : Endpoint} {exit : Exit}
    (hasked : handler.Asked request query clientAddr msg)
    (h : processIncomingQuery p (.ofLocalDoH clientAddr) run.env run.envs run.world query =
      .ok exit) :
    ∃ reply, handler.serveHTTP true (p.process uncompressedLen run) request = .ok reply ∧
      handler.sent p uncompressedLen run (.ofLocalDoH clientAddr) query exit =
        if reply.contentType = some dataType then [reply.body] else [] := by
  have hprocess : p.process uncompressedLen run (.ofLocalDoH clientAddr) query =
      .ok (exit.response, queryBuffer p uncompressedLen run (.ofLocalDoH clientAddr) query) := by
    unfold Proxy.process
    rw [h]
    rfl
  refine ⟨_, hasked.serveHTTP_eq hprocess, ?_⟩
  have hpadding : hasEDNS0Padding handler.dns query = .ok msg.hasPadding := by
    rw [hasEDNS0Padding_eq, hasked.parsed]
    rfl
  simp only [sent, Caller.ofLocalDoH, hpadding]

theorem packBuffer_id {lib : DNSLibrary} (hdns : lib.KeepsID) {tid : Bytes}
    (hbuffer : transactionID buffer = tid) (hmsg : msg.idBytes = tid) (rest : Bytes) :
    transactionID (packBuffer lib uncompressedLen msg buffer rest) = tid := by
  unfold packBuffer
  split
  · exact hbuffer
  · split
    · next packet hpack =>
      have hlen := lib.pack_length msg packet hpack
      rw [transactionID, List.take_append_of_le_length (by omega)]
      exact (hdns.pack hpack).trans hmsg
    · rcases hdns.packFailure msg buffer with h | h
      · exact h.trans hbuffer
      · exact h.trans hmsg

seal Settings.queryPlugins in
theorem queryBuffer_id (hdns : p.pkgs.dns.KeepsID) :
    transactionID (queryBuffer p uncompressedLen run caller query) = transactionID query := by
  unfold queryBuffer
  dsimp only
  split
  · rfl
  · next msg qName hparse =>
    have hmsg : transactionID query = msg.idBytes := hdns.unpack (parseQuery_ok hparse).1
    have hstart : Identified (transactionID query) (queryCtx (startState p caller) run.world msg
        qName) := ⟨hmsg.symm, fun answer hanswer => absurd hanswer List.not_mem_nil⟩
    have hchain : Ends (chain (queryStage p.settings p.pkgs run.env.query) p.settings.queryPlugins _)
        _ _ := queryChain_identified p.settings.queryPlugins hstart
    split
    · next ctx hr => exact packBuffer_id hdns rfl (hchain.of_ok hr).msg run.rest
    · next ctx hr => exact packBuffer_id hdns rfl (hchain.of_ok hr).msg run.rest
    · rfl

theorem withEdns0_withOption_id (msg : Msg) (option : EDNS0Option) :
    (msg.withEdns0.withOption option).id = msg.id := by
  unfold Msg.withOption Msg.withEdns0
  split <;> rfl

theorem reply_cases {hasPadding : Bool} {left : Msg} (hresponse : response ≠ [])
    (hleft : handler.dns.unpack buffer = .ok left) :
    if hasPadding = true → left.hasPadding = true
    then (handler.reply hasPadding buffer response).contentType = some dataType ∧
      (handler.reply hasPadding buffer response).body = response
    else (handler.reply hasPadding buffer response).contentType = some dataType →
      ∃ padLen, handler.dns.pack (left.withEdns0.withOption (paddingOption padLen)) =
        .ok (handler.reply hasPadding buffer response).body := by
  unfold reply
  rw [if_neg hresponse, hleft]
  dsimp only
  generalize dohPaddedLen response.length - response.length = padLen
  cases hasPadding with
  | false => exact ⟨rfl, rfl⟩
  | true =>
    rw [if_pos rfl, addEDNS0PaddingIfNoneFound_eq]
    cases left.hasPadding with
    | true => exact ⟨rfl, rfl⟩
    | false =>
      rw [if_neg (by decide), if_neg (by decide)]
      cases hpack : handler.dns.pack (left.withEdns0.withOption (paddingOption padLen)) with
      | error e => exact nofun
      | ok body => exact fun _ => ⟨padLen, hpack⟩

theorem reply_contentType {hasPadding : Bool}
    (h : (handler.reply hasPadding buffer response).contentType = some dataType) :
    response ≠ [] ∧ ∃ left, handler.dns.unpack buffer = .ok left := by
  unfold reply at h
  split at h
  · cases h
  · next hne =>
    split at h
    · cases h
    · next left hleft => exact ⟨hne, left, hleft⟩

theorem localDoH_carries_id_iff (hdns : p.pkgs.dns.KeepsID) (hlib : handler.dns = p.pkgs.dns)
    (hclient : caller.clientProto = .localDoH) (hparsed : handler.dns.unpack query = .ok msg)
    (hmarked : response ≠ [] → transactionID response = transactionID query ∨
      StrayReply p caller run.env run.world query response)
    (hreturned : ∀ data, StrayReply p caller run.env run.world query data → response = data) :
    let reply := handler.reply msg.hasPadding (queryBuffer p uncompressedLen run caller query) response
    (reply.contentType = some dataType → transactionID reply.body = transactionID query) ↔
      ¬ handler.Misled p uncompressedLen run caller query := by
  intro reply
  constructor
  · rintro hall ⟨-, ⟨msg', left, hparsed', hleft, hpadding⟩, data, hstray, hne, hid⟩
    cases hparsed.symm.trans hparsed'
    cases hreturned data hstray
    have hpassed : if _ then reply.contentType = some dataType ∧ reply.body = response else _ :=
      reply_cases hne hleft
    rw [if_pos hpadding] at hpassed
    exact hid (hpassed.2 ▸ hall hpassed.1)
  · intro hmisled hsent
    obtain ⟨hne, left, hleft⟩ := reply_contentType hsent
    have hcases : if _ then reply.contentType = some dataType ∧ reply.body = response else _ :=
      reply_cases hne hleft
    split at hcases
    · next hpadding =>
      rw [hcases.2]
      by_contra hid
      exact hmisled ⟨hclient, ⟨msg, left, hparsed, hleft, hpadding⟩, response,
        (hmarked hne).resolve_left hid, hne, hid⟩
    · obtain ⟨padLen, hpack⟩ := hcases hsent
      rw [hlib] at hpack hleft
      calc transactionID reply.body = (left.withEdns0.withOption (paddingOption padLen)).idBytes :=
            hdns.pack hpack
        _ = left.idBytes := congrArg (fun id : UInt16 => putUint16 id.toNat)
            (withEdns0_withOption_id left _)
        _ = transactionID (queryBuffer p uncompressedLen run caller query) := (hdns.unpack hleft).symm
        _ = transactionID query := queryBuffer_id hdns

end Replies

/-- Whatever a call sends to its client has the ID of the client's query, provided that the
DNSCrypt server echoes it, except that a client of the local DoH server is sent stray bytes. -/
theorem response_carries_id_iff (hdns : p.pkgs.dns.KeepsID) (hlib : handler.dns = p.pkgs.dns)
    (hecho : ServersEchoID p caller run.env run.world query) {exit : Exit}
    (h : processIncomingQuery p caller run.env run.envs run.world query = .ok exit) :
    (∀ bytes ∈ handler.sent p uncompressedLen run caller query exit,
        ReadsID caller (transactionID query) bytes) ↔
      ¬ handler.Misled p uncompressedLen run caller query := by
  obtain ⟨hwrites, hmarked⟩ := processIncomingQuery_id hdns hecho h
  by_cases hclient : caller.clientProto = .localDoH
  · obtain ⟨ip, port, rfl⟩ : ∃ ip port, caller = .localDoH ip port := by
      cases caller with
      | localDoH ip port => exact ⟨ip, port, rfl⟩
      | udpListener | tcpListener | trampoline => cases hclient
    have htcp : (Caller.localDoH ip port).clientProto ≠ .tcp := nofun
    have hreads := readsID_iff_of_ne_tcp htcp (transactionID query)
    cases hparsed : handler.dns.unpack query with
    | error e =>
      refine iff_of_true ?_ fun hmisled => ?_
      · simp [sent, hasEDNS0Padding_eq, hparsed, Except.map]
      · obtain ⟨msg, left, hmsg, -⟩ := hmisled.passesOn
        rw [hparsed] at hmsg
        cases hmsg
    | ok msg =>
      refine Iff.trans ?_ (localDoH_carries_id_iff hdns hlib hclient hparsed (hmarked htcp)
        fun data hstray => response_of_strayReply hstray h)
      simp only [sent, hasEDNS0Padding_eq, hparsed, Except.map]
      split
      · next hsent => simp [hsent, hreads]
      · next hsent => simp [hsent]
  · refine iff_of_true (fun bytes hb => hwrites bytes ?_) fun hmisled => hclient hmisled.client
    cases caller with
    | localDoH => exact absurd rfl hclient
    | udpListener | tcpListener | trampoline => exact hb

end LocalDoHHandler

namespace Sample

/-- A client of the local DoH server, and a DNSCrypt server that answers. -/
def boxedRun : LocalDoHRun := ⟨boxedEnv, [], world, []⟩

def boxedDoH : LocalDoHHandler := { localDoH with dns := dns }

set_option maxRecDepth 2048 in
theorem boxed_reply_carries_id : ∃ exit,
    processIncomingQuery boxingProxy dohClient boxedEnv [] world queryPacket = .ok exit ∧
      boxedDoH.sent boxingProxy wireSize boxedRun dohClient queryPacket exit = [replyPacket 60] ∧
      ¬ boxedDoH.Misled boxingProxy wireSize boxedRun dohClient queryPacket := by
  have hsent : (processIncomingQuery boxingProxy dohClient boxedEnv [] world queryPacket).map
      (boxedDoH.sent boxingProxy wireSize boxedRun dohClient queryPacket) = .ok [replyPacket 60] := by
    rfl
  obtain ⟨exit, hexit, hsent⟩ := ok_of_map hsent
  refine ⟨exit, hexit, hsent, (LocalDoHHandler.response_carries_id_iff boxedDoH boxingProxy wireSize
    boxedRun dohClient queryPacket keepsID_dns rfl (boxed_servers_echo dohClient) hexit).mp ?_⟩
  rw [hsent]
  intro bytes hb
  rw [List.mem_singleton.mp hb]
  exact ⟨replyPacket 60, rfl, by decide⟩

def headerOnly : Bytes := [0, 0, 0x81, 0x80, 0, 1, 0, 0, 0, 0, 0, 0]

/-- The client asks with the ID `0x1234`. -/
theorem header_reaches_local_doh :
    localDoH.serveHTTP true ((proxy .bare localDoH.dns).process wireSize (answeredBy headerOnly))
        (post queryPacket) =
      .ok ⟨200, some dataType, some (List.replicate 52 'X'), headerOnly⟩ ∧
    transactionID headerOnly ≠ transactionID queryPacket := by
  exact ⟨rfl, by decide⟩

end Sample

end DnscryptProxy
