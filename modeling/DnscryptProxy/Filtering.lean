import DnscryptProxy.Phases.Call

/-! Whether queries and responses go through the plugins.

* `sends_filtered_iff`: what is sent to a server has passed every query plugin, except
  for the packets that could not be parsed. `ApplyQueryPlugins` hands such a packet
  back with an error that its caller ignores.
* `delivered_screened`: what a client is given of a server's response has gone through
  the response plugins. A packet with the TC flag is exempt when it cannot be parsed. -/

namespace DnscryptProxy

open Library

/-! ## Queries -/

/-- A query goes out to the server. -/
def Sends (p : Proxy) (caller : Caller) (env : CallEnv) (world : World) (query : Bytes) : Prop :=
  ∃ flow serverInfo query' prepared,
    dispatch p caller env world query = .ok (.forward flow serverInfo query') ∧
    prepare p env flow serverInfo query' = .ok prepared

/-- The packet cannot be parsed as a query, but has the size of one, and there is a
server that it can be sent to as it is. -/
def SentUnparsed (p : Proxy) (caller : Caller) (env : CallEnv) (world : World) (query : Bytes) :
    Prop :=
  ∃ e serverInfo prepared, parseQuery p.pkgs.dns query = .error e ∧ fits query = true ∧
    caller.onlyCached = false ∧ env.server = some serverInfo ∧
    prepare p env (unparsedFlow p caller world serverInfo) serverInfo query = .ok prepared

theorem dispatch_unparsed {p : Proxy} {caller : Caller} {env : CallEnv} {world : World}
    {query : Bytes} {e : GoError} {serverInfo : ServerInfo}
    (he : parseQuery p.pkgs.dns query = .error e) (hfits : fits query = true)
    (hc : caller.onlyCached = false) (hs : env.server = some serverInfo) :
    dispatch p caller env world query =
      .ok (.forward (unparsedFlow p caller world serverInfo) serverInfo query) := by
  have hlength : ¬query.length < minDNSPacketSize := by
    simp only [fits, Bool.and_eq_true, decide_eq_true_eq] at hfits
    omega
  simp only [dispatch, if_neg hlength, applyQueryPlugins, he, afterQueryPlugins, hfits]
  simp only [route, Flow.packSynth, newPluginsState, hc, hs, bind, Except.bind]
  rfl

theorem Sends.unparsed_or_passed {p : Proxy} {caller : Caller} {env : CallEnv} {world : World}
    {query : Bytes} (h : Sends p caller env world query) :
    SentUnparsed p caller env world query ∨
      PassedQuery p.settings p.pkgs env.query (startState p caller) world query := by
  obtain ⟨flow, serverInfo, query', prepared, hdispatch, hp⟩ := h
  have hforwarded := dispatch_forwarded hdispatch
  rcases hforwarded.checked with ⟨e, he, rfl, rfl⟩ | hpassed
  · exact .inl ⟨e, serverInfo, prepared, he, hforwarded.fits, hforwarded.uncached,
      hforwarded.server, hp⟩
  · exact .inr hpassed

/-- Whatever is sent to a server has been parsed and has passed every query plugin,
exactly unless it is an unparsed packet. -/
theorem sends_filtered_iff (p : Proxy) (caller : Caller) (env : CallEnv) (world : World)
    (query : Bytes) :
    (Sends p caller env world query →
      PassedQuery p.settings p.pkgs env.query (startState p caller) world query) ↔
    ¬SentUnparsed p caller env world query := by
  constructor
  · rintro h ⟨e, serverInfo, prepared, he, hfits, hc, hs, hp⟩
    obtain ⟨msg, qName, _, hparse, _⟩ :=
      h ⟨_, serverInfo, query, prepared, dispatch_unparsed he hfits hc hs, hp⟩
    rw [he] at hparse
    cases hparse
  · intro h hsends
    exact hsends.unparsed_or_passed.resolve_left h

namespace Sample

/-- The question for `example.com.`, twice. -/
def twicePacket : Bytes :=
  [0x12, 0x34, 1, 0, 0, 2, 0, 0, 0, 0, 0, 0] ++ questionWire ++ questionWire

def twiceDNS : DNSLibrary :=
  .ofTable [(twicePacket, { query with question := [question, question] })] (by decide)

/-- `*example*` is blocked. -/
def blocking : Settings :=
  { Settings.bare with
    blockName := some ⟨BlockedNames.load PatternMatcher.asciiLower [BlockedNames.substringRule], false⟩ }

/-- A query that asks twice for a blocked name is sent to the server. -/
theorem two_questions_sent_unfiltered :
    Sends (proxy blocking twiceDNS) client (answering 0) world twicePacket ∧
      ¬PassedQuery blocking (proxy blocking twiceDNS).pkgs (answering 0).query
        (startState (proxy blocking twiceDNS) client) world twicePacket := by
  refine ⟨⟨_, _, _, _, rfl, rfl⟩, ?_⟩
  rintro ⟨msg, qName, ctx, hparse, -⟩
  cases hparse

end Sample

/-! ## Responses -/

/-- An exit before the end writes nothing to the client. At the end, a payload of the
server is delivered only as a packet that was handed to the response plugins, and what
is delivered of such a packet is the packet itself, where it cannot be parsed and has the
TC flag, or the message that every plugin let go on, or the one that a plugin put in its
place. -/
theorem delivered_screened (p : Proxy) (caller : Caller) (env : CallEnv) (envs : List CallEnv)
    (world : World) (query : Bytes) (exit : Exit)
    (h : processIncomingQuery p caller env envs world query = .ok exit) :
    (exit.completed = false → exit.writes = []) ∧
      (exit.completed = true →
        (∀ payload, exit.origin = .accepted payload → exit.handed ≠ none) ∧
        ∀ packet, exit.handed = some packet →
          ∃ flow body, Fetches p caller env world query flow ∧ flow.response = packet ∧
            Filtered p.settings p.pkgs (responseEnv env (subqueryWith p envs)) flow.st
              (flow.hand env.responseTime).world packet body ∧
            Delivered p caller body exit) := by
  have hserved : Served p caller env (subqueryWith p envs) world query True exit :=
    (processIncomingQuery_ends envs query fun _ _ _ _ _ => trivial).of_ok h
  exact ⟨hserved.early, fun hc => ⟨(hserved.finished hc).accounted, (hserved.finished hc).screened⟩⟩

namespace Sample

theorem doh_reply_screened :
    ∃ exit, processIncomingQuery (proxy .bare dns) client (answering 0) [] world queryPacket =
      .ok exit ∧ exit.writes = [replyPacket 60] ∧
      ∃ flow body, Fetches (proxy .bare dns) client (answering 0) world queryPacket flow ∧
        flow.response = replyPacket 60 ∧
        Filtered .bare (proxy .bare dns).pkgs (responseEnv (answering 0) none) flow.st
          (flow.hand 0).world (replyPacket 60) body ∧
        Delivered (proxy .bare dns) client body exit :=
  ⟨_, rfl, rfl, ((delivered_screened (proxy .bare dns) client (answering 0) [] world queryPacket _
    rfl).2 rfl).2 (replyPacket 60) rfl⟩

/-- A header with the TC flag, and nothing that could be parsed after it. -/
def truncatedPacket : Bytes := [0x12, 0x34, 0x82, 0x80, 0, 1, 0, 1, 0, 0, 0, 0, 63, 0, 1, 0, 1]

/-- Answers with the address `192.0.2.1` are blocked. -/
def blockingIP : Settings :=
  { Settings.bare with blockIP := some ⟨["192.0.2.1".toList], .ofList [], false⟩ }

theorem truncated_delivered_unparsed :
    ∃ exit e, processIncomingQuery (proxy blockingIP dns) client
      (env .doh 0 (.ok (truncatedPacket, true)) []) [] world queryPacket = .ok exit ∧
      dns.unpack truncatedPacket = .error e ∧ exit.writes = [truncatedPacket] :=
  ⟨_, _, rfl, rfl, rfl⟩

end Sample

end DnscryptProxy
