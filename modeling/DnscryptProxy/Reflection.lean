import DnscryptProxy.CacheContents
import DnscryptProxy.CacheTTLs
import DnscryptProxy.Sessions

/-! A query that comes back as its own answer.

* `reflected_accepted`: both directions of DNSCrypt share a key, and `Decrypt` compares the
  client's half of the nonce only. So the box of a query is accepted as the box of its answer.
* `reflected_served`: no plugin asks whether a response is one. A query has no answers and no
  error; it is cached, and served to others as the response that there is nothing. -/

namespace DnscryptProxy

open Library

namespace Sessions

variable {prims : Primitives}

/-! ## On the wire -/

/-- The query's own box, after the magic number and the nonce of a response. -/
def reflect (encryptedQuery : Bytes) : Bytes :=
  serverMagic ++ ((encryptedQuery.drop (clientMagicLen + 32)).take halfNonceSize ++ zeroHalf) ++
    encryptedQuery.drop (clientMagicLen + 32 + halfNonceSize)

section Reflection

variable (lawful : prims.Lawful) (s : Session prims)
  (hmagic : s.serverInfo.magicQuery.length = clientMagicLen)
  (hkey : s.keys.proxyPublicKey.length = 32)

include lawful hmagic hkey in
theorem reflect_sent : reflect s.sent.encrypted = s.sealed.datagram prims := by
  have hout : s.sent.encrypted =
      (s.serverInfo.magicQuery ++ (queryKeys prims s.keys s.serverInfo s.entropy).2) ++
        (s.sent.clientNonce ++ sealBox prims s.serverInfo.cryptoConstruction
          (s.sent.clientNonce ++ zeroHalf) (pad s.packet s.minSize) s.sent.sharedKey) := by
    rw [(encrypt_ok s.encrypts).2.2.2, List.append_assoc _ s.sent.clientNonce]
    rfl
  have hhead : (s.serverInfo.magicQuery ++
      (queryKeys prims s.keys s.serverInfo s.entropy).2).length = clientMagicLen + 32 := by
    rw [List.length_append, hmagic, queryKeys_publicKey_length lawful hkey]
  have hbox : s.sent.encrypted.drop (clientMagicLen + 32 + halfNonceSize) =
      sealBox prims s.serverInfo.cryptoConstruction (s.sent.clientNonce ++ zeroHalf)
        (pad s.packet s.minSize) s.sent.sharedKey := by
    rw [← List.drop_drop, hout, List.drop_left' hhead, List.drop_left' s.clientNonce_length]
  rw [reflect, hbox, hout, List.drop_left' hhead, List.take_left' s.clientNonce_length]
  rfl

theorem Session.padded_length :
    (pad s.packet s.minSize).length + responseOverhead ≤ maxDNSPacketSize := by
  have hle := (encrypt_ok s.encrypts).1
  have hmax := (paddedTo_paddedLength s.minQuestionSize s.serverInfo s.packet.length s.proto
    s.entropy.xpad).le_max
  have hover : queryOverhead = 68 := rfl
  have hover' : responseOverhead = 48 := rfl
  simp only [pad_eq, List.length_append, List.length_cons, List.length_replicate, Session.minSize]
  omega

include lawful hmagic hkey in
/-- **Reflection**: whoever sees a query can have it accepted as its own answer, whatever the
keys, the construction and the transport that it was padded for. -/
theorem reflected_accepted (dialer : Dialer) (w : Wire prims) (hs : s ∈ w.sessions)
    (hmin : minDNSPacketSize ≤ s.packet.length) :
    (∃ ops, s.overUDP dialer (replying (reflect s.sent.encrypted)) = ⟨s.packet, none, ops⟩) ∧
      Step dialer w (w.accept s s.packet) := by
  have hnonce : s.sealed.nonce.length = nonceSize := by
    simp only [Session.sealed, List.length_append, s.clientNonce_length]
    rfl
  have hhalf : s.sealed.nonce.take halfNonceSize = s.sent.clientNonce :=
    List.take_left' s.clientNonce_length
  have hunpad : unpad s.sealed.padded = .ok s.packet := unpad_pad s.packet s.minSize
  have hmem : s.sealed ∈ w.sealed := List.mem_append_left _ (List.mem_map_of_mem hs)
  rw [reflect_sent lawful s hmagic hkey]
  exact ⟨overUDP_datagram lawful hnonce rfl rfl hhalf hunpad hmin s.padded_length dialer,
    step_datagram lawful hnonce rfl rfl hhalf hunpad hmin s.padded_length dialer hs hmem⟩

end Reflection

end Sessions

/-! ## In the cache -/

theorem cache_ready {p : Proxy} {w : World} (st : PluginsState) (packet : Bytes) (msg : Msg)
    (hw : Reachable p w) (hsize : 0 < st.cacheSize) :
    ∃ cache : ArcCache CacheKey CachedResponse,
      (responseCtx st w packet msg).world.cache.or
          (ArcCache.new (responseCtx st w packet msg).st.cacheSize) = some cache ∧
        cache.Sound ∧ 0 < cache.size := by
  have hnew : (ArcCache.new st.cacheSize : Option (ArcCache CacheKey CachedResponse)) = some _ :=
    if_neg (not_le.mpr hsize)
  rw [responseCtx]
  cases hcache : w.cache with
  | some cache => exact ⟨cache, rfl, hw.sound cache hcache, hw.size_pos hcache⟩
  | none =>
    obtain ⟨hpos, hsize⟩ := ArcCache.size_new hnew
    exact ⟨_, hnew, ArcCache.sound_new hnew, by omega⟩

theorem cacheResponseEval_stores (pkgs : Packages) (now : Time) {ctx : Ctx} {question : Question}
    {rest : List Question} {cache : ArcCache CacheKey CachedResponse}
    (hrcode : cacheableRcode ctx.msg.rcode = true) (htruncated : ctx.msg.truncated = false)
    (hquestion : ctx.msg.question = question :: rest)
    (hcache : ctx.world.cache.or (ArcCache.new ctx.st.cacheSize) = some cache) :
    ∃ ctx', cacheResponseEval pkgs now ctx = .ok (ctx', none) ∧
      ctx'.world.cache = some (cache.add (cacheKey pkgs.prims ctx.st.dnssec question)
        (storedResponse ctx.st.ttls ctx.msg now)) := by
  simp only [cacheResponseEval, hrcode, htruncated, Ctx.question, hquestion, hcache, bind,
    Except.bind]
  exact ⟨_, rfl, rfl⟩

/-- A message as the proxy sends it: one question, and nothing in reply to it. -/
structure Msg.Asks (msg : Msg) (question : Question) : Prop where
  question : msg.question = [question]
  rcode : msg.rcode = rcodeSuccess
  truncated : msg.truncated = false
  answer : msg.answer = []
  ns : msg.ns = []

/-- The response that a name has no records of a type. -/
structure Msg.NoData (msg : Msg) (question : Question) : Prop where
  response : msg.response = true
  question : msg.question = [question]
  rcode : msg.rcode = rcodeSuccess
  answer : msg.answer = []
  ns : msg.ns = []

theorem asks_responseCtx {msg : Msg} {question : Question} (h : msg.Asks question)
    (st : PluginsState) (world : World) (packet : Bytes) :
    (responseCtx st world packet msg).msg.Asks question :=
  ⟨h.question, h.rcode, h.truncated, h.answer, h.ns⟩

theorem noData_servedResponse {msg query : Msg} {asked question : Question} (h : msg.Asks asked)
    (hquestion : query.question = [question]) (ttls : TTLSettings) (time now : Time) :
    (servedResponse query (storedResponse ttls msg time) now).NoData question where
  response := rfl
  question := hquestion
  rcode := h.rcode
  answer := by simp [servedResponse, storedResponse, servedFor, updateTTL, Msg.withTTL, h.answer]
  ns := by simp [servedResponse, storedResponse, servedFor, updateTTL, Msg.withTTL, h.ns]

/-- **A reflected query in the cache**, in every state of the proxy: the plugin stores it. Whatever
happens to the cache then, as long as the response is not dropped and no other one is stored under
its key, for the least lifetime of negative responses everybody who asks the same is told that
there is nothing. -/
theorem reflected_served (p : Proxy) (w : World) (hw : Reachable p w) (st : PluginsState)
    (packet : Bytes) (msg : Msg) (question : Question) (now : Time) (hmsg : msg.Asks question)
    (hsize : 0 < st.cacheSize) :
    ∃ ctx', cacheResponseEval p.pkgs now (responseCtx st w packet msg) = .ok (ctx', none) ∧
      ctx'.world.Caches (cacheKey p.pkgs.prims st.dnssec question) ∧
      ∀ (later : Ctx) (newer : List Event) (asked : Question) (time : Time),
        CacheSteps p.pkgs p.settings.query ctx'.world later.world →
        later.world.history = newer ++ ctx'.world.history →
        latestStored p.pkgs (cacheKey p.pkgs.prims st.dnssec question) newer = none →
        later.world.Caches (cacheKey p.pkgs.prims st.dnssec question) →
        later.msg.question = [asked] →
        cacheKey p.pkgs.prims later.st.dnssec asked = cacheKey p.pkgs.prims st.dnssec question →
        time ≤ now + st.ttls.cacheNegMinTTL.toNat * second →
        ∃ later' response, cacheEval p.pkgs time later = .ok (later', none) ∧
          later'.st.synthResponse = some response ∧ response.NoData asked := by
  have hasks := asks_responseCtx hmsg st w packet
  have hrcode : cacheableRcode (responseCtx st w packet msg).msg.rcode = true := by
    rw [hasks.rcode]
    rfl
  obtain ⟨cache, hcache, hsound, hpos⟩ := cache_ready st packet msg hw hsize
  obtain ⟨ctx', heval, hstored⟩ :=
    cacheResponseEval_stores p.pkgs now hrcode hasks.truncated hasks.question hcache
  have honly : ctx'.world.CachesOnly (cacheKey p.pkgs.prims st.dnssec question)
      (storedResponse st.ttls (responseCtx st w packet msg).msg now) := by
    intro cache' hcache' cached' hholds
    rw [hstored] at hcache'
    cases hcache'
    exact ArcCache.eq_of_holds_add hholds
  refine ⟨ctx', heval, ⟨_, _, hstored, ArcCache.holds_of_get (ArcCache.get_add hsound hpos)⟩, ?_⟩
  intro later newer asked time hsteps hhistory hnone hkept hquestion hkey htime
  have hfresh : time ≤ (storedResponse st.ttls (responseCtx st w packet msg).msg now).expiration := by
    have hneg : getMinTTL (responseCtx st w packet msg).msg st.ttls =
        st.ttls.cacheNegMinTTL.toNat * second := by
      rw [getMinTTL, if_pos (.inr ⟨hasks.answer, hasks.ns⟩)]
    rw [storedResponse, hneg]
    exact htime
  obtain ⟨newer', hhistory', honly'⟩ := hsteps.cachesOnly honly
  obtain rfl : newer = newer' := List.append_cancel_right (hhistory.symm.trans hhistory')
  obtain ⟨cache', cached', hcache', hholds⟩ := hkept
  obtain ⟨later', hserved, hsynth⟩ := cacheEval_of_hit hquestion hcache' (by
    rw [hkey]
    cases hget : (cache'.get _).1 with
    | none => exact absurd hget (ArcCache.get_ne_none hholds)
    | some found => rw [honly' hnone cache' hcache' found (ArcCache.holds_of_get hget)]) hfresh
  exact ⟨later', _, hserved, hsynth, noData_servedResponse hasks hquestion _ _ _⟩

/-! ## A run -/

namespace Sample

open Sessions

theorem session_reflected :
    (∃ ops, session.overUDP .direct (replying (reflect session.sent.encrypted)) =
      ⟨queryPacket, none, ops⟩) ∧
      Sessions.Step .direct (⟨[session], [], []⟩ : Wire lawfulPrims)
        ⟨[session], [], [(session, queryPacket)]⟩ :=
  reflected_accepted lawfulPrims_lawful session rfl rfl .direct ⟨[session], [], []⟩
    (List.mem_singleton.mpr rfl) (by decide)

/-- The response that `example.com.` has no addresses. -/
def noDataPacket : Bytes := [0x12, 0x34, 0x81, 0, 0, 1, 0, 0, 0, 0, 0, 0] ++ questionWire

def reflectingDNS : DNSLibrary :=
  .ofTable [(queryPacket, query), (queryPacket, { query with compress := true }),
    (noDataPacket, { query with response := true, compress := true })] (by decide)

def reflectingProxy : Proxy :=
  { proxy { Settings.bare with cache := true } reflectingDNS with
    pkgs := { (proxy .bare reflectingDNS).pkgs with prims := lawfulPrims }
    keys := keys }

/-- The network sends every query back. -/
def reflectingEnv (now : Time) : CallEnv :=
  { env .dnscrypt now (.error (.plain "unused")) [] with
    udp := replying (reflect session.sent.encrypted) }

def reflectedState : PluginsState := newPluginsState reflectingProxy.settings.query .udp none .udp

/-- What others do to the cache in the meantime: here they ask for `example.net.`. -/
def lookedUp (w : World) : World :=
  { w with cache := w.cache.map fun cache =>
      (cache.get (cacheKey reflectingProxy.pkgs.prims false netQuestion)).2 }

set_option maxRecDepth 4096 in
/-- The first client gets the query back, the second a response that is none of the server's. -/
theorem reflected_query_served :
    (processIncomingQuery reflectingProxy client (reflectingEnv 0) [] world queryPacket).map
        (·.writes) = .ok [queryPacket] ∧
      (processIncomingQuery reflectingProxy client (reflectingEnv (30 * second)) []
        (afterCall reflectingProxy (reflectingEnv 0) world queryPacket) queryPacket).map
        (·.writes) = .ok [noDataPacket] ∧
      ∃ ctx', cacheResponseEval reflectingProxy.pkgs 0
          (responseCtx reflectedState world queryPacket query) = .ok (ctx', none) ∧
        ∃ later' response, cacheEval reflectingProxy.pkgs (30 * second)
            ⟨reflectedState, query, lookedUp ctx'.world⟩ = .ok (later', none) ∧
          later'.st.synthResponse = some response ∧ response.NoData question := by
  refine ⟨rfl, rfl, ?_⟩
  obtain ⟨ctx', heval, -, hserved⟩ := reflected_served reflectingProxy world (.start rfl rfl)
    reflectedState queryPacket query question 0 ⟨rfl, rfl, rfl, rfl, rfl⟩ (by decide)
  refine ⟨ctx', heval, ?_⟩
  cases heval
  exact hserved ⟨reflectedState, query, lookedUp _⟩ [] question _ (.single (.missed rfl _)) rfl rfl
    ⟨_, _, rfl, .inl List.mem_cons_self⟩ rfl rfl (by decide)

end Sample

end DnscryptProxy
