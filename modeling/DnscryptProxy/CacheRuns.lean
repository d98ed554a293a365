import DnscryptProxy.Phases.Call

/-! What the cache serves over whole runs. A run is any sequence of calls of
`processIncomingQuery`, with whatever the network, the clock and the clients do; each
call changes the cache by steps of `CacheStep`, so an invariant of these steps holds in
every run.

The invariant is that each entry of the cache, and each answer that was ever found in
it, is accounted for by a packet that was handed to the response plugins before. From
it follow, for runs in which nothing goes wrong:

* `fresh_hits_from_server`: a fresh hit is an answer of a server that has not outlived
  its TTL;
* `answers_stored_for_same_question`: an answer was stored for the same question. -/

namespace DnscryptProxy

open Library Relation

/-! ## Accounting for what the cache serves -/

/-- The entry was stored under the key when a packet was received that it was made
from. -/
def Stored (pkgs : Packages) (ttls : TTLSettings) (history : List Event) (key : CacheKey)
    (cached : CachedResponse) : Prop :=
  ∃ source client packet time dnssec msg question rest,
    .received source client packet time ∈ history ∧ .stored client dnssec cached ∈ history ∧
    pkgs.dns.unpack packet = .ok msg ∧ msg.question = question :: rest ∧
    key = cacheKey pkgs.prims dnssec question ∧
    cached = storedResponse ttls (filteredMsg msg) time

/-- An answer that was found is what a stored entry is served as. -/
def Found (pkgs : Packages) (ttls : TTLSettings) (event : Event) (older : List Event) : Prop :=
  match event with
  | .found fresh question dnssec answer time =>
    ∃ cached msg, Stored pkgs ttls older (cacheKey pkgs.prims dnssec question) cached ∧
      fresh = decide (time ≤ cached.expiration) ∧ answer = servedResponse msg cached time
  | _ => True

/-- Every event of the history has the property with respect to the events before it. -/
def Explained (P : Event → List Event → Prop) (history : List Event) : Prop :=
  ∀ newer event older, history = newer ++ event :: older → P event older

theorem explained_cons {P : Event → List Event → Prop} {event : Event} {history : List Event} :
    Explained P (event :: history) ↔ P event history ∧ Explained P history := by
  constructor
  · intro h
    refine ⟨h [] event history rfl, fun newer event' older heq => ?_⟩
    exact h (event :: newer) event' older (by rw [heq]; rfl)
  · rintro ⟨hhead, htail⟩ newer event' older heq
    cases newer with
    | nil =>
      cases heq
      exact hhead
    | cons e newer =>
      cases heq
      exact htail newer event' older rfl

/-- The invariant of all runs. -/
structure Accounted (pkgs : Packages) (ttls : TTLSettings) (w : World) : Prop where
  entries : ∀ cache, w.cache = some cache → ∀ key cached, cache.Holds key cached →
    Stored pkgs ttls w.history key cached
  answers : Explained (Found pkgs ttls) w.history

section Accounting

variable {pkgs : Packages} {ttls : TTLSettings} {settings : QuerySettings} {w w' : World}

theorem Stored.mono {history history' : List Event} (h : history ⊆ history') {key : CacheKey}
    {cached : CachedResponse} (hs : Stored pkgs ttls history key cached) :
    Stored pkgs ttls history' key cached := by
  obtain ⟨source, client, packet, time, dnssec, msg, question, rest, hr, hst, hu⟩ := hs
  exact ⟨source, client, packet, time, dnssec, msg, question, rest, h hr, h hst, hu⟩

theorem Accounted.entries_or_new (h : Accounted pkgs ttls w) {size : Int}
    {cache : ArcCache CacheKey CachedResponse} (hc : w.cache.or (ArcCache.new size) = some cache)
    {key : CacheKey} {cached : CachedResponse} (hh : cache.Holds key cached) :
    Stored pkgs ttls w.history key cached := by
  cases hw : w.cache with
  | none =>
    rw [hw] at hc
    exact absurd hh (ArcCache.not_holds_new hc key cached)
  | some cache' =>
    rw [hw] at hc
    cases hc
    exact h.entries cache hw key cached hh

theorem Accounted.step (h : Accounted pkgs settings.ttls w) (hs : CacheStep pkgs settings w w') :
    Accounted pkgs settings.ttls w' := by
  cases hs with
  | quiet cache history =>
    constructor
    · intro c hc key cached hh
      rw [history]
      exact h.entries c (cache ▸ hc) key cached hh
    · rw [history]
      exact h.answers
  | received source client packet time =>
    constructor
    · intro c hc key cached hh
      exact (h.entries c hc key cached hh).mono (List.subset_cons_self ..)
    · exact explained_cons.mpr ⟨trivial, h.answers⟩
  | missed present key =>
    constructor
    · intro c hc key' cached hh
      cases hc
      exact h.entries _ present key' cached (ArcCache.holds_get hh)
    · exact h.answers
  | found present msg now hit =>
    constructor
    · intro c hc key cached hh
      cases hc
      have hstored := h.entries _ present key cached (ArcCache.holds_get hh)
      exact hstored.mono (List.subset_cons_self ..)
    · -- the answer is what the entry that was hit is served as
      have hstored := h.entries _ present _ _ (ArcCache.holds_of_get hit)
      exact explained_cons.mpr ⟨⟨_, msg, hstored, rfl, rfl⟩, h.answers⟩
  | stored present received unpack asked dnssec =>
    constructor
    · intro c hc key cached hh
      cases hc
      rcases ArcCache.holds_add hh with ⟨rfl, rfl⟩ | hh
      · exact ⟨_, _, _, _, dnssec, _, _, _, List.mem_cons_of_mem _ received, List.mem_cons_self,
          unpack, asked, rfl, rfl⟩
      · exact (h.entries_or_new present hh).mono (List.subset_cons_self ..)
    · exact explained_cons.mpr ⟨trivial, h.answers⟩

theorem Accounted.steps (h : Accounted pkgs settings.ttls w) (hs : CacheSteps pkgs settings w w') :
    Accounted pkgs settings.ttls w' := by
  induction hs with
  | refl => exact h
  | tail _ hs ih => exact ih.step hs

end Accounting

/-! ## Runs -/

/-- The states that the proxy is in after any calls. A panic ends a call, and where the
program survives it, the run goes on from the state it left. -/
inductive Reachable (p : Proxy) : World → Prop where
  | start {w : World} (cache : w.cache = none) (history : w.history = []) : Reachable p w
  | returned {w : World} (before : Reachable p w) {caller : Caller} {env : CallEnv}
      {envs : List CallEnv} {query : Bytes} {exit : Exit}
      (call : processIncomingQuery p caller env envs w query = .ok exit) : Reachable p exit.world
  | halted {w : World} (before : Reachable p w) {caller : Caller} {env : CallEnv}
      {envs : List CallEnv} {query : Bytes} {halted : Halted}
      (call : processIncomingQuery p caller env envs w query = .error halted) :
      Reachable p halted.world

theorem Reachable.accounted {p : Proxy} {w : World} (h : Reachable p w) :
    Accounted p.pkgs p.settings.query.ttls w := by
  have hsteps : ∀ {caller env envs query w},
      Ends (processIncomingQuery p caller env envs w query)
        (Served p caller env (subqueryWith p envs) w query True)
        fun halted => CacheSteps p.pkgs p.settings.query w halted.world :=
    processIncomingQuery_ends _ _ fun _ _ _ _ _ => trivial
  induction h with
  | start cache history =>
    refine ⟨fun c hc => absurd (cache.symm.trans hc) nofun, fun newer event older heq => ?_⟩
    rw [history] at heq
    simp at heq
  | returned _ call ih => exact ih.steps (hsteps.of_ok call).sound.steps
  | halted _ call ih => exact ih.steps (hsteps.of_error call)

/-! ## Freshness -/

/-- The two messages have the same records, up to their TTLs. -/
structure SameRecords (msg msg' : Msg) : Prop where
  answer : (msg.withTTL 0).answer = (msg'.withTTL 0).answer
  ns : (msg.withTTL 0).ns = (msg'.withTTL 0).ns
  extra : (msg.withTTL 0).extra = (msg'.withTTL 0).extra

theorem withTTL_withTTL (ttl ttl' : UInt32) (rr : RR) :
    (rr.withTTL ttl).withTTL ttl' = rr.withTTL ttl' := rfl

theorem rrtype_withTTL (ttl : UInt32) (rr : RR) : (rr.withTTL ttl).rrtype = rr.rrtype := rfl

theorem sameRecords_withTTL (msg : Msg) (ttl : UInt32) : SameRecords (msg.withTTL ttl) msg := by
  refine ⟨?_, ?_, ?_⟩
  · simp [Msg.withTTL, withTTL_withTTL]
  · simp [Msg.withTTL, withTTL_withTTL]
  · simp only [Msg.withTTL, List.map_map]
    refine List.map_congr_left fun rr _ => ?_
    simp only [Function.comp_apply]
    split <;> simp_all [withTTL_withTTL, rrtype_withTTL]

theorem SameRecords.trans {a b c : Msg} (h : SameRecords a b) (h' : SameRecords b c) :
    SameRecords a c :=
  ⟨h.answer.trans h'.answer, h.ns.trans h'.ns, h.extra.trans h'.extra⟩

theorem sameRecords_servedResponse (msg : Msg) (cached : CachedResponse) (now : Time) :
    SameRecords (servedResponse msg cached now) cached.msg :=
  (sameRecords_withTTL _ _).trans ⟨rfl, rfl, rfl⟩

theorem sameRecords_storedResponse (ttls : TTLSettings) (msg : Msg) (time : Time) :
    SameRecords (storedResponse ttls msg time).msg msg :=
  sameRecords_withTTL _ _

/-- The answer that was found fresh is that of a packet that a server sent before, and
the TTL of that packet is not over. -/
def FreshFromServer (pkgs : Packages) (ttls : TTLSettings) (event : Event) (older : List Event) :
    Prop :=
  match event with
  | .found true _ _ answer time =>
    ∃ client packet time₀ msg, .received .server client packet time₀ ∈ older ∧
      pkgs.dns.unpack packet = .ok msg ∧ SameRecords answer (removeEDNS0Options msg) ∧
      time ≤ time₀ + getMinTTL msg ttls
  | _ => True

/-- In a run in which no stale answer was handed to the response plugins, every fresh
hit is an answer of a server within its TTL. -/
theorem fresh_hits_from_server (p : Proxy) (w : World) (hw : Reachable p w)
    (hstale : ∀ client packet time, .received .stale client packet time ∉ w.history) :
    Explained (FreshFromServer p.pkgs p.settings.query.ttls) w.history := by
  intro newer event older heq
  have hfound := hw.accounted.answers newer event older heq
  cases event with
  | received => trivial
  | stored => trivial
  | found fresh question dnssec answer time =>
    cases fresh with
    | false => trivial
    | true =>
      obtain ⟨cached, msg', ⟨source, client, packet, time₀, _, msg, _, _, hr, _, hu, _, _, rfl⟩,
        hfresh, rfl⟩ := hfound
      have hserver : source = .server := by
        cases source with
        | server => rfl
        | stale =>
          refine absurd ?_ (hstale client packet time₀)
          rw [heq]
          exact List.mem_append_right _ (List.mem_cons_of_mem _ hr)
      subst hserver
      refine ⟨client, packet, time₀, msg, hr, hu, ?_, of_decide_eq_true hfresh.symm⟩
      exact ((sameRecords_servedResponse ..).trans (sameRecords_storedResponse ..)).trans
        ⟨rfl, rfl, rfl⟩

namespace Sample

def caching : Proxy := proxy { Settings.bare with cache := true } dns

/-- The state after a call, however it ends. -/
def afterCall (p : Proxy) (env : CallEnv) (w : World) (query : Bytes) : World :=
  match processIncomingQuery p client env [] w query with
  | .ok exit => exit.world
  | .error halted => halted.world

theorem reachable_afterCall {p : Proxy} {w : World} (h : Reachable p w) (env : CallEnv)
    (query : Bytes) : Reachable p (afterCall p env w query) := by
  unfold afterCall
  split
  · next call => exact h.returned call
  · next call => exact h.halted call

/-- The message that is sent for the query for `example.com.`. -/
def sent : Msg := { query with extra := [opt [padding]] }

/-- An answer with a TTL of 60 seconds, and another query 50 seconds later. -/
def hit : World :=
  afterCall caching (answering (50 * second)) (afterCall caching (answering 0) world queryPacket)
    queryPacket

theorem hit_history : hit.history =
    [.found true question false (reply 10) (50 * second),
      .stored (some sent) false ⟨60 * second, reply 60⟩,
      .received .server (some sent) (replyPacket 60) 0] := rfl

theorem reachable_hit : Reachable caching hit :=
  reachable_afterCall (reachable_afterCall (.start rfl rfl) _ _) _ _

theorem hit_from_server :
    .found true question false (reply 10) (50 * second) ∈ hit.history ∧
      Explained (FreshFromServer caching.pkgs caching.settings.query.ttls) hit.history := by
  refine ⟨hit_history ▸ List.mem_cons_self, fresh_hits_from_server caching hit reachable_hit ?_⟩
  rw [hit_history]
  simp

def staleHit : World :=
  afterCall caching (answering (120 * second))
    (afterCall caching (env .doh (100 * second) (.error (.net "i/o timeout" true)) [])
      (afterCall caching (answering 0) world queryPacket) queryPacket) queryPacket

theorem staleHit_history : staleHit.history =
    [.found true question false (reply 10) (120 * second),
      .stored (some sent) false ⟨130 * second, reply 30⟩,
      .received .stale (some sent) (replyPacket 30) (100 * second),
      .found false question false (reply 30) (100 * second),
      .stored (some sent) false ⟨60 * second, reply 60⟩,
      .received .server (some sent) (replyPacket 60) 0] := rfl

theorem reachable_staleHit : Reachable caching staleHit :=
  reachable_afterCall (reachable_afterCall (reachable_afterCall (.start rfl rfl) _ _) _ _) _ _

/-- The stale answer was stored again, and is now served as a fresh one. -/
theorem stale_answer_served_fresh :
    Reachable caching staleHit ∧
      .found true question false (reply 10) (120 * second) ∈ staleHit.history ∧
      ¬Explained (FreshFromServer caching.pkgs caching.settings.query.ttls) staleHit.history := by
  refine ⟨reachable_staleHit, staleHit_history ▸ List.mem_cons_self, fun h => ?_⟩
  obtain ⟨client, packet, time₀, msg, hr, hu, _, ht⟩ := h [] _ _ staleHit_history
  simp only [List.mem_cons, reduceCtorEq, Event.received.injEq, false_and, false_or, or_false,
    List.not_mem_nil] at hr
  obtain ⟨-, -, rfl, rfl⟩ := hr
  obtain rfl : reply 60 = msg := Except.ok.inj hu
  exact absurd ht (by decide)

end Sample

/-! ## Questions -/

/-- The two questions have the same type and class, and the same name up to the case of
ASCII letters. -/
structure AsksSame (question question' : Question) : Prop where
  qtype : question.qtype = question'.qtype
  qclass : question.qclass = question'.qclass
  name : normalizeRawQName question.name = normalizeRawQName question'.name

theorem nameBytes_injective {name name' : Text} (h : nameBytes name = nameBytes name') :
    name = name' := by
  have hencode : name.utf8Encode = name'.utf8Encode := congrArg List.toByteArray h
  have hdecode := congrArg ByteArray.utf8Decode? hencode
  rw [List.utf8Decode?_utf8Encode, List.utf8Decode?_utf8Encode] at hdecode
  exact congrArg Array.toList (Option.some.inj hdecode)

theorem toUInt8_shiftRight_injective {a b : UInt16} (hlo : a.toUInt8 = b.toUInt8)
    (hhi : (a >>> 8).toUInt8 = (b >>> 8).toUInt8) : a = b := by
  have hlo := congrArg UInt8.toNat hlo
  have hhi := congrArg UInt8.toNat hhi
  have ha := a.toNat_lt
  have hb := b.toNat_lt
  have hshift : (8 : UInt16).toNat % 16 = 8 := rfl
  simp only [UInt16.toNat_toUInt8, UInt16.toNat_shiftRight, hshift, Nat.shiftRight_eq_div_pow]
    at hlo hhi
  refine UInt16.toNat_inj.mp ?_
  omega

theorem asksSame_of_cacheKey {prims : Primitives} (hinj : Function.Injective prims.sum512_256)
    {dnssec dnssec' : Bool} {question question' : Question}
    (h : cacheKey prims dnssec question = cacheKey prims dnssec' question') :
    dnssec = dnssec' ∧ AsksSame question question' := by
  have hbytes := hinj h
  simp only [List.cons_append, List.nil_append, List.cons.injEq] at hbytes
  obtain ⟨htlo, hthi, hclo, hchi, hflag, hname⟩ := hbytes
  refine ⟨?_, toUInt8_shiftRight_injective htlo hthi, toUInt8_shiftRight_injective hclo hchi,
    nameBytes_injective hname⟩
  cases dnssec <;> cases dnssec' <;> simp_all

/-- The answer was stored while a message was processed that asks for the same, with the
same DNSSEC flag. -/
def StoredForSame (event : Event) (older : List Event) : Prop :=
  match event with
  | .found _ question dnssec answer _ =>
    ∃ clientMsg asked cached, .stored (some clientMsg) dnssec cached ∈ older ∧
      clientMsg.question = [asked] ∧ AsksSame asked question ∧ SameRecords answer cached.msg
  | _ => True

/-- The packet, where it has a question at all, answers the question of the client's
message. -/
def Echoes (dns : DNSLibrary) (client : Option Msg) (packet : Bytes) : Prop :=
  ∀ msg question rest, dns.unpack packet = .ok msg → msg.question = question :: rest →
    ∃ clientMsg asked, client = some clientMsg ∧ clientMsg.question = [asked] ∧
      AsksSame asked question

theorem Found.storedForSame {pkgs : Packages} {ttls : TTLSettings} {event : Event}
    {older : List Event} (hinj : Function.Injective pkgs.prims.sum512_256)
    (hfound : Found pkgs ttls event older)
    (hecho : ∀ source client packet time, .received source client packet time ∈ older →
      Echoes pkgs.dns client packet) : StoredForSame event older := by
  cases event with
  | received => trivial
  | stored => trivial
  | found fresh question dnssec answer time =>
    obtain ⟨cached, msg', ⟨source, client, packet, time₀, dnssec', msg, question', rest, hr, hs, hu,
      hasked, hkey, _⟩, _, rfl⟩ := hfound
    obtain ⟨rfl, hsame⟩ := asksSame_of_cacheKey hinj hkey
    obtain ⟨clientMsg, asked, rfl, hclient, hecho⟩ :=
      hecho source client packet time₀ hr msg question' rest hu hasked
    exact ⟨clientMsg, asked, cached, hs, hclient,
      ⟨hecho.qtype.trans hsame.qtype.symm, hecho.qclass.trans hsame.qclass.symm,
        hecho.name.trans hsame.name.symm⟩, sameRecords_servedResponse ..⟩

/-- In a run in which every packet that was handed to the response plugins echoes the
question it was received for, every answer that the cache serves was stored for the same
question. -/
theorem answers_stored_for_same_question (p : Proxy)
    (hinj : Function.Injective p.pkgs.prims.sum512_256) (w : World) (hw : Reachable p w)
    (hecho : ∀ source client packet time, .received source client packet time ∈ w.history →
      Echoes p.pkgs.dns client packet) :
    Explained StoredForSame w.history := by
  intro newer event older heq
  have hfound := hw.accounted.answers newer event older heq
  refine hfound.storedForSame hinj fun source client packet time hr => ?_
  refine hecho source client packet time ?_
  rw [heq]
  exact List.mem_append_right _ (List.mem_cons_of_mem _ hr)

namespace Sample

theorem hit_stored_for_same :
    .found true question false (reply 10) (50 * second) ∈ hit.history ∧
      Explained StoredForSame hit.history := by
  refine ⟨hit_history ▸ List.mem_cons_self,
    answers_stored_for_same_question caching (fun _ _ h => h) hit reachable_hit ?_⟩
  rw [hit_history]
  intro source client packet time hr msg question' rest hu hasked
  simp only [List.mem_cons, reduceCtorEq, Event.received.injEq, false_or, or_false,
    List.not_mem_nil] at hr
  obtain ⟨-, rfl, rfl, -⟩ := hr
  obtain rfl : reply 60 = msg := Except.ok.inj hu
  cases hasked
  exact ⟨sent, question, rfl, rfl, rfl, rfl, rfl⟩

def netQuestion : Question := ⟨"example.net.".toList, typeA, classINET⟩

def netQuery : Msg := { query with question := [netQuestion] }

def netReply (ttl : UInt32) : Msg :=
  { reply ttl with
    question := [netQuestion]
    answer := [⟨netQuestion.name, classINET, ttl, .a [198, 51, 100, 1]⟩] }

def netWire : Bytes := [7, 101, 120, 97, 109, 112, 108, 101, 3, 110, 101, 116, 0, 0, 1, 0, 1]

def netQueryPacket : Bytes := [0x12, 0x34, 1, 0, 0, 1, 0, 0, 0, 0, 0, 0] ++ netWire

def netSentPacket : Bytes :=
  [0x12, 0x34, 1, 0, 0, 1, 0, 0, 0, 0, 0, 1] ++ netWire ++ [0, 0, 41, 15, 208, 0, 0, 0, 0, 0, 0]

def netReplyPacket (ttl : UInt8) : Bytes :=
  [0x12, 0x34, 0x81, 0x80, 0, 1, 0, 1, 0, 0, 0, 0] ++ netWire ++
    [0xc0, 0x0c, 0, 1, 0, 1, 0, 0, 0, ttl, 0, 4, 198, 51, 100, 1]

def mixedDNS : DNSLibrary :=
  .ofTable (table ++ [(netQueryPacket, netQuery), (netSentPacket, { netQuery with extra := [opt []] }),
    (netReplyPacket 60, netReply 60), (netReplyPacket 10, netReply 10)]) (by decide)

def mixed : Proxy := proxy { Settings.bare with cache := true } mixedDNS

def planted : World :=
  afterCall mixed (answering (50 * second))
    (afterCall mixed (env .doh 0 (.ok (netReplyPacket 60, true)) []) world queryPacket)
    netQueryPacket

theorem planted_history : planted.history =
    [.found true netQuestion false (netReply 10) (50 * second),
      .stored (some sent) false ⟨60 * second, netReply 60⟩,
      .received .server (some sent) (netReplyPacket 60) 0] := rfl

theorem planted_answer_served :
    Function.Injective mixed.pkgs.prims.sum512_256 ∧ Reachable mixed planted ∧
      .found true netQuestion false (netReply 10) (50 * second) ∈ planted.history ∧
      ¬Explained StoredForSame planted.history := by
  refine ⟨fun _ _ h => h, reachable_afterCall (reachable_afterCall (.start rfl rfl) _ _) _ _,
    planted_history ▸ List.mem_cons_self, fun h => ?_⟩
  obtain ⟨clientMsg, asked, cached, hs, hasked, hsame, _⟩ := h [] _ _ planted_history
  simp only [List.mem_cons, reduceCtorEq, Event.stored.injEq, Option.some.injEq, or_false,
    List.not_mem_nil] at hs
  obtain ⟨rfl, -, -⟩ := hs
  obtain rfl : question = asked := (List.cons.inj hasked).1
  exact absurd hsame.name (by decide)

end Sample

end DnscryptProxy
