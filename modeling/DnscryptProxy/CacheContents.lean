import DnscryptProxy.CacheRuns

/-! What is in the cache over whole runs.

* `cache_bounded`: no key twice, and one response more than the configured size at most.
  `Sample.crowded` is a run in which a cache of size 1 holds two.
* `served_latest`: what is served is what was stored last under the key of the question. An
  older response does not come back once a newer one was stored. -/

namespace DnscryptProxy

open Library Relation

variable {p : Proxy} {w : World}

theorem Reachable.invariant {P : World → Prop}
    (start : ∀ w : World, w.cache = none → w.history = [] → P w)
    (step : ∀ w w', P w → CacheStep p.pkgs p.settings.query w w' → P w') (h : Reachable p w) :
    P w := by
  have hsteps {w w' : World} (hw : P w) (hs : CacheSteps p.pkgs p.settings.query w w') :
      P w' := by
    induction hs with
    | refl => exact hw
    | tail _ hs ih => exact step _ _ ih hs
  have hcall : ∀ {caller env envs query w},
      Ends (processIncomingQuery p caller env envs w query)
        (Served p caller env (subqueryWith p envs) w query True)
        fun halted => CacheSteps p.pkgs p.settings.query w halted.world :=
    processIncomingQuery_ends _ _ fun _ _ _ _ _ => trivial
  induction h with
  | start cache history => exact start _ cache history
  | returned _ call ih => exact hsteps ih (hcall.of_ok call).sound.steps
  | halted _ call ih => exact hsteps ih (hcall.of_error call)

/-! ## How many responses there are -/

/-- The responses in the cache, with their keys. -/
def liveEntries (cache : ArcCache CacheKey CachedResponse) : List (CacheKey × CachedResponse) :=
  cache.t1.entries ++ cache.t2.entries

theorem Reachable.cached {Q : ArcCache CacheKey CachedResponse → Prop}
    (hnew : ∀ cache, ArcCache.new p.settings.query.cacheSize = some cache → Q cache)
    (hget : ∀ cache key, Q cache → Q (cache.get key).2)
    (hadd : ∀ cache key cached, Q cache → Q (cache.add key cached)) (h : Reachable p w) :
    ∀ cache, w.cache = some cache → Q cache := by
  refine h.invariant (P := fun w => ∀ cache, w.cache = some cache → Q cache) ?_ ?_
  · intro w hnone _ cache hc
    rw [hnone] at hc
    cases hc
  intro w w' hw hs cache hc
  cases hs with
  | quiet hcache _ => exact hw cache (hcache ▸ hc)
  | received => exact hw cache hc
  | missed present key =>
    cases hc
    exact hget _ _ (hw _ present)
  | found present msg now hit =>
    cases hc
    exact hget _ _ (hw _ present)
  | stored present =>
    cases hc
    rcases Option.or_eq_some_iff.mp present with hcache | ⟨-, hsize⟩
    · exact hadd _ _ _ (hw _ hcache)
    · exact hadd _ _ _ (hnew _ hsize)

theorem Reachable.sound (h : Reachable p w) : ∀ cache, w.cache = some cache → cache.Sound :=
  h.cached (fun _ hnew => ArcCache.sound_new hnew) (fun _ _ hc => hc.get) fun _ _ _ hc => hc.add

theorem Reachable.size_eq (h : Reachable p w) :
    ∀ cache, w.cache = some cache →
      0 < p.settings.query.cacheSize ∧ (cache.size : Int) = p.settings.query.cacheSize := by
  refine h.cached (fun cache hnew => ?_) (fun cache key hc => ?_) fun cache key cached hc => ?_
  · exact ArcCache.size_new hnew
  · rw [ArcCache.size_get]
    exact hc
  · rw [ArcCache.size_add]
    exact hc

theorem Reachable.size_pos (h : Reachable p w) {cache : ArcCache CacheKey CachedResponse}
    (hc : w.cache = some cache) : 0 < cache.size := by
  obtain ⟨hpos, hsize⟩ := h.size_eq cache hc
  omega

theorem cache_bounded (p : Proxy) (w : World) (hw : Reachable p w)
    (cache : ArcCache CacheKey CachedResponse) (hc : w.cache = some cache) :
    ((liveEntries cache).map Prod.fst).Nodup ∧
      (cache.size : Int) = p.settings.query.cacheSize ∧
      (liveEntries cache).length ≤ p.settings.query.cacheSize + 1 := by
  have hsound := hw.sound cache hc
  have hsize := (hw.size_eq cache hc).2
  refine ⟨hsound.nodup, hsize, ?_⟩
  have htotal := hsound.total
  rw [liveEntries, List.length_append, ← hsize]
  exact_mod_cast htotal

namespace Sample

/-- A cache for one response. -/
def narrow : Proxy :=
  proxy { Settings.bare with cache := true, query.cacheSize := 1 } mixedDNS

def crowded : World :=
  afterCall narrow (answering (20 * second))
    (afterCall narrow (env .doh (10 * second) (.ok (netReplyPacket 60, true)) [])
      (afterCall narrow (answering 0) world queryPacket) netQueryPacket) queryPacket

theorem reachable_crowded : Reachable narrow crowded :=
  reachable_afterCall (reachable_afterCall (reachable_afterCall (.start rfl rfl) _ _) _ _) _ _

/-- The first list was to keep its response, and the second had none to drop. -/
theorem crowded_bounded : ∃ cache, crowded.cache = some cache ∧
    narrow.settings.query.cacheSize = 1 ∧ (liveEntries cache).length = 2 ∧
    ((liveEntries cache).map Prod.fst).Nodup ∧
    (cache.size : Int) = narrow.settings.query.cacheSize ∧
    (liveEntries cache).length ≤ narrow.settings.query.cacheSize + 1 :=
  ⟨_, rfl, rfl, rfl, cache_bounded narrow crowded reachable_crowded _ rfl⟩

end Sample

/-! ## What is served -/

/-- The key under which a response stands, which is that of its own question. -/
def storedKey (pkgs : Packages) (dnssec : Bool) (cached : CachedResponse) : Option CacheKey :=
  cached.msg.question.head?.map (cacheKey pkgs.prims dnssec)

/-- The response that was stored last under a key. -/
def latestStored (pkgs : Packages) (key : CacheKey) : List Event → Option CachedResponse
  | [] => none
  | .stored _ dnssec cached :: older =>
    if storedKey pkgs dnssec cached = some key then some cached else latestStored pkgs key older
  | .received _ _ _ _ :: older => latestStored pkgs key older
  | .found _ _ _ _ _ :: older => latestStored pkgs key older

/-- The answer is what the latest response for the question is served as. -/
def FoundLatest (pkgs : Packages) (event : Event) (older : List Event) : Prop :=
  match event with
  | .found fresh question dnssec answer time =>
    ∃ cached msg, latestStored pkgs (cacheKey pkgs.prims dnssec question) older = some cached ∧
      fresh = decide (time ≤ cached.expiration) ∧ answer = servedResponse msg cached time
  | _ => True

/-- What is in the cache is the latest under its key, and so was all that was served. -/
structure Current (pkgs : Packages) (w : World) : Prop where
  entries : ∀ cache, w.cache = some cache → ∀ key cached, cache.Holds key cached →
    latestStored pkgs key w.history = some cached
  answers : Explained (FoundLatest pkgs) w.history

theorem storedKey_storedResponse (pkgs : Packages) (ttls : TTLSettings) (dnssec : Bool) {msg : Msg}
    {question : Question} {rest : List Question} (h : msg.question = question :: rest) (time : Time) :
    storedKey pkgs dnssec (storedResponse ttls (filteredMsg msg) time) =
      some (cacheKey pkgs.prims dnssec question) := by
  have hquestion : (storedResponse ttls (filteredMsg msg) time).msg.question = msg.question := rfl
  rw [storedKey, hquestion, h]
  rfl

theorem Current.step {pkgs : Packages} {settings : QuerySettings} {w' : World} (h : Current pkgs w)
    (hs : CacheStep pkgs settings w w') : Current pkgs w' := by
  cases hs with
  | quiet hcache hhistory =>
    constructor
    · intro c hc key cached hh
      rw [hhistory]
      exact h.entries c (hcache ▸ hc) key cached hh
    · rw [hhistory]
      exact h.answers
  | received =>
    exact ⟨h.entries, explained_cons.mpr ⟨trivial, h.answers⟩⟩
  | missed present key =>
    refine ⟨fun c hc key cached hh => ?_, h.answers⟩
    cases hc
    exact h.entries _ present key cached (ArcCache.holds_get hh)
  | found present msg now hit =>
    constructor
    · intro c hc key cached hh
      cases hc
      exact h.entries _ present key cached (ArcCache.holds_get hh)
    · have hlatest := h.entries _ present _ _ (ArcCache.holds_of_get hit)
      exact explained_cons.mpr ⟨⟨_, msg, hlatest, rfl, rfl⟩, h.answers⟩
  | @stored _ present _ client _ time _ msg question _ _ asked dnssec =>
    have hkey := storedKey_storedResponse pkgs settings.ttls dnssec asked time
    constructor
    · intro c hc key cached hh
      cases hc
      change latestStored pkgs key (.stored client dnssec _ :: w.history) = some cached
      rw [latestStored, hkey]
      -- a key that is added anew has one value only
      by_cases hsame : cacheKey pkgs.prims dnssec question = key
      · subst hsame
        rw [if_pos rfl, ArcCache.eq_of_holds_add hh]
      · rw [if_neg fun heq => hsame (Option.some.inj heq)]
        rcases ArcCache.holds_add hh with ⟨rfl, -⟩ | hh
        · exact absurd rfl hsame
        · rcases Option.or_eq_some_iff.mp present with hcache | ⟨-, hnew⟩
          · exact h.entries _ hcache key cached hh
          · exact absurd hh (ArcCache.not_holds_new hnew key cached)
    · exact explained_cons.mpr ⟨trivial, h.answers⟩

theorem served_latest (p : Proxy) (w : World) (hw : Reachable p w) :
    Explained (FoundLatest p.pkgs) w.history := by
  have hcurrent : Current p.pkgs w := by
    refine hw.invariant (P := Current p.pkgs) ?_ fun w w' h hs => h.step hs
    intro w hnone hnil
    refine ⟨fun c hc => absurd (hnone.symm.trans hc) (by simp), fun newer event older heq => ?_⟩
    rw [hnil] at heq
    simp at heq
  exact hcurrent.answers

/-- Of the two responses that were stored, the later one is served. -/
theorem Sample.hit_latest :
    .stored (some Sample.sent) false ⟨60 * second, Sample.reply 60⟩ ∈ Sample.staleHit.history ∧
      .stored (some Sample.sent) false ⟨130 * second, Sample.reply 30⟩ ∈ Sample.staleHit.history ∧
      .found true Sample.question false (Sample.reply 10) (120 * second) ∈ Sample.staleHit.history ∧
      ∃ msg, Sample.reply 10 =
        servedResponse msg ⟨130 * second, Sample.reply 30⟩ (120 * second) := by
  have h := served_latest Sample.caching Sample.staleHit Sample.reachable_staleHit
  obtain ⟨cached, msg, hlatest, -, hserved⟩ := h [] _ _ Sample.staleHit_history
  have hcached : some (⟨130 * second, Sample.reply 30⟩ : CachedResponse) = some cached := hlatest
  cases hcached
  rw [Sample.staleHit_history]
  exact ⟨by simp, by simp, by simp, msg, hserved⟩

/-! ## What stays in the cache -/

/-- The cache has a response under a key. -/
def World.Caches (w : World) (key : CacheKey) : Prop :=
  ∃ cache cached, w.cache = some cache ∧ cache.Holds key cached

/-- The only response that the cache may have under a key. -/
def World.CachesOnly (w : World) (key : CacheKey) (cached : CachedResponse) : Prop :=
  ∀ cache, w.cache = some cache → ∀ cached', cache.Holds key cached' → cached' = cached

section Unreplaced

variable {pkgs : Packages} {settings : QuerySettings} {w w' : World} {key : CacheKey}
  {cached : CachedResponse}

theorem CacheStep.cachesOnly (h : w.CachesOnly key cached) (hs : CacheStep pkgs settings w w') :
    ∃ newer, w'.history = newer ++ w.history ∧
      (latestStored pkgs key newer = none → w'.CachesOnly key cached) := by
  cases hs with
  | quiet hcache hhistory =>
    refine ⟨[], hhistory, fun _ cache hc => ?_⟩
    exact h cache (hcache ▸ hc)
  | received => exact ⟨[_], rfl, fun _ => h⟩
  | missed present key' =>
    refine ⟨[], rfl, fun _ cache hc cached' hh => ?_⟩
    cases hc
    exact h _ present cached' (ArcCache.holds_get hh)
  | found present msg now hit =>
    refine ⟨[_], rfl, fun _ cache hc cached' hh => ?_⟩
    cases hc
    exact h _ present cached' (ArcCache.holds_get hh)
  | @stored _ present _ _ _ time _ msg question _ _ asked dnssec =>
    have hkey := storedKey_storedResponse pkgs settings.ttls dnssec asked time
    refine ⟨[_], rfl, fun hnone cache hc cached' hh => ?_⟩
    cases hc
    rw [latestStored, hkey] at hnone
    rcases ArcCache.holds_add hh with ⟨rfl, -⟩ | hh
    · rw [if_pos rfl] at hnone
      cases hnone
    · rcases Option.or_eq_some_iff.mp present with hcache | ⟨-, hnew⟩
      · exact h _ hcache cached' hh
      · exact absurd hh (ArcCache.not_holds_new hnew key cached')

theorem latestStored_append_eq_none {newer older : List Event} :
    latestStored pkgs key (newer ++ older) = none ↔
      latestStored pkgs key newer = none ∧ latestStored pkgs key older = none := by
  induction newer with
  | nil => simp [latestStored]
  | cons event newer ih =>
    rw [List.cons_append]
    cases event with
    | stored _ dnssec cached =>
      simp only [latestStored]
      split
      · simp
      · exact ih
    | received => exact ih
    | found => exact ih

theorem CacheSteps.cachesOnly (h : w.CachesOnly key cached) (hs : CacheSteps pkgs settings w w') :
    ∃ newer, w'.history = newer ++ w.history ∧
      (latestStored pkgs key newer = none → w'.CachesOnly key cached) := by
  induction hs with
  | refl => exact ⟨[], rfl, fun _ => h⟩
  | tail _ hs ih =>
    obtain ⟨newer, hhistory, hkept⟩ := ih
    by_cases hnone : latestStored pkgs key newer = none
    · obtain ⟨newest, hhistory', hkept'⟩ := hs.cachesOnly (hkept hnone)
      refine ⟨newest ++ newer, by rw [hhistory', hhistory, List.append_assoc], fun hnone' => ?_⟩
      exact hkept' (latestStored_append_eq_none.mp hnone').1
    · obtain ⟨newest, hhistory'⟩ := hs.history_suffix
      refine ⟨newest ++ newer, by rw [← hhistory', hhistory, List.append_assoc], fun hnone' => ?_⟩
      exact absurd (latestStored_append_eq_none.mp hnone').2 hnone

end Unreplaced

end DnscryptProxy
