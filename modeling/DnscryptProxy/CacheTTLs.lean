import DnscryptProxy.CacheRuns

/-! How long the cache keeps a response, and the TTLs with which it serves it.

* `cached_ttls`: in every run, an entry of the cache lives as long as the settings and the smallest
  TTL say, and is served with the time it has left, in seconds.
* `negative_lifetime_iff`: negative responses live as long as the settings for them say, except
  where a response without an answer has the code of a positive one. -/

namespace DnscryptProxy

open Library

/-! ## Lifetimes -/

def smallestTTL (rrs : List RR) : Nat := ((rrs.map fun rr => rr.ttl.toNat).min?).getD 0

/-- The documented lifetime of a response, in seconds. -/
def Msg.lifetime (msg : Msg) (ttls : TTLSettings) : Nat :=
  if (msg.rcode ≠ rcodeSuccess ∧ msg.rcode ≠ rcodeNameError) ∨ (msg.answer = [] ∧ msg.ns = []) then
    ttls.cacheNegMinTTL.toNat
  else
    let smallest := smallestTTL (if msg.answer ≠ [] then msg.answer else msg.ns)
    if msg.rcode = rcodeSuccess then
      max ttls.cacheMinTTL.toNat (min ttls.cacheMaxTTL.toNat smallest)
    else max ttls.cacheNegMinTTL.toNat (min ttls.cacheNegMaxTTL.toNat smallest)

/-- The time is rounded to seconds, halves upwards. -/
def roundHalfUp (left : Int) : Int := (left + second / 2) / second

def maxUint32 : Int := 4294967295
def maxInt64 : Int := 9223372036854775807

/-- What `updateTTL` computes with the time that is left stays in the types it uses. -/
structure NoWrap (left : Int) : Prop where
  nonneg : 0 ≤ left
  duration : left ≤ maxInt64
  seconds : left / second ≤ maxUint32
  product : left / second * second ≤ maxInt64
  rounded : roundHalfUp left ≤ maxUint32

/-- The records of a response with their TTLs, of which those of OPT records are no TTLs. -/
structure ServedTTLs (ttl : Int) (stored served : Msg) : Prop where
  answer : ∀ rr ∈ served.answer, (rr.ttl.toNat : Int) = ttl
  ns : ∀ rr ∈ served.ns, (rr.ttl.toNat : Int) = ttl
  extra : ∀ rr ∈ served.extra, rr.rrtype ≠ typeOPT → (rr.ttl.toNat : Int) = ttl
  opt : served.extra.filter isOPT = stored.extra.filter isOPT

section Lifetime

variable {msg : Msg} {ttls : TTLSettings}

theorem minTTLFrom_toNat (ttl : UInt32) (rrs : List RR) :
    (minTTLFrom ttl rrs).toNat = (rrs.map fun rr => rr.ttl.toNat).foldl min ttl.toNat := by
  unfold minTTLFrom
  induction rrs generalizing ttl with
  | nil => rfl
  | cons rr rrs ih =>
    rw [List.foldl_cons, List.map_cons, List.foldl_cons, ih]
    congr 1
    split
    · next h => exact (Nat.min_eq_right (UInt32.le_iff_toNat_le.mp (UInt32.le_of_lt h))).symm
    · next h => exact (Nat.min_eq_left (UInt32.le_iff_toNat_le.mp (UInt32.not_lt.mp h))).symm

theorem minTTLFrom_eq (ttl : UInt32) {rrs : List RR} (hne : rrs ≠ []) :
    (minTTLFrom ttl rrs).toNat = min ttl.toNat (smallestTTL rrs) := by
  rw [minTTLFrom_toNat]
  cases rrs with
  | nil => exact absurd rfl hne
  | cons rr rrs =>
    rw [smallestTTL, List.map_cons, List.min?_cons', List.foldl_cons]
    exact List.foldl_assoc

theorem raised_toNat (least ttl : UInt32) :
    (if ttl < least then least else ttl).toNat = max least.toNat ttl.toNat := by
  split
  · next h => exact (Nat.max_eq_left (UInt32.le_iff_toNat_le.mp (UInt32.le_of_lt h))).symm
  · next h => exact (Nat.max_eq_right (UInt32.le_iff_toNat_le.mp (UInt32.not_lt.mp h))).symm

theorem getMinTTL_eq (msg : Msg) (ttls : TTLSettings) :
    getMinTTL msg ttls = msg.lifetime ttls * second := by
  unfold getMinTTL Msg.lifetime
  split
  · rfl
  · next h =>
    have hne : (if msg.answer ≠ [] then msg.answer else msg.ns) ≠ [] := by
      split
      · assumption
      · next hanswer => exact fun hns => h (.inr ⟨not_not.mp hanswer, hns⟩)
    dsimp only
    rw [raised_toNat, minTTLFrom_eq _ hne]
    split <;> rfl

theorem lifetime_le (msg : Msg) (ttls : TTLSettings) : (msg.lifetime ttls : Int) ≤ maxUint32 := by
  have hlt (x : UInt32) : x.toNat ≤ 4294967295 := Nat.le_of_lt_succ x.toNat_lt
  have hmin := hlt ttls.cacheMinTTL
  have hmax := hlt ttls.cacheMaxTTL
  have hnegMin := hlt ttls.cacheNegMinTTL
  have hnegMax := hlt ttls.cacheNegMaxTTL
  have hbound : msg.lifetime ttls ≤ 4294967295 := by
    unfold Msg.lifetime
    split
    · exact hnegMin
    · dsimp only
      split
      · exact max_le hmin ((min_le_left _ _).trans hmax)
      · exact max_le hnegMin ((min_le_left _ _).trans hnegMax)
  exact Int.ofNat_le.mpr hbound

end Lifetime

/-! ## Served TTLs -/

section Served

variable {left : Int} {lifetime : Nat}

theorem noWrap_of_le (h0 : 0 ≤ left) (hleft : left ≤ lifetime * second)
    (hlife : (lifetime : Int) ≤ maxUint32) : NoWrap left := by
  unfold second maxUint32 at *
  have hduration : left ≤ maxInt64 := by unfold maxInt64; omega
  have hseconds : left / second ≤ maxUint32 := by unfold second maxUint32; omega
  have hproduct : left / second * second ≤ maxInt64 := by unfold second maxInt64; omega
  have hrounded : roundHalfUp left ≤ maxUint32 := by unfold roundHalfUp second maxUint32; omega
  exact ⟨h0, hduration, hseconds, hproduct, hrounded⟩

theorem roundHalfUp_le (hleft : left ≤ lifetime * second) : roundHalfUp left ≤ lifetime := by
  unfold roundHalfUp second at *
  omega

theorem roundHalfUp_mono {left' : Int} (h : left ≤ left') : roundHalfUp left ≤ roundHalfUp left' := by
  unfold roundHalfUp second
  omega

theorem remainingTTL_eq {expiration now : Time} (h : NoWrap (expiration - now)) :
    ((remainingTTL expiration now).toNat : Int) = roundHalfUp (expiration - now) := by
  obtain ⟨left, hleft⟩ : ∃ left : Int, expiration - now = left := ⟨_, rfl⟩
  rw [remainingTTL, hleft]
  rw [hleft] at h
  obtain ⟨hnonneg, -, hseconds, -, hrounded⟩ := h
  unfold roundHalfUp second maxUint32 at *
  dsimp only
  have hwhole : (UInt32.ofNat (left / 1000000000).toNat).toNat = (left / 1000000000).toNat := by
    rw [UInt32.toNat_ofNat']
    omega
  rw [hwhole]
  split
  · split
    · next hhalf =>
      have hhalf : left - (left / 1000000000).toNat * 1000000000 ≥ 1000000000 / 2 := hhalf
      have hone : (1 : UInt32).toNat = 1 := rfl
      rw [UInt32.toNat_add, hwhole, hone]
      omega
    · next hhalf =>
      have hhalf : ¬left - (left / 1000000000).toNat * 1000000000 ≥ 1000000000 / 2 := hhalf
      rw [hwhole]
      omega
  · next hpos =>
    have hpos : ¬left > 0 := hpos
    have hzero : (0 : UInt32).toNat = 0 := rfl
    omega

theorem servedTTLs_withTTL (msg : Msg) (ttl : UInt32) :
    ServedTTLs ttl.toNat msg (msg.withTTL ttl) := by
  refine ⟨fun rr hrr => ?_, fun rr hrr => ?_, fun rr hrr hopt => ?_, ?_⟩
  · obtain ⟨rr, -, rfl⟩ := List.mem_map.mp hrr
    rfl
  · obtain ⟨rr, -, rfl⟩ := List.mem_map.mp hrr
    rfl
  · obtain ⟨rr, -, rfl⟩ := List.mem_map.mp hrr
    split at hopt
    · rw [if_pos ‹_›]
      rfl
    · contradiction
  · show (msg.extra.map _).filter isOPT = msg.extra.filter isOPT
    induction msg.extra with
    | nil => rfl
    | cons rr rrs ih =>
      rw [List.map_cons, List.filter_cons, List.filter_cons, ih]
      by_cases hopt : rr.rrtype = typeOPT
      · rw [if_neg (not_not.mpr hopt)]
      · rw [if_pos hopt]
        have hnot : isOPT rr = false := decide_eq_false hopt
        have hnot' : isOPT (rr.withTTL ttl) = false := decide_eq_false hopt
        rw [hnot, hnot', if_neg Bool.false_ne_true, if_neg Bool.false_ne_true]

theorem ServedTTLs.of_opt {ttl : Int} {stored stored' served : Msg}
    (h : ServedTTLs ttl stored served)
    (hopt : stored.extra.filter isOPT = stored'.extra.filter isOPT) : ServedTTLs ttl stored' served :=
  { h with opt := h.opt.trans hopt }

theorem servedTTLs_servedResponse (ttls : TTLSettings) (stored msg : Msg) {time now : Time}
    (hnow : now ≤ (storedResponse ttls stored time).expiration)
    (hleft : NoWrap ((storedResponse ttls stored time).expiration - now)) :
    ServedTTLs (roundHalfUp ((storedResponse ttls stored time).expiration - now)) stored
      (servedResponse msg (storedResponse ttls stored time) now) := by
  rw [servedResponse, if_pos hnow, ← remainingTTL_eq hleft]
  refine (servedTTLs_withTTL (servedFor msg _) _).of_opt ?_
  exact (servedTTLs_withTTL stored _).opt

theorem expiration_storedResponse (ttls : TTLSettings) (msg : Msg) (time : Time) :
    (storedResponse ttls msg time).expiration - time = msg.lifetime ttls * second := by
  have hadd : (storedResponse ttls msg time).expiration = msg.lifetime ttls * second + time := by
    rw [← getMinTTL_eq, Int.add_comm]
    rfl
  rw [hadd]
  exact Int.add_sub_cancel _ _

theorem cacheEval_of_hit {pkgs : Packages} {now : Time} {ctx : Ctx} {question : Question}
    {rest : List Question} {cache : ArcCache CacheKey CachedResponse} {cached : CachedResponse}
    (hq : ctx.msg.question = question :: rest) (hcache : ctx.world.cache = some cache)
    (hhit : (cache.get (cacheKey pkgs.prims ctx.st.dnssec question)).1 = some cached)
    (hnow : now ≤ cached.expiration) :
    ∃ ctx', cacheEval pkgs now ctx = .ok (ctx', none) ∧
      ctx'.st.synthResponse = some (servedResponse ctx.msg cached now) := by
  have hquestion : ctx.question = .ok question := by rw [Ctx.question, hq]
  have hfresh : ¬now > cached.expiration := not_lt.mpr hnow
  rw [cacheEval, hquestion, servedResponse, if_pos hnow]
  simp only [hcache, hhit, bind, Except.bind, if_neg hfresh]
  exact ⟨_, rfl, rfl⟩

end Served

/-- In every run, for every entry of the cache: it was stored for a packet that was received, for
the lifetime of its message, and until it expires every hit on it is answered with the time that
is left. -/
theorem cached_ttls {p : Proxy} {w : World} (hw : Reachable p w)
    {cache : ArcCache CacheKey CachedResponse} (hcache : w.cache = some cache) {key : CacheKey}
    {cached : CachedResponse} (hheld : cache.Holds key cached) :
    ∃ source client packet time msg,
      .received source client packet time ∈ w.history ∧ p.pkgs.dns.unpack packet = .ok msg ∧
      cached.expiration - time = msg.lifetime p.settings.query.ttls * second ∧
      msg.lifetime p.settings.query.ttls * second ≤ maxInt64 ∧
      ∀ now, time ≤ now → now ≤ cached.expiration →
        NoWrap (cached.expiration - now) ∧
        roundHalfUp (cached.expiration - now) ≤ msg.lifetime p.settings.query.ttls ∧
        (∀ later, now ≤ later →
          roundHalfUp (cached.expiration - later) ≤ roundHalfUp (cached.expiration - now)) ∧
        ∀ ctx : Ctx, ∀ question rest, ctx.msg.question = question :: rest →
          ctx.world.cache = some cache → cacheKey p.pkgs.prims ctx.st.dnssec question = key →
          (cache.get key).1 = some cached →
          ∃ ctx' served, cacheEval p.pkgs now ctx = .ok (ctx', none) ∧
            ctx'.st.synthResponse = some served ∧
            ServedTTLs (roundHalfUp (cached.expiration - now)) (filteredMsg msg) served := by
  obtain ⟨source, client, packet, time, _, msg, _, _, hr, -, hu, -, -, rfl⟩ :=
    hw.accounted.entries cache hcache key cached hheld
  have hlifetime : (storedResponse p.settings.query.ttls (filteredMsg msg) time).expiration - time =
      msg.lifetime p.settings.query.ttls * second := by
    rw [expiration_storedResponse]
    rfl
  have hbound := lifetime_le msg p.settings.query.ttls
  refine ⟨source, client, packet, time, msg, hr, hu, hlifetime, ?_, fun now hafter hbefore => ?_⟩
  · exact (noWrap_of_le (Int.mul_nonneg (Int.natCast_nonneg _) (by decide)) le_rfl hbound).duration
  have hleft : (storedResponse p.settings.query.ttls (filteredMsg msg) time).expiration - now ≤
      msg.lifetime p.settings.query.ttls * second :=
    hlifetime ▸ Int.sub_le_sub_left hafter _
  have hnoWrap := noWrap_of_le (Int.sub_nonneg_of_le hbefore) hleft hbound
  refine ⟨hnoWrap, roundHalfUp_le hleft, fun later hlater => ?_, fun ctx question rest hq hc hkey hhit => ?_⟩
  · exact roundHalfUp_mono (Int.sub_le_sub_left hlater _)
  subst hkey
  obtain ⟨ctx', heval, hserved⟩ := cacheEval_of_hit hq hc hhit hbefore
  exact ⟨ctx', _, heval, hserved, servedTTLs_servedResponse _ _ _ hbefore hnoWrap⟩

namespace Sample

/-- The state after an answer with a TTL of 60 seconds. -/
def filled : World := afterCall caching (answering 0) world queryPacket

def filledCache : ArcCache CacheKey CachedResponse := filled.cache.get rfl

def filledKey : CacheKey := cacheKey caching.pkgs.prims false question

def asking (w : World) : Ctx :=
  ⟨newPluginsState caching.settings.query .udp none .udp, query, w⟩

theorem filled_hit : (filledCache.get filledKey).1 = some ⟨60 * second, reply 60⟩ := rfl

theorem filled_served_rounded :
    ∃ time msg, (60 * second) - time = Msg.lifetime msg caching.settings.query.ttls * second ∧
      ∀ now, time ≤ now → now ≤ 60 * second →
        ∃ ctx' served, cacheEval caching.pkgs now (asking filled) = .ok (ctx', none) ∧
          ctx'.st.synthResponse = some served ∧
          ServedTTLs (roundHalfUp (60 * second - now)) (filteredMsg msg) served := by
  have hreachable : Reachable caching filled := reachable_afterCall (.start rfl rfl) _ _
  obtain ⟨_, _, _, time, msg, -, -, hlifetime, -, hserved⟩ :=
    cached_ttls hreachable rfl (ArcCache.holds_of_get filled_hit)
  refine ⟨time, msg, hlifetime, fun now hafter hbefore => ?_⟩
  exact (hserved now hafter hbefore).2.2.2 _ question [] rfl rfl rfl filled_hit

end Sample

/-! ## Negative responses -/

/-- The responses that count as negative. -/
def Msg.Negative (msg : Msg) : Prop :=
  msg.rcode = rcodeNameError ∨ (msg.rcode = rcodeSuccess ∧ msg.answer = [])

/-- A response without an answer, but with authority records, is cached with the settings for
positive responses; these lead outside of the limits for negative ones. -/
def Msg.Misclassed (msg : Msg) (ttls : TTLSettings) : Prop :=
  msg.rcode = rcodeSuccess ∧ msg.answer = [] ∧ msg.ns ≠ [] ∧
    ((ttls.cacheNegMaxTTL < ttls.cacheMinTTL ∨
        (ttls.cacheNegMaxTTL < ttls.cacheMaxTTL ∧ ∀ rr ∈ msg.ns, ttls.cacheNegMaxTTL < rr.ttl)) ∨
      (ttls.cacheMinTTL < ttls.cacheNegMinTTL ∧
        (ttls.cacheMaxTTL < ttls.cacheNegMinTTL ∨ ∃ rr ∈ msg.ns, rr.ttl < ttls.cacheNegMinTTL)))

section Negative

variable {msg : Msg} {ttls : TTLSettings}

theorem smallestTTL_mem {rrs : List RR} (hne : rrs ≠ []) :
    ∃ rr ∈ rrs, rr.ttl.toNat = smallestTTL rrs ∧ ∀ rr' ∈ rrs, smallestTTL rrs ≤ rr'.ttl.toNat := by
  unfold smallestTTL
  cases hmin : (rrs.map fun rr => rr.ttl.toNat).min? with
  | none => exact absurd (List.map_eq_nil_iff.mp (List.min?_eq_none_iff.mp hmin)) hne
  | some least =>
    obtain ⟨hmem, hle⟩ := List.min?_eq_some_iff.mp hmin
    obtain ⟨rr, hrr, rfl⟩ := List.mem_map.mp hmem
    exact ⟨rr, hrr, rfl, fun rr' hrr' => hle _ (List.mem_map_of_mem hrr')⟩

theorem lt_smallestTTL_iff {rrs : List RR} (hne : rrs ≠ []) {ttl : UInt32} :
    ttl.toNat < smallestTTL rrs ↔ ∀ rr ∈ rrs, ttl < rr.ttl := by
  obtain ⟨rr, hrr, heq, hle⟩ := smallestTTL_mem hne
  constructor
  · exact fun h rr' hrr' => UInt32.lt_iff_toNat_lt.mpr (h.trans_le (hle rr' hrr'))
  · exact fun h => heq ▸ UInt32.lt_iff_toNat_lt.mp (h rr hrr)

theorem smallestTTL_lt_iff {rrs : List RR} (hne : rrs ≠ []) {ttl : UInt32} :
    smallestTTL rrs < ttl.toNat ↔ ∃ rr ∈ rrs, rr.ttl < ttl := by
  obtain ⟨rr, hrr, heq, hle⟩ := smallestTTL_mem hne
  constructor
  · exact fun h => ⟨rr, hrr, UInt32.lt_iff_toNat_lt.mpr (heq ▸ h)⟩
  · rintro ⟨rr', hrr', hlt⟩
    exact (hle rr' hrr').trans_lt (UInt32.lt_iff_toNat_lt.mp hlt)

theorem lifetime_within_of_not_misclassed_code (hle : ttls.cacheNegMinTTL ≤ ttls.cacheNegMaxTTL)
    (h : msg.rcode ≠ rcodeSuccess ∨ (msg.answer = [] ∧ msg.ns = [])) :
    ttls.cacheNegMinTTL.toNat ≤ msg.lifetime ttls ∧
      msg.lifetime ttls ≤ ttls.cacheNegMaxTTL.toNat := by
  have hle := UInt32.le_iff_toNat_le.mp hle
  unfold Msg.lifetime
  split
  · exact ⟨le_rfl, hle⟩
  · next hcached =>
    have hcode : msg.rcode ≠ rcodeSuccess := h.resolve_right fun h => hcached (.inr h)
    rw [if_neg hcode]
    exact ⟨le_max_left _ _, max_le hle (min_le_left _ _)⟩

theorem lifetime_of_noData (hcode : msg.rcode = rcodeSuccess) (hanswer : msg.answer = [])
    (hns : msg.ns ≠ []) : msg.lifetime ttls =
      max ttls.cacheMinTTL.toNat (min ttls.cacheMaxTTL.toNat (smallestTTL msg.ns)) := by
  unfold Msg.lifetime
  rw [if_neg (by simp [hcode, hns]), if_pos hcode, if_neg (not_not.mpr hanswer)]

theorem lifetime_within_iff (hneg : msg.Negative) (hle : ttls.cacheNegMinTTL ≤ ttls.cacheNegMaxTTL) :
    (ttls.cacheNegMinTTL.toNat ≤ msg.lifetime ttls ∧
      msg.lifetime ttls ≤ ttls.cacheNegMaxTTL.toNat) ↔ ¬msg.Misclassed ttls := by
  by_cases hns : msg.rcode ≠ rcodeSuccess ∨ (msg.answer = [] ∧ msg.ns = [])
  · refine iff_of_true (lifetime_within_of_not_misclassed_code hle hns) ?_
    rintro ⟨hcode, -, hne, -⟩
    rcases hns with hns | ⟨-, hns⟩
    · exact hns hcode
    · exact hne hns
  · obtain ⟨hcode, hns⟩ := not_or.mp hns
    have hcode := not_not.mp hcode
    have hanswer : msg.answer = [] := by
      rcases hneg with hneg | ⟨-, hneg⟩
      · exact absurd (hcode.symm.trans hneg) (by decide)
      · exact hneg
    have hne : msg.ns ≠ [] := fun h => hns ⟨hanswer, h⟩
    rw [lifetime_of_noData hcode hanswer hne, Msg.Misclassed, ← lt_smallestTTL_iff hne,
      ← smallestTTL_lt_iff hne]
    simp only [UInt32.lt_iff_toNat_lt, hcode, hanswer, hne, true_and, ne_eq, not_false_eq_true]
    omega

theorem cacheResponseEval_stored {pkgs : Packages} {now : Time} {ctx ctx' : Ctx}
    {err : Option GoError} {client : Option Msg} {dnssec : Bool} {cached : CachedResponse}
    (heval : cacheResponseEval pkgs now ctx = .ok (ctx', err))
    (hstored : ctx'.world.history = .stored client dnssec cached :: ctx.world.history) :
    cached = storedResponse ctx.st.ttls ctx.msg now := by
  have hquiet : ctx.world.history ≠ .stored client dnssec cached :: ctx.world.history :=
    (List.cons_ne_self _ _).symm
  unfold cacheResponseEval at heval
  split at heval
  · cases heval
    exact absurd hstored hquiet
  split at heval
  · cases heval
    exact absurd hstored hquiet
  cases hquestion : ctx.question with
  | error halted =>
    rw [hquestion] at heval
    cases heval
  | ok question =>
    rw [hquestion] at heval
    simp only [bind, Except.bind] at heval
    split at heval
    · cases heval
      exact absurd hstored hquiet
    · cases heval
      injection hstored with hevent
      injection hevent with _ _ hcached
      exact hcached.symm

end Negative

/-- Whenever the plugin stores a negative response, it stores it for a time within the limits for
negative responses, unless the response is taken for a positive one. -/
theorem negative_lifetime_iff {pkgs : Packages} {now : Time} {ctx ctx' : Ctx} {err : Option GoError}
    {client : Option Msg} {dnssec : Bool} {cached : CachedResponse} (hneg : ctx.msg.Negative)
    (hle : ctx.st.ttls.cacheNegMinTTL ≤ ctx.st.ttls.cacheNegMaxTTL)
    (heval : cacheResponseEval pkgs now ctx = .ok (ctx', err))
    (hstored : ctx'.world.history = .stored client dnssec cached :: ctx.world.history) :
    (ctx.st.ttls.cacheNegMinTTL.toNat * second ≤ cached.expiration - now ∧
        cached.expiration - now ≤ ctx.st.ttls.cacheNegMaxTTL.toNat * second) ↔
      ¬ctx.msg.Misclassed ctx.st.ttls := by
  rw [cacheResponseEval_stored heval hstored, expiration_storedResponse,
    ← lifetime_within_iff hneg hle]
  have hscale (a b : Nat) : (a : Int) * second ≤ b * second ↔ a ≤ b := by
    unfold second
    omega
  rw [hscale, hscale]

namespace Sample

/-- The settings of the example configuration. -/
def exampleTTLs : TTLSettings := ⟨2400, 86400, 60, 600⟩

/-- A response without an answer, and with the SOA record of the zone. -/
def noDataCtx (rcode : Nat) : Ctx where
  st := newPluginsState ⟨512, exampleTTLs, 10⟩ .udp none .udp
  msg :=
    { reply 60 with
      rcode := rcode, answer := []
      ns := [⟨"com.".toList, classINET, 900,
        .soa "a.gtld-servers.net.".toList "nstld.verisign-grs.com.".toList 1 1800 900 604800 900⟩] }
  world := world

def noDataStored (rcode : Nat) : CachedResponse :=
  storedResponse exampleTTLs (noDataCtx rcode).msg 0

theorem nameError_stored :
    ∃ ctx', cacheResponseEval caching.pkgs 0 (noDataCtx rcodeNameError) = .ok (ctx', none) ∧
      ctx'.world.history = [.stored none false (noDataStored rcodeNameError)] :=
  ⟨_, rfl, rfl⟩

/-- Where the name does not exist, the limit for negative responses is kept. -/
theorem nameError_lifetime :
    (noDataStored rcodeNameError).expiration = 600 * second ∧
      ((exampleTTLs.cacheNegMinTTL.toNat * second ≤ (noDataStored rcodeNameError).expiration - 0 ∧
          (noDataStored rcodeNameError).expiration - 0 ≤ exampleTTLs.cacheNegMaxTTL.toNat * second) ↔
        ¬(noDataCtx rcodeNameError).msg.Misclassed exampleTTLs) := by
  obtain ⟨ctx', heval, hstored⟩ := nameError_stored
  have hiff := negative_lifetime_iff (.inl rfl) (by decide) heval hstored
  exact ⟨rfl, hiff⟩

/-- Where it exists, the entry lives for the 40 minutes that positive responses are given. -/
theorem noData_outlives_limit :
    (noDataCtx rcodeSuccess).msg.Negative ∧
      exampleTTLs.cacheNegMinTTL ≤ exampleTTLs.cacheNegMaxTTL ∧
      ∃ ctx' cached, cacheResponseEval caching.pkgs 0 (noDataCtx rcodeSuccess) = .ok (ctx', none) ∧
        ctx'.world.history =
          .stored none false cached :: (noDataCtx rcodeSuccess).world.history ∧
        cached.expiration - 0 = 2400 * second ∧
        ¬cached.expiration - 0 ≤ exampleTTLs.cacheNegMaxTTL.toNat * second :=
  ⟨.inr ⟨rfl, rfl⟩, by decide, _, noDataStored rcodeSuccess, rfl, rfl, rfl, by decide⟩

end Sample

end DnscryptProxy
