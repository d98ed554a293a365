import DnscryptProxy.Library.Selection
import DnscryptProxy.Sources

/-! `PrefetchSources`: the sources that are due are fetched, and the time until the next round is
chosen from the delays that these calls return. The shortest interval stands for "not set yet"
while the delays are compared, and calls that fail do not take part.

* `prefetch_in_time_iff`: when no source has to wait beyond the time it is scheduled for. -/

namespace DnscryptProxy.Sources

open Library

section Prefetch

variable {Signature : Type} (m : Minisign Signature) (now : Time)

/-- A source with the files it has, and what it would learn from outside if it were fetched. -/
abbrev Pending := SourceState × FetchEnv

/-- The source has a refresh time, and that is not after `now`. -/
def Source.due (source : Source) : Bool :=
  match source.refresh with
  | none => false
  | some refresh => refresh ≤ now

/-- `fetchWithCache` at the time of the round. -/
def Pending.fetch (pending : Pending) : SourceState × Time × Option GoError :=
  fetchWithCache m pending.1 { pending.2 with now := now }

/-- The body of the loop. -/
def prefetchSource (interval : Time) (pending : Pending) : SourceState × Time :=
  if !pending.1.source.due now then (pending.1, interval)
  else
    match pending.fetch m now with
    | (st, _, some _) => (st, interval)
    | (st, delay, none) =>
      if delay ≥ minimumPrefetchInterval ∧
          (interval = minimumPrefetchInterval ∨ interval > delay) then (st, delay)
      else (st, interval)

def prefetchLoop (interval : Time) : List Pending → List SourceState × Time
  | [] => ([], interval)
  | pending :: sources =>
    let (st, interval) := prefetchSource m now interval pending
    let (sts, interval) := prefetchLoop interval sources
    (st :: sts, interval)

/-- `PrefetchSources`, with the sources it leaves and the interval it returns. -/
def prefetchSources (sources : List Pending) : List SourceState × Time :=
  prefetchLoop m now minimumPrefetchInterval sources

/-! ## What is scheduled -/

/-- The source that one round leaves. -/
def Pending.next (pending : Pending) : SourceState :=
  if pending.1.source.due now then (pending.fetch m now).1 else pending.1

/-- The delay that takes part in the choice of the interval. -/
def Pending.delay (pending : Pending) : Option Time :=
  if pending.1.source.due now ∧ (pending.fetch m now).2.2 = none ∧
      (pending.fetch m now).2.1 ≥ minimumPrefetchInterval then some (pending.fetch m now).2.1
  else none

/-- The delays that take part, in the order of the sources. -/
def delays (sources : List Pending) : List Time := sources.filterMap (Pending.delay m now)

def Pending.wait (pending : Pending) : Option Time :=
  if pending.1.source.due now then some (pending.fetch m now).2.1
  else pending.1.source.refresh.map (· - now)

/-- After the last source that was fetched with exactly the shortest interval, others were fetched
with longer ones, and some source should be looked at before all of these. -/
def Oversleeps (sources : List Pending) : Prop :=
  afterLast minimumPrefetchInterval (delays m now sources) ≠ [] ∧
    ∃ pending ∈ sources, pending.1.source.urls ≠ [] ∧ ∃ wait, pending.wait m now = some wait ∧
      ∀ delay ∈ afterLast minimumPrefetchInterval (delays m now sources), wait < delay

variable {m now}

theorem prefetchSource_eq (interval : Time) (pending : Pending) :
    prefetchSource m now interval pending =
      (pending.next m now,
        (pending.delay m now).elim interval (keepShort minimumPrefetchInterval interval)) := by
  unfold prefetchSource Pending.next Pending.delay
  cases pending.1.source.due now with
  | false => rfl
  | true =>
    obtain ⟨st, delay, err⟩ := pending.fetch m now
    cases err with
    | some e => simp
    | none =>
      by_cases hmin : delay ≥ minimumPrefetchInterval
      · simp only [hmin, true_and, and_self, if_true, Option.elim_some, keepShort]
        by_cases hset : interval = minimumPrefetchInterval ∨ interval > delay
        · simp [hset]
        · simp [hset]
      · simp [hmin]

theorem prefetchLoop_eq (interval : Time) (sources : List Pending) :
    prefetchLoop m now interval sources =
      (sources.map (Pending.next m now),
        (delays m now sources).foldl (keepShort minimumPrefetchInterval) interval) := by
  induction sources generalizing interval with
  | nil => rfl
  | cons pending sources ih =>
    rw [prefetchLoop, prefetchSource_eq]
    dsimp only
    rw [ih, delays, delays, List.filterMap_cons, List.map_cons]
    cases pending.delay m now <;> rfl

theorem fetchWithCache_scheduled {st : SourceState} {env : FetchEnv} (hurls : st.source.urls ≠ []) :
    (fetchWithCache m st env).1.source.refresh =
      some (env.now + (fetchWithCache m st env).2.1) := by
  have hurls' : (fetchFromCache m st.source st.files env).1.urls ≠ [] := by simpa using hurls
  simp only [fetchWithCache, if_neg hurls']
  split
  · rfl
  · split <;> rfl

theorem Pending.next_urls (pending : Pending) :
    (pending.next m now).source.urls = pending.1.source.urls := by
  unfold Pending.next
  split
  · exact (fetchWithCache_source m pending.1 _).2
  · rfl

theorem Pending.next_refresh {pending : Pending} (hurls : pending.1.source.urls ≠ []) :
    (pending.next m now).source.refresh = (pending.wait m now).map (now + ·) := by
  unfold Pending.next Pending.wait
  split
  · exact fetchWithCache_scheduled hurls
  · rw [Option.map_map]
    cases pending.1.source.refresh with
    | none => rfl
    | some refresh =>
      have hback : now + (refresh - now) = refresh := by
        rw [Int.add_comm]
        exact Int.sub_add_cancel refresh now
      exact congrArg some hback.symm

theorem minimum_le_of_mem_delays {sources : List Pending} :
    ∀ delay ∈ delays m now sources, minimumPrefetchInterval ≤ delay := by
  intro delay hdelay
  obtain ⟨pending, -, hpending⟩ := List.mem_filterMap.mp hdelay
  unfold Pending.delay at hpending
  split at hpending
  · next h =>
    cases hpending
    exact h.2.2
  · contradiction

theorem forall_next_iff {sources : List Pending} {P : Time → Prop} :
    (∀ st ∈ sources.map (Pending.next m now), st.source.urls ≠ [] →
        ∀ refresh, st.source.refresh = some refresh → P (refresh - now)) ↔
      ∀ pending ∈ sources, pending.1.source.urls ≠ [] →
        ∀ wait, pending.wait m now = some wait → P wait := by
  have hsub (wait : Int) : now + wait - now = wait := by
    rw [Int.add_comm]
    exact Int.add_sub_cancel wait now
  rw [List.forall_mem_map]
  refine forall₂_congr fun pending _ => ?_
  rw [pending.next_urls]
  refine forall_congr' fun hurls => ?_
  rw [pending.next_refresh hurls]
  constructor
  · intro h wait hwait
    have hP := h (now + wait) (by rw [hwait]; rfl)
    rwa [hsub] at hP
  · intro h refresh hrefresh
    obtain ⟨wait, hwait, rfl⟩ := Option.map_eq_some_iff.mp hrefresh
    rw [hsub]
    exact h wait hwait

variable (m now) in
/-- The interval that is returned ends before the next refresh of every source that has URLs, or
is the shortest one, unless the sources make the round oversleep. -/
theorem prefetch_in_time_iff (sources : List Pending) :
    (∀ st ∈ (prefetchSources m now sources).1, st.source.urls ≠ [] →
        ∀ refresh, st.source.refresh = some refresh →
          (prefetchSources m now sources).2 ≤ max minimumPrefetchInterval (refresh - now)) ↔
      ¬Oversleeps m now sources := by
  rw [prefetchSources, prefetchLoop_eq]
  refine (forall_next_iff (P := fun wait => _ ≤ max minimumPrefetchInterval wait)).trans ?_
  unfold Oversleeps
  have hge : ∀ delay ∈ delays m now sources, minimumPrefetchInterval ≤ delay :=
    minimum_le_of_mem_delays
  rcases foldl_keepShort hge with ⟨hnil, hmin⟩ | ⟨hmem, hlonger, hleast⟩
  · -- the interval was never set, or set to the shortest one at the end
    refine iff_of_true (fun pending _ _ wait _ => ?_) fun h => h.1 hnil
    rw [hmin]
    exact le_max_left _ _
  · -- it is the least of the delays that came after the last shortest one
    constructor
    · rintro hintime ⟨-, pending, hpending, hurls, wait, hwait, hshort⟩
      have hle := hintime pending hpending hurls wait hwait
      exact absurd hle (not_le.mpr (max_lt hlonger (hshort _ hmem)))
    · intro hnot pending hpending hurls wait hwait
      by_contra hlate
      have hwait' := (le_max_right _ _).trans_lt (not_le.mp hlate)
      refine hnot ⟨List.ne_nil_of_mem hmem, pending, hpending, hurls, wait, hwait, ?_⟩
      exact fun delay hdelay => hwait'.trans_le (hleast delay hdelay)

end Prefetch

namespace Sample

/-- A source that is due, and whose list can be downloaded or not. -/
def dueSource (reachable : Bool) : Pending :=
  ({ fresh with source.refresh := some 0 },
    if reachable then served 0
    else
      { served 0 with
        downloads := fun _ => ⟨.error (.plain "i/o timeout"), .error (.plain "i/o timeout")⟩ })

def oneFails : List SourceState × Time :=
  prefetchSources minisign 0 [dueSource false, dueSource true]

/-- The source that cannot be reached is to be tried again after ten minutes, but the next round
is a day later. -/
theorem failed_source_waits :
    oneFails.2 = 24 * 60 * minute ∧
      oneFails.1.map (fun st => st.source.refresh) = [some (10 * minute), some (24 * 60 * minute)] ∧
      ¬∀ st ∈ oneFails.1, st.source.urls ≠ [] → ∀ refresh, st.source.refresh = some refresh →
        oneFails.2 ≤ max minimumPrefetchInterval (refresh - 0) := by
  refine ⟨by decide, by decide, fun h => ?_⟩
  have hle := h (dueSource false |>.next minisign 0) List.mem_cons_self (by decide) (10 * minute)
    (by decide)
  exact absurd hle (by decide)

end Sample

end DnscryptProxy.Sources
