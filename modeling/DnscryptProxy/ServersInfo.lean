import DnscryptProxy.Proxy
import DnscryptProxy.Registry
import Mathlib.Algebra.Group.Int.Defs

/-! `serversInfo.go`: the servers in use, how one of them is chosen for a query, and how
their round-trip times are kept. Each definition here is one section under the lock.

A `*ServerInfo` is a `Server`: which object it points to, and what is never changed in
that object. What does change is in `timing`. -/

namespace DnscryptProxy

open Library

/-! ## Moving averages -/

def warmupSamples : UInt8 := 10

/-- `ewma.VariableEWMA` -/
structure VariableEWMA where
  decay : Float
  average : Float
  count : UInt8

namespace VariableEWMA

def newMovingAverage (age : Float) : VariableEWMA := ⟨2 / (age + 1), 0, 0⟩

def decayed (e : VariableEWMA) (average value : Float) : Float :=
  value * e.decay + average * (1 - e.decay)

def add (e : VariableEWMA) (value : Float) : VariableEWMA :=
  if e.count < warmupSamples then { e with count := e.count + 1, average := e.average + value }
  else if e.count = warmupSamples then
    { e with count := e.count + 1, average := e.decayed (e.average / 10) value }
  else { e with average := e.decayed e.average value }

def value (e : VariableEWMA) : Float := if e.count ≤ warmupSamples then 0 else e.average

def set (e : VariableEWMA) (value : Float) : VariableEWMA :=
  { e with
    average := value
    count := if e.count ≤ warmupSamples then warmupSamples + 1 else e.count }

end VariableEWMA

def rttEwmaDecay : Float := 10

/-! ## Times -/

/-- `time.Time{}`, the start of year 1. -/
def zeroTime : Time := -62135596800 * second

/-- `t.Sub(u)`, which stays within an `int64`. -/
def timeSub (t u : Time) : Time := max (-2 ^ 63) (min (2 ^ 63 - 1) (t - u))

/-- A duration in whole milliseconds. -/
def milliseconds (d : Time) : Int := d.tdiv 1000000

/-! ## The servers in use -/

structure Timing where
  lastActionTS : Time
  rtt : VariableEWMA
  begins : Nat

structure Server where
  ref : Nat
  info : ServerInfo
  initialRtt : Int

def Server.name (server : Server) : Text := server.info.name

/-- A sample that `noticeSuccess` added to a moving average: when the query had called
`noticeBegin`, if it had, and what was added at which time. -/
structure RTTSample where
  begun : Option Time
  ended : Time
  added : Int
  deriving DecidableEq, Repr

inductive LBStrategy where
  | p2
  | pn (n : Nat)
  | ph
  | first
  | random
  deriving DecidableEq, Repr

/-- The samples are kept for the theorems only. -/
structure ServersInfo where
  inner : List Server
  registry : ServersRegistry
  lbStrategy : LBStrategy
  lbEstimator : Bool
  timing : Nat → Timing
  /-- The objects below this one have been made. -/
  allocated : Nat
  samples : List RTTSample

def ServersInfo.names (s : ServersInfo) : List Text := s.inner.map Server.name

def ServersInfo.modify (s : ServersInfo) (ref : Nat) (f : Timing → Timing) : ServersInfo :=
  { s with timing := Function.update s.timing ref (f (s.timing ref)) }

def ServersInfo.rtt (s : ServersInfo) (server : Server) : Float := (s.timing server.ref).rtt.value

/-! ## The choice of a server

`none` stands for a panic. -/

/-- `rand.Intn(n)` -/
def intn (n draw : Nat) : Option Nat := if n = 0 then none else some (draw % n)

def LBStrategy.getActiveCount (serversCount : Nat) : LBStrategy → Nat
  | .p2 => min serversCount 2
  | .pn n => min serversCount n
  | .ph => max (min serversCount 2) (serversCount / 2)
  | .first => 1
  | .random => serversCount

def LBStrategy.getCandidate (serversCount draw : Nat) : LBStrategy → Option Nat
  | .first => some 0
  | strategy => intn (strategy.getActiveCount serversCount) draw

def swapAt {α : Type} (l : List α) (i j : Nat) : Option (List α) := do
  let a ← l[i]?
  let b ← l[j]?
  return (l.set i b).set j a

/-- One pass over a list, with `a` in front of it, that exchanges neighbours. -/
def exchangeFrom {α : Type} (exchanged : α → α → Bool) (a : α) : List α → List α
  | [] => [a]
  | b :: l =>
    if exchanged a b then b :: exchangeFrom exchanged a l else a :: exchangeFrom exchanged b l

def ServersInfo.partialSort (s : ServersInfo) : ServersInfo :=
  match s.inner with
  | [] => s
  | server :: inner =>
    { s with inner := exchangeFrom (fun a b => decide (s.rtt a > s.rtt b)) server inner }

/-- The second branch of `estimatorUpdate`. -/
def ServersInfo.newChance (s : ServersInfo) (activeCount : Nat) (candidate : Server) (now : Time) :
    Option ServersInfo :=
  if s.rtt candidate > 0 then do
    let best ← s.inner[0]?
    let worst ← s.inner[activeCount - 1]?
    if s.rtt candidate ≥ (s.rtt best + s.rtt worst) / 2 * 4 ∧
        timeSub now (s.timing candidate.ref).lastActionTS > minute then
      return (s.modify candidate.ref fun t => { t with rtt := t.rtt.add (s.rtt candidate / 2) })
        |>.partialSort
    else return s
  else some s

def ServersInfo.estimatorUpdate (s : ServersInfo) (currentActive draw : Nat) (now : Time) :
    Option ServersInfo :=
  let serversCount := s.inner.length
  let activeCount := s.lbStrategy.getActiveCount serversCount
  if activeCount = serversCount then some s
  else do
    let candidate := (← intn (serversCount - activeCount) draw) + activeCount
    let candidateServer ← s.inner[candidate]?
    let activeServer ← s.inner[currentActive]?
    if s.rtt activeServer < 0 then
      return s.modify activeServer.ref fun t => { t with rtt := t.rtt.set (s.rtt candidateServer) }
    else if s.rtt candidateServer < s.rtt activeServer then
      let inner ← swapAt s.inner candidate currentActive
      return ServersInfo.partialSort { s with inner := inner }
    else s.newChance activeCount candidateServer now

def ServersInfo.estimate (s : ServersInfo) (currentActive draw : Nat) (now : Time) :
    Option ServersInfo :=
  if s.lbEstimator then s.estimatorUpdate currentActive draw now else some s

/-- `getOne`, with the two numbers it may draw. -/
def ServersInfo.getOne (s : ServersInfo) (draw draw' : Nat) (now : Time) :
    Option (ServersInfo × Option Server) :=
  if s.inner = [] then some (s, none)
  else do
    let candidate ← s.lbStrategy.getCandidate s.inner.length draw
    let s ← s.estimate candidate draw' now
    let server ← s.inner[candidate]?
    return (s, some server)

/-! ## Refreshing -/

abbrev FetchedInfo (name : Text) := { fetched : ServerInfo × Int // fetched.1.name = name }

/-- A server with the given name. -/
abbrev NamedServer (name : Text) := { server : Server // server.name = name }

inductive RefreshPC (name : Text) where
  | check
  | fetch (isNew : Bool)
  | replace (newServer : NamedServer name)
  | append (newServer : NamedServer name)
  | register

/-- A new object for a server. -/
def ServersInfo.allocate (s : ServersInfo) {name : Text} (fetched : FetchedInfo name) :
    ServersInfo × NamedServer name :=
  let initialRtt := fetched.val.2
  let rtt := (VariableEWMA.newMovingAverage rttEwmaDecay).set (Float.ofInt initialRtt)
  ({ s.modify s.allocated (fun _ => ⟨zeroTime, rtt, 0⟩) with allocated := s.allocated + 1 },
    ⟨⟨s.allocated, fetched.val.1, initialRtt⟩, fetched.property⟩)

/-- One step of `refreshServer`, which goes on or returns. -/
def refreshServer (s : ServersInfo) (registered : RegisteredServer)
    (fetchServerInfo : Bool → Except GoError (FetchedInfo registered.name)) :
    RefreshPC registered.name → ServersInfo × (RefreshPC registered.name ⊕ Option GoError)
  | .check => (s, .inl (.fetch (registered.name ∉ s.names)))
  | .fetch isNew =>
    match fetchServerInfo isNew with
    | .error e => (s, .inr (some e))
    | .ok fetched => ((s.allocate fetched).1, .inl (.replace (s.allocate fetched).2))
  | .replace newServer =>
    match replaceFirst Server.name newServer.val s.inner with
    | some inner => ({ s with inner := inner }, .inr none)
    | none => (s, .inl (.append newServer))
  | .append newServer => ({ s with inner := s.inner ++ [newServer.val] }, .inl .register)
  | .register => ({ s with registry := registerServer s.registry registered }, .inr none)

/-- The last section of `refresh`. -/
def ServersInfo.sortByLatency (s : ServersInfo) : ServersInfo :=
  { s with inner := s.inner.mergeSort fun a b => a.initialRtt ≤ b.initialRtt }

/-! ## Notices -/

def ServersInfo.noticeBegin (s : ServersInfo) (server : Server) (now : Time) : ServersInfo :=
  s.modify server.ref fun t => { t with lastActionTS := now, begins := t.begins + 1 }

def ServersInfo.noticeFailure (s : ServersInfo) (server : Server) (timeout : Time) : ServersInfo :=
  s.modify server.ref fun t => { t with rtt := t.rtt.add (Float.ofInt (milliseconds timeout)) }

/-- `noticeSuccess`, of a query that had called `noticeBegin` at time `begun`. -/
def ServersInfo.noticeSuccess (s : ServersInfo) (server : Server) (begun : Option Time) (now : Time)
    (timeout : Time) : ServersInfo :=
  let elapsed := timeSub now (s.timing server.ref).lastActionTS
  let elapsedMs := milliseconds elapsed
  if elapsedMs > 0 ∧ elapsed < timeout then
    { s.modify server.ref (fun t => { t with rtt := t.rtt.add (Float.ofInt elapsedMs) }) with
      samples := ⟨begun, now, elapsedMs⟩ :: s.samples }
  else s

/-! ## What the sections change -/

structure Rearranged (s s' : ServersInfo) : Prop where
  inner : s'.inner.Perm s.inner
  registry : s'.registry = s.registry
  allocated : s'.allocated = s.allocated
  samples : s'.samples = s.samples
  lastActionTS : ∀ ref, (s'.timing ref).lastActionTS = (s.timing ref).lastActionTS
  begins : ∀ ref, (s'.timing ref).begins = (s.timing ref).begins

theorem Rearranged.refl (s : ServersInfo) : Rearranged s s :=
  ⟨.refl _, rfl, rfl, rfl, fun _ => rfl, fun _ => rfl⟩

theorem Rearranged.trans {s s' s'' : ServersInfo} (h : Rearranged s s') (h' : Rearranged s' s'') :
    Rearranged s s'' where
  inner := h'.inner.trans h.inner
  registry := h'.registry.trans h.registry
  allocated := h'.allocated.trans h.allocated
  samples := h'.samples.trans h.samples
  lastActionTS ref := (h'.lastActionTS ref).trans (h.lastActionTS ref)
  begins ref := (h'.begins ref).trans (h.begins ref)

theorem Rearranged.of_perm {s : ServersInfo} {inner : List Server} (h : inner.Perm s.inner) :
    Rearranged s { s with inner := inner } :=
  ⟨h, rfl, rfl, rfl, fun _ => rfl, fun _ => rfl⟩

theorem Rearranged.names {s s' : ServersInfo} (h : Rearranged s s') : s'.names.Perm s.names :=
  h.inner.map Server.name

theorem Rearranged.modify_rtt (s : ServersInfo) (ref : Nat) (f : VariableEWMA → VariableEWMA) :
    Rearranged s (s.modify ref fun t => { t with rtt := f t.rtt }) := by
  refine ⟨.refl _, rfl, rfl, rfl, fun r => ?_, fun r => ?_⟩
  · by_cases h : r = ref
    · subst h
      simp [ServersInfo.modify]
    · simp [ServersInfo.modify, h]
  · by_cases h : r = ref
    · subst h
      simp [ServersInfo.modify]
    · simp [ServersInfo.modify, h]

theorem swapAt_perm {α : Type} {l l' : List α} {i j : Nat} (h : swapAt l i j = some l') :
    l'.Perm l := by
  simp only [swapAt, Option.bind_eq_bind, Option.bind_eq_some_iff] at h
  obtain ⟨a, ha, b, hb, h⟩ := h
  obtain ⟨hi, rfl⟩ := List.getElem?_eq_some_iff.mp ha
  obtain ⟨hj, rfl⟩ := List.getElem?_eq_some_iff.mp hb
  obtain rfl := Option.some.inj h
  exact List.set_set_perm hi hj

theorem exchangeFrom_perm {α : Type} (exchanged : α → α → Bool) (a : α) (l : List α) :
    (exchangeFrom exchanged a l).Perm (a :: l) := by
  induction l generalizing a with
  | nil => exact .refl _
  | cons b l ih =>
    by_cases h : exchanged a b
    · rw [exchangeFrom, if_pos h]
      exact ((ih a).cons b).trans (.swap a b l)
    · rw [exchangeFrom, if_neg h]
      exact (ih b).cons a

/-! The choice of a server changes the list by two kinds of steps only: it changes an average, or
it rearranges the servers. -/

section Choice

variable {R : ServersInfo → Prop} {s s' : ServersInfo} {now : Time}
  (hrtt : ∀ s ref (f : VariableEWMA → VariableEWMA), R s →
    R (s.modify ref fun t => { t with rtt := f t.rtt }))
  (hperm : ∀ s inner, inner.Perm s.inner → R s → R { s with inner := inner })

include hperm in
theorem partialSort_keeps (hs : R s) : R s.partialSort := by
  unfold ServersInfo.partialSort
  split
  · exact hs
  · next server inner hinner =>
    refine hperm s _ ?_ hs
    rw [hinner]
    exact exchangeFrom_perm _ server inner

include hrtt hperm

theorem newChance_keeps {activeCount : Nat} {candidate : Server} (hs : R s)
    (h : s.newChance activeCount candidate now = some s') : R s' := by
  unfold ServersInfo.newChance at h
  split at h
  · simp only [Option.bind_eq_bind, Option.bind_eq_some_iff] at h
    obtain ⟨best, -, worst, -, h⟩ := h
    split at h
    · obtain rfl := Option.some.inj h
      exact partialSort_keeps hperm
        (hrtt s candidate.ref (fun rtt => rtt.add (s.rtt candidate / 2)) hs)
    · obtain rfl := Option.some.inj h
      exact hs
  · obtain rfl := Option.some.inj h
    exact hs

theorem estimate_keeps {currentActive draw : Nat} (hs : R s)
    (h : s.estimate currentActive draw now = some s') : R s' := by
  simp only [ServersInfo.estimate, ServersInfo.estimatorUpdate] at h
  split at h
  · split at h
    · obtain rfl := Option.some.inj h
      exact hs
    · simp only [Option.bind_eq_bind, Option.bind_eq_some_iff] at h
      obtain ⟨drawn, -, candidate, -, active, -, h⟩ := h
      split at h
      · obtain rfl := Option.some.inj h
        exact hrtt s active.ref (fun rtt => rtt.set (s.rtt candidate)) hs
      · split at h
        · simp only [Option.bind_eq_some_iff] at h
          obtain ⟨inner, hswap, h⟩ := h
          obtain rfl := Option.some.inj h
          exact partialSort_keeps hperm (hperm s inner (swapAt_perm hswap) hs)
        · exact newChance_keeps hrtt hperm hs h
  · obtain rfl := Option.some.inj h
    exact hs

theorem getOne_keeps {chosen : Option Server} {draw draw' : Nat} (hs : R s)
    (h : s.getOne draw draw' now = some (s', chosen)) : R s' := by
  unfold ServersInfo.getOne at h
  split at h
  · obtain ⟨rfl, -⟩ := Prod.mk.inj (Option.some.inj h)
    exact hs
  · simp only [Option.bind_eq_bind, Option.bind_eq_some_iff] at h
    obtain ⟨candidate, -, s₁, hestimate, server, -, h⟩ := h
    obtain ⟨rfl, -⟩ := Prod.mk.inj (Option.some.inj h)
    exact estimate_keeps hrtt hperm hs hestimate

end Choice

theorem estimate_rearranged {s s' : ServersInfo} {currentActive draw : Nat} {now : Time}
    (h : s.estimate currentActive draw now = some s') : Rearranged s s' :=
  estimate_keeps (R := Rearranged s) (fun _ ref f h => h.trans (.modify_rtt _ ref f))
    (fun _ _ hperm h => h.trans (.of_perm hperm)) (.refl s) h

theorem getOne_rearranged {s s' : ServersInfo} {chosen : Option Server} {draw draw' : Nat}
    {now : Time} (h : s.getOne draw draw' now = some (s', chosen)) :
    Rearranged s s' ∧ ∀ server, chosen = some server → server ∈ s'.inner := by
  refine ⟨getOne_keeps (R := Rearranged s) (fun _ ref f h => h.trans (.modify_rtt _ ref f))
    (fun _ _ hperm h => h.trans (.of_perm hperm)) (.refl s) h, ?_⟩
  unfold ServersInfo.getOne at h
  split at h
  · obtain ⟨rfl, rfl⟩ := Prod.mk.inj (Option.some.inj h)
    simp
  · simp only [Option.bind_eq_bind, Option.bind_eq_some_iff] at h
    obtain ⟨candidate, -, s₁, -, server, hserver, h⟩ := h
    obtain ⟨rfl, rfl⟩ := Prod.mk.inj (Option.some.inj h)
    exact fun _ hs => Option.some.inj hs ▸ List.mem_of_getElem? hserver

theorem sortByLatency_rearranged (s : ServersInfo) : Rearranged s s.sortByLatency :=
  .of_perm (List.mergeSort_perm _ _)

end DnscryptProxy
