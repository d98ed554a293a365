import DnscryptProxy.Relays
import DnscryptProxy.Refreshing

/-! The load-balancing strategies that `ConfigLoad` installs, and the choice of a server under
each of them.

* `getOne_chooses`: with at least one server, a call draws from a range that is not empty,
  stays inside the list, and returns one of the servers, which are all still there. -/

namespace DnscryptProxy

/-! ## The configuration -/

/-- `strconv.ParseInt(text, 10, 32)` -/
def parseInt32 (text : Text) : Option Int :=
  (atoi text).filter fun n => -(2 ^ 31) ≤ n ∧ n < 2 ^ 31

def defaultLBStrategy : LBStrategy := .p2

/-- The strategy of the number after a `p`. -/
def loadLBStrategyPN (text : Text) : LBStrategy :=
  match parseInt32 text with
  | some n => if n ≤ 0 then defaultLBStrategy else .pn n.toNat
  | none => defaultLBStrategy

/-- The strategy that `ConfigLoad` sets for the option `lb_strategy`. The case of "fastest" is
empty, so that the default strategy stays. -/
def loadLBStrategy (toLower : Text → Text) (lbStrategy : Text) : LBStrategy :=
  let lbStrategyStr := toLower lbStrategy
  if lbStrategyStr = [] then defaultLBStrategy
  else if lbStrategyStr = "p2".toList then .p2
  else if lbStrategyStr = "ph".toList then .ph
  else if lbStrategyStr = "fastest".toList then defaultLBStrategy
  else if lbStrategyStr = "first".toList then .first
  else if lbStrategyStr = "random".toList then .random
  else if ['p'].isPrefixOf lbStrategyStr then loadLBStrategyPN (lbStrategyStr.drop 1)
  else defaultLBStrategy

/-- A number of servers to choose from is never zero. -/
def LBStrategy.Positive : LBStrategy → Prop
  | .pn n => 0 < n
  | _ => True

theorem loadLBStrategyPN_positive (text : Text) : (loadLBStrategyPN text).Positive := by
  unfold loadLBStrategyPN
  cases parseInt32 text with
  | none => exact trivial
  | some n =>
    dsimp only
    split
    · exact trivial
    · show 0 < n.toNat
      omega

theorem loadLBStrategy_positive (toLower : Text → Text) (lbStrategy : Text) :
    (loadLBStrategy toLower lbStrategy).Positive := by
  unfold loadLBStrategy
  dsimp only
  split_ifs
  · exact trivial
  · exact trivial
  · exact trivial
  · exact trivial
  · exact trivial
  · exact trivial
  · exact loadLBStrategyPN_positive _
  · exact trivial

/-! ## The numbers of servers -/

section Counts

variable {strategy : LBStrategy} {serversCount : Nat}

theorem getActiveCount_pos (hs : strategy.Positive) (hc : 0 < serversCount) :
    0 < strategy.getActiveCount serversCount := by
  cases strategy with
  | pn n =>
    have hn : 0 < n := hs
    simp only [LBStrategy.getActiveCount]
    omega
  | p2 => simp only [LBStrategy.getActiveCount]; omega
  | ph => simp only [LBStrategy.getActiveCount]; omega
  | first => exact Nat.one_pos
  | random => exact hc

theorem getActiveCount_le (hc : 0 < serversCount) :
    strategy.getActiveCount serversCount ≤ serversCount := by
  cases strategy <;> simp only [LBStrategy.getActiveCount] <;> omega

theorem intn_eq_some {n : Nat} (hn : 0 < n) (draw : Nat) : ∃ i, intn n draw = some i ∧ i < n := by
  refine ⟨draw % n, ?_, Nat.mod_lt draw hn⟩
  simp [intn, Nat.ne_of_gt hn]

theorem getCandidate_lt (hs : strategy.Positive) (hc : 0 < serversCount) (draw : Nat) :
    ∃ candidate, strategy.getCandidate serversCount draw = some candidate ∧
      candidate < strategy.getActiveCount serversCount := by
  have hactive := getActiveCount_pos hs hc
  cases strategy with
  | first => exact ⟨0, rfl, hactive⟩
  | p2 => exact intn_eq_some hactive draw
  | pn n => exact intn_eq_some hactive draw
  | ph => exact intn_eq_some hactive draw
  | random => exact intn_eq_some hactive draw

end Counts

/-! ## One call -/

section GetOne

variable {s : ServersInfo}

theorem swapAt_isSome {α : Type} {l : List α} {i j : Nat} (hi : i < l.length) (hj : j < l.length) :
    (swapAt l i j).isSome := by
  simp [swapAt, List.getElem?_eq_getElem hi, List.getElem?_eq_getElem hj]

theorem newChance_isSome {activeCount : Nat} (hpos : 0 < activeCount)
    (hle : activeCount ≤ s.inner.length) (candidate : Server) (now : Time) :
    (s.newChance activeCount candidate now).isSome := by
  have hfirst : 0 < s.inner.length := by omega
  have hlast : activeCount - 1 < s.inner.length := by omega
  unfold ServersInfo.newChance
  split
  · rw [List.getElem?_eq_getElem hfirst, List.getElem?_eq_getElem hlast]
    simp only [Option.bind_eq_bind, Option.bind_some]
    split <;> rfl
  · rfl

theorem estimatorUpdate_isSome (hs : s.lbStrategy.Positive) (hne : 0 < s.inner.length)
    {currentActive : Nat} (hactive : currentActive < s.lbStrategy.getActiveCount s.inner.length)
    (draw : Nat) (now : Time) : (s.estimatorUpdate currentActive draw now).isSome := by
  have hpos := getActiveCount_pos hs hne
  have hle : s.lbStrategy.getActiveCount s.inner.length ≤ s.inner.length := getActiveCount_le hne
  simp only [ServersInfo.estimatorUpdate]
  split
  · rfl
  · next hcount =>
    -- some server is not active, and the candidate is one of these
    have hothers : 0 < s.inner.length - s.lbStrategy.getActiveCount s.inner.length := by omega
    obtain ⟨i, hdraw, hi⟩ := intn_eq_some hothers draw
    have hcandidate : i + s.lbStrategy.getActiveCount s.inner.length < s.inner.length := by omega
    have hcurrent : currentActive < s.inner.length := by omega
    rw [hdraw]
    simp only [Option.bind_eq_bind, Option.bind_some]
    rw [List.getElem?_eq_getElem hcandidate, List.getElem?_eq_getElem hcurrent]
    simp only [Option.bind_some]
    split
    · rfl
    · split
      · obtain ⟨inner, hinner⟩ :=
          Option.isSome_iff_exists.mp (swapAt_isSome hcandidate hcurrent)
        rw [hinner]
        rfl
      · exact newChance_isSome hpos hle _ now

theorem estimate_isSome (hs : s.lbStrategy.Positive) (hne : 0 < s.inner.length)
    {currentActive : Nat} (hactive : currentActive < s.lbStrategy.getActiveCount s.inner.length)
    (draw : Nat) (now : Time) : (s.estimate currentActive draw now).isSome := by
  unfold ServersInfo.estimate
  split
  · exact estimatorUpdate_isSome hs hne hactive draw now
  · rfl

theorem getOne_isSome (hs : s.lbStrategy.Positive) (hne : s.inner ≠ []) (draw draw' : Nat)
    (now : Time) : ∃ s' server, s.getOne draw draw' now = some (s', some server) := by
  have hlen : 0 < s.inner.length := List.length_pos_iff.mpr hne
  obtain ⟨candidate, hcandidate, hlt⟩ := getCandidate_lt hs hlen draw
  obtain ⟨s', hs'⟩ := Option.isSome_iff_exists.mp (estimate_isSome hs hlen hlt draw' now)
  have hperm := (estimate_rearranged hs').inner
  have hle : s.lbStrategy.getActiveCount s.inner.length ≤ s.inner.length := getActiveCount_le hlen
  have hin : candidate < s'.inner.length := by
    rw [hperm.length_eq]
    omega
  refine ⟨s', s'.inner[candidate], ?_⟩
  simp [ServersInfo.getOne, hne, hcandidate, hs', List.getElem?_eq_getElem hin]

/-- **The choice of a server.** Under every strategy that `ConfigLoad` can install, with any
servers, any round-trip times and any random numbers, `getOne` returns one of the servers and
leaves a permutation of them. -/
theorem getOne_chooses (toLower : Text → Text) (lbStrategy : Text)
    (hs : s.lbStrategy = loadLBStrategy toLower lbStrategy) (hne : s.inner ≠ [])
    (draw draw' : Nat) (now : Time) :
    ∃ s' server, s.getOne draw draw' now = some (s', some server) ∧ server ∈ s.inner ∧
      s'.inner.Perm s.inner := by
  have hpositive : s.lbStrategy.Positive := by
    rw [hs]
    exact loadLBStrategy_positive toLower lbStrategy
  obtain ⟨s', server, hone⟩ := getOne_isSome hpositive hne draw draw' now
  obtain ⟨hrearranged, hmem⟩ := getOne_rearranged hone
  exact ⟨s', server, hone, hrearranged.inner.mem_iff.mp (hmem server rfl), hrearranged.inner⟩

namespace Sample

def serverCalled (ref : Nat) (name : String) : Server :=
  ⟨ref, { server .doh with name := name.toList }, 20⟩

/-- Three servers, of which the first two are active. -/
def threeServers : ServersInfo :=
  { started with inner := [serverCalled 0 "one", serverCalled 1 "two", serverCalled 2 "three"] }

theorem one_of_three_chosen :
    threeServers.lbStrategy = loadLBStrategy id "p2".toList ∧
      ∃ s' server, threeServers.getOne 1 0 0 = some (s', some server) ∧
        server ∈ threeServers.inner ∧ s'.inner.Perm threeServers.inner :=
  ⟨by decide, getOne_chooses id "p2".toList (by decide) (by simp [threeServers]) 1 0 0⟩

end Sample

end GetOne

end DnscryptProxy
