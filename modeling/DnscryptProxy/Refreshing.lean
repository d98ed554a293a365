import DnscryptProxy.Library.Interleaving
import DnscryptProxy.Phases.Call
import DnscryptProxy.ServersInfo

/-! The goroutines that work on the list of servers: the loop that refreshes it, queries
that are sent to the servers and may ask for a key update, and updates of the registered
servers. Each step is one section under the lock; any number of goroutines run in any
order. `names_distinct` says that the list always has every server once, and loses none. -/

namespace DnscryptProxy

open Library

/-! ## Goroutines -/

inductive LoopPC where
  | sleeping
  | between (todo : List RegisteredServer)
  | refreshing (registered : RegisteredServer) (pc : RefreshPC registered.name)
      (todo : List RegisteredServer)

structure Begun where
  time : Time
  ticket : Nat
  deriving DecidableEq, Repr

/-- A query calls `getOne`, may force a key update of the server it got, and tells the
server how it went. -/
inductive Worker where
  | refreshLoop (pc : LoopPC)
  | prefetcher
  | listener
  | query
  | chosen (server : Server)
  | updating (server : Server) (registered : RegisteredServer) (pc : RefreshPC registered.name)
  | noticing (server : Server) (begun : Option Begun) (notices : List Notice)

/-- The loop after a step of its call of `refreshServer`. -/
def LoopPC.after (registered : RegisteredServer) (todo : List RegisteredServer) :
    RefreshPC registered.name ⊕ Option GoError → LoopPC
  | .inl pc => .refreshing registered pc todo
  | .inr _ => .between todo

/-- A query after a step of its call of `refreshServer`. -/
def Worker.afterUpdate (server : Server) (registered : RegisteredServer) :
    RefreshPC registered.name ⊕ Option GoError → Worker
  | .inl pc => .updating server registered pc
  | .inr _ => .chosen server

/-- What a goroutine does next. A listener starts any number of queries, those of DNS64
among them. What a query tells the server are the notices of a call of
`processIncomingQuery` with that server. -/
inductive Worker.Step (timeout : Time) : ServersInfo → Worker → ServersInfo → List Worker → Prop where
  | refresh (s : ServersInfo) :
      Step timeout s (.refreshLoop .sleeping) s
        [.refreshLoop (.between s.registry.registeredServers.entries)]
  | refreshNext (s : ServersInfo) (registered : RegisteredServer) (todo : List RegisteredServer) :
      Step timeout s (.refreshLoop (.between (registered :: todo))) s
        [.refreshLoop (.refreshing registered .check todo)]
  | refreshServer (s : ServersInfo) (registered : RegisteredServer)
      (pc : RefreshPC registered.name) (todo : List RegisteredServer)
      (fetchServerInfo : Bool → Except GoError (FetchedInfo registered.name)) :
      Step timeout s (.refreshLoop (.refreshing registered pc todo))
        (refreshServer s registered fetchServerInfo pc).1
        [.refreshLoop (.after registered todo (refreshServer s registered fetchServerInfo pc).2)]
  | sort (s : ServersInfo) :
      Step timeout s (.refreshLoop (.between [])) s.sortByLatency [.refreshLoop .sleeping]
  | registerServer (s : ServersInfo) (server : RegisteredServer) :
      Step timeout s .prefetcher { s with registry := registerServer s.registry server } [.prefetcher]
  | registerRelay (s : ServersInfo) (relay : RegisteredServer) :
      Step timeout s .prefetcher { s with registry := registerRelay s.registry relay } [.prefetcher]
  | accept (s : ServersInfo) : Step timeout s .listener s [.listener, .query]
  | getOne {s s' : ServersInfo} {chosen : Option Server} (draw draw' : Nat) (now : Time)
      (got : s.getOne draw draw' now = some (s', chosen)) :
      Step timeout s .query s' (chosen.toList.map .chosen)
  | forceUpdate {s : ServersInfo} {server : Server} {registered : RegisteredServer}
      (found : lookup RegisteredServer.name server.name s.registry.registeredServers.entries =
        some registered) :
      Step timeout s (.chosen server) s [.updating server registered .check]
  | update (s : ServersInfo) (server : Server) (registered : RegisteredServer)
      (pc : RefreshPC registered.name)
      (fetchServerInfo : Bool → Except GoError (FetchedInfo registered.name)) :
      Step timeout s (.updating server registered pc)
        (DnscryptProxy.refreshServer s registered fetchServerInfo pc).1
        [.afterUpdate server registered
          (DnscryptProxy.refreshServer s registered fetchServerInfo pc).2]
  | call (s : ServersInfo) {server : Server} {p : Proxy} {caller : Caller} {env : CallEnv}
      {envs : List CallEnv} {world : World} {query : Bytes} {exit : Exit}
      (same : env.server = some server.info)
      (called : processIncomingQuery p caller env envs world query = .ok exit) :
      Step timeout s (.chosen server) s [.noticing server none exit.notices]
  | noticeBegin (s : ServersInfo) (server : Server) (begun : Option Begun) (notices : List Notice)
      (now : Time) :
      Step timeout s (.noticing server begun (.begin :: notices)) (s.noticeBegin server now)
        [.noticing server (some ⟨now, (s.timing server.ref).begins + 1⟩) notices]
  | noticeFailure (s : ServersInfo) (server : Server) (begun : Option Begun)
      (notices : List Notice) :
      Step timeout s (.noticing server begun (.failure :: notices)) (s.noticeFailure server timeout)
        [.noticing server begun notices]
  | noticeSuccess (s : ServersInfo) (server : Server) (begun : Option Begun)
      (notices : List Notice) (now : Time) :
      Step timeout s (.noticing server begun (.success :: notices))
        (s.noticeSuccess server (begun.map Begun.time) now timeout) [.noticing server begun notices]
  | finish (s : ServersInfo) (server : Server) (begun : Option Begun) :
      Step timeout s (.noticing server begun []) s []

def Worker.IsLoop : Worker → Prop
  | .refreshLoop _ => True
  | _ => False

/-- There is one refresh loop. -/
def Worker.Compatible (t u : Worker) : Prop := ¬ (t.IsLoop ∧ u.IsLoop)

variable {t : Worker} {s s' : ServersInfo}

theorem Worker.Compatible.symm {u : Worker} (h : t.Compatible u) : u.Compatible t :=
  fun hloops => h hloops.symm

/-- The goroutines that the program starts with. -/
def Worker.Starts (t : Worker) : Prop :=
  t = .refreshLoop .sleeping ∨ t = .prefetcher ∨ t = .listener

/-! ## Names -/

def Worker.Relies (s : ServersInfo) : Worker → Prop
  | .refreshLoop (.refreshing registered (.append _) _) => registered.name ∉ s.names
  | .chosen server => server.name ∈ s.names
  | .updating server registered pc =>
    server.name ∈ s.names ∧ registered.name ∈ s.names ∧ ∀ newServer, pc ≠ .append newServer
  | _ => True

theorem refreshServer_names (s : ServersInfo) (registered : RegisteredServer)
    (fetchServerInfo : Bool → Except GoError (FetchedInfo registered.name))
    (pc : RefreshPC registered.name) :
    ((refreshServer s registered fetchServerInfo pc).1.names = s.names ∧
      ∀ newServer, (refreshServer s registered fetchServerInfo pc).2 = .inl (.append newServer) →
        registered.name ∉ s.names) ∨
    ((∃ newServer, pc = .append newServer) ∧
      (refreshServer s registered fetchServerInfo pc).1.names = s.names ++ [registered.name] ∧
      (refreshServer s registered fetchServerInfo pc).2 = .inl .register) := by
  cases pc with
  | check => simp [refreshServer]
  | register => simp [refreshServer, ServersInfo.names]
  | fetch isNew =>
    left
    simp only [refreshServer]
    split
    · simp
    · simp [ServersInfo.allocate, ServersInfo.modify, ServersInfo.names]
  | replace newServer =>
    left
    simp only [refreshServer]
    split
    next inner hreplace => exact ⟨replaceFirst_keys hreplace, by simp⟩
    next hnone =>
      refine ⟨rfl, fun _ _ hmem => ?_⟩
      obtain ⟨server, hserver, hname⟩ := List.mem_map.mp hmem
      exact replaceFirst_eq_none.mp hnone server hserver (hname.trans newServer.property.symm)
  | append newServer =>
    right
    refine ⟨⟨newServer, rfl⟩, ?_, rfl⟩
    simp [refreshServer, ServersInfo.names, newServer.property]

theorem Worker.Relies.of_perm (hn : s'.names.Perm s.names) (h : t.Relies s) : t.Relies s' := by
  unfold Worker.Relies at h ⊢
  split at h
  · exact fun hmem => h (hn.mem_iff.mp hmem)
  · exact hn.mem_iff.mpr h
  · exact ⟨hn.mem_iff.mpr h.1, hn.mem_iff.mpr h.2.1, h.2.2⟩
  · trivial

theorem Worker.Relies.of_subset (hn : s.names ⊆ s'.names) (hloop : ¬ t.IsLoop) (h : t.Relies s) :
    t.Relies s' := by
  unfold Worker.Relies at h ⊢
  split at h
  · exact absurd trivial hloop
  · exact hn h
  · exact ⟨hn h.1, hn h.2.1, h.2.2⟩
  · trivial

variable {next : List Worker}

theorem respects_of_perm (hn : s'.names.Perm s.names) (hnodup : s.names.Nodup)
    (hown : ∀ u ∈ next, u.Relies s') (hloop : ∀ u ∈ next, u.IsLoop → t.IsLoop)
    (hapart : next.Pairwise Worker.Compatible) :
    Respects (fun s => s.names.Nodup) (fun t s => t.Relies s) Worker.Compatible s t s' next where
  shared := hn.nodup_iff.mpr hnodup
  own := hown
  others _ _ hu := hu.of_perm hn
  apart := hapart
  beside u hu _ hcompatible hloops := hcompatible ⟨hloop u hu hloops.1, hloops.2⟩

theorem noticeSuccess_names (s : ServersInfo) (server : Server) (begun : Option Time)
    (now timeout : Time) : (s.noticeSuccess server begun now timeout).names = s.names := by
  simp only [ServersInfo.noticeSuccess]
  split <;> rfl

theorem respects_refreshServer {registered : RegisteredServer} {pc : RefreshPC registered.name}
    {todo : List RegisteredServer}
    (fetchServerInfo : Bool → Except GoError (FetchedInfo registered.name)) (hnodup : s.names.Nodup)
    (hrelies : (Worker.refreshLoop (.refreshing registered pc todo)).Relies s) :
    Respects (fun s => s.names.Nodup) (fun t s => t.Relies s) Worker.Compatible s
      (.refreshLoop (.refreshing registered pc todo))
      (refreshServer s registered fetchServerInfo pc).1
      [.refreshLoop (.after registered todo (refreshServer s registered fetchServerInfo pc).2)] := by
  obtain ⟨hsame, happend⟩ | ⟨⟨newServer, rfl⟩, hnames, hnext⟩ :=
    refreshServer_names s registered fetchServerInfo pc
  · refine respects_of_perm (.of_eq hsame) hnodup ?_ (fun _ _ _ => trivial)
      (List.pairwise_singleton _ _)
    intro u hu
    obtain rfl := List.mem_singleton.mp hu
    generalize (refreshServer s registered fetchServerInfo pc).2 = next at happend ⊢
    match next with
    | .inl (.append newServer) =>
      show registered.name ∉ _
      rw [hsame]
      exact happend newServer rfl
    | .inl .check | .inl (.fetch _) | .inl (.replace _) | .inl .register | .inr _ => trivial
  · -- the name that is appended is not there, and only the loop relies on such a thing
    have hnew : registered.name ∉ s.names := hrelies
    rw [hnext]
    refine ⟨?_, ?_, ?_, List.pairwise_singleton _ _, ?_⟩
    · show (ServersInfo.names _).Nodup
      rw [hnames]
      exact List.nodup_append.mpr ⟨hnodup, List.nodup_singleton _, by
        intro n hn n' hn' heq
        rw [List.mem_singleton.mp hn'] at heq
        exact hnew (heq ▸ hn)⟩
    · intro u hu
      obtain rfl := List.mem_singleton.mp hu
      trivial
    · intro u hcompatible hu
      apply hu.of_subset _ fun hloop => hcompatible ⟨trivial, hloop⟩
      rw [hnames]
      exact List.subset_append_left _ _
    · intro u hu v hcompatible
      obtain rfl := List.mem_singleton.mp hu
      exact hcompatible

theorem respects_update {server : Server} {registered : RegisteredServer}
    {pc : RefreshPC registered.name}
    (fetchServerInfo : Bool → Except GoError (FetchedInfo registered.name)) (hnodup : s.names.Nodup)
    (hrelies : (Worker.updating server registered pc).Relies s) :
    Respects (fun s => s.names.Nodup) (fun t s => t.Relies s) Worker.Compatible s
      (.updating server registered pc) (refreshServer s registered fetchServerInfo pc).1
      [.afterUpdate server registered (refreshServer s registered fetchServerInfo pc).2] := by
  obtain ⟨hserver, hregistered, hpc⟩ := hrelies
  obtain ⟨hsame, happend⟩ | ⟨⟨newServer, rfl⟩, -⟩ :=
    refreshServer_names s registered fetchServerInfo pc
  · refine respects_of_perm (.of_eq hsame) hnodup ?_ ?_ (List.pairwise_singleton _ _)
    · intro u hu
      obtain rfl := List.mem_singleton.mp hu
      generalize (refreshServer s registered fetchServerInfo pc).2 = next at happend ⊢
      cases next with
      | inl pc' =>
        show _ ∈ _ ∧ _ ∈ _ ∧ _
        rw [hsame]
        exact ⟨hserver, hregistered, fun newServer hpc' => happend newServer (hpc' ▸ rfl) hregistered⟩
      | inr _ =>
        show _ ∈ _
        rw [hsame]
        exact hserver
    · intro u hu hloop
      obtain rfl := List.mem_singleton.mp hu
      generalize (refreshServer s registered fetchServerInfo pc).2 = next at hloop
      cases next with
      | inl _ => exact hloop
      | inr _ => exact hloop
  · exact absurd rfl (hpc newServer)

theorem respects_same {u : Worker} (hn : s'.names = s.names) (hnodup : s.names.Nodup)
    (hown : u.Relies s') (hloop : u.IsLoop → t.IsLoop) :
    Respects (fun s => s.names.Nodup) (fun t s => t.Relies s) Worker.Compatible s t s' [u] := by
  refine respects_of_perm (.of_eq hn) hnodup ?_ ?_ (List.pairwise_singleton _ _)
  · intro v hv
    obtain rfl := List.mem_singleton.mp hv
    exact hown
  · intro v hv
    obtain rfl := List.mem_singleton.mp hv
    exact hloop

theorem Worker.Step.respects {timeout : Time} (h : Worker.Step timeout s t s' next)
    (hnodup : s.names.Nodup) (hrelies : t.Relies s) :
    Respects (fun s => s.names.Nodup) (fun t s => t.Relies s) Worker.Compatible s t s' next := by
  cases h with
  | refresh => exact respects_same rfl hnodup trivial id
  | refreshNext registered todo => exact respects_same rfl hnodup trivial id
  | refreshServer registered pc todo fetchServerInfo =>
    exact respects_refreshServer fetchServerInfo hnodup hrelies
  | sort =>
    refine respects_of_perm (sortByLatency_rearranged s).names hnodup ?_ (fun _ _ _ => trivial)
      (List.pairwise_singleton _ _)
    intro u hu
    obtain rfl := List.mem_singleton.mp hu
    trivial
  | registerServer server => exact respects_same rfl hnodup trivial id
  | registerRelay relay => exact respects_same rfl hnodup trivial id
  | accept =>
    refine respects_of_perm (.refl _) hnodup ?_ ?_ (by simp [Worker.Compatible, Worker.IsLoop])
    · simp [Worker.Relies]
    · simp [Worker.IsLoop]
  | @getOne s' chosen draw draw' now got =>
    obtain ⟨hrearranged, hmem⟩ := getOne_rearranged got
    cases chosen with
    | none => exact respects_of_perm hrearranged.names hnodup (by simp) (by simp) .nil
    | some server =>
      refine respects_of_perm hrearranged.names hnodup ?_ ?_ (List.pairwise_singleton _ _)
      · intro u hu
        obtain rfl := List.mem_singleton.mp hu
        exact List.mem_map_of_mem (hmem server rfl)
      · simp [Worker.IsLoop]
  | @forceUpdate server registered found =>
    have hname : registered.name = server.name := lookup_key found
    exact respects_same rfl hnodup ⟨hrelies, hname ▸ hrelies, by simp⟩ id
  | update server registered pc fetchServerInfo =>
    exact respects_update fetchServerInfo hnodup hrelies
  | call => exact respects_same rfl hnodup trivial id
  | noticeBegin server begun notices now => exact respects_same rfl hnodup trivial id
  | noticeFailure server begun notices => exact respects_same rfl hnodup trivial id
  | noticeSuccess server begun notices now =>
    exact respects_same (noticeSuccess_names ..) hnodup trivial id
  | finish => exact respects_of_perm (.refl _) hnodup (by simp) (by simp) .nil

theorem refreshServer_names_subset (s : ServersInfo) (registered : RegisteredServer)
    (fetchServerInfo : Bool → Except GoError (FetchedInfo registered.name))
    (pc : RefreshPC registered.name) :
    s.names ⊆ (refreshServer s registered fetchServerInfo pc).1.names := by
  obtain ⟨hsame, -⟩ | ⟨-, hnames, -⟩ := refreshServer_names s registered fetchServerInfo pc
  · exact (List.Perm.of_eq hsame).symm.subset
  · rw [hnames]
    exact List.subset_append_left _ _

theorem Worker.Step.names_subset {timeout : Time} (h : Worker.Step timeout s t s' next) :
    s.names ⊆ s'.names := by
  cases h with
  | refreshServer registered pc todo fetchServerInfo => exact refreshServer_names_subset ..
  | update server registered pc fetchServerInfo => exact refreshServer_names_subset ..
  | sort => exact (sortByLatency_rearranged s).names.symm.subset
  | getOne draw draw' now got => exact (getOne_rearranged got).1.names.symm.subset
  | noticeSuccess server begun notices now => rw [noticeSuccess_names]; exact List.Subset.refl _
  | refresh | refreshNext | registerServer | registerRelay | accept | forceUpdate | call
  | noticeBegin | noticeFailure | finish => exact List.Subset.refl _

/-! ## Runs -/

/-- `NewServersInfo`, with the servers that were registered since. -/
def ServersInfo.new (registry : ServersRegistry) (lbStrategy : LBStrategy) (lbEstimator : Bool) :
    ServersInfo where
  inner := []
  registry := registry
  lbStrategy := lbStrategy
  lbEstimator := lbEstimator
  timing _ := ⟨zeroTime, VariableEWMA.newMovingAverage rttEwmaDecay, 0⟩
  allocated := 0
  samples := []

/-- In every state that the goroutines of the program can reach, with any number of queries
and in any order of the steps, the servers in use have different names, and in every state
reached from there on all these names are still in use. -/
theorem names_distinct {timeout : Time} {registry : ServersRegistry} {lbStrategy : LBStrategy}
    {lbEstimator : Bool} {workers : List Worker} (hstarts : ∀ t ∈ workers, t.Starts)
    (hloop : workers.Pairwise Worker.Compatible) {p q : Pool ServersInfo Worker}
    (h : Pool.Steps (Worker.Step timeout) ⟨.new registry lbStrategy lbEstimator, workers⟩ p)
    (h' : Pool.Steps (Worker.Step timeout) p q) :
    p.shared.names.Nodup ∧ ∀ name ∈ p.shared.names, name ∈ q.shared.names := by
  constructor
  · have hp : p.Asserts (fun s => s.names.Nodup) (fun t s => t.Relies s) Worker.Compatible := by
      apply Pool.Steps.assertions Worker.Compatible.symm
        (fun _ _ _ _ hs hG hL => Worker.Step.respects hs hG hL) h
      refine ⟨List.nodup_nil, ?_, hloop⟩
      intro t ht
      rcases hstarts t ht with rfl | rfl | rfl <;> trivial
    exact hp.shared
  · intro name hname
    exact Pool.Steps.shared (fun _ _ _ _ hs hmem => hs.names_subset hmem) h' hname

namespace Sample

def registered : RegisteredServer := ⟨"example".toList, stamp⟩

section First

variable (registry : ServersRegistry) (fetched : FetchedInfo registered.name)

/-- Servers are registered, and none is in use. -/
def startedWith : ServersInfo := .new registry .p2 true

/-- The server that was fetched is in use. -/
def firstInUse : ServersInfo :=
  { ((startedWith registry).allocate fetched).1 with
    inner := [((startedWith registry).allocate fetched).2.val] }

variable {registry} {todo : List RegisteredServer}

theorem firstInUse_reached {step : ServersInfo → Worker → ServersInfo → List Worker → Prop}
    (hloop : ∀ {s s' pc next}, Worker.Step (5 * second) s (.refreshLoop pc) s' next →
      step s (.refreshLoop pc) s' next)
    (hregistry : registry.registeredServers.entries = registered :: todo) :
    Pool.Steps step ⟨startedWith registry, [.refreshLoop .sleeping, .listener]⟩
      ⟨firstInUse registry fetched,
        [.refreshLoop (.refreshing registered .register todo), .listener]⟩ := by
  have hstep {s s' : ServersInfo} {pc pc' : LoopPC}
      (h : Worker.Step (5 * second) s (.refreshLoop pc) s' [.refreshLoop pc']) :
      Pool.Step step ⟨s, [.refreshLoop pc, .listener]⟩ ⟨s', [.refreshLoop pc', .listener]⟩ :=
    .run [] [Worker.listener] (hloop h)
  have hcall (s : ServersInfo) (pc : RefreshPC registered.name) :=
    hstep (.refreshServer s registered pc todo fun _ => .ok fetched)
  have hrefresh := hstep (.refresh (startedWith registry))
  rw [show (startedWith registry).registry.registeredServers.entries = _ from hregistry] at hrefresh
  have hcheck := ((Relation.ReflTransGen.single hrefresh).tail
    (hstep (.refreshNext (startedWith registry) registered todo))).tail (hcall _ .check)
  have hfetch := hcheck.tail (hcall (startedWith registry) (.fetch true))
  have hreplace := hfetch.tail (hcall ((startedWith registry).allocate fetched).1
    (.replace ((startedWith registry).allocate fetched).2))
  exact hreplace.tail (hcall ((startedWith registry).allocate fetched).1
    (.append ((startedWith registry).allocate fetched).2))

end First

/-! One server that is registered. -/

def fetched : FetchedInfo registered.name := ⟨(server .doh, 20), rfl⟩

def lone : ServersRegistry := ⟨⟨[registered], List.nodup_singleton _⟩, ⟨[], List.nodup_nil⟩⟩

def started : ServersInfo := startedWith lone

def inUse : ServersInfo := firstInUse lone fetched

/-! Two servers that are registered, the first of them an ODoH target. -/

def other : RegisteredServer := ⟨"other".toList, stamp⟩

def both : ServersRegistry := ⟨⟨[registered, other], by decide⟩, ⟨[], List.nodup_nil⟩⟩

def fetchedTarget : FetchedInfo registered.name := ⟨(server .odohTarget, 20), rfl⟩

def fetchedOther : FetchedInfo other.name :=
  ⟨({ server .doh with name := "other".toList }, 30), rfl⟩

/-- The loop is done with the first server. -/
def firstRegistered : ServersInfo :=
  { firstInUse both fetchedTarget with registry := registerServer both registered }

def firstServer : Server := ((startedWith both).allocate fetchedTarget).2.val

/-- The second server is fetched, and then the first one for another time. -/
def otherFetched : ServersInfo × NamedServer other.name := firstRegistered.allocate fetchedOther

def fetchedAgain : ServersInfo × NamedServer registered.name := otherFetched.1.allocate fetchedTarget

/-- The first server is replaced, and then the second one appended. -/
def firstReplaced : ServersInfo := { fetchedAgain.1 with inner := [fetchedAgain.2.val] }

def bothInUse : ServersInfo :=
  { firstReplaced with inner := [fetchedAgain.2.val, otherFetched.2.val] }

theorem bothInUse_reached :
    Pool.Steps (Worker.Step (5 * second))
      ⟨firstInUse both fetchedTarget,
        [.refreshLoop (.refreshing registered .register [other]), .listener]⟩
      ⟨bothInUse, [.refreshLoop (.refreshing other .register []), .listener, .chosen firstServer]⟩ := by
  have hloop {s s' : ServersInfo} {pc pc' : LoopPC} (others : List Worker)
      (h : Worker.Step (5 * second) s (.refreshLoop pc) s' [.refreshLoop pc']) :
      Pool.Step (Worker.Step (5 * second)) ⟨s, .refreshLoop pc :: others⟩
        ⟨s', .refreshLoop pc' :: others⟩ :=
    .run [] others h
  have hquery {s s' : ServersInfo} {t t' : Worker} (pc : LoopPC)
      (h : Worker.Step (5 * second) s t s' [t']) :
      Pool.Step (Worker.Step (5 * second)) ⟨s, [.refreshLoop pc, .listener, t]⟩
        ⟨s', [.refreshLoop pc, .listener, t']⟩ :=
    .run [Worker.refreshLoop pc, Worker.listener] [] h
  have hrefresh (s : ServersInfo) (pc : RefreshPC other.name) (others : List Worker) :=
    hloop others (.refreshServer s other pc [] fun _ => .ok fetchedOther)
  have hupdate (s : ServersInfo) (pc : RefreshPC registered.name) (pc' : RefreshPC other.name) :=
    hquery (.refreshing other pc' [])
      (.update s firstServer registered pc fun _ => .ok fetchedTarget)
  -- the loop goes on to the second server
  have hregister := Relation.ReflTransGen.single (hloop [.listener] (.refreshServer
    (firstInUse both fetchedTarget) registered .register [other] fun _ => .ok fetchedTarget))
  have hcheck := (hregister.tail (hloop _ (.refreshNext firstRegistered other []))).tail
    (hrefresh firstRegistered .check _)
  -- a query is given the first one, and forces an update
  have haccepted := hcheck.tail (.run [_] [] (Worker.Step.accept firstRegistered))
  have hchosen := haccepted.tail (.run [_, _] [] (Worker.Step.getOne 0 0 0
    (rfl : firstRegistered.getOne 0 0 0 = some (firstRegistered, some firstServer))))
  have hforced := hchosen.tail (.run [_, _] [] (Worker.Step.forceUpdate
    (rfl : lookup RegisteredServer.name firstServer.name _ = some registered)))
  have hfetch := ((hforced.tail (hupdate firstRegistered .check (.fetch true))).tail
    (hrefresh firstRegistered (.fetch true) _)).tail
    (hupdate otherFetched.1 (.fetch false) (.replace otherFetched.2))
  have hreplace := (hfetch.tail (hrefresh fetchedAgain.1 (.replace otherFetched.2) _)).tail
    (hupdate fetchedAgain.1 (.replace fetchedAgain.2) (.append otherFetched.2))
  exact hreplace.tail (hrefresh firstReplaced (.append otherFetched.2) _)

/-- The first server is the object that was made last. -/
theorem both_in_use_once :
    bothInUse.inner.map (fun server => (server.name, server.ref)) =
        [("example".toList, 2), ("other".toList, 1)] ∧
      bothInUse.names.Nodup ∧
      ∀ name ∈ (firstInUse both fetchedTarget).names, name ∈ bothInUse.names := by
  have hstarts : ∀ t ∈ [Worker.refreshLoop .sleeping, .listener], t.Starts := by
    simp [Worker.Starts]
  have hapart : [Worker.refreshLoop .sleeping, .listener].Pairwise Worker.Compatible := by
    simp [Worker.Compatible, Worker.IsLoop]
  have hreached := firstInUse_reached fetchedTarget id (rfl : both.registeredServers.entries = _)
  exact ⟨rfl, (names_distinct hstarts hapart (hreached.trans bothInUse_reached) .refl).1,
    (names_distinct hstarts hapart hreached bothInUse_reached).2⟩

end Sample

end DnscryptProxy
