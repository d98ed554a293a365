import DnscryptProxy.Refreshing

/-! The round-trip times that queries add to the average of their server. All queries to
one server share its field `lastActionTS`; `samples_accurate` says when a query
nevertheless adds its own time. -/

namespace DnscryptProxy

open Library

/-- The query had called `noticeBegin`, and what it added is the time since then. -/
def RTTSample.Accurate (sample : RTTSample) : Prop :=
  ∃ begun, sample.begun = some begun ∧ sample.added = milliseconds (timeSub sample.ended begun)

/-- A query that is about to call `noticeSuccess` was the last one to call `noticeBegin` on
its server. -/
def Worker.InTurn (s : ServersInfo) : Worker → Prop
  | .noticing server begun (.success :: _) =>
    ∃ b, begun = some b ∧ b.ticket = (s.timing server.ref).begins
  | _ => True

/-- The steps in which queries take turns. -/
def Worker.StepInTurn (timeout : Time) (s : ServersInfo) (t : Worker) (s' : ServersInfo)
    (next : List Worker) : Prop :=
  Worker.Step timeout s t s' next ∧ t.InTurn s

/-! ## What a query knows of its server -/

/-- The server that a call of `refreshServer` is about to put in place was made. -/
def RefreshPC.Made {name : Text} (allocated : Nat) : RefreshPC name → Prop
  | .replace newServer | .append newServer => newServer.val.ref < allocated
  | _ => True

/-- As long as no other query has begun, the time in the server is that of this one. -/
def Worker.Knows (s : ServersInfo) : Worker → Prop
  | .refreshLoop (.refreshing _ pc _) => pc.Made s.allocated
  | .chosen server => server.ref < s.allocated
  | .updating server _ pc => server.ref < s.allocated ∧ pc.Made s.allocated
  | .noticing server begun _ => server.ref < s.allocated ∧ ∀ b, begun = some b →
      b.ticket ≤ (s.timing server.ref).begins ∧
        (b.ticket = (s.timing server.ref).begins → (s.timing server.ref).lastActionTS = b.time)
  | _ => True

structure ServersInfo.Measured (s : ServersInfo) : Prop where
  made : ∀ server ∈ s.inner, server.ref < s.allocated
  accurate : ∀ sample ∈ s.samples, sample.Accurate

/-- The time in a server that has been made changes only when a query begins. -/
structure Evolves (s s' : ServersInfo) : Prop where
  allocated : s.allocated ≤ s'.allocated
  timing : ∀ ref < s.allocated, (s.timing ref).begins < (s'.timing ref).begins ∨
    ((s'.timing ref).begins = (s.timing ref).begins ∧
      (s'.timing ref).lastActionTS = (s.timing ref).lastActionTS)

theorem Evolves.refl (s : ServersInfo) : Evolves s s :=
  ⟨le_refl _, fun _ _ => .inr ⟨rfl, rfl⟩⟩

variable {s s' : ServersInfo} {t : Worker}

theorem Rearranged.evolves (h : Rearranged s s') : Evolves s s' :=
  ⟨h.allocated.ge, fun ref _ => .inr ⟨h.begins ref, h.lastActionTS ref⟩⟩

theorem RefreshPC.Made.mono {name : Text} {n n' : Nat} (h : n ≤ n') {pc : RefreshPC name}
    (hpc : pc.Made n) : pc.Made n' := by
  cases pc with
  | replace newServer => exact lt_of_lt_of_le hpc h
  | append newServer => exact lt_of_lt_of_le hpc h
  | check | fetch | register => trivial

theorem Worker.Knows.evolves (h : Evolves s s') (ht : t.Knows s) : t.Knows s' := by
  unfold Worker.Knows at ht ⊢
  split at ht
  · exact ht.mono h.allocated
  · exact lt_of_lt_of_le ht h.allocated
  · exact ⟨lt_of_lt_of_le ht.1 h.allocated, ht.2.mono h.allocated⟩
  next server begun _ =>
    refine ⟨lt_of_lt_of_le ht.1 h.allocated, fun b hb => ?_⟩
    obtain ⟨hle, htime⟩ := ht.2 b hb
    rcases h.timing server.ref ht.1 with hlt | ⟨hbegins, hlast⟩
    · exact ⟨by omega, fun heq => by omega⟩
    · rw [hbegins, hlast]
      exact ⟨hle, htime⟩
  · trivial

/-! ## Steps -/

theorem Rearranged.measured (h : Rearranged s s') (hs : s.Measured) :
    s'.Measured where
  made server hserver := h.allocated.symm ▸ hs.made server (h.inner.mem_iff.mp hserver)
  accurate := h.samples.symm ▸ hs.accurate

theorem timing_modify_self (s : ServersInfo) (ref : Nat) (f : Timing → Timing) :
    (s.modify ref f).timing ref = f (s.timing ref) := by
  simp [ServersInfo.modify]

theorem timing_modify_of_ne (s : ServersInfo) {ref r : Nat} (f : Timing → Timing) (h : r ≠ ref) :
    (s.modify ref f).timing r = s.timing r := by
  simp [ServersInfo.modify, h]

theorem noticeBegin_evolves (s : ServersInfo) (server : Server) (now : Time) :
    Evolves s (s.noticeBegin server now) := by
  refine ⟨le_refl _, fun ref _ => ?_⟩
  by_cases h : ref = server.ref
  · subst h
    left
    rw [ServersInfo.noticeBegin, timing_modify_self]
    exact Nat.lt_succ_self _
  · right
    rw [ServersInfo.noticeBegin, timing_modify_of_ne _ _ h]
    exact ⟨rfl, rfl⟩

theorem allocate_evolves (s : ServersInfo) {name : Text} (fetched : FetchedInfo name) :
    Evolves s (s.allocate fetched).1 := by
  refine ⟨Nat.le_succ _, fun ref href => .inr ?_⟩
  have htiming : (s.allocate fetched).1.timing ref = s.timing ref := by
    simp only [ServersInfo.allocate]
    exact timing_modify_of_ne s _ (Nat.ne_of_lt href)
  rw [htiming]
  exact ⟨rfl, rfl⟩

theorem noticeSuccess_evolves (s : ServersInfo) (server : Server) (begun : Option Time)
    (now timeout : Time) : Evolves s (s.noticeSuccess server begun now timeout) := by
  simp only [ServersInfo.noticeSuccess]
  split
  · have h := Rearranged.modify_rtt s server.ref fun rtt => rtt.add
      (Float.ofInt (milliseconds (timeSub now (s.timing server.ref).lastActionTS)))
    exact ⟨le_refl _, h.evolves.timing⟩
  · exact .refl s

theorem noticeSuccess_measured {server : Server} {b : Begun} (hs : s.Measured)
    (htime : (s.timing server.ref).lastActionTS = b.time) (now timeout : Time) :
    (s.noticeSuccess server (some b.time) now timeout).Measured := by
  simp only [ServersInfo.noticeSuccess]
  split
  · refine ⟨hs.made, fun sample hsample => ?_⟩
    rcases List.mem_cons.mp hsample with rfl | hsample
    · exact ⟨b.time, rfl, by rw [htime]⟩
    · exact hs.accurate sample hsample
  · exact hs

theorem refreshServer_evolves (s : ServersInfo) (registered : RegisteredServer)
    (fetchServerInfo : Bool → Except GoError (FetchedInfo registered.name))
    {pc : RefreshPC registered.name} (hs : s.Measured) (hpc : pc.Made s.allocated) :
    Evolves s (refreshServer s registered fetchServerInfo pc).1 ∧
      (refreshServer s registered fetchServerInfo pc).1.Measured ∧
      ∀ pc', (refreshServer s registered fetchServerInfo pc).2 = .inl pc' →
        pc'.Made (refreshServer s registered fetchServerInfo pc).1.allocated := by
  cases pc with
  | check =>
    refine ⟨.refl s, hs, ?_⟩
    rintro _ ⟨⟩
    trivial
  | fetch isNew =>
    simp only [refreshServer]
    split
    · exact ⟨.refl s, hs, by simp⟩
    next fetched _ =>
      refine ⟨allocate_evolves s fetched, ⟨?_, hs.accurate⟩, ?_⟩
      · intro server hserver
        exact Nat.lt_succ_of_lt (hs.made server hserver)
      · rintro _ ⟨⟩
        exact Nat.lt_succ_self _
  | replace newServer =>
    simp only [refreshServer]
    split
    next inner hreplace =>
      refine ⟨⟨le_refl _, (Evolves.refl s).timing⟩, ⟨?_, hs.accurate⟩, by simp⟩
      intro server hserver
      rcases replaceFirst_mem hreplace hserver with rfl | hserver
      · exact hpc
      · exact hs.made server hserver
    · refine ⟨.refl s, hs, ?_⟩
      rintro _ ⟨⟩
      exact hpc
  | append newServer =>
    refine ⟨⟨le_refl _, (Evolves.refl s).timing⟩, ⟨?_, hs.accurate⟩, ?_⟩
    · intro server hserver
      rcases List.mem_append.mp hserver with hserver | hserver
      · exact hs.made server hserver
      · obtain rfl := List.mem_singleton.mp hserver
        exact hpc
    · rintro _ ⟨⟩
      trivial
  | register => exact ⟨⟨le_refl _, (Evolves.refl s).timing⟩, ⟨hs.made, hs.accurate⟩,
      by simp [refreshServer]⟩

theorem respects_of_evolves {next : List Worker} (he : Evolves s s') (hs : s'.Measured)
    (hown : ∀ u ∈ next, u.Knows s') :
    Respects (fun s => s.Measured) (fun t s => t.Knows s) (fun _ _ => True) s t s' next where
  shared := hs
  own := hown
  others _ _ hu := hu.evolves he
  apart := List.pairwise_of_forall fun _ _ => trivial
  beside _ _ _ _ := trivial

theorem respects_one {u : Worker} (he : Evolves s s') (hs : s'.Measured) (hown : u.Knows s') :
    Respects (fun s => s.Measured) (fun t s => t.Knows s) (fun _ _ => True) s t s' [u] := by
  apply respects_of_evolves he hs
  intro v hv
  obtain rfl := List.mem_singleton.mp hv
  exact hown

theorem Worker.Step.measured {timeout : Time} {next : List Worker}
    (h : Worker.Step timeout s t s' next) (hturn : t.InTurn s) (hs : s.Measured) (ht : t.Knows s) :
    Respects (fun s => s.Measured) (fun t s => t.Knows s) (fun _ _ => True) s t s' next := by
  cases h with
  | refresh => exact respects_one (.refl s) hs trivial
  | refreshNext registered todo => exact respects_one (.refl s) hs trivial
  | refreshServer registered pc todo fetchServerInfo =>
    obtain ⟨he, hs', hpc⟩ := refreshServer_evolves s registered fetchServerInfo hs ht
    apply respects_one he hs'
    generalize (DnscryptProxy.refreshServer s registered fetchServerInfo pc).2 = next at hpc ⊢
    cases next with
    | inl pc' => exact hpc pc' rfl
    | inr _ => trivial
  | sort =>
    have h := sortByLatency_rearranged s
    exact respects_one h.evolves (h.measured hs) trivial
  | registerServer server =>
    exact respects_one ⟨le_refl _, (Evolves.refl s).timing⟩ ⟨hs.made, hs.accurate⟩ trivial
  | registerRelay relay =>
    exact respects_one ⟨le_refl _, (Evolves.refl s).timing⟩ ⟨hs.made, hs.accurate⟩ trivial
  | accept => exact respects_of_evolves (.refl s) hs (by simp [Worker.Knows])
  | @getOne s' chosen draw draw' now got =>
    obtain ⟨hrearranged, hmem⟩ := getOne_rearranged got
    have hs' := hrearranged.measured hs
    apply respects_of_evolves hrearranged.evolves hs'
    cases chosen with
    | none => simp
    | some server =>
      intro u hu
      obtain rfl := List.mem_singleton.mp hu
      exact hs'.made server (hmem server rfl)
  | forceUpdate found => exact respects_one (.refl s) hs ⟨ht, trivial⟩
  | update server registered pc fetchServerInfo =>
    obtain ⟨he, hs', hpc⟩ := refreshServer_evolves s registered fetchServerInfo hs ht.2
    have hserver := lt_of_lt_of_le ht.1 he.allocated
    apply respects_one he hs'
    generalize (DnscryptProxy.refreshServer s registered fetchServerInfo pc).2 = next at hpc ⊢
    cases next with
    | inl pc' => exact ⟨hserver, hpc pc' rfl⟩
    | inr _ => exact hserver
  | call same called => exact respects_one (.refl s) hs ⟨ht, by simp⟩
  | noticeBegin server begun notices now =>
    refine respects_one (noticeBegin_evolves s server now) ⟨hs.made, hs.accurate⟩ ⟨ht.1, ?_⟩
    rintro b ⟨⟩
    rw [ServersInfo.noticeBegin, timing_modify_self]
    exact ⟨le_refl _, fun _ => rfl⟩
  | noticeFailure server begun notices =>
    have h := Rearranged.modify_rtt s server.ref fun rtt =>
      rtt.add (Float.ofInt (milliseconds timeout))
    exact respects_one h.evolves (h.measured hs) (Worker.Knows.evolves h.evolves
      (show Worker.Knows s (.noticing server begun notices) from ht))
  | noticeSuccess server begun notices now =>
    -- in its turn, the query finds its own time in the server
    obtain ⟨b, rfl, hticket⟩ := hturn
    have htime := (ht.2 b rfl).2 hticket
    have he := noticeSuccess_evolves s server (some b.time) now timeout
    exact respects_one he (noticeSuccess_measured hs htime now timeout) (Worker.Knows.evolves he
      (show Worker.Knows s (.noticing server (some b) notices) from ht))
  | finish => exact respects_of_evolves (.refl s) hs (by simp)

/-! ## Runs -/

/-- In every state of every run in which no query calls `noticeSuccess` after another one
has called `noticeBegin` on the same server, or without having called it, every sample is
the time of its own query. -/
theorem samples_accurate {timeout : Time} {registry : ServersRegistry} {lbStrategy : LBStrategy}
    {lbEstimator : Bool} {workers : List Worker} (hstarts : ∀ t ∈ workers, t.Starts)
    {p : Pool ServersInfo Worker}
    (h : Pool.Steps (Worker.StepInTurn timeout) ⟨.new registry lbStrategy lbEstimator, workers⟩ p) :
    ∀ sample ∈ p.shared.samples, sample.Accurate := by
  have hp : p.Asserts (fun s => s.Measured) (fun t s => t.Knows s) (fun _ _ => True) := by
    apply Pool.Steps.assertions (fun _ => trivial)
      (fun _ _ _ _ hs hG hL => Worker.Step.measured hs.1 hs.2 hG hL) h
    refine ⟨⟨by simp [ServersInfo.new], by simp [ServersInfo.new]⟩, ?_,
      List.pairwise_of_forall fun _ _ => trivial⟩
    intro t ht
    rcases hstarts t ht with rfl | rfl | rfl <;> trivial
  exact hp.shared.accurate

namespace Sample

/-- The server that is in use. -/
def inUseServer : Server := (started.allocate fetched).2.val

def ms : Time := 1000000

/-- A listener beside the refresh loop, and queries. -/
def pool (s : ServersInfo) (queries : List Worker) : Pool ServersInfo Worker :=
  ⟨s, .refreshLoop (.refreshing registered .register []) :: .listener :: queries⟩

theorem answered_notices :
    ∃ exit, processIncomingQuery (proxy .bare dns) client (answering 0) [] world queryPacket =
      .ok exit ∧ exit.notices = [.begin, .success] :=
  ⟨_, rfl, rfl⟩

theorem query_sent {s : ServersInfo} (hs : s.getOne 0 0 0 = some (s, some inUseServer))
    (now : Time) (queries : List Worker) :
    Pool.Steps (Worker.StepInTurn (5 * second)) (pool s queries)
      (pool (s.noticeBegin inUseServer now)
        (.noticing inUseServer (some ⟨now, (s.timing inUseServer.ref).begins + 1⟩) [.success] ::
          queries)) := by
  have hstep {s s' : ServersInfo} {t u : Worker} (h : Worker.Step (5 * second) s t s' [u])
      (hturn : t.InTurn s) :
      Pool.Step (Worker.StepInTurn (5 * second)) (pool s (t :: queries)) (pool s' (u :: queries)) := by
    have h : Worker.StepInTurn (5 * second) s t s' [u] := ⟨h, hturn⟩
    exact .run [_, _] queries h
  have haccept : Pool.Step (Worker.StepInTurn (5 * second)) (pool s queries)
      (pool s (.query :: queries)) := by
    have h : Worker.StepInTurn (5 * second) s .listener s [.listener, .query] := ⟨.accept s, trivial⟩
    exact .run [_] queries h
  have hgot := hstep (.getOne 0 0 0 hs) trivial
  obtain ⟨exit, hcall, hnotices⟩ := answered_notices
  have hcalled := hstep (.call s (rfl : _ = some inUseServer.info) hcall) trivial
  rw [hnotices] at hcalled
  have hbegun := hstep (.noticeBegin s inUseServer none [.success] now) trivial
  exact (((Relation.ReflTransGen.single haccept).tail hgot).tail hcalled).tail hbegun

theorem inUse_pool :
    Pool.Steps (Worker.StepInTurn (5 * second)) ⟨started, [.refreshLoop .sleeping, .listener]⟩
      (pool inUse []) :=
  firstInUse_reached fetched (fun h => ⟨h, trivial⟩) rfl

/-- One query is sent at 0 ms. -/
def once : ServersInfo := inUse.noticeBegin inUseServer 0

/-- Another one is sent at 100 ms. -/
def twice : ServersInfo := once.noticeBegin inUseServer (100 * ms)

theorem once_samples : (once.noticeSuccess inUseServer (some 0) (150 * ms) (5 * second)).samples =
    [⟨some 0, 150 * ms, 150⟩] := by
  rw [ServersInfo.noticeSuccess, if_pos (by decide)]
  decide

theorem twice_samples : (twice.noticeSuccess inUseServer (some 0) (150 * ms) (5 * second)).samples =
    [⟨some 0, 150 * ms, 50⟩] := by
  rw [ServersInfo.noticeSuccess, if_pos (by decide)]
  decide

/-- The query is answered at 150 ms. -/
theorem lone_query_measured :
    ∃ p : Pool ServersInfo Worker,
      Pool.Steps (Worker.StepInTurn (5 * second)) ⟨started, [.refreshLoop .sleeping, .listener]⟩ p ∧
      p.shared.samples = [⟨some 0, 150 * ms, 150⟩] ∧ ∀ sample ∈ p.shared.samples, sample.Accurate := by
  have hrun := inUse_pool.trans (query_sent rfl 0 [])
  have hanswered : Worker.StepInTurn (5 * second) once
      (.noticing inUseServer (some ⟨0, 1⟩) [.success])
      (once.noticeSuccess inUseServer (some 0) (150 * ms) (5 * second))
      [.noticing inUseServer (some ⟨0, 1⟩) []] :=
    ⟨.noticeSuccess once inUseServer (some ⟨0, 1⟩) [] (150 * ms), ⟨0, 1⟩, rfl, rfl⟩
  have hrun := hrun.tail (.run [_, _] [] hanswered)
  refine ⟨_, hrun, once_samples, samples_accurate ?_ hrun⟩
  intro t ht
  rcases List.mem_pair.mp ht with rfl | rfl
  · exact .inl rfl
  · exact .inr (.inr rfl)

/-- The first query is answered at 150 ms, after the second one was sent at 100 ms: it adds
50 ms instead of 150 ms. -/
theorem overlapping_queries_mismeasured :
    ∃ p : Pool ServersInfo Worker,
      Pool.Steps (Worker.Step (5 * second)) ⟨started, [.refreshLoop .sleeping, .listener]⟩ p ∧
      ∃ sample ∈ p.shared.samples, sample = ⟨some 0, 150 * ms, 50⟩ ∧ ¬ sample.Accurate := by
  have hsent := (inUse_pool.trans (query_sent rfl 0 [])).trans (query_sent rfl (100 * ms) _)
  have hrun := Pool.Steps.mono (fun _ _ _ _ h => h.1) hsent
  have hanswered : Worker.Step (5 * second) twice (.noticing inUseServer (some ⟨0, 1⟩) [.success])
      (twice.noticeSuccess inUseServer (some 0) (150 * ms) (5 * second))
      [.noticing inUseServer (some ⟨0, 1⟩) []] :=
    .noticeSuccess twice inUseServer (some ⟨0, 1⟩) [] (150 * ms)
  refine ⟨_, hrun.tail (.run [_, _, _] [] hanswered), ⟨some 0, 150 * ms, 50⟩, ?_, rfl, ?_⟩
  · show _ ∈ ServersInfo.samples _
    rw [twice_samples]
    exact List.mem_singleton_self _
  · rintro ⟨begun, hbegun, hadded⟩
    obtain rfl := Option.some.inj hbegun
    exact absurd hadded (by decide)

end Sample

end DnscryptProxy
