import DnscryptProxy.Basic
import DnscryptProxy.Library.Interleaving

/-! The limit of clients: `clientsCountInc` and `clientsCountDec` of `proxy.go`, one atomic
load or compare-and-swap at a time, and the goroutines that call them. Any number of
goroutines run in any order. `clientsCount_accounted` says that the counter is then
exactly the number of slots that are taken. -/

namespace DnscryptProxy

open Library

/-- The shared counter. How many of its compare-and-swaps have succeeded in either
direction is kept for the theorems only. -/
structure Clients where
  clientsCount : UInt32
  increments : Nat
  decrements : Nat
  deriving DecidableEq, Repr

def Clients.none : Clients := ⟨0, 0, 0⟩

section Counter

variable {maxClients : UInt32}

/-- Where a goroutine is in `clientsCountInc`: before the load, or between the load of
`count` and the swap. -/
inductive IncPC (maxClients : UInt32) where
  | load
  | swap (count : UInt32) (below : count < maxClients)
  deriving DecidableEq, Repr

/-- The same for `clientsCountDec`. -/
inductive DecPC where
  | load
  | swap (count : UInt32) (positive : count ≠ 0)
  deriving DecidableEq, Repr

/-- One atomic step of `clientsCountInc`, which goes on or returns. -/
def clientsCountInc (clients : Clients) : IncPC maxClients → Clients × (IncPC maxClients ⊕ Bool)
  | .load =>
    if below : clients.clientsCount < maxClients then (clients, .inl (.swap clients.clientsCount below))
    else (clients, .inr false)
  | .swap count _ =>
    if clients.clientsCount = count then
      ({ clients with clientsCount := count + 1, increments := clients.increments + 1 }, .inr true)
    else (clients, .inl .load)

/-- One atomic step of `clientsCountDec`. -/
def clientsCountDec (clients : Clients) : DecPC → Clients × (DecPC ⊕ Unit)
  | .load =>
    if positive : clients.clientsCount ≠ 0 then (clients, .inl (.swap clients.clientsCount positive))
    else (clients, .inr ())
  | .swap count _ =>
    if clients.clientsCount = count then
      ({ clients with clientsCount := count - 1, decrements := clients.decrements + 1 }, .inr ())
    else (clients, .inl .load)

theorem clientsCountInc_cases (clients : Clients) (pc : IncPC maxClients) :
    ((clientsCountInc clients pc).1 = clients ∧ (clientsCountInc clients pc).2 ≠ .inr true) ∨
      (clients.clientsCount < maxClients ∧ clientsCountInc clients pc =
        (⟨clients.clientsCount + 1, clients.increments + 1, clients.decrements⟩, .inr true)) := by
  cases pc with
  | load =>
    left
    unfold clientsCountInc
    dsimp only
    split
    · exact ⟨rfl, by simp⟩
    · exact ⟨rfl, by simp⟩
  | swap count below =>
    by_cases h : clients.clientsCount = count
    · right
      subst h
      exact ⟨below, by simp [clientsCountInc]⟩
    · left
      simp [clientsCountInc, h]

theorem clientsCountDec_cases (clients : Clients) (pc : DecPC) :
    ((clientsCountDec clients pc).1 = clients ∧
      ((clientsCountDec clients pc).2 = .inr () → clients.clientsCount = 0)) ∨
      (clients.clientsCount ≠ 0 ∧ clientsCountDec clients pc =
        (⟨clients.clientsCount - 1, clients.increments, clients.decrements + 1⟩, .inr ())) := by
  cases pc with
  | load =>
    left
    by_cases h : clients.clientsCount = 0
    · simp [clientsCountDec, h]
    · simp [clientsCountDec, h]
  | swap count positive =>
    by_cases h : clients.clientsCount = count
    · right
      subst h
      exact ⟨positive, by simp [clientsCountDec]⟩
    · left
      simp [clientsCountDec, h]

end Counter

/-! ## Goroutines -/

/-- The goroutines that take slots, and where each of them is.

* A listener takes a slot for a client and starts a goroutine that serves it; a query
  that comes when all slots are taken is answered from the cache by the UDP listener
  itself, and a connection is closed.
* The local DoH server starts a goroutine for each request, which takes its slot itself.
* A goroutine that serves a client may take a further slot for a sub-query of DNS64, and so
  may the sub-query; `depth` is the number of sub-queries it is inside of.
* The slot of the client is given back by a deferred call, that of a sub-query by a plain
  one, so a panic leaves slots behind: `lost` is nobody's. -/
inductive Goroutine (maxClients : UInt32) where
  | udpListener (pc : IncPC maxClients)
  | tcpListener (pc : IncPC maxClients)
  | localDoHServer
  | localDoHRequest (pc : IncPC maxClients)
  | serving (depth : Nat)
  | subquery (depth : Nat) (pc : IncPC maxClients)
  | returning (depth : Nat) (pc : DecPC)
  | leaving (pc : DecPC)
  | lost (slots : Nat)
  deriving DecidableEq, Repr

section Goroutines

variable {maxClients : UInt32}

/-- What a goroutine does after a step of its call of `clientsCountInc`. -/
def afterInc (retry : IncPC maxClients → Goroutine maxClients)
    (granted refused : List (Goroutine maxClients)) :
    IncPC maxClients ⊕ Bool → List (Goroutine maxClients)
  | .inl pc => [retry pc]
  | .inr true => granted
  | .inr false => refused

def afterDec (retry : DecPC → Goroutine maxClients) (done : List (Goroutine maxClients)) :
    DecPC ⊕ Unit → List (Goroutine maxClients)
  | .inl pc => [retry pc]
  | .inr () => done

inductive Goroutine.Step : Clients → Goroutine maxClients → Clients →
    List (Goroutine maxClients) → Prop where
  | udpListener (clients : Clients) (pc : IncPC maxClients) :
      Step clients (.udpListener pc) (clientsCountInc clients pc).1
        (afterInc .udpListener [.udpListener .load, .serving 0] [.udpListener .load]
          (clientsCountInc clients pc).2)
  | tcpListener (clients : Clients) (pc : IncPC maxClients) :
      Step clients (.tcpListener pc) (clientsCountInc clients pc).1
        (afterInc .tcpListener [.tcpListener .load, .serving 0] [.tcpListener .load]
          (clientsCountInc clients pc).2)
  | localDoHServer (clients : Clients) :
      Step clients .localDoHServer clients [.localDoHServer, .localDoHRequest .load]
  | localDoHRequest (clients : Clients) (pc : IncPC maxClients) :
      Step clients (.localDoHRequest pc) (clientsCountInc clients pc).1
        (afterInc .localDoHRequest [.serving 0] [] (clientsCountInc clients pc).2)
  | startSubquery (clients : Clients) (depth : Nat) :
      Step clients (.serving depth) clients [.subquery depth .load]
  | subquery (clients : Clients) (depth : Nat) (pc : IncPC maxClients) :
      Step clients (.subquery depth pc) (clientsCountInc clients pc).1
        (afterInc (.subquery depth) [.serving (depth + 1)] [.serving depth]
          (clientsCountInc clients pc).2)
  | endSubquery (clients : Clients) (depth : Nat) :
      Step clients (.serving (depth + 1)) clients [.returning depth .load]
  | returning (clients : Clients) (depth : Nat) (pc : DecPC) :
      Step clients (.returning depth pc) (clientsCountDec clients pc).1
        (afterDec (.returning depth) [.serving depth] (clientsCountDec clients pc).2)
  | finish (clients : Clients) : Step clients (.serving 0) clients [.leaving .load]
  /-- The deferred call runs while the stack is unwound. -/
  | panic (clients : Clients) (depth : Nat) :
      Step clients (.serving depth) clients [.leaving .load, .lost depth]
  | leaving (clients : Clients) (pc : DecPC) :
      Step clients (.leaving pc) (clientsCountDec clients pc).1
        (afterDec .leaving [] (clientsCountDec clients pc).2)

/-- The successful increments of a goroutine that it has not yet undone. -/
def Goroutine.slots : Goroutine maxClients → Nat
  | .udpListener _ | .tcpListener _ | .localDoHServer | .localDoHRequest _ => 0
  | .serving depth | .subquery depth _ => depth + 1
  | .returning depth _ => depth + 2
  | .leaving _ => 1
  | .lost slots => slots

/-- The goroutines that `startAcceptingClients` starts. -/
def Goroutine.Listens (g : Goroutine maxClients) : Prop :=
  g = .udpListener .load ∨ g = .tcpListener .load ∨ g = .localDoHServer

theorem Goroutine.Listens.slots_eq {g : Goroutine maxClients} (h : g.Listens) : g.slots = 0 := by
  rcases h with rfl | rfl | rfl <;> rfl

/-! ## The slots that are taken -/

theorem toNat_succ {count : UInt32} (h : count < maxClients) :
    (count + 1).toNat = count.toNat + 1 := by
  have hlt : count.toNat < maxClients.toNat := UInt32.lt_iff_toNat_lt.mp h
  have hmax : maxClients.toNat < 2 ^ 32 := maxClients.toNat_lt
  rw [UInt32.toNat_add]
  exact Nat.mod_eq_of_lt (by simp; omega)

theorem toNat_pred {count : UInt32} (h : count ≠ 0) : (count - 1).toNat + 1 = count.toNat := by
  have hpos : count.toNat ≠ 0 := fun h0 => h (UInt32.toNat_inj.mp h0)
  have hle : (1 : UInt32) ≤ count := UInt32.le_iff_toNat_le.mpr (Nat.one_le_iff_ne_zero.mpr hpos)
  rw [UInt32.toNat_sub_of_le _ _ hle]
  show count.toNat - 1 + 1 = count.toNat
  omega

theorem inc_balanced (clients : Clients) (pc : IncPC maxClients) (n : Nat)
    {retry : IncPC maxClients → Goroutine maxClients}
    {granted refused : List (Goroutine maxClients)} (hretry : ∀ pc, (retry pc).slots = n)
    (hgranted : (granted.map Goroutine.slots).sum = n + 1)
    (hrefused : (refused.map Goroutine.slots).sum = n) :
    (clientsCountInc clients pc).1.clientsCount.toNat + n = clients.clientsCount.toNat +
      ((afterInc retry granted refused (clientsCountInc clients pc).2).map Goroutine.slots).sum := by
  rcases clientsCountInc_cases clients pc with ⟨hsame, hret⟩ | ⟨hlt, heq⟩
  · rw [hsame]
    congr 1
    match hr : (clientsCountInc clients pc).2 with
    | .inl pc' => simp [afterInc, hretry]
    | .inr false => exact hrefused.symm
    | .inr true => exact absurd hr hret
  · have hsucc := toNat_succ hlt
    rw [heq]
    show (clients.clientsCount + 1).toNat + n = _ + (granted.map Goroutine.slots).sum
    omega

theorem dec_balanced (clients : Clients) (pc : DecPC) (n : Nat)
    {retry : DecPC → Goroutine maxClients} {done : List (Goroutine maxClients)}
    (hretry : ∀ pc, (retry pc).slots = n + 1) (hdone : (done.map Goroutine.slots).sum = n)
    (hcounted : n + 1 ≤ clients.clientsCount.toNat) :
    (clientsCountDec clients pc).1.clientsCount.toNat + (n + 1) = clients.clientsCount.toNat +
      ((afterDec retry done (clientsCountDec clients pc).2).map Goroutine.slots).sum := by
  rcases clientsCountDec_cases clients pc with ⟨hsame, hret⟩ | ⟨hne, heq⟩
  · rw [hsame]
    congr 1
    match hr : (clientsCountDec clients pc).2 with
    | .inl pc' => simp [afterDec, hretry]
    | .inr () =>
      -- the slot that is given back is counted, so the counter is not zero
      have hzero := hret hr
      simp [hzero] at hcounted
  · have hpred := toNat_pred hne
    rw [heq]
    show (clients.clientsCount - 1).toNat + (n + 1) = _ + (done.map Goroutine.slots).sum
    omega

theorem Goroutine.Step.balanced {s s' : Clients} {g : Goroutine maxClients}
    {next : List (Goroutine maxClients)} (hown : g.slots ≤ s.clientsCount.toNat)
    (h : Goroutine.Step s g s' next) :
    s'.clientsCount.toNat + g.slots = s.clientsCount.toNat + (next.map Goroutine.slots).sum := by
  cases h with
  | udpListener pc => exact inc_balanced _ _ 0 (fun _ => rfl) rfl rfl
  | tcpListener pc => exact inc_balanced _ _ 0 (fun _ => rfl) rfl rfl
  | localDoHServer => rfl
  | localDoHRequest pc => exact inc_balanced _ _ 0 (fun _ => rfl) rfl rfl
  | startSubquery depth => rfl
  | subquery depth pc => exact inc_balanced _ _ (depth + 1) (fun _ => rfl) rfl rfl
  | endSubquery depth => rfl
  | returning depth pc => exact dec_balanced _ _ (depth + 1) (fun _ => rfl) rfl hown
  | finish => rfl
  | panic depth =>
    show _ + (depth + 1) = _ + (1 + (depth + 0))
    omega
  | leaving pc => exact dec_balanced _ _ 0 (fun _ => rfl) rfl hown

/-! ## Runs -/

/-- The counter keeps to its limit, and every compare-and-swap is in it. -/
def Clients.Exact (maxClients : UInt32) (clients : Clients) : Prop :=
  clients.clientsCount ≤ maxClients ∧
    clients.increments = clients.decrements + clients.clientsCount.toNat

theorem inc_exact (clients : Clients) (pc : IncPC maxClients) (h : clients.Exact maxClients) :
    (clientsCountInc clients pc).1.Exact maxClients := by
  rcases clientsCountInc_cases clients pc with ⟨hsame, -⟩ | ⟨hlt, heq⟩
  · rw [hsame]
    exact h
  · have hsucc := toNat_succ hlt
    have hnat : clients.clientsCount.toNat < maxClients.toNat := UInt32.lt_iff_toNat_lt.mp hlt
    have hsum := h.2
    rw [heq]
    refine ⟨UInt32.le_iff_toNat_le.mpr ?_, ?_⟩
    · show (clients.clientsCount + 1).toNat ≤ maxClients.toNat
      omega
    · show clients.increments + 1 = clients.decrements + (clients.clientsCount + 1).toNat
      omega

theorem dec_exact (clients : Clients) (pc : DecPC) (h : clients.Exact maxClients) :
    (clientsCountDec clients pc).1.Exact maxClients := by
  rcases clientsCountDec_cases clients pc with ⟨hsame, -⟩ | ⟨hne, heq⟩
  · rw [hsame]
    exact h
  · have hpred := toNat_pred hne
    have hnat : clients.clientsCount.toNat ≤ maxClients.toNat := UInt32.le_iff_toNat_le.mp h.1
    have hsum := h.2
    rw [heq]
    refine ⟨UInt32.le_iff_toNat_le.mpr ?_, ?_⟩
    · show (clients.clientsCount - 1).toNat ≤ maxClients.toNat
      omega
    · show clients.increments = clients.decrements + 1 + (clients.clientsCount - 1).toNat
      omega

theorem Goroutine.Step.exact {s s' : Clients} {g : Goroutine maxClients}
    {next : List (Goroutine maxClients)} (h : Goroutine.Step s g s' next)
    (hs : s.Exact maxClients) : s'.Exact maxClients := by
  cases h with
  | udpListener pc | tcpListener pc | localDoHRequest pc => exact inc_exact _ _ hs
  | subquery depth pc => exact inc_exact _ _ hs
  | returning depth pc => exact dec_exact _ _ hs
  | leaving pc => exact dec_exact _ _ hs
  | localDoHServer | finish => exact hs
  | startSubquery depth | endSubquery depth | panic depth => exact hs

/-- In every state that any number of listeners can reach, with any number of clients and
in any order of the atomic steps, the counter is at most `maxClients`, it is the number of
slots that are taken, and it is the difference of the successful increments and
decrements, none of which has wrapped around. -/
theorem clientsCount_accounted {listeners : List (Goroutine maxClients)}
    (hl : ∀ g ∈ listeners, g.Listens) {p : Pool Clients (Goroutine maxClients)}
    (h : Pool.Steps Goroutine.Step ⟨.none, listeners⟩ p) :
    p.shared.clientsCount ≤ maxClients ∧
      p.shared.clientsCount.toNat = p.held Goroutine.slots ∧
      p.shared.increments = p.shared.decrements + p.shared.clientsCount.toNat := by
  have hexact : p.shared.Exact maxClients := by
    apply Pool.Steps.shared (fun _ _ _ _ hs hG => Goroutine.Step.exact hs hG) h
    exact ⟨UInt32.le_iff_toNat_le.mpr (Nat.zero_le _), rfl⟩
  have hempty : (listeners.map Goroutine.slots).sum = 0 := by
    apply List.sum_eq_zero
    intro n hn
    obtain ⟨g, hg, rfl⟩ := List.mem_map.mp hn
    exact (hl g hg).slots_eq
  have hheld : p.shared.clientsCount.toNat = p.held Goroutine.slots := by
    apply Pool.balanced (fun _ _ _ _ hown hs => Goroutine.Step.balanced hown hs) h
    show (0 : UInt32).toNat = _
    exact hempty.symm
  exact ⟨hexact.1, hheld, hexact.2⟩

/-- With one slot, a listener has taken it for a client and finds it taken. -/
theorem one_client_served :
    ∃ p : Pool Clients (Goroutine 1),
      p = ⟨⟨1, 1, 0⟩, [.udpListener .load, .serving 0]⟩ ∧
      Pool.Steps Goroutine.Step ⟨.none, [.udpListener .load]⟩ p ∧
      (p.shared.clientsCount ≤ 1 ∧ p.shared.clientsCount.toNat = p.held Goroutine.slots ∧
        p.shared.increments = p.shared.decrements + p.shared.clientsCount.toNat) := by
  have hload : Pool.Step Goroutine.Step
      (⟨.none, [.udpListener .load]⟩ : Pool Clients (Goroutine 1))
      ⟨.none, [.udpListener (.swap 0 (by decide))]⟩ :=
    .run [] [] (Goroutine.Step.udpListener _ _)
  have hswap : Pool.Step Goroutine.Step
      (⟨.none, [.udpListener (.swap 0 (by decide))]⟩ : Pool Clients (Goroutine 1))
      ⟨⟨1, 1, 0⟩, [.udpListener .load, .serving 0]⟩ :=
    .run [] [] (Goroutine.Step.udpListener _ _)
  have hrun := (Relation.ReflTransGen.single hload).tail hswap
  refine ⟨_, rfl, hrun, clientsCount_accounted ?_ hrun⟩
  intro g hg
  exact .inl (List.mem_singleton.mp hg)

end Goroutines

end DnscryptProxy
