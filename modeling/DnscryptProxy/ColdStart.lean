import Mathlib.Data.List.Pairwise
import DnscryptProxy.Library.Interleaving
import DnscryptProxy.Forwarding
import DnscryptProxy.Phases.Call

/-! `coldstart.go`: until the network is up, queries that captive portal detection asks are
answered from a file, on the addresses that the proxy listens on later.

* `coldStart_safe` is about all the orders in which the goroutines of `ColdStart`, `Stop` and the
  listeners can run: no signal is lost or blocks, and after `Stop` no listener is left.
* `coldStart_stops` says that `Stop` returns.
* `coldStart_replies` says what is sent, in terms of the file. -/

namespace DnscryptProxy

open Library Relation

/-! ## The file -/

section File

variable (net : NetLibrary)

def captivePortalIPs (ipsStr : Text) : Option (List IP) :=
  (ipsStr.splitOn ',').mapM fun ip => net.parseIP (trimSpace ip)

def captivePortalRule (line : Text) : Option (Option (Text × List IP)) :=
  (stringTwoFields line).bind fun (name, ipsStr) =>
    match normalizeQName name with
    | .error _ => some none
    | .ok name => (captivePortalIPs net ipsStr).map fun ips => some (name, ips)

/-- One turn of the loop of `ColdStart` over the lines. -/
def captivePortalLine (ipsMap : CaptivePortalMap) (lineNo : Nat) (line : Text) :
    Except GoError CaptivePortalMap :=
  let line := trimAndStripInlineComments line
  if line = [] then .ok ipsMap
  else match captivePortalRule net line with
    | none =>
      .error (.plain ("Syntax error for a captive portal rule at line " ++ toString (1 + lineNo)))
    | some none => .ok ipsMap
    | some (some (name, ips)) => .ok (putMap ipsMap name ips)

def captivePortalMap (bin : Text) : Except GoError CaptivePortalMap :=
  (bin.splitOn '\n').zipIdx.foldlM (fun ipsMap l => captivePortalLine net ipsMap l.2 l.1) []

/-- The rule of a line, if it has one. -/
def captivePortalEntry (line : Text) : Option (Text × List IP) :=
  let line := trimAndStripInlineComments line
  if line = [] then none else (captivePortalRule net line).join

def captivePortalEntries (bin : Text) : List (Text × List IP) :=
  (bin.splitOn '\n').filterMap (captivePortalEntry net)

variable {net}

theorem lookupMap_captivePortalLine {ipsMap ipsMap' : CaptivePortalMap} {lineNo : Nat} {line : Text}
    (h : captivePortalLine net ipsMap lineNo line = .ok ipsMap') (name : Text) :
    lookupMap ipsMap' name =
      (lookupMap (captivePortalEntry net line).toList name).or (lookupMap ipsMap name) := by
  simp only [captivePortalLine, captivePortalEntry] at h ⊢
  split at h
  · next hempty =>
    cases h
    simp [hempty, lookupMap]
  · next hline =>
    rw [if_neg hline]
    cases hrule : captivePortalRule net (trimAndStripInlineComments line) with
    | none => simp [hrule] at h
    | some rule =>
      cases rule with
      | none =>
        simp only [hrule, Except.ok.injEq] at h
        simp [h, lookupMap]
      | some rule =>
        simp only [hrule, Except.ok.injEq] at h
        rw [← h, lookupMap_putMap]
        by_cases hname : name = rule.1
        · simp [hname, lookupMap]
        · have hother : ¬ rule.1 = name := fun hsame => hname hsame.symm
          simp [hname, hother, lookupMap]

theorem lookupMap_captivePortalMap {bin : Text} {ipsMap : CaptivePortalMap}
    (h : captivePortalMap net bin = .ok ipsMap) (name : Text) :
    lookupMap ipsMap name = lookupMap (captivePortalEntries net bin).reverse name := by
  have hfold (lines : List (Text × Nat)) {m m' : CaptivePortalMap}
      (hm : lines.foldlM (fun m l => captivePortalLine net m l.2 l.1) m = .ok m') :
      lookupMap m' name = (lookupMap (lines.filterMap fun l => captivePortalEntry net l.1).reverse name).or
        (lookupMap m name) := by
    induction lines generalizing m with
    | nil =>
      cases hm
      rfl
    | cons line lines ih =>
      rw [List.foldlM_cons] at hm
      obtain ⟨next, hnext, hrest⟩ := ok_of_bind hm
      rw [ih hrest, lookupMap_captivePortalLine hnext, List.filterMap_cons]
      cases captivePortalEntry net line.1 with
      | none => rfl
      | some rule => simp [lookupMap_append, Option.or_assoc]
  have hzip : ((bin.splitOn '\n').zipIdx.filterMap fun l => captivePortalEntry net l.1) =
      captivePortalEntries net bin := by
    have hmap := List.filterMap_map (f := Prod.fst) (g := captivePortalEntry net)
      (l := (bin.splitOn '\n').zipIdx)
    rw [List.zipIdx_map_fst] at hmap
    exact hmap.symm
  rw [hfold _ h, hzip]
  exact Option.or_none

end File

/-! ## Clients -/

def handleColdStartClient (dns : DNSLibrary) (ipsMap : CaptivePortalMap) (cancelled : Bool)
    (read : Except GoError Bytes) : Bool × Option Bytes :=
  if cancelled then (true, none)
  else match read with
    | .error err => (!err.isTimeout, none)
    | .ok packet =>
      match dns.unpack (packet.take (maxDNSPacketSize - 1)) with
      | .error _ => (false, none)
      | .ok msg =>
        match ipsMap.getEntry msg with
        | none => (false, none)
        | some (question, ips) =>
          (false, (dns.pack (handleCaptivePortalQuery msg question ips)).toOption)

/-! ## Goroutines -/

/-- The handler and its channels: whether `cancelChannel` is closed, how many signals are in
`countChannel`, and whether that one is closed. The replies, with the packets they are for, are kept
for the theorems only. -/
structure CaptivePortalHandler where
  cancelled : Bool
  count : Nat
  capacity : Nat
  closed : Bool
  channelCount : Nat
  replies : List (Bytes × Bytes)

/-- Where a goroutine is. The first five are the places of the one that calls `ColdStart`, with the
number of addresses it still has to go through, and then `Stop`. The others are those of a
listener: in its loop, with its socket closed and a signal to send, or in a panic. -/
inductive ColdStartPC where
  | starting (remaining : Nat)
  | counting (remaining : Nat)
  | probing
  | waiting
  | stopped
  | serving
  | leaving
  | panicked
  deriving DecidableEq, Repr

namespace ColdStart

section Steps

variable (dns : DNSLibrary) (ipsMap : CaptivePortalMap)

/-- One step of one goroutine. A send blocks while there is no room for it. -/
inductive Step : CaptivePortalHandler → ColdStartPC → CaptivePortalHandler → List ColdStartPC → Prop
  | unbound {h : CaptivePortalHandler} {n : Nat} : Step h (.starting (n + 1)) h [.starting n]
  | bound {h : CaptivePortalHandler} {n : Nat} :
      Step h (.starting (n + 1)) h [.counting n, .serving]
  | counted {h : CaptivePortalHandler} {n : Nat} :
      Step h (.counting n) { h with channelCount := h.channelCount + 1 } [.starting n]
  | started {h : CaptivePortalHandler} : Step h (.starting 0) h [.probing]
  | cancel {h : CaptivePortalHandler} : Step h .probing { h with cancelled := true } [.waiting]
  | sleep {h : CaptivePortalHandler} (hlt : h.count < h.channelCount) : Step h .waiting h [.waiting]
  | close {h : CaptivePortalHandler} (hge : h.channelCount ≤ h.count) :
      Step h .waiting { h with closed := true } [.stopped]
  | quit {h : CaptivePortalHandler} (read : Except GoError Bytes)
      (hexit : (handleColdStartClient dns ipsMap h.cancelled read).1 = true) :
      Step h .serving h [.leaving]
  | ignore {h : CaptivePortalHandler} (read : Except GoError Bytes)
      (hnext : handleColdStartClient dns ipsMap h.cancelled read = (false, none)) :
      Step h .serving h [.serving]
  | reply {h : CaptivePortalHandler} (packet response : Bytes)
      (hreply : handleColdStartClient dns ipsMap h.cancelled (.ok packet) = (false, some response)) :
      Step h .serving { h with replies := (packet, response) :: h.replies } [.serving]
  | signal {h : CaptivePortalHandler} (hopen : h.closed = false) (hroom : h.count < h.capacity) :
      Step h .leaving { h with count := h.count + 1 } []
  | panic {h : CaptivePortalHandler} (hclosed : h.closed = true) : Step h .leaving h [.panicked]

/-- Before the loop over the addresses. -/
def start (addresses : Nat) : Pool CaptivePortalHandler ColdStartPC :=
  ⟨⟨false, 0, addresses, false, 0, []⟩, [.starting addresses]⟩

/-- What can be reached in any order of steps. -/
def Reachable (addresses : Nat) (p : Pool CaptivePortalHandler ColdStartPC) : Prop :=
  Pool.Steps (Step dns ipsMap) (start addresses) p

end Steps

variable {dns : DNSLibrary} {ipsMap : CaptivePortalMap} {addresses : Nat}
  {p q : Pool CaptivePortalHandler ColdStartPC}

/-! ### The goroutine of the handler -/

def ofHandler : ColdStartPC → Bool
  | .serving | .leaving | .panicked => false
  | _ => true

/-- What the goroutine of the handler knows of the channels, which it alone closes. -/
def Knows : ColdStartPC → CaptivePortalHandler → Prop
  | .starting _, h | .counting _, h | .probing, h => h.cancelled = false ∧ h.closed = false
  | .waiting, h => h.cancelled = true ∧ h.closed = false
  | .stopped, h => h.cancelled = true ∧ h.closed = true
  | .serving, _ | .leaving, _ | .panicked, _ => True

/-- There is one goroutine of the handler. -/
def Apart (t u : ColdStartPC) : Prop := (ofHandler t && ofHandler u) = false

theorem Apart.symm {t u : ColdStartPC} (h : Apart t u) : Apart u t := by
  simpa [Apart, Bool.and_comm] using h

theorem knows_of_apart {t u : ColdStartPC} (ht : ofHandler t = true) (h : Apart t u)
    (s : CaptivePortalHandler) : Knows u s := by
  cases u <;> simp_all [Apart, ofHandler, Knows]

theorem knows_congr {u : ColdStartPC} {s s' : CaptivePortalHandler} (hcancelled : s'.cancelled = s.cancelled)
    (hclosed : s'.closed = s.closed) (h : Knows u s) : Knows u s' := by
  cases u <;> simp_all [Knows]

theorem respects {s s' : CaptivePortalHandler} {t : ColdStartPC} {next : List ColdStartPC}
    (hstep : Step dns ipsMap s t s' next) (hknows : Knows t s) :
    Respects (fun _ => True) Knows Apart s t s' next := by
  cases hstep with
  | unbound | bound | counted | started | cancel | sleep | close =>
    refine ⟨trivial, ?_, fun u hu _ => knows_of_apart rfl hu _, ?_, ?_⟩
    · simp_all [Knows]
    · simp [Apart, ofHandler]
    · simp_all [Apart, ofHandler]
  | quit | ignore | reply | signal | panic =>
    refine ⟨trivial, ?_, fun u _ hu => knows_congr (s := s) rfl rfl hu, ?_, ?_⟩
    · simp [Knows]
    · simp [Apart]
    · simp [Apart, ofHandler]

theorem Reachable.asserts (h : Reachable dns ipsMap addresses p) :
    p.Asserts (fun _ => True) Knows Apart := by
  refine Pool.Steps.assertions Apart.symm (fun s t s' next hstep _ hknows => respects hstep hknows) h ?_
  refine ⟨trivial, ?_, List.pairwise_singleton _ _⟩
  simp [start, Knows]

theorem handler_unique (h : p.Asserts (fun _ => True) Knows Apart) {t u : ColdStartPC}
    (ht : t ∈ p.threads) (hu : u ∈ p.threads) (hth : ofHandler t = true) (huh : ofHandler u = true) :
    u = t := by
  by_contra hne
  have hsymm : Std.Symm Apart := ⟨fun _ _ => Apart.symm⟩
  have hapart : Apart u t := h.pairwise.forall hu ht hne
  simp [Apart, hth, huh] at hapart

/-! ### The listeners -/

def listening : ColdStartPC → Nat
  | .serving | .leaving => 1
  | _ => 0

def uncounted : ColdStartPC → Nat
  | .counting _ => 1
  | _ => 0

def remaining : ColdStartPC → Nat
  | .starting n | .counting n => n
  | _ => 0

theorem uncounted_eq_zero (h : p.Asserts (fun _ => True) Knows Apart) (hwaiting : .waiting ∈ p.threads) :
    p.held uncounted = 0 := by
  refine Pool.held_eq_zero fun t ht => ?_
  cases t with
  | counting n => cases handler_unique h hwaiting ht rfl rfl
  | _ => rfl

structure Counted (p : Pool CaptivePortalHandler ColdStartPC) : Prop where
  balance : p.shared.channelCount + p.held uncounted = p.shared.count + p.held listening
  room : p.shared.channelCount + p.held uncounted + p.held remaining ≤ p.shared.capacity
  closed : p.shared.closed = true → p.held listening = 0
  calm : .panicked ∉ p.threads

theorem Counted.step (hknows : p.Asserts (fun _ => True) Knows Apart) (h : Counted p)
    (hstep : Pool.Step (Step dns ipsMap) p q) : Counted q := by
  obtain ⟨before, after, taken⟩ := hstep
  rename_i s s' t next
  have hlistening := Pool.held_run listening s s' t before next after
  have huncounted := Pool.held_run uncounted s s' t before next after
  have hremaining := Pool.held_run remaining s s' t before next after
  have hown := hknows.threads t (by simp)
  have hcalm : .panicked ∉ before ∧ .panicked ∉ after := by
    have hcalm := h.calm
    simp only [List.mem_append, List.mem_cons, not_or] at hcalm
    exact ⟨hcalm.1, hcalm.2.2⟩
  obtain ⟨hbalance, hroom, hclosed, -⟩ := h
  dsimp only at hbalance hroom hclosed
  cases taken <;>
    simp only [listening, uncounted, remaining, List.map_cons, List.map_nil, List.sum_cons, List.sum_nil,
      Nat.add_zero, Nat.zero_add] at hlistening huncounted hremaining
  case bound =>
    refine ⟨by dsimp only; omega, by dsimp only; omega, fun hs => ?_, by simp [hcalm]⟩
    simp_all [Knows]
  case close hge =>
    have hzero := uncounted_eq_zero hknows (by simp)
    refine ⟨by dsimp only; omega, by dsimp only; omega, fun _ => by omega, by simp [hcalm]⟩
  case panic hs =>
    have hzero := hclosed hs
    omega
  all_goals
    refine ⟨by dsimp only; omega, by dsimp only; omega, fun hs => ?_, by simp [hcalm]⟩
    have hzero := hclosed hs
    omega

theorem Reachable.counted (h : Reachable dns ipsMap addresses p) : Counted p := by
  refine (Pool.Steps.invariant (I := fun p => p.Asserts (fun _ => True) Knows Apart ∧ Counted p) ?_ h ?_).2
  · rintro p q ⟨hknows, hcounted⟩ hstep
    refine ⟨?_, hcounted.step hknows hstep⟩
    exact Pool.Steps.assertions Apart.symm (fun s t s' next hs _ ht => respects hs ht)
      (.single hstep) hknows
  · have hstart : Reachable dns ipsMap addresses (start addresses) := .refl
    refine ⟨hstart.asserts, ?_⟩
    constructor <;> simp [start, Pool.held, listening, uncounted, remaining]

theorem Counted.sends (h : Counted p) (hleaving : .leaving ∈ p.threads) :
    p.shared.closed = false ∧ p.shared.count < p.shared.capacity := by
  have hone : 1 ≤ p.held listening := Pool.le_held (w := listening) hleaving
  obtain ⟨hbalance, hroom, hclosed, -⟩ := h
  constructor
  · by_contra hs
    have hzero := hclosed (by simpa using hs)
    omega
  · omega

/-- No goroutine panics, a signal that is to be sent goes through at once, and when `Stop` has
returned all the sockets of the listeners are closed. -/
structure Safe (p : Pool CaptivePortalHandler ColdStartPC) : Prop where
  calm : .panicked ∉ p.threads
  sends : .leaving ∈ p.threads → p.shared.closed = false ∧ p.shared.count < p.shared.capacity
  released : .stopped ∈ p.threads → .serving ∉ p.threads ∧ .leaving ∉ p.threads

theorem coldStart_safe (dns : DNSLibrary) (ipsMap : CaptivePortalMap) (addresses : Nat)
    (p : Pool CaptivePortalHandler ColdStartPC) (h : Reachable dns ipsMap addresses p) : Safe p := by
  refine ⟨h.counted.calm, h.counted.sends, fun hstopped => ?_⟩
  have hzero := h.counted.closed (h.asserts.threads _ hstopped).2
  constructor
  · intro hserving
    have hone : 1 ≤ p.held listening := Pool.le_held (w := listening) hserving
    omega
  · intro hleaving
    have hone : 1 ≤ p.held listening := Pool.le_held (w := listening) hleaving
    omega

/-! ### Stopping -/

/-- The steps that are left until `Stop` returns. -/
def pending : ColdStartPC → Nat
  | .serving => 2
  | .leaving | .waiting => 1
  | _ => 0

theorem step_of_mem {t : ColdStartPC} {s' : CaptivePortalHandler} {next : List ColdStartPC}
    (ht : t ∈ p.threads) (htaken : Step dns ipsMap p.shared t s' next) :
    ∃ q, Pool.Step (Step dns ipsMap) p q ∧ q.shared = s' ∧
      q.held pending + pending t = p.held pending + (next.map pending).sum ∧
      (∀ u ∈ next, u ∈ q.threads) ∧ ∀ u ∈ p.threads, u ≠ t → u ∈ q.threads := by
  obtain ⟨s, threads⟩ := p
  obtain ⟨before, after, rfl⟩ := List.append_of_mem ht
  refine ⟨_, .run before after htaken, rfl, Pool.held_run pending s s' t before next after, ?_, ?_⟩
  · intro u hu
    simp [hu]
  · intro u hu hne
    simp only [List.mem_append, List.mem_cons] at hu ⊢
    tauto

theorem Reachable.progress (h : Reachable dns ipsMap addresses p) (hwaiting : .waiting ∈ p.threads) :
    ∃ q, Pool.Step (Step dns ipsMap) p q ∧ q.held pending < p.held pending ∧
      (.waiting ∈ q.threads ∨ .stopped ∈ q.threads) := by
  obtain ⟨hcancelled, hopen⟩ := h.asserts.threads _ hwaiting
  by_cases hserving : .serving ∈ p.threads
  · -- the read ends at its deadline at the latest
    have hquit : (handleColdStartClient dns ipsMap p.shared.cancelled (.error (.net "i/o timeout" true))).1 =
        true := by
      simp [handleColdStartClient, hcancelled]
    obtain ⟨q, hq, -, hheld, -, hothers⟩ := step_of_mem hserving (.quit _ hquit)
    simp only [pending, List.map_cons, List.map_nil, List.sum_cons, List.sum_nil] at hheld
    exact ⟨q, hq, by omega, .inl (hothers _ hwaiting (by decide))⟩
  · by_cases hleaving : .leaving ∈ p.threads
    · obtain ⟨hs, hroom⟩ := h.counted.sends hleaving
      obtain ⟨q, hq, -, hheld, -, hothers⟩ := step_of_mem hleaving (.signal hs hroom)
      simp only [pending, List.map_nil, List.sum_nil] at hheld
      exact ⟨q, hq, by omega, .inl (hothers _ hwaiting (by decide))⟩
    · have hnone : p.held listening = 0 := by
        refine Pool.held_eq_zero fun t ht => ?_
        cases t with
        | serving => exact absurd ht hserving
        | leaving => exact absurd ht hleaving
        | _ => rfl
      have hbalance := h.counted.balance
      have huncounted := uncounted_eq_zero h.asserts hwaiting
      have hge : p.shared.channelCount ≤ p.shared.count := by omega
      obtain ⟨q, hq, -, hheld, hnext, -⟩ := step_of_mem hwaiting (.close hge)
      simp only [pending, List.map_cons, List.map_nil, List.sum_cons, List.sum_nil] at hheld
      exact ⟨q, hq, by omega, .inr (hnext _ (by simp))⟩

theorem Reachable.settles (h : Reachable dns ipsMap addresses p) (hwaiting : .waiting ∈ p.threads)
    (hstep : Pool.Step (Step dns ipsMap) p q) : q = p ∨ q.held pending < p.held pending := by
  have hknows := h.asserts
  have hcancelled := (hknows.threads _ hwaiting).1
  obtain ⟨before, after, taken⟩ := hstep
  rename_i s s' t next
  have hheld := Pool.held_run pending s s' t before next after
  have honly (ht : ofHandler t = true) : t = .waiting :=
    handler_unique hknows hwaiting (by simp) rfl ht
  dsimp only at hcancelled
  cases taken with
  | sleep => simp
  | close | quit | signal | panic =>
    simp only [pending, List.map_cons, List.map_nil, List.sum_cons, List.sum_nil] at hheld
    exact .inr (by omega)
  | ignore read hnext => simp [handleColdStartClient, hcancelled] at hnext
  | reply packet response hreply => simp [handleColdStartClient, hcancelled] at hreply
  | _ => cases honly rfl

theorem Reachable.stops (h : Reachable dns ipsMap addresses p) (hwaiting : .waiting ∈ p.threads) :
    ∃ q, Pool.Steps (Step dns ipsMap) p q ∧ .stopped ∈ q.threads := by
  induction hn : p.held pending using Nat.strong_induction_on generalizing p with
  | h n ih =>
    obtain ⟨q, hq, hlt, hmain⟩ := h.progress hwaiting
    rcases hmain with hstill | hstopped
    · obtain ⟨r, hr, hstopped⟩ := ih _ (hn ▸ hlt) (h.tail hq) hstill rfl
      exact ⟨r, .head hq hr, hstopped⟩
    · exact ⟨q, .single hq, hstopped⟩

/-- `Stop` can always return, and it does: only its own sleep leaves things as they are, and any
other step leaves less to be done. -/
theorem coldStart_stops (dns : DNSLibrary) (ipsMap : CaptivePortalMap) (addresses : Nat)
    (p : Pool CaptivePortalHandler ColdStartPC) (h : Reachable dns ipsMap addresses p)
    (hwaiting : .waiting ∈ p.threads) :
    (∃ q, Pool.Steps (Step dns ipsMap) p q ∧ .stopped ∈ q.threads) ∧
      ∀ q, Pool.Step (Step dns ipsMap) p q → q = p ∨ q.held pending < p.held pending :=
  ⟨h.stops hwaiting, fun _ hq => h.settles hwaiting hq⟩

/-! ### Replies -/

theorem Reachable.replied (h : Reachable dns ipsMap addresses p) :
    ∀ r ∈ p.shared.replies, handleColdStartClient dns ipsMap false (.ok r.1) = (false, some r.2) := by
  refine Pool.Steps.shared (G := fun s => ∀ r ∈ s.replies,
    handleColdStartClient dns ipsMap false (.ok r.1) = (false, some r.2)) ?_ h nofun
  intro s t s' next hstep hs
  cases hstep with
  | reply packet response hreply =>
    intro r hr
    rcases List.mem_cons.mp hr with rfl | hr
    · cases hcancelled : s.cancelled with
      | false => rwa [hcancelled] at hreply
      | true => simp [handleColdStartClient, hcancelled] at hreply
    · exact hs r hr
  | _ => exact hs

theorem getEntry_eq_some {msg : Msg} {question : Question} {ips : List IP}
    (h : ipsMap.getEntry msg = some (question, ips)) : msg.question = [question] ∧
      question.qclass = classINET ∧ ∃ name, normalizeQName question.name = .ok name ∧
        lookupMap ipsMap name = some ips := by
  unfold CaptivePortalMap.getEntry at h
  split at h
  · next asked hquestion =>
    split at h
    · cases h
    · next name hname =>
      split at h
      · cases h
      · next found hlookup =>
        split at h
        · cases h
        · next hclass =>
          cases h
          exact ⟨hquestion, not_not.mp hclass, name, hname, hlookup⟩
  · cases h

/-- What a listener has sent answers a question for a name of the file, with the addresses of the
last rule for it, and the plugin gives the same answer later. -/
theorem coldStart_replies (dns : DNSLibrary) (net : NetLibrary) (bin : Text) (ipsMap : CaptivePortalMap)
    (addresses : Nat) (p : Pool CaptivePortalHandler ColdStartPC)
    (hfile : captivePortalMap net bin = .ok ipsMap) (h : Reachable dns ipsMap addresses p)
    (packet response : Bytes) (hreply : (packet, response) ∈ p.shared.replies) :
    ∃ msg question name ips, dns.unpack (packet.take (maxDNSPacketSize - 1)) = .ok msg ∧
      msg.question = [question] ∧ question.qclass = classINET ∧
      normalizeQName question.name = .ok name ∧
      lookupMap (captivePortalEntries net bin).reverse name = some ips ∧
      dns.pack (handleCaptivePortalQuery msg question ips) = .ok response ∧
      ∀ ctx : Ctx, ctx.msg = msg →
        captivePortalEval ipsMap ctx = (ctx.answer (handleCaptivePortalQuery msg question ips)).ok := by
  have hhandled := h.replied _ hreply
  simp only [handleColdStartClient, Bool.false_eq_true, if_false] at hhandled
  cases hmsg : dns.unpack (packet.take (maxDNSPacketSize - 1)) with
  | error e => simp [hmsg] at hhandled
  | ok msg =>
    cases hentry : ipsMap.getEntry msg with
    | none => simp [hmsg, hentry] at hhandled
    | some entry =>
      obtain ⟨question, ips⟩ := entry
      obtain ⟨hquestion, hclass, name, hname, hlookup⟩ := getEntry_eq_some hentry
      simp only [hmsg, hentry, Prod.mk.injEq, true_and] at hhandled
      refine ⟨msg, question, name, ips, rfl, hquestion, hclass, hname, ?_, ?_, ?_⟩
      · rw [← lookupMap_captivePortalMap hfile, hlookup]
      · cases hpack : dns.pack (handleCaptivePortalQuery msg question ips) with
        | error e =>
          rw [hpack] at hhandled
          cases hhandled
        | ok b =>
          rw [hpack] at hhandled
          cases hhandled
          rfl
      · intro ctx hctx
        subst hctx
        simp only [captivePortalEval, hentry]

end ColdStart

namespace Sample

open ColdStart

def portalIP : IP := List.replicate 10 0 ++ [255, 255, 192, 0, 2, 1]

def portalNet : NetLibrary := netOf [("192.0.2.1".toList, portalIP)] (by decide)

def portalFile : Text := "# checked at home\nExample.com 192.0.2.1".toList

def portalMap : CaptivePortalMap := [("example.com".toList, [portalIP])]

theorem captivePortalMap_portalFile : captivePortalMap portalNet portalFile = .ok portalMap := by
  decide

def portalPacket : Bytes :=
  [0x12, 0x34, 0x80, 0x80, 0, 1, 0, 1, 0, 0, 0, 0] ++ questionWire ++
    [0xc0, 0x0c, 0, 1, 0, 1, 0, 0, 0, 1, 0, 4, 192, 0, 2, 1]

def portalDNS : DNSLibrary :=
  .ofTable [(queryPacket, query), (portalPacket, handleCaptivePortalQuery query question [portalIP])]
    (by decide)

/-- One listener has answered a query, and `Stop` has been called. -/
def portalWaiting : Pool CaptivePortalHandler ColdStartPC :=
  ⟨⟨true, 0, 1, false, 1, [(queryPacket, portalPacket)]⟩, [.waiting, .serving]⟩

def portalStopped : Pool CaptivePortalHandler ColdStartPC :=
  ⟨⟨true, 1, 1, true, 1, [(queryPacket, portalPacket)]⟩, [.stopped]⟩

theorem portalWaiting_reachable : ColdStart.Reachable portalDNS portalMap 1 portalWaiting := by
  have hreply : handleColdStartClient portalDNS portalMap false (.ok queryPacket) =
      (false, some portalPacket) := by decide
  have hbound : Pool.Step (Step portalDNS portalMap) ⟨⟨false, 0, 1, false, 0, []⟩, [.starting 1]⟩
      ⟨⟨false, 0, 1, false, 0, []⟩, [.counting 0, .serving]⟩ := .run [] [] Step.bound
  have hcounted : Pool.Step (Step portalDNS portalMap)
      ⟨⟨false, 0, 1, false, 0, []⟩, [.counting 0, .serving]⟩
      ⟨⟨false, 0, 1, false, 1, []⟩, [.starting 0, .serving]⟩ := .run [] [ColdStartPC.serving] Step.counted
  have hstarted : Pool.Step (Step portalDNS portalMap)
      ⟨⟨false, 0, 1, false, 1, []⟩, [.starting 0, .serving]⟩
      ⟨⟨false, 0, 1, false, 1, []⟩, [.probing, .serving]⟩ := .run [] [ColdStartPC.serving] Step.started
  have hreplied : Pool.Step (Step portalDNS portalMap)
      ⟨⟨false, 0, 1, false, 1, []⟩, [.probing, .serving]⟩
      ⟨⟨false, 0, 1, false, 1, [(queryPacket, portalPacket)]⟩, [.probing, .serving]⟩ :=
    .run [ColdStartPC.probing] [] (Step.reply queryPacket portalPacket hreply)
  have hcancel : Pool.Step (Step portalDNS portalMap)
      ⟨⟨false, 0, 1, false, 1, [(queryPacket, portalPacket)]⟩, [.probing, .serving]⟩ portalWaiting :=
    .run [] [ColdStartPC.serving] Step.cancel
  exact ((((ReflTransGen.single hbound).tail hcounted).tail hstarted).tail hreplied).tail hcancel

theorem portalStopped_reachable : ColdStart.Reachable portalDNS portalMap 1 portalStopped := by
  have hquit : Pool.Step (Step portalDNS portalMap)
      ⟨⟨true, 0, 1, false, 1, [(queryPacket, portalPacket)]⟩, [.waiting, .serving]⟩
      ⟨⟨true, 0, 1, false, 1, [(queryPacket, portalPacket)]⟩, [.waiting, .leaving]⟩ :=
    .run [ColdStartPC.waiting] [] (Step.quit (.ok queryPacket) rfl)
  have hsignal : Pool.Step (Step portalDNS portalMap)
      ⟨⟨true, 0, 1, false, 1, [(queryPacket, portalPacket)]⟩, [.waiting, .leaving]⟩
      ⟨⟨true, 1, 1, false, 1, [(queryPacket, portalPacket)]⟩, [.waiting]⟩ :=
    .run [ColdStartPC.waiting] [] (Step.signal rfl (by decide))
  have hclose : Pool.Step (Step portalDNS portalMap)
      ⟨⟨true, 1, 1, false, 1, [(queryPacket, portalPacket)]⟩, [.waiting]⟩ portalStopped :=
    .run [] [] (Step.close (by decide))
  exact ((portalWaiting_reachable.tail hquit).tail hsignal).tail hclose

theorem portal_safe : .stopped ∈ portalStopped.threads ∧ Safe portalStopped :=
  ⟨by decide, coldStart_safe portalDNS portalMap 1 portalStopped portalStopped_reachable⟩

theorem portal_stops : ∃ q, Pool.Steps (Step portalDNS portalMap) portalWaiting q ∧
    .stopped ∈ q.threads :=
  (coldStart_stops portalDNS portalMap 1 portalWaiting portalWaiting_reachable (by decide)).1

theorem portal_replies : ∃ msg question name ips,
    portalDNS.unpack (queryPacket.take (maxDNSPacketSize - 1)) = .ok msg ∧
      msg.question = [question] ∧ question.qclass = classINET ∧
      normalizeQName question.name = .ok name ∧
      lookupMap (captivePortalEntries portalNet portalFile).reverse name = some ips ∧
      portalDNS.pack (handleCaptivePortalQuery msg question ips) = .ok portalPacket ∧
      ∀ ctx : Ctx, ctx.msg = msg → captivePortalEval portalMap ctx =
        (ctx.answer (handleCaptivePortalQuery msg question ips)).ok :=
  coldStart_replies portalDNS portalNet portalFile portalMap 1 portalStopped
    captivePortalMap_portalFile portalStopped_reachable queryPacket portalPacket (by decide)

end Sample

end DnscryptProxy
