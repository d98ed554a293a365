import Mathlib.Algebra.BigOperators.Group.List.Basic
import Mathlib.Algebra.GroupWithZero.Nat
import Mathlib.Logic.Relation

/-! Threads that work on a shared state, one step of one thread at a time, in any order.

* `Pool.Steps.invariant` is the induction over a run.
* `Pool.balanced` is for shared counters: what the threads hold, added up, is what the
  shared state counts.
* `Pool.Steps.assertions` is for facts that a thread relies on between two of its steps:
  such a fact holds at each of its steps when no step of a thread it can run beside
  destroys it. -/

namespace DnscryptProxy.Library

open Relation

structure Pool (σ τ : Type) where
  shared : σ
  threads : List τ

section Pool

variable {σ τ : Type} {step : σ → τ → σ → List τ → Prop}

/-- One thread takes a step. `next` is what becomes of it: the thread in its new state,
the threads it has started, or nothing when it has ended. -/
inductive Pool.Step (step : σ → τ → σ → List τ → Prop) : Pool σ τ → Pool σ τ → Prop where
  | run {s s' : σ} {t : τ} {next : List τ} (before after : List τ) (taken : step s t s' next) :
      Pool.Step step ⟨s, before ++ t :: after⟩ ⟨s', before ++ next ++ after⟩

abbrev Pool.Steps (step : σ → τ → σ → List τ → Prop) : Pool σ τ → Pool σ τ → Prop :=
  ReflTransGen (Pool.Step step)

variable {p q : Pool σ τ} {G : σ → Prop} {w : τ → Nat}

theorem Pool.Steps.invariant {I : Pool σ τ → Prop} (hstep : ∀ p q, I p → Pool.Step step p q → I q)
    (h : Pool.Steps step p q) (hp : I p) : I q := by
  induction h with
  | refl => exact hp
  | tail _ hs ih => exact hstep _ _ ih hs

theorem Pool.Steps.mono {step' : σ → τ → σ → List τ → Prop}
    (hstep : ∀ s t s' next, step s t s' next → step' s t s' next) (h : Pool.Steps step p q) :
    Pool.Steps step' p q := by
  refine Pool.Steps.invariant (I := Pool.Steps step' p) ?_ h .refl
  rintro _ _ hp ⟨before, after, taken⟩
  exact hp.tail (.run before after (hstep _ _ _ _ taken))

theorem Pool.Steps.shared (hstep : ∀ s t s' next, step s t s' next → G s → G s')
    (h : Pool.Steps step p q) (hp : G p.shared) : G q.shared := by
  apply Pool.Steps.invariant (I := fun p => G p.shared) _ h hp
  rintro _ _ hG ⟨_, _, taken⟩
  exact hstep _ _ _ _ taken hG

/-! ## Counters -/

/-- What the threads of a pool hold together. -/
def Pool.held (w : τ → Nat) (p : Pool σ τ) : Nat := (p.threads.map w).sum

theorem Pool.held_run (w : τ → Nat) (s s' : σ) (t : τ) (before next after : List τ) :
    (⟨s', before ++ next ++ after⟩ : Pool σ τ).held w + w t =
      (⟨s, before ++ t :: after⟩ : Pool σ τ).held w + (next.map w).sum := by
  simp only [Pool.held, List.map_append, List.map_cons, List.sum_append, List.sum_cons]
  omega

theorem Pool.le_held {t : τ} (ht : t ∈ p.threads) : w t ≤ p.held w := by
  obtain ⟨before, after, hthreads⟩ := List.append_of_mem ht
  simp only [Pool.held, hthreads, List.map_append, List.map_cons, List.sum_append, List.sum_cons]
  omega

theorem Pool.held_eq_zero (h : ∀ t ∈ p.threads, w t = 0) : p.held w = 0 := by
  refine List.sum_eq_zero fun n hn => ?_
  obtain ⟨t, ht, rfl⟩ := List.mem_map.mp hn
  exact h t ht

theorem Pool.balanced {count : σ → Nat} (hstep : ∀ s t s' next, w t ≤ count s → step s t s' next →
      count s' + w t = count s + (next.map w).sum) (h : Pool.Steps step p q)
    (hp : count p.shared = p.held w) : count q.shared = q.held w := by
  apply Pool.Steps.invariant (I := fun p => count p.shared = p.held w) _ h hp
  rintro _ _ hb ⟨before, after, taken⟩
  simp only [Pool.held, List.map_append, List.map_cons, List.sum_append, List.sum_cons] at hb ⊢
  have hchange := hstep _ _ _ _ (by omega) taken
  omega

/-! ## Assertions of threads -/

structure Pool.Asserts (G : σ → Prop) (L : τ → σ → Prop) (compatible : τ → τ → Prop)
    (p : Pool σ τ) : Prop where
  shared : G p.shared
  threads : ∀ t ∈ p.threads, L t p.shared
  pairwise : p.threads.Pairwise compatible

structure Respects (G : σ → Prop) (L : τ → σ → Prop) (compatible : τ → τ → Prop) (s : σ) (t : τ)
    (s' : σ) (next : List τ) : Prop where
  shared : G s'
  own : ∀ t' ∈ next, L t' s'
  others : ∀ u, compatible t u → L u s → L u s'
  apart : next.Pairwise compatible
  beside : ∀ t' ∈ next, ∀ u, compatible t u → compatible t' u

theorem Respects.of_end {L : τ → Prop} {s s' : σ} {t : τ} (h : G s') :
    Respects G (fun t _ => L t) (fun _ _ => True) s t s' [] :=
  ⟨h, nofun, fun _ _ hu => hu, .nil, nofun⟩

theorem Pool.Steps.assertions {L : τ → σ → Prop} {compatible : τ → τ → Prop}
    (symm : ∀ {t u}, compatible t u → compatible u t)
    (hstep : ∀ s t s' next, step s t s' next → G s → L t s →
      Respects G L compatible s t s' next) (h : Pool.Steps step p q)
    (hp : p.Asserts G L compatible) : q.Asserts G L compatible := by
  apply Pool.Steps.invariant _ h hp
  rintro _ _ ⟨hG, hL, hpair⟩ ⟨before, after, taken⟩
  -- the thread in front of the others, so that it is compatible with each of them
  obtain ⟨hbeside, hrest⟩ := List.pairwise_cons.mp ((List.pairwise_middle symm).mp hpair)
  have hr := hstep _ _ _ _ taken hG (hL _ (by simp))
  refine ⟨hr.shared, ?_, ?_⟩
  · intro u hu
    simp only [List.mem_append] at hu
    obtain (hu | hu) | hu := hu
    · exact hr.others u (hbeside u (by simp [hu])) (hL u (by simp [hu]))
    · exact hr.own u hu
    · exact hr.others u (hbeside u (by simp [hu])) (hL u (by simp [hu]))
  · rw [List.append_assoc, List.pairwise_append_comm symm, List.append_assoc,
      List.pairwise_append]
    refine ⟨hr.apart, (List.pairwise_append_comm symm).mp hrest, ?_⟩
    intro t' ht' u hu
    apply hr.beside t' ht' u (hbeside u _)
    simp only [List.mem_append] at hu ⊢
    exact hu.symm

end Pool

end DnscryptProxy.Library
