import Mathlib.Data.List.Induction

/-! Computations that may stop with an error, and chains of stages that each look
at a state in turn until one of them ends the chain.

* `ends_bind` is the rule for sequencing: what a composed computation ends in is
  what its parts end in, in both directions.
* `ends_chain_iff` reduces "no stage of the chain goes wrong" to the stages that
  are reached; `chain_invariant` carries an invariant through a whole chain.
* `foldlM_cases` is the rule for a loop over a list that may stop at any element.
* `emitted` collects what the stages emit on the way, `mem_emitted` says which of them
  did. -/

namespace DnscryptProxy.Library

section Outcome

variable {ε α β : Type}

/-- `x` returns a value that satisfies `Q` or stops with an error that satisfies `E`. -/
def Ends (x : Except ε α) (Q : α → Prop) (E : ε → Prop) : Prop :=
  match x with
  | .ok a => Q a
  | .error e => E e

@[simp] theorem ends_ok (a : α) (Q : α → Prop) (E : ε → Prop) : Ends (.ok a) Q E ↔ Q a := Iff.rfl

theorem ends_bind (x : Except ε α) (f : α → Except ε β) (Q : β → Prop) (E : ε → Prop) :
    Ends (x >>= f) Q E ↔ Ends x (fun a => Ends (f a) Q E) E := by
  cases x <;> rfl

variable {x : Except ε α} {Q : α → Prop} {E : ε → Prop} {f : α → Except ε β} {b : β}

theorem ends_iff : Ends x Q E ↔ Ends x (fun _ => True) E ∧ ∀ a, x = .ok a → Q a := by
  cases x with
  | ok a =>
    constructor
    · intro h
      refine ⟨trivial, ?_⟩
      rintro _ ⟨⟩
      exact h
    · intro h
      exact h.2 a rfl
  | error e =>
    constructor
    · intro h
      exact ⟨h, nofun⟩
    · intro h
      exact h.1

theorem ends_true_iff : Ends x (fun _ => True) E ↔ ∀ e, x = .error e → E e := by
  cases x with
  | ok a =>
    constructor
    · intro _
      exact nofun
    · intro _
      trivial
  | error e =>
    constructor
    · rintro h _ ⟨⟩
      exact h
    · intro h
      exact h e rfl

theorem ends_map (x : Except ε α) (f : α → β) (Q : β → Prop) (E : ε → Prop) :
    Ends (x.map f) Q E ↔ Ends x (fun a => Q (f a)) E := by
  cases x <;> rfl

theorem Ends.mono {Q' : α → Prop} {E' : ε → Prop} (h : Ends x Q E)
    (hq : ∀ a, x = .ok a → Q a → Q' a) (he : ∀ e, E e → E' e) : Ends x Q' E' := by
  cases x with
  | ok a => exact hq a rfl h
  | error e => exact he e h

theorem Ends.bind {R : α → Prop} {Q : β → Prop} (h : Ends x R E)
    (hf : ∀ a, x = .ok a → R a → Ends (f a) Q E) : Ends (x >>= f) Q E :=
  (ends_bind x f Q E).mpr (h.mono hf fun _ he => he)

theorem Ends.of_ok {a : α} (h : Ends x Q E) (ha : x = .ok a) : Q a := by
  subst ha
  exact h

theorem Ends.of_error {e : ε} (h : Ends x Q E) (he : x = .error e) : E e := by
  subst he
  exact h

theorem ok_of_bind (h : x >>= f = .ok b) : ∃ a, x = .ok a ∧ f a = .ok b := by
  cases x with
  | ok a => exact ⟨a, rfl, h⟩
  | error e => cases h

theorem ok_of_map {f : α → β} (h : x.map f = .ok b) : ∃ a, x = .ok a ∧ f a = b := by
  cases x with
  | ok a => exact ⟨a, rfl, Except.ok.inj h⟩
  | error e => cases h

theorem foldlM_cases {σ : Type} {f : σ → α → Except ε σ} {I : List α → σ → Prop}
    {S : List α → α → Prop}
    (hok : ∀ done a s, I done s → ¬S done a → ∃ s', f s a = .ok s' ∧ I (done ++ [a]) s')
    (herror : ∀ done a s, I done s → S done a → ∃ e, f s a = .error e) {init : σ}
    (hinit : I [] init) (l : List α) :
    ((∃ s, l.foldlM f init = .ok s ∧ I l s) ∧
        ∀ before a after, l = before ++ a :: after → ¬S before a) ∨
      ((∃ e, l.foldlM f init = .error e) ∧
        ∃ before a after, l = before ++ a :: after ∧ S before a) := by
  induction l using List.reverseRecOn with
  | nil => exact .inl ⟨⟨init, rfl, hinit⟩, fun before a after h => by simp at h⟩
  | append_singleton l a ih =>
    rw [List.foldlM_append]
    rcases ih with ⟨⟨s, hs, hI⟩, hnot⟩ | ⟨⟨e, he⟩, before, b, after, rfl, hstops⟩
    · rw [hs]
      simp only [List.foldlM_cons, List.foldlM_nil, bind_pure]
      by_cases hstops : S l a
      · exact .inr ⟨herror l a s hI hstops, l, a, [], rfl, hstops⟩
      · obtain ⟨s', hs', hI'⟩ := hok l a s hI hstops
        refine .inl ⟨⟨s', hs', hI'⟩, fun before b after hsplit => ?_⟩
        -- the element is the last one or one of those before
        rcases List.eq_nil_or_concat after with rfl | ⟨after, c, rfl⟩
        · obtain ⟨rfl, hb⟩ := List.append_inj' hsplit rfl
          cases hb
          exact hstops
        · rw [List.concat_eq_append, ← List.cons_append, ← List.append_assoc] at hsplit
          exact hnot before b after (List.append_inj' hsplit rfl).1
    · refine .inr ⟨⟨e, by rw [he]; rfl⟩, before, b, after ++ [a], by simp, hstops⟩

theorem mapM_cases (f : α → Except ε β) (l : List α) :
    ((∃ bs, l.mapM f = .ok bs) ∧ ∀ a ∈ l, ∃ b, f a = .ok b) ∨
      ∃ a ∈ l, ∃ e, f a = .error e ∧ l.mapM f = .error e := by
  induction l with
  | nil => exact .inl ⟨⟨[], rfl⟩, nofun⟩
  | cons a l ih =>
    rw [List.mapM_cons]
    cases hf : f a with
    | error e => exact .inr ⟨a, List.mem_cons_self, e, hf, rfl⟩
    | ok b =>
      rcases ih with ⟨⟨bs, hbs⟩, hall⟩ | ⟨a', ha', e, he, hl⟩
      · refine .inl ⟨⟨b :: bs, by rw [hbs]; rfl⟩, fun a' ha' => ?_⟩
        rcases List.mem_cons.mp ha' with rfl | ha'
        · exact ⟨b, hf⟩
        · exact hall a' ha'
      · exact .inr ⟨a', List.mem_cons_of_mem _ ha', e, he, by rw [hl]; rfl⟩

theorem mapM_mem {l : List α} {bs : List β} (h : l.mapM f = .ok bs) (hb : b ∈ bs) :
    ∃ a ∈ l, f a = .ok b := by
  induction l generalizing bs with
  | nil =>
    cases h
    cases hb
  | cons a l ih =>
    rw [List.mapM_cons] at h
    obtain ⟨b₁, hf, h⟩ := ok_of_bind h
    obtain ⟨bs₁, hl, h⟩ := ok_of_bind h
    cases h
    rcases List.mem_cons.mp hb with rfl | hb
    · exact ⟨a, List.mem_cons_self, hf⟩
    · obtain ⟨a', ha', hf'⟩ := ih hl hb
      exact ⟨a', List.mem_cons_of_mem _ ha', hf'⟩

theorem mem_of_mapM {l : List α} {bs : List β} (h : l.mapM f = .ok bs) {a : α} (ha : a ∈ l)
    (hb : f a = .ok b) : b ∈ bs := by
  induction l generalizing bs with
  | nil => cases ha
  | cons a₁ l ih =>
    rw [List.mapM_cons] at h
    obtain ⟨b₁, hf, h⟩ := ok_of_bind h
    obtain ⟨bs₁, hl, h⟩ := ok_of_bind h
    cases h
    rcases List.mem_cons.mp ha with rfl | ha
    · rw [hb] at hf
      cases hf
      exact List.mem_cons_self
    · exact List.mem_cons_of_mem _ (ih hl ha)

end Outcome

/-- How a stage leaves the state: to the next stage, ending the chain, or failing. -/
inductive Step (σ ε : Type) where
  | next (s : σ)
  | stop (s : σ)
  | fail (e : ε) (s : σ)

def Step.state {σ ε : Type} : Step σ ε → σ
  | .next s => s
  | .stop s => s
  | .fail _ s => s

section Chain

variable {π σ ε η : Type} (eval : π → σ → Except η (Step σ ε))

def chain : List π → σ → Except η (Step σ ε)
  | [], s => .ok (.next s)
  | p :: ps, s => do
    match ← eval p s with
    | .next s => chain ps s
    | .stop s => .ok (.stop s)
    | .fail e s => .ok (.fail e s)

theorem chain_singleton (p : π) (s : σ) : chain eval [p] s = eval p s := by
  unfold chain
  cases eval p s with
  | error e => rfl
  | ok r => cases r <;> rfl

/-- Every stage of the list was evaluated and handed the state on. -/
inductive Passes : List π → σ → σ → Prop where
  | nil (s : σ) : Passes [] s s
  | cons {p : π} {ps : List π} {s s₁ s₂ : σ} (head : eval p s = .ok (.next s₁))
      (tail : Passes ps s₁ s₂) : Passes (p :: ps) s s₂

/-- The stage `p` of the list is evaluated, in state `s₁`. -/
def Reaches (ps : List π) (s : σ) (p : π) (s₁ : σ) : Prop :=
  ∃ pre post, ps = pre ++ p :: post ∧ Passes eval pre s s₁

variable {eval} {p : π} {ps : List π} {s s₁ s₂ : σ}

theorem reaches_cons_iff {q : π} : Reaches eval (p :: ps) s q s₁ ↔
    (q = p ∧ s₁ = s) ∨ ∃ s', eval p s = .ok (.next s') ∧ Reaches eval ps s' q s₁ := by
  constructor
  · rintro ⟨pre, post, hps, hpre⟩
    cases hpre with
    | nil =>
      cases hps
      exact .inl ⟨rfl, rfl⟩
    | cons head tail =>
      cases hps
      exact .inr ⟨_, head, _, post, rfl, tail⟩
  · rintro (⟨rfl, rfl⟩ | ⟨s', head, pre, post, rfl, tail⟩)
    · exact ⟨[], ps, rfl, .nil _⟩
    · exact ⟨p :: pre, post, rfl, .cons head tail⟩

theorem chain_cases {r : Step σ ε} (h : chain eval ps s = .ok r) :
    (∃ s₂, r = .next s₂ ∧ Passes eval ps s s₂) ∨
      ∃ p s₁, Reaches eval ps s p s₁ ∧ eval p s₁ = .ok r ∧ ∀ s₂, r ≠ .next s₂ := by
  induction ps generalizing s with
  | nil =>
    cases h
    exact .inl ⟨s, rfl, .nil s⟩
  | cons p ps ih =>
    unfold chain at h
    cases he : eval p s with
    | error e =>
      rw [he] at h
      cases h
    | ok r₁ =>
      rw [he] at h
      cases r₁ with
      | next s' =>
        rcases ih h with ⟨s₂, hr, hp⟩ | ⟨q, s₁, hq, hs⟩
        · exact .inl ⟨s₂, hr, .cons he hp⟩
        · exact .inr ⟨q, s₁, reaches_cons_iff.mpr (.inr ⟨s', he, hq⟩), hs⟩
      | stop s' =>
        cases h
        exact .inr ⟨p, s, reaches_cons_iff.mpr (.inl ⟨rfl, rfl⟩), he, by simp⟩
      | fail e s' =>
        cases h
        exact .inr ⟨p, s, reaches_cons_iff.mpr (.inl ⟨rfl, rfl⟩), he, by simp⟩

theorem passes_of_chain (h : chain eval ps s = .ok (.next s₂)) : Passes eval ps s s₂ := by
  rcases chain_cases h with ⟨_, hn, hp⟩ | ⟨_, _, _, _, hn⟩
  · cases hn
    exact hp
  · exact absurd rfl (hn s₂)

theorem Passes.chain_eq (h : Passes eval ps s s₂) : chain eval ps s = .ok (.next s₂) := by
  induction h with
  | nil s => rfl
  | cons head tail ih =>
    unfold chain
    rw [head]
    exact ih

theorem Passes.split {ps qs : List π} (h : Passes eval (ps ++ qs) s s₂) :
    ∃ s₁, Passes eval ps s s₁ ∧ Passes eval qs s₁ s₂ := by
  induction ps generalizing s with
  | nil => exact ⟨s, .nil s, h⟩
  | cons p ps ih =>
    obtain ⟨⟩ | ⟨head, tail⟩ := h
    obtain ⟨s₁, hps, hqs⟩ := ih tail
    exact ⟨s₁, .cons head hps, hqs⟩

theorem Passes.invariant {I : σ → Prop} {ps : List π}
    (hstep : ∀ p ∈ ps, ∀ s s', I s → eval p s = .ok (.next s') → I s')
    (h : Passes eval ps s s₂) (hs : I s) : I s₂ := by
  induction h with
  | nil s => exact hs
  | cons head tail ih =>
    exact ih (fun p hp => hstep p (List.mem_cons_of_mem _ hp)) (hstep _ List.mem_cons_self _ _ hs head)

theorem Passes.of_option {α : Type} {o : Option α} {f : α → π}
    (h : Passes eval (o.map f).toList s s₂) :
    (o = none ∧ s₂ = s) ∨ ∃ a, o = some a ∧ eval (f a) s = .ok (.next s₂) := by
  cases o with
  | none =>
    cases h
    exact .inl ⟨rfl, rfl⟩
  | some a =>
    obtain ⟨⟩ | ⟨head, ⟨⟩⟩ := h
    exact .inr ⟨a, rfl, head⟩

theorem Passes.of_ite {c : Prop} [Decidable c] (h : Passes eval (if c then [p] else []) s s₂) :
    s₂ = s ∨ eval p s = .ok (.next s₂) := by
  split at h
  · obtain ⟨⟩ | ⟨head, ⟨⟩⟩ := h
    exact .inr head
  · cases h
    exact .inl rfl

variable {E : η → Prop}

theorem ends_chain_iff : Ends (chain eval ps s) (fun _ => True) E ↔
    ∀ p s₁, Reaches eval ps s p s₁ → Ends (eval p s₁) (fun _ => True) E := by
  induction ps generalizing s with
  | nil => simp [chain, Reaches]
  | cons p ps ih =>
    unfold chain
    rw [ends_bind]
    constructor
    · intro h q s₁ hq
      rcases reaches_cons_iff.mp hq with ⟨rfl, rfl⟩ | ⟨s', he, hq⟩
      · exact h.mono (fun _ _ _ => trivial) fun _ he => he
      · exact ih.mp (h.of_ok he) q s₁ hq
    · intro h
      refine (h p s (reaches_cons_iff.mpr (.inl ⟨rfl, rfl⟩))).mono ?_ fun _ he => he
      intro r he _
      cases r with
      | next s' => exact ih.mpr fun q s₁ hq => h q s₁ (reaches_cons_iff.mpr (.inr ⟨s', he, hq⟩))
      | stop s' => trivial
      | fail e s' => trivial

theorem chain_congr {eval' : π → σ → Except η (Step σ ε)}
    (h : ∀ p s₁, Reaches eval ps s p s₁ → eval' p s₁ = eval p s₁) :
    chain eval' ps s = chain eval ps s := by
  induction ps generalizing s with
  | nil => rfl
  | cons p ps ih =>
    unfold chain
    rw [h p s (reaches_cons_iff.mpr (.inl ⟨rfl, rfl⟩))]
    cases he : eval p s with
    | error e => rfl
    | ok r =>
      cases r with
      | next s' => exact ih fun q s₁ hq => h q s₁ (reaches_cons_iff.mpr (.inr ⟨s', he, hq⟩))
      | stop s' => rfl
      | fail e s' => rfl

/-- What the stages that are reached emit, in order. -/
def emitted {κ : Type} (eval : π → σ → Except η (Step σ ε)) (emit : π → σ → List κ) :
    List π → σ → List κ
  | [], _ => []
  | p :: ps, s => emit p s ++
    match eval p s with
    | .ok (.next s') => emitted eval emit ps s'
    | _ => []

theorem mem_emitted {κ : Type} {emit : π → σ → List κ} {c : κ} :
    c ∈ emitted eval emit ps s ↔ ∃ p s₁, Reaches eval ps s p s₁ ∧ c ∈ emit p s₁ := by
  induction ps generalizing s with
  | nil => simp [emitted, Reaches]
  | cons p ps ih =>
    rw [emitted, List.mem_append]
    constructor
    · rintro (hc | hc)
      · exact ⟨p, s, reaches_cons_iff.mpr (.inl ⟨rfl, rfl⟩), hc⟩
      · split at hc
        · next s' he =>
          obtain ⟨q, s₁, hq, hc⟩ := ih.mp hc
          exact ⟨q, s₁, reaches_cons_iff.mpr (.inr ⟨s', he, hq⟩), hc⟩
        · cases hc
    · rintro ⟨q, s₁, hq, hc⟩
      rcases reaches_cons_iff.mp hq with ⟨rfl, rfl⟩ | ⟨s', he, hq⟩
      · exact .inl hc
      · rw [he]
        exact .inr (ih.mpr ⟨q, s₁, hq, hc⟩)

theorem chain_invariant {Q : Step σ ε → Prop} (h : ∀ p ∈ ps, ∀ s, Q (.next s) → Ends (eval p s) Q E)
    (hs : Q (.next s)) : Ends (chain eval ps s) Q E := by
  induction ps generalizing s with
  | nil => exact hs
  | cons p ps ih =>
    unfold chain
    refine (h p (by simp) s hs).bind fun r _ hr => ?_
    cases r with
    | next s' => exact ih (fun q hq => h q (List.mem_cons_of_mem _ hq)) hr
    | stop s' => exact hr
    | fail e s' => exact hr

theorem ends_chain_append {ps qs : List π} {Q : Step σ ε → Prop} :
    Ends (chain eval (ps ++ qs) s) Q E ↔
      Ends (chain eval ps s) (fun r => match r with
        | .next s' => Ends (chain eval qs s') Q E
        | r => Q r) E := by
  induction ps generalizing s with
  | nil => exact Iff.rfl
  | cons p ps ih =>
    rw [List.cons_append, chain, chain, ends_bind, ends_bind]
    cases eval p s with
    | error e => exact Iff.rfl
    | ok r => cases r with
      | next s' => exact ih
      | stop s' => exact Iff.rfl
      | fail e s' => exact Iff.rfl

end Chain

end DnscryptProxy.Library
