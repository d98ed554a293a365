import DnscryptProxy.Dialing

/-! The rounds of `DNSExchange`: up to six queries at a time, and a choice among their responses
that is made as they arrive. `Best` says which response is held after some of them; it does not
mention their order. `exchange_rounds` is about the whole function, whose loop starts a second
round at most. -/

namespace DnscryptProxy

open Library

/-! ## The choice -/

def CertOption.Succeeds (o : CertOption) : Prop := ∃ msg, o.response = .ok msg

/-- The large queries are those that find out about fragments. -/
def CertOption.Labeled (o : CertOption) : Prop := o.priority = if o.fragmentsBlocked then 1 else 0

/-- The response that is held after `options`. -/
inductive Best (options : List CertOption) : Option CertOption → Prop where
  | none (failed : ∀ o ∈ options, ¬ o.Succeeds) : Best options none
  | large {best : CertOption} (mem : best ∈ options) (succeeds : best.Succeeds)
      (priority : best.priority = 0) : Best options (some best)
  | small {best : CertOption} (mem : best ∈ options) (succeeds : best.Succeeds)
      (priority : best.priority = 1)
      (least : ∀ o ∈ options, o.Succeeds → o.priority = 1 ∧ best.rtt ≤ o.rtt) :
      Best options (some best)

section Choice

variable {options options' seen : List CertOption} {best : Option CertOption} {err : Option GoError}
  {o : CertOption}

theorem CertOption.Labeled.priority_cases (h : o.Labeled) : o.priority = 0 ∨ o.priority = 1 := by
  unfold CertOption.Labeled at h
  rw [h]
  split
  · exact .inr rfl
  · exact .inl rfl

theorem CertOption.Labeled.blocked_iff (h : o.Labeled) :
    o.fragmentsBlocked = true ↔ o.priority = 1 := by
  unfold CertOption.Labeled at h
  cases hb : o.fragmentsBlocked <;> simp [h, hb]

theorem Best.of_mem_iff (h : ∀ o, o ∈ options ↔ o ∈ options') (hbest : Best options best) :
    Best options' best := by
  cases hbest with
  | none failed => exact .none fun o ho => failed o ((h o).mpr ho)
  | large mem succeeds priority => exact .large ((h _).mp mem) succeeds priority
  | small mem succeeds priority least =>
    exact .small ((h _).mp mem) succeeds priority fun o ho => least o ((h o).mpr ho)

theorem Best.snoc_failed (hbest : Best seen best) (ho : ¬ o.Succeeds) :
    Best (seen ++ [o]) best := by
  have hcases {o' : CertOption} (h : o' ∈ seen ++ [o]) : o' ∈ seen ∨ o' = o := by simpa using h
  cases hbest with
  | none failed =>
    refine .none fun o' ho' => ?_
    rcases hcases ho' with hmem | rfl
    · exact failed o' hmem
    · exact ho
  | large mem succeeds priority => exact .large (List.mem_append_left _ mem) succeeds priority
  | small mem succeeds priority least =>
    refine .small (List.mem_append_left _ mem) succeeds priority fun o' ho' hs => ?_
    rcases hcases ho' with hmem | rfl
    · exact least o' hmem hs
    · exact absurd hs ho

/-- The test for a better response. -/
def better (best : Option CertOption) (o : CertOption) : Bool :=
  best.all fun best => o.priority < best.priority ||
    (o.priority = best.priority && o.rtt < best.rtt)

theorem Best.snoc_small (hbest : Best seen best)
    (hheld : ∀ held, best = some held → held.priority = 1) (ho : o.Succeeds)
    (hpriority : o.priority = 1) : Best (seen ++ [o]) (if better best o then some o else best) := by
  have hcases {o' : CertOption} (h : o' ∈ seen ++ [o]) : o' ∈ seen ∨ o' = o := by simpa using h
  have hself : o ∈ seen ++ [o] := by simp
  cases hbest with
  | none failed =>
    refine .small hself ho hpriority fun o' ho' hs => ?_
    rcases hcases ho' with hmem | rfl
    · exact absurd hs (failed o' hmem)
    · exact ⟨hpriority, le_refl _⟩
  | large mem succeeds priority =>
    have hone := hheld _ rfl
    omega
  | @small held mem succeeds priority least =>
    have hiff : better (some held) o = true ↔ o.rtt < held.rtt := by
      simp [better, hpriority, priority]
    by_cases hfaster : o.rtt < held.rtt
    · rw [if_pos (hiff.mpr hfaster)]
      refine .small hself ho hpriority fun o' ho' hs => ?_
      rcases hcases ho' with hmem | rfl
      · obtain ⟨hp, hle⟩ := least o' hmem hs
        exact ⟨hp, le_trans (le_of_lt hfaster) hle⟩
      · exact ⟨hpriority, le_refl _⟩
    · rw [if_neg (mt hiff.mp hfaster)]
      refine .small (List.mem_append_left _ mem) succeeds priority fun o' ho' hs => ?_
      rcases hcases ho' with hmem | rfl
      · exact least o' hmem hs
      · exact ⟨hpriority, le_of_not_gt hfaster⟩

theorem receiveBest_failed {e : GoError} (h : o.response = .error e) :
    receiveBest best err (o :: options) = receiveBest best (some e) options := by
  rw [receiveBest, h]

theorem receiveBest_large (ho : o.Succeeds) (hpriority : o.priority = 0)
    (hheld : ∀ held, best = some held → held.priority = 1) :
    receiveBest best err (o :: options) = (some o, err) := by
  obtain ⟨msg, hmsg⟩ := ho
  have hbetter : better best o = true := by
    cases best with
    | none => rfl
    | some held => simp [better, hpriority, hheld held rfl]
  rw [receiveBest, hmsg]
  exact (if_pos hbetter).trans (if_pos hpriority)

theorem receiveBest_small (ho : o.Succeeds) (hpriority : o.priority = 1) :
    receiveBest best err (o :: options) =
      receiveBest (if better best o then some o else best) err options := by
  obtain ⟨msg, hmsg⟩ := ho
  have hne : ¬ o.priority = 0 := by omega
  rw [receiveBest, hmsg]
  by_cases hbetter : better best o = true
  · rw [if_pos hbetter]
    exact (if_pos hbetter).trans (if_neg hne)
  · rw [if_neg hbetter]
    exact if_neg hbetter

theorem receiveBest_best (hlabeled : ∀ o ∈ options, o.Labeled) (hbest : Best seen best)
    (hheld : ∀ held, best = some held → held.priority = 1) :
    Best (seen ++ options) (receiveBest best err options).1 := by
  induction options generalizing seen best err with
  | nil =>
    rw [List.append_nil]
    exact hbest
  | cons o options ih =>
    have hrest : ∀ o' ∈ options, o'.Labeled := fun o' h => hlabeled o' (List.mem_cons_of_mem _ h)
    rw [List.append_cons]
    cases hresponse : o.response with
    | error e =>
      have ho : ¬ o.Succeeds := by
        rintro ⟨msg, hmsg⟩
        rw [hresponse] at hmsg
        cases hmsg
      rw [receiveBest_failed hresponse]
      exact ih hrest (hbest.snoc_failed ho) hheld
    | ok msg =>
      have ho : o.Succeeds := ⟨msg, hresponse⟩
      rcases (hlabeled o List.mem_cons_self).priority_cases with hzero | hone
      · -- a response to a large query ends the loop
        rw [receiveBest_large ho hzero hheld]
        exact .large (by simp) ho hzero
      · rw [receiveBest_small ho hone]
        refine ih hrest (hbest.snoc_small hheld ho hone) fun held hsome => ?_
        split at hsome
        · cases hsome
          exact hone
        · exact hheld held hsome

theorem received_best {arrived : List CertOption} (hlabeled : ∀ o ∈ options, o.Labeled)
    (hperm : arrived.Perm options) : Best options (receiveBest none none arrived).1 := by
  have hbest : Best ([] ++ arrived) (receiveBest none none arrived).1 :=
    receiveBest_best (fun o ho => hlabeled o (hperm.mem_iff.mp ho)) (.none (by simp)) (by simp)
  exact hbest.of_mem_iff fun o => hperm.mem_iff

end Choice

/-! ## What a round returns -/

/-- The result of a round, by its responses alone. -/
structure Judges (options : List CertOption) (result : Except GoError (Msg × Time × Bool)) : Prop where
  fails_iff : (∃ e, result = .error e) ↔ ∀ o ∈ options, ¬ o.Succeeds
  returned : ∀ msg rtt blocked, result = .ok (msg, rtt, blocked) →
    ∃ o ∈ options, o.response = .ok msg ∧ o.rtt = rtt ∧ o.fragmentsBlocked = blocked
  blocked_iff : ∀ msg rtt blocked, result = .ok (msg, rtt, blocked) →
    (blocked = false ↔ ∃ o ∈ options, o.priority = 0 ∧ o.Succeeds)
  least : ∀ msg rtt, result = .ok (msg, rtt, true) → ∀ o ∈ options, o.Succeeds → rtt ≤ o.rtt

theorem certResult_some {best : CertOption} {err : Option GoError} {msg : Msg}
    (h : best.response = .ok msg) :
    certResult (some best, err) = .ok (msg, best.rtt, best.fragmentsBlocked) := by
  rw [certResult, h]
  rfl

section Rounds

variable {options : List CertOption} {err : Option GoError}

theorem judges_some {best : CertOption} (mem : best ∈ options) (succeeds : best.Succeeds)
    (hblocked : best.fragmentsBlocked = false ↔ ∃ o ∈ options, o.priority = 0 ∧ o.Succeeds)
    (hleast : best.fragmentsBlocked = true → ∀ o ∈ options, o.Succeeds → best.rtt ≤ o.rtt) :
    Judges options (certResult (some best, err)) := by
  obtain ⟨msg, hmsg⟩ := succeeds
  rw [certResult_some hmsg]
  refine ⟨iff_of_false ?_ fun h => h best mem ⟨msg, hmsg⟩, ?_, ?_, ?_⟩
  · rintro ⟨e, ⟨⟩⟩
  · rintro _ _ _ ⟨⟩
    exact ⟨best, mem, hmsg, rfl, rfl⟩
  · rintro _ _ _ ⟨⟩
    exact hblocked
  · intro msg' rtt heq
    obtain ⟨-, hrtt, htrue⟩ : msg = msg' ∧ best.rtt = rtt ∧ best.fragmentsBlocked = true := by
      simpa using heq
    exact hrtt ▸ hleast htrue

theorem Best.judges {best : Option CertOption} (hlabeled : ∀ o ∈ options, o.Labeled)
    (hbest : Best options best) : Judges options (certResult (best, err)) := by
  cases hbest with
  | none failed =>
    refine ⟨iff_of_true ⟨_, rfl⟩ failed, ?_, ?_, ?_⟩
    · rintro _ _ _ ⟨⟩
    · rintro _ _ _ ⟨⟩
    · rintro _ _ ⟨⟩
  | @large best mem succeeds priority =>
    have hblocked : best.fragmentsBlocked = false := by
      rw [← Bool.not_eq_true, (hlabeled best mem).blocked_iff]
      omega
    refine judges_some mem succeeds (iff_of_true hblocked ⟨best, mem, priority, succeeds⟩) ?_
    intro htrue
    rw [hblocked] at htrue
    cases htrue
  | @small best mem succeeds priority least =>
    have hblocked := (hlabeled best mem).blocked_iff.mpr priority
    refine judges_some mem succeeds (iff_of_false (by simp [hblocked]) ?_) fun _ o ho hs =>
      (least o ho hs).2
    rintro ⟨o, ho, hzero, hs⟩
    have hone := (least o ho hs).1
    omega

end Rounds

/-! ## The loop -/

section Exchange

variable (lib : DNSLibrary) (net : NetLibrary) (dialer : Dialer) (proto : NetProto)
  (serverAddress : Text) (query : Msg) (tryFragmentsSupport anonDirectCertFallback : Bool)

/-- One turn of the `for` of `DNSExchange`: its result, or nothing where the loop goes on. -/
def exchangeTurn (relay : Option DNSCryptRelay) (round : CertRound) :
    Except Panic (Option (Except GoError (Msg × Time × Bool)) × List NetOp) := do
  let (received, ops) ← certRound lib net dialer proto serverAddress query tryFragmentsSupport relay
    round
  if received.1.isSome then return (some (certResult received), ops)
  else if relay.isNone || !anonDirectCertFallback then return (some (certResult received), ops)
  else return (none, ops)

/-- The `for` of `DNSExchange`, with the relays of its turns. It has no bound of its own. -/
def exchangeLoop (rounds : Nat → CertRound) :
    Nat → Nat → Option DNSCryptRelay → Option (Except Panic (CertFetched × List (Option DNSCryptRelay)))
  | 0, _, _ => none
  | fuel + 1, i, relay =>
    match exchangeTurn lib net dialer proto serverAddress query tryFragmentsSupport
        anonDirectCertFallback relay (rounds i) with
    | .error p => some (.error p)
    | .ok (some result, ops) => some (.ok (⟨result, ops⟩, [relay]))
    | .ok (none, ops) =>
      (exchangeLoop rounds fuel (i + 1) none).map fun outcome =>
        outcome.map fun r => (⟨r.1.result, ops ++ r.1.ops⟩, relay :: r.2)

variable {lib net dialer proto serverAddress query tryFragmentsSupport anonDirectCertFallback}
  {relay : Option DNSCryptRelay} {round : CertRound}

theorem certOptions_labeled {options : List CertOption}
    (h : certOptions lib net dialer proto serverAddress query tryFragmentsSupport relay round =
      .ok options) : ∀ o ∈ options, o.Labeled := by
  intro o ho
  obtain ⟨padding, -, hoption⟩ := mapM_mem h ho
  unfold certOption at hoption
  dsimp only at hoption
  split at hoption
  · cases hoption
    rfl
  · obtain ⟨exchanged, -, hoption⟩ := ok_of_bind hoption
    cases hoption
    rfl

theorem certOption_ok (hquestion : query.question ≠ []) (padding : Nat × Bool) (i : Nat) :
    ∃ o, certOption lib net dialer proto serverAddress query relay round padding i = .ok o := by
  unfold certOption
  dsimp only
  split
  · exact ⟨_, rfl⟩
  · cases proto with
    | tcp => exact ⟨_, rfl⟩
    | udp =>
      obtain ⟨question, rest, hq⟩ := List.exists_cons_of_ne_nil hquestion
      have hpadded (id : UInt16) : certificateQuery .udp { query with id := id } padding.1 =
          .ok (padCertificateQuery { query with id := id } question.name padding.1) := by
        simp [certificateQuery, hq]
      rw [dnsExchange, hpadded]
      exact ⟨_, rfl⟩

theorem certOptions_ok (hquestion : query.question ≠ []) :
    ∃ options, certOptions lib net dialer proto serverAddress query tryFragmentsSupport relay round =
      .ok options := by
  rcases mapM_cases (fun option => certOption lib net dialer proto serverAddress query relay round
    option.1 option.2) (certPaddings tryFragmentsSupport).zipIdx with ⟨hok, -⟩ | ⟨option, -, e, he, -⟩
  · exact hok
  · obtain ⟨o, ho⟩ : ∃ o, certOption lib net dialer proto serverAddress query relay round option.1
        option.2 = .ok o := certOption_ok hquestion _ _
    rw [ho] at he
    cases he

theorem certRound_ok {received : Option CertOption × Option GoError} {ops : List NetOp}
    (h : certRound lib net dialer proto serverAddress query tryFragmentsSupport relay round =
      .ok (received, ops)) :
    ∃ options, certOptions lib net dialer proto serverAddress query tryFragmentsSupport relay round =
      .ok options ∧ Best options received.1 := by
  unfold certRound at h
  obtain ⟨options, hoptions, h⟩ := ok_of_bind h
  cases h
  exact ⟨options, hoptions, received_best (certOptions_labeled hoptions) (round.arrivals_perm _)⟩

theorem exchangeTurn_cases {outcome : Option (Except GoError (Msg × Time × Bool)) × List NetOp}
    (h : exchangeTurn lib net dialer proto serverAddress query tryFragmentsSupport
      anonDirectCertFallback relay round = .ok outcome) :
    ∃ options, certOptions lib net dialer proto serverAddress query tryFragmentsSupport relay round =
        .ok options ∧
      ((∃ result, outcome.1 = some result ∧ Judges options result) ∨
        outcome.1 = none ∧ relay ≠ none ∧ ∀ o ∈ options, ¬ o.Succeeds) := by
  unfold exchangeTurn at h
  obtain ⟨⟨received, ops⟩, hround, h⟩ := ok_of_bind h
  obtain ⟨options, hoptions, hbest⟩ := certRound_ok hround
  have hjudges : Judges options (certResult received) :=
    hbest.judges (certOptions_labeled hoptions)
  refine ⟨options, hoptions, ?_⟩
  dsimp only at h
  split at h
  · cases h
    exact .inl ⟨_, rfl, hjudges⟩
  · next hnone =>
    split at h
    · cases h
      exact .inl ⟨_, rfl, hjudges⟩
    · next hrelay =>
      cases h
      refine .inr ⟨rfl, ?_, ?_⟩
      · rintro rfl
        exact hrelay rfl
      · have hnone : received.1 = none := by simpa using hnone
        rw [hnone] at hbest
        cases hbest with
        | none failed => exact failed

theorem exchangeTurn_ok (hquestion : query.question ≠ []) :
    ∃ outcome, exchangeTurn lib net dialer proto serverAddress query tryFragmentsSupport
      anonDirectCertFallback relay round = .ok outcome := by
  obtain ⟨options, hoptions⟩ : ∃ options, certOptions lib net dialer proto serverAddress query
      tryFragmentsSupport relay round = .ok options := certOptions_ok hquestion
  unfold exchangeTurn certRound
  rw [hoptions]
  dsimp only [bind, Except.bind, pure, Except.pure]
  split
  · exact ⟨_, rfl⟩
  · split
    · exact ⟨_, rfl⟩
    · exact ⟨_, rfl⟩

section Loop

variable {rounds : Nat → CertRound} {fuel i : Nat} {ops : List NetOp}

theorem exchangeLoop_panics {p : Panic}
    (h : exchangeTurn lib net dialer proto serverAddress query tryFragmentsSupport
      anonDirectCertFallback relay (rounds i) = .error p) :
    exchangeLoop lib net dialer proto serverAddress query tryFragmentsSupport
      anonDirectCertFallback rounds (fuel + 1) i relay = some (.error p) := by
  rw [exchangeLoop, h]

theorem exchangeLoop_returns {result : Except GoError (Msg × Time × Bool)}
    (h : exchangeTurn lib net dialer proto serverAddress query tryFragmentsSupport
      anonDirectCertFallback relay (rounds i) = .ok (some result, ops)) :
    exchangeLoop lib net dialer proto serverAddress query tryFragmentsSupport
      anonDirectCertFallback rounds (fuel + 1) i relay = some (.ok (⟨result, ops⟩, [relay])) := by
  rw [exchangeLoop, h]

theorem exchangeLoop_again
    (h : exchangeTurn lib net dialer proto serverAddress query tryFragmentsSupport
      anonDirectCertFallback relay (rounds i) = .ok (none, ops)) :
    exchangeLoop lib net dialer proto serverAddress query tryFragmentsSupport
        anonDirectCertFallback rounds (fuel + 1) i relay =
      (exchangeLoop lib net dialer proto serverAddress query tryFragmentsSupport
        anonDirectCertFallback rounds fuel (i + 1) none).map fun outcome =>
          outcome.map fun r => (⟨r.1.result, ops ++ r.1.ops⟩, relay :: r.2) := by
  rw [exchangeLoop, h]

theorem exchangeLoop_direct (rounds : Nat → CertRound) (fuel i : Nat) :
    ∃ outcome, exchangeLoop lib net dialer proto serverAddress query tryFragmentsSupport
        anonDirectCertFallback rounds (fuel + 1) i none = some outcome ∧
      (query.question ≠ [] → ∃ returned, outcome = .ok returned) ∧
      ∀ fetched relays, outcome = .ok (fetched, relays) → relays = [none] ∧
        ∃ options, certOptions lib net dialer proto serverAddress query tryFragmentsSupport none
          (rounds i) = .ok options ∧ Judges options fetched.result := by
  cases hturn : exchangeTurn lib net dialer proto serverAddress query tryFragmentsSupport
      anonDirectCertFallback none (rounds i) with
  | error p =>
    refine ⟨_, exchangeLoop_panics hturn, fun hquestion => ?_, by simp⟩
    obtain ⟨outcome, hok⟩ := exchangeTurn_ok hquestion
    rw [hturn] at hok
    cases hok
  | ok turn =>
    obtain ⟨result, ops⟩ := turn
    obtain ⟨options, hoptions, hcase⟩ := exchangeTurn_cases hturn
    rcases hcase with ⟨result, rfl, hjudges⟩ | ⟨-, hrelay, -⟩
    · refine ⟨_, exchangeLoop_returns hturn, fun _ => ⟨_, rfl⟩, ?_⟩
      rintro _ _ ⟨⟩
      exact ⟨rfl, options, hoptions, hjudges⟩
    · exact absurd rfl hrelay

theorem exchangeTurn_of_round (anonDirectCertFallback : Bool)
    {received : Option CertOption × Option GoError}
    (h : certRound lib net dialer proto serverAddress query tryFragmentsSupport relay round =
      .ok (received, ops)) :
    exchangeTurn lib net dialer proto serverAddress query tryFragmentsSupport
        anonDirectCertFallback relay round =
      .ok (if received.1.isSome || relay.isNone || !anonDirectCertFallback
        then some (certResult received) else none, ops) := by
  rw [exchangeTurn, h]
  dsimp only [bind, Except.bind]
  cases received.1.isSome <;> cases relay.isNone <;> cases anonDirectCertFallback <;> rfl

theorem exchangeTurn_of_panic {p : Panic}
    (h : certRound lib net dialer proto serverAddress query tryFragmentsSupport relay round =
      .error p) :
    exchangeTurn lib net dialer proto serverAddress query tryFragmentsSupport
      anonDirectCertFallback relay round = .error p := by
  rw [exchangeTurn, h]
  rfl

theorem exchangeLoop_eq_tries {rounds : Nat → CertRound} (fuel : Nat)
    {outcome : Except Panic (CertFetched × List (Option DNSCryptRelay))}
    (h : exchangeLoop lib net dialer proto serverAddress query tryFragmentsSupport
      anonDirectCertFallback rounds (fuel + 2) 0 relay = some outcome) :
    outcome.map Prod.fst = dnsExchangeTries lib net dialer proto serverAddress query
      tryFragmentsSupport anonDirectCertFallback relay (rounds 0) (rounds 1) := by
  unfold dnsExchangeTries
  cases hfirst : certRound lib net dialer proto serverAddress query tryFragmentsSupport relay
      (rounds 0) with
  | error p =>
    cases (exchangeLoop_panics (exchangeTurn_of_panic hfirst)).symm.trans h
    rfl
  | ok round =>
    obtain ⟨received, ops⟩ := round
    have hturn := exchangeTurn_of_round anonDirectCertFallback hfirst
    dsimp only [bind, Except.bind]
    split at hturn
    · next hends =>
      cases (exchangeLoop_returns hturn).symm.trans h
      rw [if_pos hends]
      rfl
    · next hends =>
      rw [exchangeLoop_again hturn] at h
      rw [if_neg hends]
      cases hsecond : certRound lib net dialer proto serverAddress query tryFragmentsSupport none
          (rounds 1) with
      | error p =>
        rw [exchangeLoop_panics (exchangeTurn_of_panic hsecond)] at h
        cases h
        rfl
      | ok round =>
        obtain ⟨received', more⟩ := round
        have hdirect := exchangeTurn_of_round anonDirectCertFallback hsecond
        rw [if_pos (by simp)] at hdirect
        rw [exchangeLoop_returns hdirect] at h
        cases h
        rfl

end Loop

/-- **A round of `DNSExchange`** returns what its responses say, in whatever order they arrive,
and the loop ends after it or after one more without the relay, as `dnsExchangeTries` has it. -/
theorem exchange_rounds (rounds : Nat → CertRound) (fuel : Nat) :
    (∀ options arrived : List CertOption, (∀ o ∈ options, o.Labeled) → arrived.Perm options →
      Judges options (certResult (receiveBest none none arrived))) ∧
    ∃ outcome, exchangeLoop lib net dialer proto serverAddress query tryFragmentsSupport
        anonDirectCertFallback rounds (fuel + 2) 0 relay = some outcome ∧
      outcome.map Prod.fst = dnsExchangeTries lib net dialer proto serverAddress query
        tryFragmentsSupport anonDirectCertFallback relay (rounds 0) (rounds 1) ∧
      (query.question ≠ [] → ∃ returned, outcome = .ok returned) ∧
      ∀ fetched relays, outcome = .ok (fetched, relays) →
        ∃ options, certOptions lib net dialer proto serverAddress query tryFragmentsSupport relay
            (rounds 0) = .ok options ∧
          (relays = [relay] ∧ Judges options fetched.result ∨
            relays = [relay, none] ∧ relay ≠ none ∧ (∀ o ∈ options, ¬ o.Succeeds) ∧
              ∃ options', certOptions lib net dialer proto serverAddress query tryFragmentsSupport
                  none (rounds 1) = .ok options' ∧ Judges options' fetched.result) := by
  refine ⟨fun options arrived hlabeled hperm => (received_best hlabeled hperm).judges hlabeled, ?_⟩
  cases hfirst : exchangeTurn lib net dialer proto serverAddress query tryFragmentsSupport
      anonDirectCertFallback relay (rounds 0) with
  | error p =>
    refine ⟨_, exchangeLoop_panics hfirst, exchangeLoop_eq_tries fuel (exchangeLoop_panics hfirst),
      fun hquestion => ?_, by simp⟩
    obtain ⟨outcome, hok⟩ := exchangeTurn_ok hquestion
    rw [hfirst] at hok
    cases hok
  | ok turn =>
    obtain ⟨result, ops⟩ := turn
    obtain ⟨options, hoptions, hcase⟩ := exchangeTurn_cases hfirst
    rcases hcase with ⟨result, rfl, hjudges⟩ | ⟨hnone, hrelay, hfailed⟩
    · refine ⟨_, exchangeLoop_returns hfirst,
        exchangeLoop_eq_tries fuel (exchangeLoop_returns hfirst), fun _ => ⟨_, rfl⟩, ?_⟩
      rintro _ _ ⟨⟩
      exact ⟨options, hoptions, .inl ⟨rfl, hjudges⟩⟩
    · cases hnone
      obtain ⟨outcome, hloop, hreturns, hsecond⟩ := exchangeLoop_direct rounds fuel 1
      have hagain := (exchangeLoop_again hfirst).trans (congrArg _ hloop)
      refine ⟨_, hagain, exchangeLoop_eq_tries fuel hagain, ?_, ?_⟩
      · intro hquestion
        obtain ⟨returned, rfl⟩ := hreturns hquestion
        exact ⟨_, rfl⟩
      · intro fetched relays heq
        obtain ⟨⟨fetched', relays'⟩, rfl, hmap⟩ := ok_of_map heq
        cases hmap
        obtain ⟨rfl, options', hoptions', hjudges⟩ := hsecond fetched' relays' rfl
        exact ⟨options, hoptions, .inr ⟨rfl, hrelay, hfailed, options', hoptions', hjudges⟩⟩

end Exchange

end DnscryptProxy
