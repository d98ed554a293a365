import DnscryptProxy.IPCache
import DnscryptProxy.Library.Selection

/-! How `resolveAndUpdateCache` finds the address of a host: from the system's resolver, from the
bootstrap resolvers over either protocol, and from either family of addresses. An attempt counts
as a success when it ends without an error, whether or not it has an address.

* `address_kept_iff`: when a lookup that returns no error leaves an address, and none is lost.
* `kept_for_grace_iff`: an expired address that is kept because all resolvers fail is not kept
  for the grace period, but for as long as an address that was found. -/

namespace DnscryptProxy

open Library

/-! ## Resolvers -/

def systemResolverIPTTL : Time := 24 * 60 * minute

/-- `rand.Intn`, one draw -/
structure Intn where
  intn : Nat → Nat
  intn_lt : ∀ n, 0 < n → intn n < n

def Intn.pick {α : Type} (rand : Intn) (l : List α) : Option α := l[rand.intn l.length]?

/-- The settings of the transport that the resolvers depend on. -/
structure ResolvingTransport extends XTransport where
  useIPv4 : Bool
  useIPv6 : Bool
  bootstrapResolvers : List Text

/-- A bootstrap resolver, by its position in the list, and the protocol with which it is asked. -/
abbrev ResolverAttempt := NetProto × Nat

/-- What the resolvers answer during one call for a host, and what is drawn. -/
structure Answers where
  lookupHost : Except GoError (List Text)
  lookupRand : Intn
  exchange : ResolverAttempt → UInt16 → Except GoError Msg
  exchangeRand : ResolverAttempt → UInt16 → Intn

/-- The address in a record, where a record without data has none. -/
def RR.resolvedIP (rr : RR) : Option IP :=
  match rr.data with
  | .a ip | .aaaa ip => if ip = [] then none else some ip
  | _ => none

section Resolve

variable (x : ResolvingTransport) (answers : Answers)

/-- The addresses of the families in use. With both, an IPv4 address stands there twice. -/
def systemIPs (foundIPs : List Text) : List IP :=
  foundIPs.flatMap fun text =>
    match x.net.parseIP text with
    | none => []
    | some foundIP =>
      (if x.useIPv4 && foundIP.to4.isSome then [foundIP] else []) ++
        (if x.useIPv6 && foundIP.to16.isSome then [foundIP] else [])

def resolveUsingSystem : Resolved :=
  match answers.lookupHost with
  | .error e => ⟨none, systemResolverIPTTL, some e⟩
  | .ok foundIPs => ⟨answers.lookupRand.pick (systemIPs x foundIPs), systemResolverIPTTL, none⟩

def askResolver (attempt : ResolverAttempt) (qtype : UInt16) :
    Except GoError (Option (Option IP × Time)) :=
  match answers.exchange attempt qtype with
  | .error e => .error e
  | .ok msg =>
    let found := (answers.exchangeRand attempt qtype).pick
      (msg.answer.filter fun answer => answer.rrtype = qtype)
    .ok (found.map fun answer => (answer.resolvedIP, answer.ttl.toNat * second))

/-- The second half of `resolveUsingResolver`, with the error of the first. -/
def resolveIPv6 (attempt : ResolverAttempt) (err : Option GoError) : Resolved :=
  if x.useIPv6 then
    match askResolver answers attempt typeAAAA with
    | .ok (some (ip, ttl)) => ⟨ip, ttl, none⟩
    | .ok none => ⟨none, 0, none⟩
    | .error e => ⟨none, 0, some e⟩
  else ⟨none, 0, err⟩

def resolveUsingResolver (attempt : ResolverAttempt) : Resolved :=
  match if x.useIPv4 then askResolver answers attempt typeA else .ok none with
  | .ok (some (ip, ttl)) => ⟨ip, ttl, none⟩
  | .ok none => resolveIPv6 x answers attempt none
  | .error e => resolveIPv6 x answers attempt (some e)

/-- What the loop of `resolveUsingResolvers` may get. -/
def resolveUsingResolvers (proto : NetProto) : List Resolved :=
  (List.range x.bootstrapResolvers.length).map fun i => resolveUsingResolver x answers (proto, i)

def resolvers : Resolvers := ⟨resolveUsingSystem x answers, resolveUsingResolvers x answers⟩

/-- The cache is read at the time `now` and written at the time `later`. -/
def resolveAndUpdateCache (now later : Time) (host : Text) (cachedIPs : CachedIPs) :
    CachedIPs × Option GoError :=
  match outdatedAddress x.toXTransport now host cachedIPs with
  | none => (cachedIPs, none)
  | some cachedIP =>
    match savedAddress x.toXTransport cachedIP (resolvers x answers) with
    | none => (cachedIPs, (lookUp x.toXTransport (resolvers x answers)).err)
    | some (ip, ttl) => (saveCachedIP later host ip ttl cachedIPs, none)

/-! ## Successes without an address -/

/-- An attempt that ends without an error and without an address. -/
def Resolved.Silent (resolved : Resolved) : Prop := resolved.err = none ∧ resolved.ip = none

/-- The system's resolver answers, but with no address of a family in use. -/
def SystemSilent : Prop :=
  ∃ foundIPs, answers.lookupHost = .ok foundIPs ∧
    ∀ text ∈ foundIPs, ∀ ip, x.net.parseIP text = some ip →
      x.useIPv6 = false ∧ (x.useIPv4 = true → ip.to4 = none)

def ResolverSilent (attempt : ResolverAttempt) : Prop :=
  (x.useIPv4 = true ∧ ∃ ttl, askResolver answers attempt typeA = .ok (some (none, ttl))) ∨
    ((x.useIPv4 = true → ∀ found, askResolver answers attempt typeA ≠ .ok (some found)) ∧
      ((x.useIPv6 = true ∧
          ∃ found, askResolver answers attempt typeAAAA = .ok found ∧ found.bind Prod.fst = none) ∨
        (x.useIPv6 = false ∧
          (x.useIPv4 = true → askResolver answers attempt typeA = .ok none))))

/-- The bootstrap resolvers in the order in which they are asked. -/
def attempts : List ResolverAttempt :=
  (if x.mainProto = .tcp then [.tcp, .udp] else [.udp, .tcp]).flatMap fun proto =>
    (List.range x.bootstrapResolvers.length).map fun i => (proto, i)

/-- What the loops over protocols and bootstrap resolvers end with. -/
def bootstrapped : Resolved := firstSuccess ((attempts x).map (resolveUsingResolver x answers))

def Fails (attempt : ResolverAttempt) : Prop := (resolveUsingResolver x answers attempt).err ≠ none

/-- The first bootstrap resolver that does not fail has no address, or there is none to ask. -/
def BootstrapSilent : Prop :=
  x.bootstrapResolvers = [] ∨ UpTo (Fails x answers) (ResolverSilent x answers) (attempts x)

/-- The resolver that ends the lookup has no address. -/
def FindsNothing : Prop :=
  if x.ignoreSystemDNS then
    BootstrapSilent x answers ∨
      (x.bootstrapResolvers ≠ [] ∧ (∀ attempt ∈ attempts x, Fails x answers attempt) ∧
        SystemSilent x answers)
  else
    SystemSilent x answers ∨
      ((∃ e, answers.lookupHost = .error e) ∧ BootstrapSilent x answers)

variable {x answers}

theorem Intn.pick_eq_none {α : Type} (rand : Intn) (l : List α) : rand.pick l = none ↔ l = [] := by
  unfold Intn.pick
  rw [List.getElem?_eq_none_iff]
  cases l with
  | nil => simp
  | cons a l =>
    have hlt := rand.intn_lt (a :: l).length (by simp)
    simp only [reduceCtorEq, iff_false, not_le]
    exact hlt

theorem mem_systemIPs {foundIPs : List Text} {ip : IP} :
    ip ∈ systemIPs x foundIPs ↔ (∃ text ∈ foundIPs, x.net.parseIP text = some ip) ∧
      (x.useIPv6 = true ∨ (x.useIPv4 = true ∧ ip.to4.isSome = true)) := by
  rw [systemIPs, List.mem_flatMap, ← exists_and_right]
  refine exists_congr fun text => ?_
  rw [and_assoc]
  refine and_congr_right fun _ => ?_
  cases hparse : x.net.parseIP text with
  | none => simp
  | some foundIP =>
    have hto16 : foundIP.to16.isSome = true := by
      simp [IP.to16, x.net.parseIP_length text foundIP hparse]
    have hmem (c : Bool) : ip ∈ (if c then [foundIP] else []) ↔ foundIP = ip ∧ c = true := by
      cases c <;> simp [eq_comm]
    rw [List.mem_append, hmem, hmem, hto16, Bool.and_true, Bool.and_eq_true, Option.some_inj,
      ← and_or_left, or_comm]
    refine and_congr_right fun heq => ?_
    rw [heq]

theorem systemIPs_eq_nil {foundIPs : List Text} : systemIPs x foundIPs = [] ↔
    ∀ text ∈ foundIPs, ∀ ip, x.net.parseIP text = some ip →
      x.useIPv6 = false ∧ (x.useIPv4 = true → ip.to4 = none) := by
  rw [List.eq_nil_iff_forall_not_mem]
  simp only [mem_systemIPs]
  constructor
  · intro h text htext ip hparse
    obtain ⟨h6, h4⟩ := not_or.mp fun htaken => h ip ⟨⟨text, htext, hparse⟩, htaken⟩
    refine ⟨Bool.eq_false_iff.mpr h6, fun huse => ?_⟩
    exact Option.not_isSome_iff_eq_none.mp fun hto4 => h4 ⟨huse, hto4⟩
  · rintro h ip ⟨⟨text, htext, hparse⟩, h6 | ⟨h4, hto4⟩⟩
    · rw [(h text htext ip hparse).1] at h6
      cases h6
    · rw [(h text htext ip hparse).2 h4] at hto4
      cases hto4

theorem resolveUsingSystem_silent : (resolveUsingSystem x answers).Silent ↔ SystemSilent x answers := by
  unfold resolveUsingSystem Resolved.Silent SystemSilent
  cases answers.lookupHost with
  | error e => simp
  | ok foundIPs => simp [Intn.pick_eq_none, systemIPs_eq_nil]

theorem resolveUsingSystem_err :
    (resolveUsingSystem x answers).err ≠ none ↔ ∃ e, answers.lookupHost = .error e := by
  unfold resolveUsingSystem
  cases answers.lookupHost <;> simp

theorem resolveIPv6_silent (attempt : ResolverAttempt) (err : Option GoError) :
    (resolveIPv6 x answers attempt err).Silent ↔
      (x.useIPv6 = true ∧
          ∃ found, askResolver answers attempt typeAAAA = .ok found ∧ found.bind Prod.fst = none) ∨
        (x.useIPv6 = false ∧ err = none) := by
  unfold resolveIPv6 Resolved.Silent
  cases x.useIPv6 with
  | false => simp
  | true => rcases askResolver answers attempt typeAAAA with e | _ | ⟨ip, ttl⟩ <;> simp

theorem resolveUsingResolver_silent (attempt : ResolverAttempt) :
    (resolveUsingResolver x answers attempt).Silent ↔ ResolverSilent x answers attempt := by
  unfold resolveUsingResolver ResolverSilent
  cases x.useIPv4 with
  | false => simp [resolveIPv6_silent]
  | true =>
    rcases askResolver answers attempt typeA with e | _ | ⟨ip, ttl⟩
    · simp [resolveIPv6_silent]
    · simp [resolveIPv6_silent]
    · simp [Resolved.Silent]

theorem firstSuccess_cons (resolved : Resolved) (others : List Resolved) :
    firstSuccess (resolved :: others) =
      if resolved.err = none ∨ others = [] then resolved else firstSuccess others := by
  cases others with
  | nil => rw [if_pos (.inr rfl), firstSuccess]
  | cons other others => simp [firstSuccess]

theorem firstSuccess_silent (l : List Resolved) : (firstSuccess l).Silent ↔
    l = [] ∨ UpTo (fun resolved => resolved.err ≠ none) Resolved.Silent l := by
  induction l with
  | nil => simp [firstSuccess, Resolved.Silent]
  | cons resolved others ih =>
    rw [firstSuccess_cons, UpTo]
    by_cases herr : resolved.err = none
    · simp [herr]
    · have hnot : ¬resolved.Silent := fun h => herr h.1
      by_cases hothers : others = []
      · simp [hothers, hnot, UpTo]
      · simp [herr, hothers, hnot, ih]

theorem firstSuccess_err (l : List Resolved) :
    (firstSuccess l).err ≠ none ↔ l ≠ [] ∧ ∀ resolved ∈ l, resolved.err ≠ none := by
  induction l with
  | nil => simp [firstSuccess]
  | cons resolved others ih =>
    rw [firstSuccess_cons]
    by_cases herr : resolved.err = none
    · simp [herr]
    · by_cases hothers : others = []
      · simp [hothers]
      · rw [if_neg (not_or.mpr ⟨herr, hothers⟩), ih]
        simp [herr, hothers]

theorem firstSuccess_append {l l' : List Resolved} (hl : l ≠ []) (hl' : l' ≠ []) :
    firstSuccess [firstSuccess l, firstSuccess l'] = firstSuccess (l ++ l') := by
  induction l with
  | nil => contradiction
  | cons resolved others ih =>
    rw [List.cons_append, firstSuccess_cons resolved (others ++ l'), firstSuccess_cons resolved others]
    by_cases herr : resolved.err = none
    · rw [if_pos (.inl herr), if_pos (.inl herr), firstSuccess_cons, if_pos (.inl herr)]
    · have hlater : ¬(resolved.err = none ∨ others ++ l' = []) := by simp [herr, hl']
      rw [if_neg hlater]
      by_cases hothers : others = []
      · rw [if_pos (.inr hothers), firstSuccess_cons, if_neg (by simp [herr]), hothers]
        rfl
      · rw [if_neg (not_or.mpr ⟨herr, hothers⟩), ih hothers]

theorem attempts_eq_nil : attempts x = [] ↔ x.bootstrapResolvers = [] := by
  unfold attempts
  split <;> simp

theorem bootstrapped_eq : firstSuccess
    ((if x.mainProto = .tcp then [.tcp, .udp] else [.udp, .tcp] : List NetProto).map fun proto =>
      firstSuccess ((resolvers x answers).bootstrap proto)) = bootstrapped x answers := by
  have hloops (proto proto' : NetProto) :
      firstSuccess [firstSuccess (resolveUsingResolvers x answers proto),
          firstSuccess (resolveUsingResolvers x answers proto')] =
        firstSuccess (([proto, proto'].flatMap fun proto =>
          (List.range x.bootstrapResolvers.length).map fun i => (proto, i)).map
            (resolveUsingResolver x answers)) := by
    by_cases hnone : x.bootstrapResolvers = []
    · simp [resolveUsingResolvers, hnone, firstSuccess]
    · have hne (proto : NetProto) : resolveUsingResolvers x answers proto ≠ [] := by
        simp [resolveUsingResolvers, hnone]
      rw [firstSuccess_append (hne proto) (hne proto')]
      simp [resolveUsingResolvers, Function.comp_def]
  unfold bootstrapped attempts
  split
  · exact hloops .tcp .udp
  · exact hloops .udp .tcp

theorem bootstrapped_silent : (bootstrapped x answers).Silent ↔ BootstrapSilent x answers := by
  rw [bootstrapped, firstSuccess_silent, upTo_map, List.map_eq_nil_iff, attempts_eq_nil,
    BootstrapSilent]
  simp only [resolveUsingResolver_silent]
  rfl

theorem bootstrapped_err : (bootstrapped x answers).err ≠ none ↔
    x.bootstrapResolvers ≠ [] ∧ ∀ attempt ∈ attempts x, Fails x answers attempt := by
  rw [bootstrapped, firstSuccess_err, List.forall_mem_map, Ne, List.map_eq_nil_iff, attempts_eq_nil]
  rfl

theorem lookUp_eq (x : ResolvingTransport) (answers : Answers) :
    lookUp x.toXTransport (resolvers x answers) =
      if x.ignoreSystemDNS then
        if (bootstrapped x answers).err = none then bootstrapped x answers
        else resolveUsingSystem x answers
      else if (resolveUsingSystem x answers).err = none then resolveUsingSystem x answers
      else bootstrapped x answers := by
  unfold lookUp
  rw [bootstrapped_eq]
  cases x.ignoreSystemDNS with
  | true => cases h : (bootstrapped x answers).err <;> simp [h, resolvers]
  | false => cases h : (resolveUsingSystem x answers).err <;> simp [h, resolvers]

theorem silent_fallback (first second : Resolved) :
    (if first.err = none then first else second).Silent ↔
      first.Silent ∨ (first.err ≠ none ∧ second.Silent) := by
  by_cases herr : first.err = none
  · simp [herr]
  · have hnot : ¬first.Silent := fun h => herr h.1
    simp [herr, hnot]

theorem lookUp_silent :
    (lookUp x.toXTransport (resolvers x answers)).Silent ↔ FindsNothing x answers := by
  rw [lookUp_eq, FindsNothing]
  split
  · rw [silent_fallback, bootstrapped_silent, bootstrapped_err, resolveUsingSystem_silent, and_assoc]
  · rw [silent_fallback, bootstrapped_silent, resolveUsingSystem_err, resolveUsingSystem_silent]

/-! ## The cache -/

variable {now later : Time} {host : Text} {cachedIPs : CachedIPs}

variable (now host cachedIPs) in
/-- Nothing was cached for the host, or what was cached has expired. -/
def Outdated : Prop :=
  (loadCachedIP now host cachedIPs).1 = none ∨ (loadCachedIP now host cachedIPs).2 = true

theorem outdatedAddress_of_outdated (hproxy : x.proxyDialer = false)
    (hhttp : x.httpProxyFunction = false) (hhost : x.parseIP host = none)
    (h : Outdated now host cachedIPs) :
    outdatedAddress x.toXTransport now host cachedIPs = some (loadCachedIP now host cachedIPs).1 := by
  unfold outdatedAddress
  rw [hproxy, hhttp, hhost]
  rcases h with h | h <;> simp [h]

theorem outdatedAddress_of_not_outdated (h : ¬Outdated now host cachedIPs) :
    outdatedAddress x.toXTransport now host cachedIPs = none := by
  obtain ⟨hcached, hexpired⟩ := not_or.mp h
  unfold outdatedAddress
  simp [Option.isSome_iff_ne_none.mpr hcached, hexpired]

theorem savedAddress_of_success {cachedIP : Option IP} {outcomes : Resolvers}
    (h : (lookUp x.toXTransport outcomes).err = none) :
    ∃ ttl, savedAddress x.toXTransport cachedIP outcomes =
      some ((lookUp x.toXTransport outcomes).ip, ttl) := by
  unfold savedAddress
  simp only [h]
  exact ⟨_, rfl⟩

theorem savedAddress_of_failure {cachedIP : Option IP} {outcomes : Resolvers} {e : GoError}
    (h : (lookUp x.toXTransport outcomes).err = some e) :
    savedAddress x.toXTransport cachedIP outcomes =
      cachedIP.map fun ip => (some ip, expiredCachedIPGraceTTL) := by
  unfold savedAddress
  cases cachedIP <;> simp only [h] <;> rfl

theorem loadCachedIP_saveCachedIP (t : Time) (ip : Option IP) (ttl : Time) :
    (loadCachedIP t host (saveCachedIP later host ip ttl cachedIPs)).1 = ip := by
  unfold loadCachedIP saveCachedIP
  rw [Function.update_self]

theorem loadCachedIP_time (t t' : Time) :
    (loadCachedIP t host cachedIPs).1 = (loadCachedIP t' host cachedIPs).1 := by
  unfold loadCachedIP
  cases cachedIPs host <;> rfl

end Resolve

/-- Without a proxy and for a name: a lookup that returns no error leaves an address for the host,
and does not lose one that was there, unless nothing usable was cached and the resolver that ends
the lookup answers without an address. -/
theorem address_kept_iff {x : ResolvingTransport} {answers : Answers} {now later : Time}
    {host : Text} {cachedIPs : CachedIPs} (hproxy : x.proxyDialer = false)
    (hhttp : x.httpProxyFunction = false) (hhost : x.parseIP host = none) :
    (((resolveAndUpdateCache x answers now later host cachedIPs).2 = none →
        ∀ t, (loadCachedIP t host
          (resolveAndUpdateCache x answers now later host cachedIPs).1).1 ≠ none) ∧
      ((loadCachedIP now host cachedIPs).1 ≠ none →
        ∀ t, (loadCachedIP t host
          (resolveAndUpdateCache x answers now later host cachedIPs).1).1 ≠ none)) ↔
      ¬(Outdated now host cachedIPs ∧ FindsNothing x answers) := by
  rw [← lookUp_silent, resolveAndUpdateCache]
  by_cases houtdated : Outdated now host cachedIPs
  · rw [outdatedAddress_of_outdated hproxy hhttp hhost houtdated]
    dsimp only
    cases herr : (lookUp x.toXTransport (resolvers x answers)).err with
    | none =>
      obtain ⟨ttl, hsaved⟩ := savedAddress_of_success herr
      rw [hsaved]
      simp only [loadCachedIP_saveCachedIP, houtdated, Resolved.Silent, herr, true_and]
      exact ⟨fun h => h.1 trivial 0, fun h => ⟨fun _ _ => h, fun _ _ => h⟩⟩
    | some e =>
      have hnot : ¬(lookUp x.toXTransport (resolvers x answers)).Silent := by
        simp [Resolved.Silent, herr]
      rw [savedAddress_of_failure herr]
      cases hcached : (loadCachedIP now host cachedIPs).1 with
      | none => simp [hnot]
      | some ip => simp [hnot, loadCachedIP_saveCachedIP]
  · rw [outdatedAddress_of_not_outdated houtdated]
    have hcached := (not_or.mp houtdated).1
    refine iff_of_true ?_ fun h => houtdated h.1
    have hkept (t : Time) : (loadCachedIP t host cachedIPs).1 ≠ none :=
      loadCachedIP_time t now ▸ hcached
    exact ⟨fun _ => hkept, fun _ => hkept⟩

/-! ## Failures -/

section Grace

variable {x : ResolvingTransport} {answers : Answers} {now later : Time} {host : Text}
  {cachedIPs : CachedIPs} {ip : IP}

variable (x host) in
/-- No resolver is asked about the host. -/
def Unasked : Prop :=
  x.proxyDialer = true ∨ x.httpProxyFunction = true ∨ x.parseIP host ≠ none

variable (x answers) in
/-- The system's resolver and all bootstrap resolvers fail. -/
def AllFail : Prop :=
  (∃ e, answers.lookupHost = .error e) ∧ ∀ attempt ∈ attempts x, Fails x answers attempt

variable (later host cachedIPs ip) in
/-- The host keeps the address, for the grace period at most. -/
def KeptForGrace : Prop :=
  ∃ expiration, cachedIPs host = some ⟨some ip, some expiration⟩ ∧
    expiration ≤ later + expiredCachedIPGraceTTL

theorem KeptForGrace.outdated (h : KeptForGrace later host cachedIPs ip) {t : Time}
    (ht : later + expiredCachedIPGraceTTL < t) : Outdated t host cachedIPs := by
  obtain ⟨expiration, hitem, hbound⟩ := h
  have hexpired : expiration < t := lt_of_le_of_lt hbound ht
  right
  simp [loadCachedIP, hitem, hexpired]

theorem keptForGrace_of_expired (htime : now ≤ later)
    (hcached : loadCachedIP now host cachedIPs = (some ip, true)) :
    KeptForGrace later host cachedIPs ip := by
  unfold loadCachedIP at hcached
  rcases hitem : cachedIPs host with _ | ⟨cachedIP, _ | expiration⟩
  · simp [hitem] at hcached
  · simp [hitem] at hcached
  · simp only [hitem, Option.any_some, Prod.mk.injEq, decide_eq_true_eq] at hcached
    obtain ⟨rfl, hexpired⟩ := hcached
    have hlater : expiration ≤ later := hexpired.le.trans htime
    exact ⟨expiration, hitem, hlater.trans (Int.le_add_of_nonneg_right expiredCachedIPGraceTTL_nonneg)⟩

theorem resolveAndUpdateCache_unasked (h : Unasked x host) :
    (resolveAndUpdateCache x answers now later host cachedIPs).1 = cachedIPs := by
  have hoffline := h.imp_right (Or.imp_right Option.isSome_iff_ne_none.mpr)
  rw [resolveAndUpdateCache, outdatedAddress_of_offline hoffline]

theorem lookUp_of_allFail (h : AllFail x answers) :
    (lookUp x.toXTransport (resolvers x answers)).err ≠ none ∧ x.bootstrapResolvers ≠ [] ∨
      lookUp x.toXTransport (resolvers x answers) = ⟨none, 0, none⟩ ∧ x.bootstrapResolvers = [] := by
  have hsystem := resolveUsingSystem_err (x := x).mpr h.1
  by_cases hnone : x.bootstrapResolvers = []
  · have hbootstrap : bootstrapped x answers = ⟨none, 0, none⟩ := by
      rw [bootstrapped, attempts_eq_nil.mpr hnone]
      rfl
    refine .inr ⟨?_, hnone⟩
    rw [lookUp_eq, hbootstrap, if_pos rfl, if_neg hsystem, ite_self]
  · have hbootstrap := bootstrapped_err.mpr ⟨hnone, h.2⟩
    refine .inl ⟨?_, hnone⟩
    rw [lookUp_eq, if_neg hbootstrap, if_neg hsystem]
    split
    · exact hsystem
    · exact hbootstrap

theorem entry_of_allFail (hasked : ¬Unasked x host)
    (hcached : loadCachedIP now host cachedIPs = (some ip, true)) (hfail : AllFail x answers) :
    (resolveAndUpdateCache x answers now later host cachedIPs).1 host =
      some ⟨if x.bootstrapResolvers = [] then none else some ip,
        some (later + minResolverIPTTL)⟩ := by
  simp only [Unasked, not_or, Bool.not_eq_true, not_not] at hasked
  obtain ⟨hproxy, hhttp, hhost⟩ := hasked
  have houtdated : Outdated now host cachedIPs := .inr (by rw [hcached])
  rw [resolveAndUpdateCache, outdatedAddress_of_outdated hproxy hhttp hhost houtdated, hcached]
  dsimp only
  rcases lookUp_of_allFail hfail with ⟨herr, hsome⟩ | ⟨hfound, hnone⟩
  · obtain ⟨e, herr⟩ := Option.ne_none_iff_exists'.mp herr
    rw [savedAddress_of_failure herr, if_neg hsome]
    exact Function.update_self ..
  · have hsaved : savedAddress x.toXTransport (some ip) (resolvers x answers) =
        some (none, minResolverIPTTL) := by
      unfold savedAddress
      simp only [hfound]
      rfl
    rw [hsaved, if_pos hnone]
    exact Function.update_self ..

/-- After all resolvers have failed, the host keeps its expired address for the grace period at
most, and resolvers are asked again after it, exactly if none was to be asked in the first place. -/
theorem kept_for_grace_iff (htime : now ≤ later)
    (hcached : loadCachedIP now host cachedIPs = (some ip, true)) (hfail : AllFail x answers) :
    (KeptForGrace later host (resolveAndUpdateCache x answers now later host cachedIPs).1 ip ∧
      ∀ t, later + expiredCachedIPGraceTTL < t →
        Outdated t host (resolveAndUpdateCache x answers now later host cachedIPs).1) ↔
      Unasked x host := by
  constructor
  · rintro ⟨⟨expiration, hitem, hbound⟩, -⟩
    by_contra hasked
    rw [entry_of_allFail hasked hcached hfail] at hitem
    obtain ⟨-, hexpiration⟩ := CachedIPItem.mk.inj (Option.some.inj hitem)
    rw [← Option.some.inj hexpiration] at hbound
    have hlonger : expiredCachedIPGraceTTL < minResolverIPTTL := by decide
    exact absurd hbound (not_le.mpr (Int.add_lt_add_left hlonger later))
  · intro hasked
    rw [resolveAndUpdateCache_unasked hasked]
    have hkept : KeptForGrace later host cachedIPs ip := keptForGrace_of_expired htime hcached
    exact ⟨hkept, fun t ht => hkept.outdated ht⟩

end Grace

namespace Sample

def onlyIPv6 : IP := [0x20, 0x01, 0x0d, 0xb8] ++ List.replicate 11 0 ++ [1]

def twoFamilies : NetLibrary :=
  netOf [("192.0.2.1".toList, stampIP), ("2001:db8::1".toList, onlyIPv6)] (by decide)

/-- A transport that asks the system's resolver, and uses IPv4 only. -/
def resolving : ResolvingTransport where
  toXTransport := { dialing with net := twoFamilies, ignoreSystemDNS := false }
  useIPv4 := true
  useIPv6 := false
  bootstrapResolvers := ["9.9.9.9:53".toList]

def firstDraw : Intn := ⟨fun _ => 0, fun _ h => h⟩

/-- The system's resolver finds these addresses. -/
def systemAnswers (foundIPs : List Text) : Answers where
  lookupHost := .ok foundIPs
  lookupRand := firstDraw
  exchange _ _ := .error (.plain "i/o timeout")
  exchangeRand _ _ := firstDraw

/-- An address that was cached a day ago, for half a day. -/
def expiredIPs : CachedIPs := saveCachedIP 0 dohHost (some resolvedIP) 0 fun _ => none

def dayLater : Time := 24 * 60 * minute

/-- The address that the system finds replaces the expired one. -/
theorem expired_address_replaced :
    (loadCachedIP dayLater dohHost
        (resolveAndUpdateCache resolving (systemAnswers ["192.0.2.1".toList]) dayLater dayLater dohHost
          expiredIPs).1).1 = some stampIP ∧
      ¬(Outdated dayLater dohHost expiredIPs ∧
        FindsNothing resolving (systemAnswers ["192.0.2.1".toList])) := by
  have hiff := @address_kept_iff resolving (systemAnswers ["192.0.2.1".toList]) dayLater dayLater
    dohHost expiredIPs rfl rfl (by decide)
  have hkept (t : Time) : (loadCachedIP t dohHost (resolveAndUpdateCache resolving
      (systemAnswers ["192.0.2.1".toList]) dayLater dayLater dohHost expiredIPs).1).1 ≠ none := by
    rw [loadCachedIP_time t dayLater]
    decide
  exact ⟨by decide, hiff.mp ⟨fun _ => hkept, fun _ => hkept⟩⟩

/-- The system finds no address that can be used, and the expired one is lost without an error. -/
theorem expired_address_lost :
    resolving.proxyDialer = false ∧ resolving.httpProxyFunction = false ∧
      resolving.parseIP dohHost = none ∧
      (loadCachedIP dayLater dohHost expiredIPs).1 = some resolvedIP ∧
      (resolveAndUpdateCache resolving (systemAnswers ["2001:db8::1".toList]) dayLater dayLater dohHost
        expiredIPs).2 = none ∧
      (loadCachedIP dayLater dohHost
        (resolveAndUpdateCache resolving (systemAnswers ["2001:db8::1".toList]) dayLater dayLater
          dohHost expiredIPs).1).1 = none := by
  decide

/-- No resolver answers. -/
def noAnswers : Answers := { systemAnswers [] with lookupHost := .error (.plain "no such host") }

theorem noAnswers_allFail (x : ResolvingTransport) (h4 : x.useIPv4 = true) (h6 : x.useIPv6 = false) :
    AllFail x noAnswers := by
  refine ⟨⟨_, rfl⟩, fun attempt _ => ?_⟩
  simp [Fails, resolveUsingResolver, resolveIPv6, askResolver, noAnswers, systemAnswers, h4, h6]

/-- Behind a proxy nothing is resolved, and the entry of a host stays as it is. -/
theorem unasked_behind_proxy :
    KeptForGrace dayLater dohHost
      (resolveAndUpdateCache { resolving with proxyDialer := true } noAnswers dayLater dayLater dohHost
        expiredIPs).1 resolvedIP :=
  ((kept_for_grace_iff le_rfl rfl (noAnswers_allFail _ rfl rfl)).mpr (.inl rfl)).1

/-- A quarter of an hour becomes half a day. -/
theorem grace_outlived :
    loadCachedIP dayLater dohHost expiredIPs = (some resolvedIP, true) ∧
      AllFail resolving noAnswers ∧
      (resolveAndUpdateCache resolving noAnswers dayLater dayLater dohHost expiredIPs).1 dohHost =
        some ⟨some resolvedIP, some (dayLater + 12 * 60 * minute)⟩ ∧
      expiredCachedIPGraceTTL = 15 * minute :=
  ⟨by decide, noAnswers_allFail _ rfl rfl, by decide, rfl⟩

end Sample

end DnscryptProxy
