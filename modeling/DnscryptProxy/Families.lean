import DnscryptProxy.Resolving

/-! The families of the addresses that are found. `useIPv4` and `useIPv6` are to decide which
addresses `resolveUsingSystem` and `resolveUsingResolver` return, whatever the order in which the
addresses were found and whichever one is drawn.

* `families_iff`: when they do. `To16` of an IPv4 address succeeds, so that with IPv6 only, the
  addresses of both families are taken from the system's resolver. -/

namespace DnscryptProxy

open Library

/-! ## Draws -/

section Draws

variable {α : Type} {l : List α} {a : α}

theorem Intn.mem_of_pick {rand : Intn} (h : rand.pick l = some a) : a ∈ l :=
  List.mem_of_getElem? h

theorem Intn.exists_pick (h : a ∈ l) : ∃ rand : Intn, rand.pick l = some a := by
  obtain ⟨i, hi, rfl⟩ := List.getElem_of_mem h
  refine ⟨⟨fun n => if n = l.length then i else 0, fun n hn => ?_⟩, ?_⟩
  · split
    · next heq => exact heq ▸ hi
    · exact hn
  · unfold Intn.pick
    dsimp only
    rw [if_pos rfl, List.getElem?_eq_getElem hi]

theorem Intn.forall_pick_iff {P : Option α → Prop} :
    (∀ rand : Intn, P (rand.pick l)) ↔ (l = [] → P none) ∧ ∀ a ∈ l, P (some a) := by
  constructor
  · intro h
    refine ⟨?_, fun a ha => ?_⟩
    · rintro rfl
      exact h ⟨fun _ => 0, fun _ hn => hn⟩
    · obtain ⟨rand, hrand⟩ := Intn.exists_pick ha
      exact hrand ▸ h rand
  · rintro ⟨hnone, hsome⟩ rand
    cases hpick : rand.pick l with
    | none => exact hnone ((rand.pick_eq_none l).mp hpick)
    | some a => exact hsome a (Intn.mem_of_pick hpick)

end Draws

/-! ## The policy -/

inductive Family where
  | ipv4 | ipv6
  deriving DecidableEq, Repr

/-- As `net` sees it: IPv4 may also be written in 16 bytes. -/
def IP.family (ip : IP) : Option Family :=
  if ip.to4.isSome then some .ipv4 else if ip.to16.isSome then some .ipv6 else none

def ResolvingTransport.inUse (x : ResolvingTransport) : Family → Bool
  | .ipv4 => x.useIPv4
  | .ipv6 => x.useIPv6

theorem IP.family_eq_ipv4 {ip : IP} : ip.family = some .ipv4 ↔ ip.to4.isSome = true := by
  unfold IP.family
  split
  · next h4 => simp [h4]
  · next h4 => split <;> simp [h4]

section Policy

variable (x : ResolvingTransport)

/-- The address is an IPv4 address only if `useIPv4` is set, and an IPv6 address only if `useIPv6`
is. -/
def Permitted (ip : IP) : Prop := ∀ family, ip.family = some family → x.inUse family = true

/-- One of the addresses is of a family in use. -/
def Usable (found : List IP) : Prop :=
  ∃ ip ∈ found, ∃ family, ip.family = some family ∧ x.inUse family = true

/-- What should be returned of the addresses that were found. -/
def FollowsPolicy (found : List IP) (returned : Option IP) : Prop :=
  (∀ ip, returned = some ip → Permitted x ip) ∧ (Usable x found → returned ≠ none)

variable {x} {found : List IP}

theorem followsPolicy_none : FollowsPolicy x found none ↔ ¬ Usable x found := by
  simp [FollowsPolicy]

theorem followsPolicy_some {ip : IP} : FollowsPolicy x found (some ip) ↔ Permitted x ip := by
  simp [FollowsPolicy]

end Policy

section Resolve

variable (x : ResolvingTransport) (answers : Answers)

/-! ## The system's resolver -/

def systemFound : List IP :=
  match answers.lookupHost with
  | .error _ => []
  | .ok foundIPs => foundIPs.filterMap x.net.parseIP

/-- The system's resolver finds an IPv4 address, and IPv6 alone is in use. -/
def SystemStrays : Prop :=
  x.useIPv4 = false ∧ x.useIPv6 = true ∧ ∃ ip ∈ systemFound x answers, ip.family = some .ipv4

variable {x answers} {foundIPs : List Text} {ip : IP}

theorem mem_systemIPs_family :
    ip ∈ systemIPs x foundIPs ↔ ip ∈ foundIPs.filterMap x.net.parseIP ∧
      (x.useIPv6 = true ∨ (x.useIPv4 = true ∧ ip.family = some .ipv4)) := by
  rw [mem_systemIPs, List.mem_filterMap, IP.family_eq_ipv4]

theorem systemIPs_ne_nil (h : Usable x (foundIPs.filterMap x.net.parseIP)) :
    systemIPs x foundIPs ≠ [] := by
  obtain ⟨ip, hip, family, hfamily, huse⟩ := h
  have hmem : ip ∈ systemIPs x foundIPs := by
    refine mem_systemIPs_family.mpr ⟨hip, ?_⟩
    cases family with
    | ipv4 => exact .inr ⟨huse, hfamily⟩
    | ipv6 => exact .inl huse
  exact List.ne_nil_of_mem hmem

theorem systemIPs_permitted (hfound : answers.lookupHost = .ok foundIPs) :
    (∀ ip ∈ systemIPs x foundIPs, Permitted x ip) ↔ ¬ SystemStrays x answers := by
  simp only [SystemStrays, systemFound, hfound]
  constructor
  · rintro h ⟨h4, h6, ip, hip, hfamily⟩
    have huse : x.useIPv4 = true := h ip (mem_systemIPs_family.mpr ⟨hip, .inl h6⟩) .ipv4 hfamily
    rw [h4] at huse
    cases huse
  · intro h ip hip family hfamily
    obtain ⟨hip, htaken⟩ := mem_systemIPs_family.mp hip
    cases family with
    | ipv4 =>
      by_contra h4
      have h6 : x.useIPv6 = true := htaken.resolve_right fun ⟨h4', _⟩ => h4 h4'
      exact h ⟨Bool.eq_false_iff.mpr h4, h6, ip, hip, hfamily⟩
    | ipv6 =>
      refine htaken.resolve_right fun ⟨_, h4⟩ => ?_
      rw [hfamily] at h4
      cases h4

theorem resolveUsingSystem_policy :
    (∀ rand, FollowsPolicy x (systemFound x answers)
      (resolveUsingSystem x { answers with lookupRand := rand }).ip) ↔ ¬ SystemStrays x answers := by
  cases hfound : answers.lookupHost with
  | error e =>
    have hnone : systemFound x answers = [] := by simp only [systemFound, hfound]
    simp [resolveUsingSystem, SystemStrays, hnone, followsPolicy_none, Usable]
  | ok foundIPs =>
    have hips : systemFound x answers = foundIPs.filterMap x.net.parseIP := by
      simp only [systemFound, hfound]
    change (∀ rand : Intn, FollowsPolicy x _ (rand.pick (systemIPs x foundIPs))) ↔ _
    rw [Intn.forall_pick_iff, ← systemIPs_permitted hfound, hips]
    simp only [followsPolicy_some, followsPolicy_none]
    exact and_iff_right fun hnil husable => systemIPs_ne_nil husable hnil

/-! ## A bootstrap resolver -/

section Records

variable (x answers) (attempt : ResolverAttempt)

/-- The records of a type in the answer to the question for it. -/
def recordsOf (qtype : UInt16) : List RR :=
  match answers.exchange attempt qtype with
  | .error _ => []
  | .ok msg => msg.answer.filter fun answer => answer.rrtype = qtype

/-- The addresses in the answers for the families in use. -/
def resolverFound : List IP :=
  ((if x.useIPv4 then recordsOf answers attempt typeA else []) ++
    (if x.useIPv6 then recordsOf answers attempt typeAAAA else [])).filterMap RR.resolvedIP

def drawnType : UInt16 :=
  if x.useIPv4 = true ∧ recordsOf answers attempt typeA ≠ [] then typeA else typeAAAA

def drawnRecords : List RR :=
  if x.useIPv4 = true ∧ recordsOf answers attempt typeA ≠ [] then recordsOf answers attempt typeA
  else if x.useIPv6 then recordsOf answers attempt typeAAAA else []

/-- A record for IPv6 has an IPv4 address in it, and IPv6 alone is in use. -/
def ResolverStrays : Prop :=
  x.useIPv4 = false ∧ x.useIPv6 = true ∧
    ∃ rr ∈ recordsOf answers attempt typeAAAA, ∃ ip, rr.resolvedIP = some ip ∧
      ip.family = some .ipv4

/-- A record without data can be drawn, and an address of a family in use is there. -/
def ResolverMisses : Prop :=
  (∃ rr ∈ drawnRecords x answers attempt, rr.resolvedIP = none) ∧
    Usable x (resolverFound x answers attempt)

end Records

variable {attempt : ResolverAttempt}

theorem askResolver_of_nil {qtype : UInt16} (h : recordsOf answers attempt qtype = []) :
    askResolver answers attempt qtype = .ok none ∨
      ∃ e, askResolver answers attempt qtype = .error e := by
  unfold recordsOf at h
  unfold askResolver
  cases hexchange : answers.exchange attempt qtype with
  | error e => exact .inr ⟨e, rfl⟩
  | ok msg =>
    simp only [hexchange] at h
    simp only [h]
    exact .inl rfl

theorem askResolver_of_ne_nil {qtype : UInt16} (h : recordsOf answers attempt qtype ≠ []) :
    ∃ rr ttl, (answers.exchangeRand attempt qtype).pick (recordsOf answers attempt qtype) = some rr ∧
      askResolver answers attempt qtype = .ok (some (rr.resolvedIP, ttl)) := by
  have hdrawn := mt ((answers.exchangeRand attempt qtype).pick_eq_none _).mp h
  obtain ⟨rr, hrr⟩ := Option.ne_none_iff_exists'.mp hdrawn
  refine ⟨rr, rr.ttl.toNat * second, hrr, ?_⟩
  unfold recordsOf at hrr
  unfold askResolver
  cases hexchange : answers.exchange attempt qtype with
  | error e =>
    simp only [hexchange] at hrr
    cases hrr
  | ok msg =>
    simp only [hexchange] at hrr
    simp only [hrr]
    rfl

theorem resolveUsingResolver_of_no_a
    (hnone : ¬ (x.useIPv4 = true ∧ recordsOf answers attempt typeA ≠ [])) :
    ∃ err, resolveUsingResolver x answers attempt = resolveIPv6 x answers attempt err := by
  unfold resolveUsingResolver
  by_cases h4 : x.useIPv4 = true
  · have hnil : recordsOf answers attempt typeA = [] := by
      by_contra hne
      exact hnone ⟨h4, hne⟩
    rw [if_pos h4]
    rcases askResolver_of_nil hnil with hask | ⟨e, hask⟩
    · exact ⟨none, by rw [hask]⟩
    · exact ⟨some e, by rw [hask]⟩
  · exact ⟨none, by rw [if_neg h4]⟩

theorem resolveIPv6_ip (err : Option GoError) : (resolveIPv6 x answers attempt err).ip =
    if x.useIPv6 then ((answers.exchangeRand attempt typeAAAA).pick
      (recordsOf answers attempt typeAAAA)).bind RR.resolvedIP
    else none := by
  unfold resolveIPv6
  split
  · by_cases hne : recordsOf answers attempt typeAAAA = []
    · have hdrawn := ((answers.exchangeRand attempt typeAAAA).pick_eq_none _).mpr hne
      rw [hdrawn]
      rcases askResolver_of_nil hne with hask | ⟨e, hask⟩ <;> rw [hask] <;> rfl
    · obtain ⟨rr, ttl, hrr, hask⟩ := askResolver_of_ne_nil hne
      rw [hask, hrr]
      rfl
  · rfl

theorem resolveUsingResolver_ip : (resolveUsingResolver x answers attempt).ip =
    ((answers.exchangeRand attempt (drawnType x answers attempt)).pick
      (drawnRecords x answers attempt)).bind RR.resolvedIP := by
  unfold drawnType drawnRecords
  by_cases ha : x.useIPv4 = true ∧ recordsOf answers attempt typeA ≠ []
  · obtain ⟨rr, ttl, hrr, hask⟩ := askResolver_of_ne_nil ha.2
    rw [if_pos ha, if_pos ha, hrr, resolveUsingResolver, if_pos ha.1, hask]
    rfl
  · obtain ⟨err, hresolve⟩ := resolveUsingResolver_of_no_a ha
    rw [if_neg ha, if_neg ha, hresolve, resolveIPv6_ip]
    split
    · rfl
    · rfl

theorem RR.data_of_resolvedIP {rr : RR} (htype : rr.rrtype = typeA) (hip : rr.resolvedIP = some ip)
    : rr.data = .a ip ∧ ip ≠ [] := by
  unfold RR.resolvedIP at hip
  unfold RR.rrtype at htype
  cases hdata : rr.data with
  | a addr =>
    simp only [hdata] at hip
    split at hip
    · cases hip
    · next hne =>
      cases hip
      exact ⟨rfl, hne⟩
  | aaaa addr =>
    rw [hdata] at htype
    have htype : typeAAAA = typeA := htype
    exact absurd htype (by decide)
  | _ =>
    rw [hdata] at hip
    cases hip

/-- Answers as the DNS library unpacks them: there are four bytes in an A record, unless it came
without data. -/
structure UnpackedAnswers extends Answers where
  a_length : ∀ attempt qtype msg, exchange attempt qtype = .ok msg → ∀ rr ∈ msg.answer, ∀ ip,
    rr.data = .a ip → ip = [] ∨ ip.length = 4

theorem recordsOf_a_family {answers : UnpackedAnswers} {rr : RR}
    (hrr : rr ∈ recordsOf answers.toAnswers attempt typeA) (hip : rr.resolvedIP = some ip) :
    ip.family = some .ipv4 := by
  unfold recordsOf at hrr
  cases hexchange : answers.exchange attempt typeA with
  | error e => simp [hexchange] at hrr
  | ok msg =>
    simp only [hexchange, List.mem_filter, decide_eq_true_eq] at hrr
    obtain ⟨hmem, htype⟩ := hrr
    obtain ⟨hdata, hne⟩ := RR.data_of_resolvedIP htype hip
    have hlength := (answers.a_length attempt typeA msg hexchange rr hmem ip hdata).resolve_left hne
    exact IP.family_eq_ipv4.mpr (by simp [IP.to4, hlength])

theorem resolverFound_of_nil (h : drawnRecords x answers attempt = []) :
    resolverFound x answers attempt = [] := by
  unfold drawnRecords at h
  unfold resolverFound
  split at h
  · next ha => exact absurd h ha.2
  · next ha =>
    have hfirst : (if x.useIPv4 then recordsOf answers attempt typeA else []) = [] := by
      split
      · next h4 => exact not_not.mp fun hne => ha ⟨h4, hne⟩
      · rfl
    rw [hfirst, h]
    rfl

theorem drawn_permitted {answers : UnpackedAnswers} :
    (∀ rr ∈ drawnRecords x answers.toAnswers attempt, ∀ ip, rr.resolvedIP = some ip →
      Permitted x ip) ↔ ¬ ResolverStrays x answers.toAnswers attempt := by
  constructor
  · rintro h ⟨h4, h6, rr, hrr, ip, hip, hfamily⟩
    have hdrawn : rr ∈ drawnRecords x answers.toAnswers attempt := by
      simpa [drawnRecords, h4, h6] using hrr
    have huse : x.useIPv4 = true := h rr hdrawn ip hip .ipv4 hfamily
    rw [h4] at huse
    cases huse
  · intro h rr hrr ip hip family hfamily
    unfold drawnRecords at hrr
    split at hrr
    · next ha =>
      rw [recordsOf_a_family hrr hip] at hfamily
      cases hfamily
      exact ha.1
    · split at hrr
      · next h6 =>
        cases family with
        | ipv4 =>
          by_contra h4
          exact h ⟨Bool.eq_false_iff.mpr h4, h6, rr, hrr, ip, hip, hfamily⟩
        | ipv6 => exact h6
      · cases hrr

theorem resolveUsingResolver_policy {answers : UnpackedAnswers} :
    (∀ rand, FollowsPolicy x (resolverFound x answers.toAnswers attempt)
      (resolveUsingResolver x { answers.toAnswers with exchangeRand := rand } attempt).ip) ↔
      ¬ ResolverStrays x answers.toAnswers attempt ∧
        ¬ ResolverMisses x answers.toAnswers attempt := by
  have hdraw : (∀ rand, FollowsPolicy x (resolverFound x answers.toAnswers attempt)
      (resolveUsingResolver x { answers.toAnswers with exchangeRand := rand } attempt).ip) ↔
      ∀ rand : Intn, FollowsPolicy x (resolverFound x answers.toAnswers attempt)
        ((rand.pick (drawnRecords x answers.toAnswers attempt)).bind RR.resolvedIP) := by
    simp only [resolveUsingResolver_ip]
    exact ⟨fun h rand => h fun _ _ => rand, fun h rand => h (rand attempt _)⟩
  rw [hdraw, Intn.forall_pick_iff (P := fun rr => FollowsPolicy x _ (rr.bind RR.resolvedIP)),
    ← drawn_permitted]
  constructor
  · rintro ⟨-, h⟩
    refine ⟨fun rr hrr ip hip => (h rr hrr).1 ip hip, ?_⟩
    rintro ⟨⟨rr, hrr, hip⟩, husable⟩
    exact (h rr hrr).2 husable hip
  · rintro ⟨hpermitted, hmisses⟩
    refine ⟨fun hnil => ?_, fun rr hrr => ⟨hpermitted rr hrr, fun husable hip => ?_⟩⟩
    · rw [Option.bind_none, followsPolicy_none, resolverFound_of_nil hnil]
      simp [Usable]
    · exact hmisses ⟨⟨rr, hrr, hip⟩, husable⟩

end Resolve

/-- Whatever is drawn, the system's resolver and a bootstrap resolver return addresses of the families
in use only, and an address whenever there is one, unless these cases come up. -/
theorem families_iff (x : ResolvingTransport) (answers : UnpackedAnswers) (attempt : ResolverAttempt) :
    ((∀ rand, FollowsPolicy x (systemFound x answers.toAnswers)
        (resolveUsingSystem x { answers.toAnswers with lookupRand := rand }).ip) ↔
      ¬ SystemStrays x answers.toAnswers) ∧
    ((∀ rand, FollowsPolicy x (resolverFound x answers.toAnswers attempt)
        (resolveUsingResolver x { answers.toAnswers with exchangeRand := rand } attempt).ip) ↔
      ¬ ResolverStrays x answers.toAnswers attempt ∧
        ¬ ResolverMisses x answers.toAnswers attempt) :=
  ⟨resolveUsingSystem_policy, resolveUsingResolver_policy⟩

namespace Sample

/-- The transport of a configuration with IPv6 only. -/
def resolvingIPv6 : ResolvingTransport := { resolving with useIPv4 := false, useIPv6 := true }

def bothFound : UnpackedAnswers where
  toAnswers := systemAnswers ["192.0.2.1".toList, "2001:db8::1".toList]
  a_length := by
    intro attempt qtype msg h
    cases h

/-- Of an IPv4 address and an IPv6 address, the former is returned. -/
theorem ipv4_returned_for_ipv6 :
    resolvingIPv6.useIPv4 = false ∧ resolvingIPv6.useIPv6 = true ∧
      systemFound resolvingIPv6 bothFound.toAnswers = [stampIP, onlyIPv6] ∧
      stampIP.family = some .ipv4 ∧ onlyIPv6.family = some .ipv6 ∧
      (resolveUsingSystem resolvingIPv6 bothFound.toAnswers).ip = some stampIP ∧
      ¬ FollowsPolicy resolvingIPv6 (systemFound resolvingIPv6 bothFound.toAnswers)
        (resolveUsingSystem resolvingIPv6 bothFound.toAnswers).ip := by
  have hip : (resolveUsingSystem resolvingIPv6 bothFound.toAnswers).ip = some stampIP := by decide
  have hfamily : stampIP.family = some .ipv4 := by decide
  refine ⟨rfl, rfl, by decide, hfamily, by decide, hip, fun h => ?_⟩
  have huse : resolvingIPv6.useIPv4 = true := h.1 stampIP hip .ipv4 hfamily
  cases huse

end Sample

end DnscryptProxy
