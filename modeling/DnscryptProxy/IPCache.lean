import DnscryptProxy.Library.Interleaving
import DnscryptProxy.Relays

/-! The addresses that `xtransport.go` keeps of the hosts it connects to. Those of stamps are
pinned: they never expire, and a lookup finds them and stops. A lookup loads and saves in two
sections under the lock, and asks resolvers in between.

`pinned_forever_iff` says when a pinned address is safe: when no lookup of the host was
between its two sections as the address was pinned. `resolveAndUpdateCache` itself only ever
saves addresses that expire (`savedAddress_ttl_nonneg`). -/

namespace DnscryptProxy

open Library

def minResolverIPTTL : Time := 12 * 60 * minute
def expiredCachedIPGraceTTL : Time := 15 * minute

theorem minResolverIPTTL_nonneg : 0 ≤ minResolverIPTTL := by decide

theorem expiredCachedIPGraceTTL_nonneg : 0 ≤ expiredCachedIPGraceTTL := by decide

structure CachedIPItem where
  ip : Option IP
  expiration : Option Time
  deriving DecidableEq, Repr

abbrev CachedIPs := Text → Option CachedIPItem

/-- A negative TTL is none at all. -/
def saveCachedIP (now : Time) (host : Text) (ip : Option IP) (ttl : Time) (cachedIPs : CachedIPs) :
    CachedIPs :=
  let expiration := if 0 ≤ ttl then some (now + max ttl minResolverIPTTL) else none
  Function.update cachedIPs host (some ⟨ip, expiration⟩)

def loadCachedIP (now : Time) (host : Text) (cachedIPs : CachedIPs) : Option IP × Bool :=
  match cachedIPs host with
  | none => (none, false)
  | some item => (item.ip, item.expiration.any fun expiration => expiration < now)

/-! ## Lookups -/

/-- What a lookup depends on. -/
structure XTransport where
  net : NetLibrary
  proxyDialer : Bool
  httpProxyFunction : Bool
  ignoreSystemDNS : Bool
  mainProto : NetProto

/-- `ParseIP`, which accepts brackets. -/
def XTransport.parseIP (x : XTransport) (ipStr : Text) : Option IP :=
  x.net.parseIP (((ipStr.dropWhile (· = '[')).reverse.dropWhile (· = ']')).reverse)

/-- The three values that a resolver returns. -/
structure Resolved where
  ip : Option IP
  ttl : Time
  err : Option GoError

structure Resolvers where
  system : Resolved
  bootstrap : NetProto → List Resolved

/-- The loops over protocols and resolvers: the first success, or the last failure. -/
def firstSuccess : List Resolved → Resolved
  | [] => ⟨none, 0, none⟩
  | [resolved] => resolved
  | resolved :: others => if resolved.err.isNone then resolved else firstSuccess others

section Lookup

variable (x : XTransport)

/-- Where `resolveAndUpdateCache` asks the resolvers. -/
def lookUp (resolvers : Resolvers) : Resolved :=
  let found := if x.ignoreSystemDNS then ⟨none, 0, none⟩ else resolvers.system
  let found :=
    if x.ignoreSystemDNS || found.err.isSome then
      let protos : List NetProto := if x.mainProto = .tcp then [.tcp, .udp] else [.udp, .tcp]
      firstSuccess (protos.map fun proto => firstSuccess (resolvers.bootstrap proto))
    else found
  if found.err.isSome && x.ignoreSystemDNS then resolvers.system else found

/-- The first half of `resolveAndUpdateCache`: what was found in the cache, when that is not
enough. -/
def outdatedAddress (now : Time) (host : Text) (cachedIPs : CachedIPs) : Option (Option IP) :=
  if x.proxyDialer || x.httpProxyFunction then none
  else if (x.parseIP host).isSome then none
  else
    let (cachedIP, expired) := loadCachedIP now host cachedIPs
    if cachedIP.isSome && !expired then none else some cachedIP

/-- The second half: the address and the TTL to save, unless there is none. -/
def savedAddress (cachedIP : Option IP) (resolvers : Resolvers) : Option (Option IP × Time) :=
  let found := lookUp x resolvers
  let ttl := max found.ttl minResolverIPTTL
  match found.err, cachedIP with
  | none, _ => some (found.ip, ttl)
  | some _, some ip => some (some ip, expiredCachedIPGraceTTL)
  | some _, none => none

/-- The address that a server's or a relay's stamp gives for its host, which is pinned. -/
def stampAddress (stamp : ServerStamp) : Option (Text × IP) :=
  if stamp.serverAddrStr = [] then none
  else
    (x.parseIP (extractHostAndPort stamp.serverAddrStr (-1)).1).map fun ip =>
      ((extractHostAndPort stamp.providerName (-1)).1, ip)

variable {x}

theorem savedAddress_ttl_nonneg {cachedIP : Option IP} {resolvers : Resolvers}
    {saved : Option IP × Time} (h : savedAddress x cachedIP resolvers = some saved) :
    0 ≤ saved.2 := by
  unfold savedAddress at h
  dsimp only at h
  split at h
  · cases h
    exact le_max_of_le_right minResolverIPTTL_nonneg
  · cases h
    exact expiredCachedIPGraceTTL_nonneg
  · cases h

end Lookup

/-! ## Threads -/

/-- A call of `saveCachedIP` with a negative TTL, or one of `resolveAndUpdateCache`: before
it loads, and from there until it saves. -/
inductive IPThread where
  | pin (host : Text) (ip : IP)
  | resolve (host : Text)
  | resolving (host : Text) (cachedIP : Option IP)
  deriving DecidableEq

/-- What `route` and `fetchDoHServerInfo` save for a stamp. -/
def IPThread.ofStamp (x : XTransport) (stamp : ServerStamp) : List IPThread :=
  (stampAddress x stamp).toList.map fun (host, ip) => .pin host ip

/-- The sections under the lock. Time passes in any way. -/
inductive IPThread.Step (x : XTransport) : CachedIPs → IPThread → CachedIPs → List IPThread → Prop
    where
  | pin (cachedIPs : CachedIPs) (host : Text) (ip : IP) (now : Time) :
      Step x cachedIPs (.pin host ip) (saveCachedIP now host (some ip) (-1 * second) cachedIPs) []
  | cached {cachedIPs : CachedIPs} {host : Text} {now : Time}
      (enough : outdatedAddress x now host cachedIPs = none) :
      Step x cachedIPs (.resolve host) cachedIPs []
  | load {cachedIPs : CachedIPs} {host : Text} {now : Time} {cachedIP : Option IP}
      (outdated : outdatedAddress x now host cachedIPs = some cachedIP) :
      Step x cachedIPs (.resolve host) cachedIPs [.resolving host cachedIP]
  | fail {cachedIPs : CachedIPs} {host : Text} {cachedIP : Option IP} {resolvers : Resolvers}
      (failed : savedAddress x cachedIP resolvers = none) :
      Step x cachedIPs (.resolving host cachedIP) cachedIPs []
  | save {cachedIPs : CachedIPs} {host : Text} {cachedIP : Option IP} {resolvers : Resolvers}
      {saved : Option IP × Time} (now : Time)
      (resolved : savedAddress x cachedIP resolvers = some saved) :
      Step x cachedIPs (.resolving host cachedIP)
        (saveCachedIP now host saved.1 saved.2 cachedIPs) []

/-- The steps with which no other address is pinned for the host. -/
def IPThread.StepKeeping (x : XTransport) (host : Text) (ip : IP) (cachedIPs : CachedIPs)
    (t : IPThread) (cachedIPs' : CachedIPs) (next : List IPThread) : Prop :=
  t.Step x cachedIPs cachedIPs' next ∧ ∀ ip', t = .pin host ip' → ip' = ip

/-- No lookup of the host is between its two sections. -/
def Unresolved (host : Text) (threads : List IPThread) : Prop :=
  ∀ cachedIP, .resolving host cachedIP ∉ threads

/-- The address never expires. -/
def CachedIPs.Pinned (cachedIPs : CachedIPs) (host : Text) (ip : IP) : Prop :=
  cachedIPs host = some ⟨some ip, none⟩

section Pinned

variable {x : XTransport} {host host' : Text} {ip : IP} {cachedIPs cachedIPs' : CachedIPs}

theorem CachedIPs.pinned_iff_load :
    cachedIPs.Pinned host ip ↔ ∀ now, loadCachedIP now host cachedIPs = (some ip, false) := by
  unfold Pinned loadCachedIP
  constructor
  · intro h now
    rw [h]
    rfl
  · intro h
    cases hitem : cachedIPs host with
    | none =>
      have h0 := h 0
      rw [hitem] at h0
      cases h0
    | some item =>
      obtain ⟨itemIP, expiration⟩ := item
      cases expiration with
      | none =>
        have h0 := h 0
        rw [hitem] at h0
        cases h0
        rfl
      | some expiration =>
        -- any time after the expiration
        have hlate := h (expiration + 1)
        rw [hitem] at hlate
        have hfresh : decide (expiration < expiration + 1) = false := (Prod.mk.inj hlate).2
        exact absurd (Int.lt_succ expiration) (of_decide_eq_false hfresh)

theorem saveCachedIP_other (hne : host' ≠ host) (now : Time) (ip' : Option IP) (ttl : Time) :
    (saveCachedIP now host' ip' ttl cachedIPs).Pinned host ip ↔ cachedIPs.Pinned host ip := by
  unfold CachedIPs.Pinned saveCachedIP
  rw [Function.update_of_ne hne.symm]

theorem saveCachedIP_pins (now : Time) :
    (saveCachedIP now host (some ip) (-1 * second) cachedIPs).Pinned host ip := by
  unfold CachedIPs.Pinned saveCachedIP
  rw [Function.update_self]
  rfl

theorem saveCachedIP_unpins (now : Time) (ip' : Option IP) {ttl : Time} (httl : 0 ≤ ttl) :
    ¬ (saveCachedIP now host ip' ttl cachedIPs).Pinned host ip := by
  unfold CachedIPs.Pinned saveCachedIP
  rw [Function.update_self, if_pos httl]
  simp

theorem outdatedAddress_pinned (h : cachedIPs.Pinned host ip) (now : Time) :
    outdatedAddress x now host cachedIPs = none := by
  unfold outdatedAddress
  rw [CachedIPs.pinned_iff_load.mp h now]
  split
  · rfl
  · split <;> rfl

theorem IPThread.StepKeeping.respects {t : IPThread} {next : List IPThread}
    (h : t.StepKeeping x host ip cachedIPs cachedIPs' next) (hp : cachedIPs.Pinned host ip)
    (ht : ∀ cachedIP, t ≠ .resolving host cachedIP) :
    Respects (fun cachedIPs => cachedIPs.Pinned host ip)
      (fun t _ => ∀ cachedIP, t ≠ .resolving host cachedIP) (fun _ _ => True) cachedIPs t
      cachedIPs' next := by
  obtain ⟨hstep, hpin⟩ := h
  cases hstep with
  | pin host' ip' now =>
    refine .of_end ?_
    by_cases hhost : host' = host
    · subst hhost
      rw [hpin ip' rfl]
      exact saveCachedIP_pins now
    · exact (saveCachedIP_other hhost now _ _).mpr hp
  | cached enough => exact .of_end hp
  | @load host' now cachedIP outdated =>
    have hne : host' ≠ host := by
      rintro rfl
      rw [outdatedAddress_pinned hp now] at outdated
      cases outdated
    refine ⟨hp, ?_, fun _ _ hu => hu, List.pairwise_singleton .., fun _ _ _ _ => trivial⟩
    intro t' ht' cachedIP' heq
    rw [List.mem_singleton.mp ht'] at heq
    cases heq
    exact hne rfl
  | fail failed => exact .of_end hp
  | @save host' cachedIP _ saved now resolved =>
    have hne : host' ≠ host := by
      rintro rfl
      exact ht cachedIP rfl
    exact .of_end ((saveCachedIP_other hne now _ _).mpr hp)

theorem savedAddress_answered (x : XTransport) (cachedIP : Option IP) :
    ∃ resolvers saved, savedAddress x cachedIP resolvers = some saved := by
  let answer : Resolved := ⟨none, 0, none⟩
  refine ⟨⟨answer, fun _ => [answer]⟩, (none, minResolverIPTTL), ?_⟩
  have hfound : lookUp x ⟨answer, fun _ => [answer]⟩ = answer := by
    unfold lookUp
    cases x.ignoreSystemDNS <;> cases x.mainProto <;> rfl
  unfold savedAddress
  rw [hfound]
  rfl

theorem outdatedAddress_of_offline (hoffline : x.proxyDialer = true ∨ x.httpProxyFunction = true ∨
      (x.parseIP host).isSome) (now : Time) (cachedIPs : CachedIPs) :
    outdatedAddress x now host cachedIPs = none := by
  unfold outdatedAddress
  rcases hoffline with h | h | h <;> simp [h]

/-- **A pinned address** is returned by every later load, as not expired, until another one
is pinned for the host, exactly when no lookup of the host had loaded before the address was
pinned and is still to save. -/
theorem pinned_forever_iff {p : Pool CachedIPs IPThread} (hpinned : p.shared.Pinned host ip) :
    (∀ q, Pool.Steps (IPThread.StepKeeping x host ip) p q →
      ∀ now, loadCachedIP now host q.shared = (some ip, false)) ↔ Unresolved host p.threads := by
  constructor
  · intro hforever cachedIP hmem
    -- the lookup saves what a resolver answered
    obtain ⟨cachedIPs, threads⟩ := p
    obtain ⟨before, after, rfl⟩ := List.append_of_mem hmem
    obtain ⟨resolvers, saved, hsaved⟩ := savedAddress_answered x cachedIP
    have hstep : IPThread.StepKeeping x host ip cachedIPs (.resolving host cachedIP)
        (saveCachedIP 0 host saved.1 saved.2 cachedIPs) [] := ⟨.save 0 hsaved, nofun⟩
    have hrun := hforever _ (.single (.run before after hstep))
    exact saveCachedIP_unpins 0 saved.1 (savedAddress_ttl_nonneg hsaved)
      (CachedIPs.pinned_iff_load.mpr hrun)
  · intro hclear q hrun
    have hq := Pool.Steps.assertions (fun _ => trivial)
      (fun _ _ _ _ hstep hp ht => IPThread.StepKeeping.respects hstep hp ht) hrun
      ⟨hpinned, fun t ht cachedIP heq => hclear cachedIP (heq ▸ ht),
        List.pairwise_of_forall fun _ _ => trivial⟩
    exact CachedIPs.pinned_iff_load.mp hq.shared

end Pinned

/-! A host that is looked up, and a stamp that has an address for it. -/

namespace Sample

def dohHost : Text := "doh.example.com".toList

def stampIP : IP := List.replicate 10 0 ++ [255, 255, 192, 0, 2, 1]

def dohStamp : ServerStamp :=
  ⟨"192.0.2.1".toList, [], [], dohHost, "/dns-query".toList, 0, .doh⟩

def dialing : XTransport where
  net := netOf [("192.0.2.1".toList, stampIP)] (by decide)
  proxyDialer := false
  httpProxyFunction := false
  ignoreSystemDNS := true
  mainProto := .udp

def resolvedIP : IP := [203, 0, 113, 9]

/-- The bootstrap resolver answers with an address of its choice. -/
def bootstrapped : Resolvers :=
  ⟨⟨none, 0, some (.plain "no such host")⟩, fun _ => [⟨some resolvedIP, 60 * second, none⟩]⟩

def pinnedIPs : CachedIPs := saveCachedIP 0 dohHost (some stampIP) (-1 * second) fun _ => none

/-- The address is pinned before the host is looked up. -/
theorem pinned_then_resolved :
    loadCachedIP 0 dohHost pinnedIPs = (some stampIP, false) ∧
    ∀ q, Pool.Steps (IPThread.StepKeeping dialing dohHost stampIP)
        ⟨pinnedIPs, [.resolve dohHost]⟩ q →
      ∀ now, loadCachedIP now dohHost q.shared = (some stampIP, false) :=
  ⟨by decide, (pinned_forever_iff (saveCachedIP_pins 0)).mpr (by simp [Unresolved])⟩

/-- It is pinned while the host is being looked up, and replaced by what is found. -/
theorem pinned_while_resolved :
    ∃ p q : Pool CachedIPs IPThread,
      Pool.Steps (IPThread.Step dialing)
        ⟨fun _ => none, .resolve dohHost :: IPThread.ofStamp dialing dohStamp⟩ p ∧
      loadCachedIP (1 * second) dohHost p.shared = (some stampIP, false) ∧
      Pool.Steps (IPThread.StepKeeping dialing dohHost stampIP) p q ∧
      loadCachedIP (2 * second) dohHost q.shared = (some resolvedIP, false) := by
  have hload : IPThread.Step dialing (fun _ => none) (.resolve dohHost) (fun _ => none)
      [.resolving dohHost none] :=
    .load (rfl : outdatedAddress dialing 0 dohHost (fun _ => none) = some none)
  have hpin : IPThread.Step dialing (fun _ => none) (.pin dohHost stampIP) pinnedIPs [] :=
    .pin _ dohHost stampIP 0
  have hsave : IPThread.StepKeeping dialing dohHost stampIP pinnedIPs (.resolving dohHost none)
      (saveCachedIP (2 * second) dohHost (some resolvedIP) minResolverIPTTL pinnedIPs) [] :=
    ⟨.save (2 * second) (rfl : savedAddress dialing none bootstrapped = some (_, _)), nofun⟩
  have hpinned := (Relation.ReflTransGen.single (Pool.Step.run [] [_] hload)).tail
    (.run [_] [] hpin)
  exact ⟨_, _, hpinned, by decide, .single (.run [] [] hsave), by decide⟩

end Sample

end DnscryptProxy
