import DnscryptProxy.Library.Selection
import DnscryptProxy.Relays

/-! Which relay `findFarthestRoute` chooses, and when it chooses none.

* `farthest_iff`: for which relays the choice is one that shares the fewest leading bits with
  the server, whatever is drawn. The loop keeps the relays it found before a better one, and it
  cannot read an IPv6 address as stamps store it.
* `choice_returns_iff`: when `route` and `findFarthestRoute` return at all; they panic if none
  of the relays can be compared with the server. -/

namespace DnscryptProxy

open Library

/-! ## Bits -/

/-- The bits of a byte, the highest one first. -/
def byteBits (b : UInt8) : List Bool := (List.range 8).map fun i => b.toNat.testBit (7 - i)

/-- The bits of an address: 32 for IPv4, 128 for IPv6. -/
def IP.bits (ip : IP) : List Bool := ((IP.to4 ip).getD ip).flatMap byteBits

/-- How many bits are the same before the first that differs. -/
def sharedBits : List Bool → List Bool → Nat
  | a :: as, b :: bs => if a = b then sharedBits as bs + 1 else 0
  | _, _ => 0

theorem sharedBits_append_self (a x y : List Bool) :
    sharedBits (a ++ x) (a ++ y) = a.length + sharedBits x y := by
  induction a with
  | nil => simp
  | cons b a ih =>
    simp only [List.cons_append, sharedBits, if_true, ih, List.length_cons]
    omega

theorem sharedBits_le (a b : List Bool) : sharedBits a b ≤ a.length := by
  induction a generalizing b with
  | nil => simp [sharedBits]
  | cons x a ih =>
    cases b with
    | nil => simp [sharedBits]
    | cons y b =>
      have hrest := ih b
      simp only [sharedBits, List.length_cons]
      split <;> omega

theorem sharedBits_append_of_ne {a b : List Bool} (hlen : a.length = b.length) (hne : a ≠ b)
    (x y : List Bool) : sharedBits (a ++ x) (b ++ y) = sharedBits a b := by
  induction a generalizing b with
  | nil => exact absurd (List.length_eq_zero_iff.mp hlen.symm).symm hne
  | cons c a ih =>
    cases b with
    | nil => cases hlen
    | cons d b =>
      by_cases hcd : c = d
      · subst hcd
        have hab : a ≠ b := fun h => hne (h ▸ rfl)
        simp only [List.cons_append, sharedBits, if_true]
        rw [ih (Nat.succ.inj hlen) hab]
      · simp [sharedBits, hcd]

theorem sharedBits_eq_takeWhile (a b : List Bool) :
    sharedBits a b = ((List.zipWith bne a b).takeWhile (! ·)).length := by
  induction a generalizing b with
  | nil => simp [sharedBits]
  | cons x a ih =>
    cases b with
    | nil => simp [sharedBits]
    | cons y b =>
      by_cases h : x = y
      · simp [sharedBits, h, ih]
      · have hb : (x != y) = true := bne_iff_ne.mpr h
        simp [sharedBits, h, hb]

theorem byteBits_xor (s r : UInt8) :
    byteBits (s ^^^ r) = List.zipWith bne (byteBits s) (byteBits r) := by
  simp [byteBits, UInt8.toNat_xor, Nat.testBit_xor, List.zipWith_map]

theorem byteBits_length (b : UInt8) : (byteBits b).length = 8 := by
  simp [byteBits]

theorem flatMap_byteBits_length (a : Bytes) : (a.flatMap byteBits).length = 8 * a.length := by
  induction a with
  | nil => rfl
  | cons b a ih =>
    rw [List.flatMap_cons, List.length_append, byteBits_length, ih, List.length_cons]
    omega

theorem leadingZeros8_eq (x : UInt8) :
    leadingZeros8 x = ((byteBits x).takeWhile (! ·)).length := by
  have h : ∀ n < 256, leadingZeros8 (UInt8.ofNat n) =
      ((byteBits (UInt8.ofNat n)).takeWhile (! ·)).length := by decide +kernel
  have hx := h x.toNat x.toNat_lt
  rwa [UInt8.ofNat_toNat] at hx

theorem samePrefixBits_eq (a b : Bytes) :
    samePrefixBits a b = sharedBits (a.flatMap byteBits) (b.flatMap byteBits) := by
  induction a generalizing b with
  | nil => simp [samePrefixBits, sharedBits]
  | cons s a ih =>
    cases b with
    | nil => simp [samePrefixBits, sharedBits]
    | cons r b =>
      have hlead : sharedBits (byteBits s) (byteBits r) = leadingZeros8 (s ^^^ r) := by
        rw [sharedBits_eq_takeWhile, ← byteBits_xor, leadingZeros8_eq]
      simp only [samePrefixBits, List.flatMap_cons]
      by_cases hsr : s ^^^ r = 0
      · have heq : s = r := by simpa using hsr
        subst heq
        rw [if_neg (by simp), sharedBits_append_self, byteBits_length, ih]
      · rw [if_pos hsr]
        have hne : byteBits s ≠ byteBits r := by
          intro heq
          have hself := sharedBits_append_self (byteBits r) [] []
          rw [List.append_nil, byteBits_length] at hself
          rw [heq, hself, leadingZeros8, if_neg hsr] at hlead
          simp only [sharedBits] at hlead
          omega
        rw [sharedBits_append_of_ne (by simp [byteBits_length]) hne, hlead]

/-- The loop with each of its index expressions checked, from byte `i` on. -/
def samePrefixBitsFrom (serverAddr relayAddr : IP) (i : Nat) : Nat → Except Panic Nat
  | 0 => .ok 0
  | n + 1 =>
    match serverAddr[i]?, relayAddr[i]? with
    | some s, some r =>
      if s ^^^ r ≠ 0 then .ok (leadingZeros8 (s ^^^ r))
      else (samePrefixBitsFrom serverAddr relayAddr (i + 1) n).map (8 + ·)
    | _, _ => .error .indexOutOfRange

theorem samePrefixBitsFrom_eq {serverAddr relayAddr : IP} (hs : serverAddr.length = 16)
    (hr : relayAddr.length = 16) {i n : Nat} (h : i + n = 16) :
    samePrefixBitsFrom serverAddr relayAddr i n =
      .ok (samePrefixBits (serverAddr.drop i) (relayAddr.drop i)) := by
  induction n generalizing i with
  | zero =>
    have hdrop : serverAddr.drop i = [] := List.drop_eq_nil_of_le (by omega)
    rw [hdrop]
    rfl
  | succ n ih =>
    have his : i < serverAddr.length := by omega
    have hir : i < relayAddr.length := by omega
    simp only [samePrefixBitsFrom, List.getElem?_eq_getElem his, List.getElem?_eq_getElem hir]
    rw [List.drop_eq_getElem_cons his, List.drop_eq_getElem_cons hir, samePrefixBits]
    split
    · rfl
    · rw [ih (by omega)]
      rfl

/-! ## Relays that can be compared -/

/-- `strings.TrimRight(strings.TrimLeft(ipStr, "["), "]")` -/
def trimBrackets (ipStr : Text) : Text :=
  ((ipStr.dropWhile (· = '[')).reverse.dropWhile (· = ']')).reverse

/-- `net.ParseIP` reads no address that stands in brackets. -/
def NetLibrary.Unbracketed (net : NetLibrary) : Prop :=
  ∀ text ip, net.parseIP text = some ip → trimBrackets text = text

namespace Routing

variable (r : Routing)

/-- The address of a stamp. An IPv6 address stands in brackets there. -/
def stampIP (stamp : ServerStamp) : Option IP :=
  r.net.parseIP (trimBrackets (extractHostAndPort stamp.serverAddrStr 443).1)

/-- The address of a stamp as `findFarthestRoute` reads it. -/
def hostIP (stamp : ServerStamp) : Option IP :=
  r.net.parseIP (extractHostAndPort stamp.serverAddrStr 443).1

/-- How many leading bits a DNSCrypt relay shares with a server, if it has an address, read in
the given way, of the same family. -/
def relayBits (readIP : ServerStamp → Option IP) (serverAddr : IP) (relay : ServerStamp) :
    Option Nat :=
  if relay.proto ≠ .dnscryptRelay then none
  else (readIP relay).bind fun relayAddr =>
    if (IP.to4 relayAddr).isNone = (IP.to4 serverAddr).isNone then
      some (sharedBits serverAddr.bits relayAddr.bits)
    else none

/-- No relay of the list shares fewer leading bits with the server. -/
def Farthest (serverAddr : IP) (stamps : List ServerStamp) (relay : ServerStamp) : Prop :=
  ∃ bits, relayBits r.stampIP serverAddr relay = some bits ∧
    ∀ other ∈ stamps, ∀ bits', relayBits r.stampIP serverAddr other = some bits' → bits ≤ bits'

variable {r} {ip : IP} {relay : ServerStamp}

theorem stampIP_of_hostIP (hnet : r.net.Unbracketed) {stamp : ServerStamp}
    (h : r.hostIP stamp = some ip) : r.stampIP stamp = some ip := by
  unfold stampIP
  rw [hnet _ _ h]
  exact h

theorem relayBits_of_hostIP (hnet : r.net.Unbracketed) {serverAddr : IP} {bits : Nat}
    (h : relayBits r.hostIP serverAddr relay = some bits) :
    relayBits r.stampIP serverAddr relay = some bits := by
  unfold relayBits at h ⊢
  split at h
  · cases h
  · next hproto =>
    obtain ⟨relayAddr, haddr, h⟩ := Option.bind_eq_some_iff.mp h
    rw [if_neg hproto, stampIP_of_hostIP hnet haddr]
    exact h

theorem bits_eq_drop (hlen : ip.length = 16) :
    ip.bits = (ip.drop (if (IP.to4 ip).isNone then 0 else 12)).flatMap byteBits := by
  unfold IP.bits IP.to4
  have hne : ip.length ≠ 4 := by omega
  by_cases h : ip.length = 16 ∧ ip.take 12 = IP.v4InV6Prefix
  · simp [h]
  · simp [hne, h]

theorem compareRelay_eq {serverAddr : IP} (hlen : serverAddr.length = 16) :
    r.compareRelay serverAddr = keepLow (relayBits r.hostIP serverAddr) := by
  funext best relay
  unfold compareRelay keepLow relayBits hostIP
  by_cases hproto : relay.proto = .dnscryptRelay
  · rw [if_neg (not_not.mpr hproto), if_neg (not_not.mpr hproto)]
    cases hip : r.net.parseIP (extractHostAndPort relay.serverAddrStr 443).1 with
    | none => rfl
    | some relayAddr =>
      have hrelay := r.net.parseIP_length _ _ hip
      by_cases hfamily : (IP.to4 relayAddr).isNone = (IP.to4 serverAddr).isNone
      · simp only [Option.bind_some, hfamily, ne_eq, not_true_eq_false, if_false, if_true]
        rw [samePrefixBits_eq, bits_eq_drop hlen, bits_eq_drop hrelay, hfamily]
      · simp [hfamily]
  · simp [hproto]

theorem bits_length_le (hlen : ip.length = 16) : ip.bits.length ≤ 128 := by
  rw [bits_eq_drop hlen, flatMap_byteBits_length, List.length_drop, hlen]
  omega

theorem relayBits_le {serverAddr : IP} (hlen : serverAddr.length = 16)
    {readIP : ServerStamp → Option IP} {bits : Nat}
    (h : relayBits readIP serverAddr relay = some bits) : bits ≤ 128 := by
  unfold relayBits at h
  split at h
  · cases h
  · obtain ⟨relayAddr, haddr, h⟩ := Option.bind_eq_some_iff.mp h
    split at h
    · cases h
      exact (sharedBits_le _ _).trans (bits_length_le hlen)
    · cases h

/-! ## The choice -/

theorem exists_first {key : ServerStamp → Option Nat} {stamps : List ServerStamp}
    (h : ∃ relay ∈ stamps, (key relay).isSome) :
    ∃ first, stamps.find? (fun relay => (key relay).isSome) = some first :=
  Option.isSome_iff_exists.mp (List.find?_isSome.mpr h)

theorem pick_ok_iff {α : Type} {l : List α} (draw : Nat) :
    (∃ a, pick draw l = .ok a) ↔ l ≠ [] := by
  constructor
  · rintro ⟨a, h⟩ rfl
    cases h
  · intro hne
    have hlt : draw % l.length < l.length := Nat.mod_lt draw (List.length_pos_iff.mpr hne)
    exact ⟨l[draw % l.length], by simp [pick, List.getElem?_eq_getElem hlt]⟩

theorem pick_of_mem {α : Type} {a : α} {l : List α} (h : a ∈ l) : ∃ draw, pick draw l = .ok a := by
  obtain ⟨i, hi, rfl⟩ := List.mem_iff_getElem.mp h
  exact ⟨i, by simp [pick, Nat.mod_eq_of_lt hi, List.getElem?_eq_getElem hi]⟩

variable (r) in
/-- The relays among which `findFarthestRoute` draws one, if it does not return without. -/
def drawnFrom (name : Text) (stamps : List ServerStamp) : Option (List ServerStamp) :=
  (lookup RegisteredServer.name name r.info.registeredServers.entries).bind fun server =>
    if server.stamp.proto = .odohTarget then some (stamps.filter (·.proto = .odohRelay))
    else if server.stamp.proto ≠ .dnscrypt then none
    else (r.hostIP server.stamp).bind fun serverAddr =>
      if r.info.registeredRelays.entries = [] then none
      else some (r.bestRelays serverAddr stamps)

theorem findFarthestRoute_eq (name : Text) (stamps : List ServerStamp) (draw : Nat) :
    r.findFarthestRoute name stamps draw =
      (r.drawnFrom name stamps).elim (.ok none) fun drawn => (pick draw drawn).map some := by
  unfold findFarthestRoute drawnFrom hostIP
  cases lookup RegisteredServer.name name r.info.registeredServers.entries with
  | none => rfl
  | some server =>
    simp only [Option.bind_some]
    split
    · rfl
    · split
      · rfl
      · cases r.net.parseIP (extractHostAndPort server.stamp.serverAddrStr 443).1 with
        | none => rfl
        | some serverAddr =>
          simp only [Option.bind_some]
          split <;> rfl

theorem findFarthestRoute_some_iff {name : Text} {stamps : List ServerStamp} {draw : Nat} :
    r.findFarthestRoute name stamps draw = .ok (some relay) ↔
      ∃ drawn, r.drawnFrom name stamps = some drawn ∧ pick draw drawn = .ok relay := by
  rw [findFarthestRoute_eq]
  cases r.drawnFrom name stamps with
  | none => simp
  | some drawn =>
    constructor
    · intro h
      obtain ⟨a, ha, heq⟩ := ok_of_map h
      cases heq
      exact ⟨drawn, rfl, ha⟩
    · rintro ⟨_, heq, h⟩
      cases heq
      rw [Option.elim_some, h]
      rfl

theorem drawnFrom_dnscrypt {name : Text} {server : RegisteredServer} {stamps : List ServerStamp}
    (hserver : lookup RegisteredServer.name name r.info.registeredServers.entries = some server)
    (hproto : server.stamp.proto = .dnscrypt) {drawn : List ServerStamp} :
    r.drawnFrom name stamps = some drawn ↔
      r.info.registeredRelays.entries ≠ [] ∧ ∃ serverAddr, r.hostIP server.stamp = some serverAddr ∧
        (stamps.foldl (keepLow (relayBits r.hostIP serverAddr)) ([], 128)).1 = drawn := by
  have hnot : server.stamp.proto ≠ .odohTarget := by simp [hproto]
  rw [drawnFrom, hserver, Option.bind_some, if_neg hnot, if_neg (not_not.mpr hproto),
    Option.bind_eq_some_iff]
  constructor
  · rintro ⟨serverAddr, haddr, h⟩
    split at h
    · cases h
    · next hrelays =>
      have hlen : serverAddr.length = 16 := r.net.parseIP_length _ _ haddr
      rw [bestRelays, compareRelay_eq hlen] at h
      exact ⟨hrelays, serverAddr, haddr, Option.some.inj h⟩
  · rintro ⟨hrelays, serverAddr, haddr, h⟩
    have hlen : serverAddr.length = 16 := r.net.parseIP_length _ _ haddr
    refine ⟨serverAddr, haddr, ?_⟩
    rw [if_neg hrelays, bestRelays, compareRelay_eq hlen, h]

theorem kept_ne_nil {serverAddr : IP} (hlen : serverAddr.length = 16) {stamps : List ServerStamp} :
    (stamps.foldl (keepLow (relayBits r.hostIP serverAddr)) ([], 128)).1 ≠ [] ↔
      ∃ relay ∈ stamps, (relayBits r.hostIP serverAddr relay).isSome := by
  constructor
  · intro hne
    obtain ⟨relay, hmem⟩ := List.exists_mem_of_ne_nil _ hne
    exact ⟨relay, (mem_foldl_keepLow hmem).resolve_left List.not_mem_nil⟩
  · intro hsome
    obtain ⟨first, hfirst⟩ := exists_first hsome
    exact List.ne_nil_of_mem (first_mem_keepLow (fun _ _ _ hk => relayBits_le hlen hk) hfirst)

section Farthest

variable {name : Text} {server : RegisteredServer} {serverAddr : IP} {stamps : List ServerStamp}

theorem farthest_of_first (hnet : r.net.Unbracketed) (hlen : serverAddr.length = 16)
    {first relay : ServerStamp}
    (hfirst : stamps.find? (fun relay => (relayBits r.hostIP serverAddr relay).isSome) = some first)
    (hfarthest : r.Farthest serverAddr stamps first)
    (hmem : relay ∈ (stamps.foldl (keepLow (relayBits r.hostIP serverAddr)) ([], 128)).1) :
    r.Farthest serverAddr stamps relay := by
  obtain ⟨least, hleast, hmin⟩ := hfarthest
  have hfirstKey := List.find?_some hfirst
  obtain ⟨bits, hbits⟩ := Option.isSome_iff_exists.mp hfirstKey
  have heq : bits = least := by
    rw [relayBits_of_hostIP hnet hbits] at hleast
    exact Option.some.inj hleast
  rw [heq] at hbits
  have hrelayBits := key_of_mem_keepLow (fun _ _ _ hk => relayBits_le hlen hk) hfirst hbits
    (fun other hother k hk => hmin other hother k (relayBits_of_hostIP hnet hk)) hmem
  exact ⟨least, relayBits_of_hostIP hnet hrelayBits, hmin⟩

/-- **The farthest relay.** For a DNSCrypt server, whatever is drawn, the relay that is chosen
shares the fewest leading bits with it, and one is chosen where one of the same family is
listed, exactly in these cases: there is none, or the address of the server does not stand in
brackets, some relay is registered, and of the relays whose addresses do not stand in brackets
the first one is a farthest one already. -/
theorem farthest_iff (hnet : r.net.Unbracketed)
    (hserver : lookup RegisteredServer.name name r.info.registeredServers.entries = some server)
    (hproto : server.stamp.proto = .dnscrypt) (haddr : r.stampIP server.stamp = some serverAddr) :
    ((∀ draw relay, r.findFarthestRoute name stamps draw = .ok (some relay) →
        r.Farthest serverAddr stamps relay) ∧
      ((∃ relay ∈ stamps, (relayBits r.stampIP serverAddr relay).isSome) →
        ∀ draw, ∃ relay, r.findFarthestRoute name stamps draw = .ok (some relay))) ↔
    ((∃ relay ∈ stamps, (relayBits r.stampIP serverAddr relay).isSome) →
      r.hostIP server.stamp = some serverAddr ∧ r.info.registeredRelays.entries ≠ [] ∧
      ∃ first, stamps.find? (fun relay => (relayBits r.hostIP serverAddr relay).isSome) =
        some first ∧ r.Farthest serverAddr stamps first) := by
  simp only [findFarthestRoute_some_iff, drawnFrom_dnscrypt hserver hproto]
  have hread {addr : IP} (h : r.hostIP server.stamp = some addr) : addr = serverAddr := by
    have heq := stampIP_of_hostIP hnet h
    rw [haddr] at heq
    exact (Option.some.inj heq).symm
  have hlen (h : r.hostIP server.stamp = some serverAddr) : serverAddr.length = 16 :=
    r.net.parseIP_length _ _ h
  constructor
  · rintro ⟨hfarthest, hreturns⟩ hsame
    obtain ⟨relay, drawn, ⟨hrelays, addr, hhost, rfl⟩, hpick⟩ := hreturns hsame 0
    cases hread hhost
    have htop : ∀ relay ∈ stamps, ∀ bits, relayBits r.hostIP serverAddr relay = some bits →
        bits ≤ 128 := fun _ _ _ hbits => relayBits_le (hlen hhost) hbits
    have hkept := (mem_foldl_keepLow (pick_mem hpick)).resolve_left List.not_mem_nil
    obtain ⟨first, hfirst⟩ := exists_first ⟨relay, hkept⟩
    obtain ⟨draw, hdraw⟩ := pick_of_mem (first_mem_keepLow htop hfirst)
    exact ⟨hhost, hrelays, first, hfirst,
      hfarthest draw first ⟨_, ⟨hrelays, serverAddr, hhost, rfl⟩, hdraw⟩⟩
  · intro hcondition
    constructor
    · rintro draw relay ⟨drawn, ⟨-, addr, hhost, rfl⟩, hpick⟩
      cases hread hhost
      have hmem := pick_mem hpick
      obtain ⟨hin, hkey⟩ := (mem_foldl_keepLow hmem).resolve_left List.not_mem_nil
      obtain ⟨bits, hbits⟩ := Option.isSome_iff_exists.mp hkey
      have hsame : ∃ relay ∈ stamps, (relayBits r.stampIP serverAddr relay).isSome :=
        ⟨relay, hin, by rw [relayBits_of_hostIP hnet hbits]; rfl⟩
      obtain ⟨-, -, first, hfirst, hfarthest⟩ := hcondition hsame
      exact farthest_of_first hnet (hlen hhost) hfirst hfarthest hmem
    · intro hsame draw
      obtain ⟨hhost, hrelays, first, hfirst, -⟩ := hcondition hsame
      have hfirstKey := List.find?_some hfirst
      have hne := (kept_ne_nil (hlen hhost)).mpr
        ⟨first, List.mem_of_find?_eq_some hfirst, hfirstKey⟩
      obtain ⟨relay, hpick⟩ := (pick_ok_iff draw).mpr hne
      exact ⟨relay, _, ⟨hrelays, serverAddr, hhost, rfl⟩, hpick⟩

end Farthest

/-! ## When a choice is made -/

variable (r) in
/-- `findFarthestRoute` draws from an empty list. -/
inductive NothingToDraw (name : Text) (stamps : List ServerStamp) : Prop where
  | odoh {server : RegisteredServer}
      (registered :
        lookup RegisteredServer.name name r.info.registeredServers.entries = some server)
      (proto : server.stamp.proto = .odohTarget)
      (others : ∀ relay ∈ stamps, relay.proto ≠ .odohRelay)
  | dnscrypt {server : RegisteredServer} {serverAddr : IP}
      (registered :
        lookup RegisteredServer.name name r.info.registeredServers.entries = some server)
      (proto : server.stamp.proto = .dnscrypt) (address : r.hostIP server.stamp = some serverAddr)
      (relays : r.info.registeredRelays.entries ≠ [])
      (others : ∀ relay ∈ stamps, relayBits r.hostIP serverAddr relay = none)

theorem kept_eq_nil {serverAddr : IP} (hlen : serverAddr.length = 16) {stamps : List ServerStamp} :
    (stamps.foldl (keepLow (relayBits r.hostIP serverAddr)) ([], 128)).1 = [] ↔
      ∀ relay ∈ stamps, relayBits r.hostIP serverAddr relay = none := by
  rw [← not_iff_not, ← ne_eq, kept_ne_nil hlen]
  simp [Option.isSome_iff_ne_none]

theorem drawnFrom_nil_iff {name : Text} {stamps : List ServerStamp} :
    r.drawnFrom name stamps = some [] ↔ r.NothingToDraw name stamps := by
  constructor
  · intro h
    obtain ⟨server, hserver, hrest⟩ := Option.bind_eq_some_iff.mp h
    split at hrest
    · next hproto =>
      have hnil := Option.some.inj hrest
      exact .odoh hserver hproto (by simpa [List.filter_eq_nil_iff] using hnil)
    · split at hrest
      · cases hrest
      · next hproto =>
        have hproto := not_not.mp hproto
        obtain ⟨hrelays, serverAddr, haddr, hnil⟩ := (drawnFrom_dnscrypt hserver hproto).mp h
        have hlen : serverAddr.length = 16 := r.net.parseIP_length _ _ haddr
        exact .dnscrypt hserver hproto haddr hrelays ((kept_eq_nil hlen).mp hnil)
  · intro h
    cases h with
    | odoh registered proto others =>
      simp only [drawnFrom, registered, Option.bind_some, proto, if_true, Option.some.injEq,
        List.filter_eq_nil_iff, decide_eq_true_eq]
      exact others
    | @dnscrypt _ serverAddr registered proto address relays others =>
      have hlen : serverAddr.length = 16 := r.net.parseIP_length _ _ address
      exact (drawnFrom_dnscrypt registered proto).mpr
        ⟨relays, serverAddr, address, (kept_eq_nil hlen).mpr others⟩

theorem findFarthestRoute_returns_iff (name : Text) (stamps : List ServerStamp) (draw : Nat) :
    (∃ result, r.findFarthestRoute name stamps draw = .ok result) ↔
      ¬ r.NothingToDraw name stamps := by
  rw [← drawnFrom_nil_iff, findFarthestRoute_eq]
  cases r.drawnFrom name stamps with
  | none => simp
  | some drawn =>
    rw [Option.elim_some, Option.some.injEq, ← ne_eq, ← pick_ok_iff draw]
    constructor
    · rintro ⟨result, h⟩
      obtain ⟨relay, hpick, -⟩ := ok_of_map h
      exact ⟨relay, hpick⟩
    · rintro ⟨relay, hpick⟩
      exact ⟨some relay, by rw [hpick]; rfl⟩

variable (r) in
/-- The route of a server has a wildcard and several relays, and none of these can be drawn. -/
inductive Stuck (name : Text) (serverProto : StampProtoType) : Prop where
  | intro {relayNames : List Text} {wildcard : Bool} {relayProto : StampProtoType}
      (via : r.via name = some (relayNames, wildcard)) (listed : relayNames ≠ [])
      (proto : relayProtoForServerProto serverProto = some relayProto)
      (wild : (wildcard || (r.relayStamps relayProto relayNames).2) = true)
      (several : 2 ≤ (r.relayStamps relayProto relayNames).1.length)
      (nothing : r.NothingToDraw name ((r.relayStamps relayProto relayNames).1.map Prod.fst))

theorem stuck_iff {name : Text} {serverProto relayProto : StampProtoType}
    {relayNames : List Text} {wildcard : Bool} (hvia : r.via name = some (relayNames, wildcard))
    (hne : relayNames ≠ []) (hproto : relayProtoForServerProto serverProto = some relayProto) :
    r.Stuck name serverProto ↔
      (wildcard || (r.relayStamps relayProto relayNames).2) = true ∧
      2 ≤ (r.relayStamps relayProto relayNames).1.length ∧
      r.NothingToDraw name ((r.relayStamps relayProto relayNames).1.map Prod.fst) := by
  constructor
  · rintro ⟨via, -, proto, wild, several, nothing⟩
    cases hvia.symm.trans via
    cases hproto.symm.trans proto
    exact ⟨wild, several, nothing⟩
  · rintro ⟨wild, several, nothing⟩
    exact .intro hvia hne hproto wild several nothing

theorem candidate_returns_iff {name : Text} {stamps : List ServerStamp} (hne : stamps ≠ [])
    (wildcard : Bool) (draw : Nat) :
    (∃ chosen, r.candidate name stamps wildcard draw = .ok chosen) ↔
      ¬ (wildcard = true ∧ 2 ≤ stamps.length ∧ r.NothingToDraw name stamps) := by
  have hpos : 0 < stamps.length := List.length_pos_iff.mpr hne
  unfold candidate
  split
  · next hsingle =>
    obtain ⟨relay, hpick⟩ := (pick_ok_iff draw).mpr hne
    rw [hpick]
    refine ⟨fun _ hstuck => ?_, fun _ => ⟨_, rfl⟩⟩
    simp only [Bool.or_eq_true, Bool.not_eq_true', decide_eq_true_eq] at hsingle
    rcases hsingle with hwild | hone
    · rw [hwild] at hstuck
      cases hstuck.1
    · omega
  · next hseveral =>
    simp only [Bool.or_eq_true, Bool.not_eq_true', decide_eq_true_eq, not_or] at hseveral
    have hwild : wildcard = true := by simpa using hseveral.1
    have htwo : 2 ≤ stamps.length := by omega
    rw [findFarthestRoute_returns_iff]
    simp [hwild, htwo]

theorem route_returns_of_candidate {name : Text} {serverProto relayProto : StampProtoType}
    {relayNames : List Text} {wildcard : Bool} (hvia : r.via name = some (relayNames, wildcard))
    (hproto : relayProtoForServerProto serverProto = some relayProto)
    (hstamps : (r.relayStamps relayProto relayNames).1 ≠ []) (draw : Nat) :
    (∃ result, r.route name serverProto draw = .ok result) ↔
      ∃ chosen, r.candidate name ((r.relayStamps relayProto relayNames).1.map Prod.fst)
        (wildcard || (r.relayStamps relayProto relayNames).2) draw = .ok chosen := by
  rw [route_of_stamps hvia hproto draw hstamps]
  constructor
  · rintro ⟨result, h⟩
    obtain ⟨chosen, hc, -⟩ := ok_of_map h
    exact ⟨chosen, hc⟩
  · rintro ⟨chosen, hc⟩
    rw [hc]
    exact ⟨_, rfl⟩

theorem route_returns_iff (name : Text) (serverProto : StampProtoType) (draw : Nat) :
    (∃ result, r.route name serverProto draw = .ok result) ↔ ¬ r.Stuck name serverProto := by
  cases hvia : r.via name with
  | none =>
    refine ⟨fun _ hstuck => ?_, fun _ => ⟨.ok none, by simp [route, hvia]⟩⟩
    obtain ⟨via⟩ := hstuck
    cases hvia.symm.trans via
  | some relays =>
    obtain ⟨relayNames, wildcard⟩ := relays
    by_cases hne : relayNames = []
    · subst hne
      refine ⟨fun _ hstuck => ?_, fun _ => ⟨.ok none, by simp [route, hvia]⟩⟩
      obtain ⟨via, listed⟩ := hstuck
      cases hvia.symm.trans via
      exact listed rfl
    · cases hproto : relayProtoForServerProto serverProto with
      | none =>
        obtain ⟨first, rest, rfl⟩ := List.exists_cons_of_ne_nil hne
        refine ⟨fun _ hstuck => ?_, fun _ => ⟨.ok none, by simp [route, hvia, hproto]⟩⟩
        obtain ⟨via, listed, proto⟩ := hstuck
        cases hproto.symm.trans proto
      | some relayProto =>
        rw [stuck_iff hvia hne hproto]
        by_cases hstamps : (r.relayStamps relayProto relayNames).1 = []
        · refine ⟨fun _ hstuck => ?_, fun _ => ⟨_, route_of_no_stamps hvia hproto draw hne hstamps⟩⟩
          rw [hstamps] at hstuck
          exact absurd hstuck.2.1 (by decide)
        · rw [route_returns_of_candidate hvia hproto hstamps,
            candidate_returns_iff (by simpa using hstamps), List.length_map]

/-- **A choice is made.** Whatever is drawn, `route` returns a relay, none or an error, unless
the route is stuck, and `findFarthestRoute` does so unless there is nothing to draw. The loop
over two addresses that were read never indexes past their ends. -/
theorem choice_returns_iff (r : Routing) (name : Text) :
    (∀ serverProto draw,
      (∃ result, r.route name serverProto draw = .ok result) ↔ ¬ r.Stuck name serverProto) ∧
    (∀ stamps draw,
      (∃ result, r.findFarthestRoute name stamps draw = .ok result) ↔
        ¬ r.NothingToDraw name stamps) ∧
    ∀ server relay serverAddr relayAddr, r.hostIP server = some serverAddr →
      r.hostIP relay = some relayAddr → ∀ firstByte ≤ 16,
        samePrefixBitsFrom serverAddr relayAddr firstByte (16 - firstByte) =
          .ok (samePrefixBits (serverAddr.drop firstByte) (relayAddr.drop firstByte)) := by
  refine ⟨route_returns_iff name, findFarthestRoute_returns_iff name, ?_⟩
  intro server relay serverAddr relayAddr hserver hrelay firstByte hfirst
  exact samePrefixBitsFrom_eq (r.net.parseIP_length _ _ hserver) (r.net.parseIP_length _ _ hrelay)
    (by omega)

end Routing

/-! A server with an IPv4 address and one with an IPv6 address, and relays for them. -/

namespace Sample

def addresses : List (Text × IP) :=
  [("192.0.2.1".toList, IP.v4InV6Prefix ++ [192, 0, 2, 1]),
   ("192.0.2.200".toList, IP.v4InV6Prefix ++ [192, 0, 2, 200]),
   ("198.51.100.1".toList, IP.v4InV6Prefix ++ [198, 51, 100, 1]),
   ("2001:db8::1".toList, [0x20, 1, 0xd, 0xb8, 0, 0, 0, 0, 0, 0, 0, 0, 0, 0, 0, 1]),
   ("2001:db8::2".toList, [0x20, 1, 0xd, 0xb8, 0, 0, 0, 0, 0, 0, 0, 0, 0, 0, 0, 2])]

def addressNet : NetLibrary := netOf addresses (by decide)

theorem addressNet_unbracketed : addressNet.Unbracketed := fun _ _ h =>
  (by decide : ∀ e ∈ addresses, trimBrackets e.1 = e.1) _ (mem_of_parsed h)

def serverAt (addr : String) : ServerStamp := { dnscryptStamp with serverAddrStr := addr.toList }

def relayAt (addr : String) : ServerStamp := { relayStamp with serverAddrStr := addr.toList }

def nearRelay : ServerStamp := relayAt "192.0.2.200:443"
def farRelay : ServerStamp := relayAt "198.51.100.1:443"
def relaySix : ServerStamp := relayAt "[2001:db8::2]:443"

/-- Servers with addresses of both families; all relays may be used for them. -/
def wildcardRouting (relays : Registry) : Routing where
  routes := some [("*".toList, ["*".toList])]
  registry := routing.registry
  info := ⟨⟨[⟨"four".toList, serverAt "192.0.2.1:443"⟩,
    ⟨"six".toList, serverAt "[2001:db8::1]:443"⟩], by decide⟩, relays⟩
  stamps := stamps
  net := addressNet

def relaysFour : Registry := ⟨[⟨"far".toList, farRelay⟩, ⟨"near".toList, nearRelay⟩], by decide⟩

def relaysSix : Registry := ⟨[⟨"one".toList, relaySix⟩, ⟨"two".toList, relaySix⟩], by decide⟩

def serverFour : IP := IP.v4InV6Prefix ++ [192, 0, 2, 1]

def serverSix : IP := [0x20, 1, 0xd, 0xb8, 0, 0, 0, 0, 0, 0, 0, 0, 0, 0, 0, 1]

theorem farRelay_farthest :
    (wildcardRouting relaysFour).Farthest serverFour [farRelay, nearRelay] farRelay := by
  refine ⟨5, by decide, ?_⟩
  have h : ∀ other ∈ [farRelay, nearRelay], 5 ≤
      (Routing.relayBits (wildcardRouting relaysFour).stampIP serverFour other).getD 0 := by decide
  intro other hother bits' hbits'
  have hle := h other hother
  rwa [hbits'] at hle

/-- With the farthest relay first, it is chosen. -/
theorem far_relay_first :
    (∀ draw relay,
      (wildcardRouting relaysFour).findFarthestRoute "four".toList [farRelay, nearRelay] draw =
        .ok (some relay) →
      (wildcardRouting relaysFour).Farthest serverFour [farRelay, nearRelay] relay) ∧
    ∀ draw, ∃ relay,
      (wildcardRouting relaysFour).findFarthestRoute "four".toList [farRelay, nearRelay] draw =
        .ok (some relay) := by
  have h := (@Routing.farthest_iff (wildcardRouting relaysFour) "four".toList _ serverFour
    [farRelay, nearRelay] addressNet_unbracketed rfl rfl (by decide)).mpr fun _ =>
      ⟨by decide, by decide, farRelay, by decide, farRelay_farthest⟩
  exact ⟨h.1, h.2 ⟨farRelay, List.mem_cons_self, by decide⟩⟩

/-- A relay that shares 24 bits with the server stands before one that shares 5, and is chosen.
For a server with an IPv6 address, no relay is chosen. -/
theorem near_relay_chosen :
    (wildcardRouting relaysFour).findFarthestRoute "four".toList [nearRelay, farRelay] 0 =
      .ok (some nearRelay) ∧
    Routing.relayBits (wildcardRouting relaysFour).stampIP serverFour nearRelay = some 24 ∧
    Routing.relayBits (wildcardRouting relaysFour).stampIP serverFour farRelay = some 5 ∧
    (wildcardRouting relaysSix).stampIP (serverAt "[2001:db8::1]:443") =
      some serverSix ∧
    Routing.relayBits (wildcardRouting relaysSix).stampIP serverSix relaySix = some 126 ∧
    (wildcardRouting relaysSix).findFarthestRoute "six".toList [relaySix] 0 = .ok none :=
  ⟨by decide +kernel, by decide +kernel, by decide +kernel, by decide +kernel, by decide +kernel,
    by decide +kernel⟩

/-- With two relays that have IPv6 addresses, the route of a server with an IPv4 address ends
in a panic. -/
theorem no_relay_to_draw :
    (wildcardRouting relaysSix).route "four".toList .dnscrypt 0 = .error .invalidIntn := by
  decide

end Sample

end DnscryptProxy
