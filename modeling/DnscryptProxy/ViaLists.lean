import DnscryptProxy.FarthestRelay

/-! The relays in a list `via` without a wildcard. They may be given by the stamp of a relay, by
the stamp of a DNSCrypt server, or by the name of a registered relay. `route` accepts relays of
both kinds of stamps at its end, but keeps those of one protocol only to choose from.
`documented_relay_iff` says for which lists a DNSCrypt server is routed as documented. -/

namespace DnscryptProxy

open Library

/-- The functions of the package `net` return errors of the package `net`. -/
def NetLibrary.NetErrors (net : NetLibrary) : Prop :=
  ∀ proto addr e, net.resolve proto addr = .error e → ∃ text timeout, e = .net text timeout

namespace Routing

variable (r : Routing)

inductive Documented (relayName : Text) (stamp : ServerStamp) : Prop where
  | relayStamp (parses : r.stamps.newServerStampFromString relayName = .ok stamp)
      (proto : stamp.proto = .dnscryptRelay)
  | serverStamp (parses : r.stamps.newServerStampFromString relayName = .ok stamp)
      (proto : stamp.proto = .dnscrypt)
  | name (relay : RegisteredServer) (registered : relay ∈ r.info.registeredRelays.entries)
      (named : relay.name = relayName) (same : relay.stamp = stamp)

/-- The relay behind a stamp, if its address resolves. -/
def relayAt (stamp : ServerStamp) : Except GoError Relay := do
  let relayUDPAddr ← r.net.resolve .udp stamp.serverAddrStr
  let relayTCPAddr ← r.net.resolve .tcp stamp.serverAddrStr
  return ⟨some ⟨relayUDPAddr, relayTCPAddr⟩, none⟩

/-- An entry that is kept: the stamp of a DNSCrypt relay, or the name of a registered one. -/
def Kept (relayName : Text) : Prop :=
  (∃ stamp, r.stamps.newServerStampFromString relayName = .ok stamp ∧
      stamp.proto = .dnscryptRelay) ∨
    (∃ e, r.stamps.newServerStampFromString relayName = .error e) ∧
      ∃ relay ∈ r.info.registeredRelays.entries,
        relay.name = relayName ∧ relay.stamp.proto = .dnscryptRelay

/-- The stamps that a DNSCrypt server may be routed through. -/
def keptStamps (relayNames : List Text) : List ServerStamp :=
  (r.relayStamps .dnscryptRelay relayNames).1.map Prod.fst

/-- Whatever is drawn, a DNSCrypt server is routed through a relay that an entry of the list
designates, provided that the address of that relay resolves. -/
def RoutedAsDocumented (name : Text) (relayNames : List Text) : Prop :=
  ∀ draw, r.route name .dnscrypt draw ≠ .ok (.error (nonExistentRelay name)) ∧
    ∃ relayName ∈ relayNames, ∃ stamp, r.Documented relayName stamp ∧
      r.route name .dnscrypt draw = .ok ((r.relayAt stamp).map some)

/-- Some entry is kept. Where the list is that of the default route and several are kept, there
is also one to draw after their addresses were compared with that of the server. -/
def Routable (name : Text) (relayNames : List Text) (default : Bool) : Prop :=
  (∃ relayName ∈ relayNames, r.Kept relayName) ∧
    (default = true → 2 ≤ (r.keptStamps relayNames).length →
      (r.drawnFrom name (r.keptStamps relayNames)).getD [] ≠ [])

variable {r}

/-! ## The entries that are kept -/

theorem relayStamps_not_wild {relayProto : StampProtoType} {relayNames : List Text}
    (h : ['*'] ∉ relayNames) : (r.relayStamps relayProto relayNames).2 = false := by
  induction relayNames with
  | nil => rfl
  | cons relayName relayNames ih =>
    obtain ⟨hfirst, hrest⟩ := not_or.mp (fun hmem => h (List.mem_cons.mpr hmem))
    unfold relayStamps
    split
    · dsimp only
      split <;> exact ih hrest
    · rw [if_neg fun heq => hfirst heq.symm]
      dsimp only
      split <;> exact ih hrest

theorem keptStamps_ne_nil_iff {relayNames : List Text} (h : ['*'] ∉ relayNames) :
    r.keptStamps relayNames ≠ [] ↔ ∃ relayName ∈ relayNames, r.Kept relayName := by
  induction relayNames with
  | nil => simp [keptStamps, relayStamps]
  | cons relayName relayNames ih =>
    obtain ⟨hfirst, hrest⟩ := not_or.mp (fun hmem => h (List.mem_cons.mpr hmem))
    rw [List.exists_mem_cons_iff, ← ih hrest]
    unfold keptStamps Kept
    rw [relayStamps]
    cases hparse : r.stamps.newServerStampFromString relayName with
    | ok stamp =>
      by_cases hproto : stamp.proto = .dnscryptRelay
      · simp [hproto]
      · simp [hproto]
    | error e =>
      rw [if_neg fun heq => hfirst heq.symm]
      cases hfind : r.info.registeredRelays.entries.find? fun relay =>
          relay.name = relayName && relay.stamp.proto = .dnscryptRelay with
      | none =>
        have hnone : ¬∃ relay ∈ r.info.registeredRelays.entries,
            relay.name = relayName ∧ relay.stamp.proto = .dnscryptRelay := by
          simpa [List.find?_eq_none] using hfind
        simp only [Except.error.injEq, exists_eq', true_and, hnone, reduceCtorEq, false_and,
          exists_false, or_self, false_or]
      | some relay =>
        have hrelay := List.find?_some hfind
        simp only [Bool.and_eq_true, decide_eq_true_eq] at hrelay
        have hsome : ∃ relay ∈ r.info.registeredRelays.entries,
            relay.name = relayName ∧ relay.stamp.proto = .dnscryptRelay :=
          ⟨relay, List.mem_of_find?_eq_some hfind, hrelay⟩
        simp [hsome]

theorem keptStamps_documented {relayNames : List Text} (h : ['*'] ∉ relayNames) {stamp : ServerStamp}
    (hstamp : stamp ∈ r.keptStamps relayNames) :
    stamp.proto = .dnscryptRelay ∧ ∃ relayName ∈ relayNames, r.Documented relayName stamp := by
  obtain ⟨⟨_, noted⟩, hmem, rfl⟩ := List.mem_map.mp hstamp
  obtain ⟨hproto, relayName, hname, hdesignates⟩ := relayStamps_designated hmem
  refine ⟨hproto, relayName, hname, ?_⟩
  cases hdesignates with
  | stamp parses => exact .relayStamp parses hproto
  | wildcard relay registered wild same => exact absurd (wild ▸ hname) h
  | name relay registered named same => exact .name relay registered named same

/-! ## The choice -/

section Choice

variable {name : Text} {relayNames : List Text} {default : Bool} (draw : Nat)

theorem route_of_none_kept (hvia : r.via name = some (relayNames, default)) (hne : relayNames ≠ [])
    (hnone : r.keptStamps relayNames = []) :
    r.route name .dnscrypt draw = .ok (.error (nonExistentRelay name)) :=
  route_of_no_stamps hvia rfl draw hne (List.map_eq_nil_iff.mp hnone)

theorem routed_of_kept (hwild : ['*'] ∉ relayNames) {stamp : ServerStamp}
    (hstamp : stamp ∈ r.keptStamps relayNames) :
    r.routed name (r.relayStamps .dnscryptRelay relayNames).1 (some stamp) =
      (r.relayAt stamp).map some := by
  rw [routed, relayBehind, (keptStamps_documented hwild hstamp).1]
  rfl

theorem route_of_kept (hvia : r.via name = some (relayNames, default)) (hwild : ['*'] ∉ relayNames)
    (hkept : r.keptStamps relayNames ≠ []) :
    (∃ stamp ∈ r.keptStamps relayNames,
        r.candidate name (r.keptStamps relayNames) default draw = .ok (some stamp) ∧
        r.route name .dnscrypt draw = .ok ((r.relayAt stamp).map some)) ∨
      (∀ stamp, r.candidate name (r.keptStamps relayNames) default draw ≠ .ok (some stamp)) ∧
        ∀ result, r.route name .dnscrypt draw = .ok result → result = .error (noValidRelay name) := by
  have hstamps : (r.relayStamps .dnscryptRelay relayNames).1 ≠ [] := by
    simpa [keptStamps] using hkept
  have hroute : r.route name .dnscrypt draw = _ := route_of_stamps hvia rfl draw hstamps
  rw [relayStamps_not_wild hwild, Bool.or_false, ← keptStamps] at hroute
  rcases hc : r.candidate name (r.keptStamps relayNames) default draw with abort | _ | stamp
  · refine .inr ⟨nofun, fun result h => ?_⟩
    rw [hroute, hc] at h
    cases h
  · refine .inr ⟨nofun, fun result h => ?_⟩
    rw [hroute, hc] at h
    exact (Except.ok.inj h).symm
  · have hmem := candidate_mem hc
    refine .inl ⟨stamp, hmem, rfl, ?_⟩
    rw [hroute, hc, Except.map, routed_of_kept hwild hmem]

theorem candidate_some_iff {stamps : List ServerStamp} (hne : stamps ≠ []) :
    (∃ stamp, r.candidate name stamps default draw = .ok (some stamp)) ↔
      (default = true → 2 ≤ stamps.length → (r.drawnFrom name stamps).getD [] ≠ []) := by
  have hpos : 0 < stamps.length := List.length_pos_iff.mpr hne
  unfold candidate
  split
  · next hsingle =>
    obtain ⟨stamp, hpick⟩ := (pick_ok_iff draw).mpr hne
    refine iff_of_true ⟨stamp, by rw [hpick]; rfl⟩ fun hdefault hlen => ?_
    simp only [hdefault, Bool.not_true, Bool.false_or, decide_eq_true_eq] at hsingle
    omega
  · next hseveral =>
    simp only [Bool.or_eq_true, Bool.not_eq_true', decide_eq_true_eq, not_or,
      Bool.not_eq_false] at hseveral
    have htwo : 2 ≤ stamps.length := by omega
    simp only [hseveral.1, htwo, forall_const, findFarthestRoute_some_iff]
    cases r.drawnFrom name stamps with
    | none => simp
    | some drawn =>
      rw [Option.getD_some, ← pick_ok_iff draw]
      simp

theorem relayAt_error (hnet : r.net.NetErrors) {stamp : ServerStamp} {e : GoError}
    (h : r.relayAt stamp = .error e) : ∃ text timeout, e = .net text timeout := by
  unfold relayAt at h
  cases hudp : r.net.resolve .udp stamp.serverAddrStr with
  | error e' =>
    rw [hudp] at h
    cases h
    exact hnet _ _ _ hudp
  | ok udp =>
    cases htcp : r.net.resolve .tcp stamp.serverAddrStr with
    | error e' =>
      rw [hudp, htcp] at h
      cases h
      exact hnet _ _ _ htcp
    | ok tcp =>
      rw [hudp, htcp] at h
      cases h

theorem relayAt_ne_plain (hnet : r.net.NetErrors) (stamp : ServerStamp) (text : String) :
    (r.relayAt stamp).map some ≠ .error (.plain text) := by
  intro h
  cases hrelay : r.relayAt stamp with
  | ok relay =>
    rw [hrelay] at h
    cases h
  | error e =>
    obtain ⟨text', timeout, rfl⟩ := relayAt_error hnet hrelay
    rw [hrelay] at h
    cases h

end Choice

/-- A DNSCrypt server with a list that has no wildcard is routed through a relay of the list exactly
if an entry is kept, and one can be drawn where that needs a comparison. That some entry designates
a relay is not enough. -/
theorem documented_relay_iff (hnet : r.net.NetErrors) {name : Text} {relayNames : List Text}
    {default : Bool} (hvia : r.via name = some (relayNames, default)) (hwild : ['*'] ∉ relayNames) :
    r.RoutedAsDocumented name relayNames ↔ r.Routable name relayNames default := by
  constructor
  · intro h
    obtain ⟨hexists, relayName, hname, stamp, hdocumented, hroute⟩ := h 0
    have hkept : r.keptStamps relayNames ≠ [] := fun hnone =>
      hexists (route_of_none_kept 0 hvia (List.ne_nil_of_mem hname) hnone)
    refine ⟨(keptStamps_ne_nil_iff hwild).mp hkept, (candidate_some_iff 0 hkept).mp ?_⟩
    rcases route_of_kept 0 hvia hwild hkept with ⟨stamp', -, hcandidate, -⟩ | ⟨-, hresult⟩
    · exact ⟨stamp', hcandidate⟩
    · exact absurd (hresult _ hroute) (relayAt_ne_plain hnet stamp _)
  · rintro ⟨hentry, hdraw⟩ draw
    have hkept := (keptStamps_ne_nil_iff hwild).mpr hentry
    obtain ⟨chosen, hcandidate⟩ := (candidate_some_iff draw hkept).mpr hdraw
    rcases route_of_kept draw hvia hwild hkept with ⟨stamp, hmem, -, hroute⟩ | ⟨hnone, -⟩
    · obtain ⟨-, relayName, hname, hdocumented⟩ := keptStamps_documented hwild hmem
      refine ⟨?_, relayName, hname, stamp, hdocumented, hroute⟩
      rw [hroute]
      exact fun heq => relayAt_ne_plain hnet stamp _ (Except.ok.inj heq)
    · exact absurd hcandidate (hnone chosen)

end Routing

namespace Sample

theorem net_netErrors : net.NetErrors := by
  intro proto addr e h
  dsimp only [net] at h
  split at h <;> cases h

theorem mine_routed_as_documented : routing.RoutedAsDocumented "mine".toList ["anon".toList] := by
  refine (Routing.documented_relay_iff net_netErrors
    (by decide : routing.via "mine".toList = some (["anon".toList], false)) (by decide)).mpr ?_
  refine ⟨⟨"anon".toList, List.mem_cons_self, .inr ⟨⟨_, rfl⟩, ?_⟩⟩, nofun⟩
  exact ⟨⟨"anon".toList, relayStamp⟩, List.mem_cons_self, rfl, rfl⟩

/-- The stamp of a DNSCrypt server as a relay, which the documentation allows. -/
def viaServer : Routing :=
  { routing with routes := some [("mine".toList, [dnscryptText])] }

theorem server_stamp_not_found :
    viaServer.via "mine".toList = some ([dnscryptText], false) ∧
      viaServer.Documented dnscryptText dnscryptStamp ∧
      ∀ draw, viaServer.route "mine".toList .dnscrypt draw =
        .ok (.error (.plain "Non-existent relay set for server [mine]")) :=
  ⟨by decide, .serverStamp rfl rfl, fun _ => rfl⟩

end Sample

end DnscryptProxy
