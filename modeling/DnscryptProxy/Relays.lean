import DnscryptProxy.Crypto
import DnscryptProxy.Registry
import Mathlib.Algebra.Group.Int.Defs

/-! `route` and `findFarthestRoute` of `serversInfo.go`: through which relay a server is
reached, and `fetchDNSCryptServerInfo`, which may give the relay up again.
`designated_relay_used` says that a server for which the table of routes lists relays is
reached through one of them or not at all. -/

namespace DnscryptProxy

open Library

/-! ## Addresses -/

/-- `strconv.Atoi`, for numbers of 64 bits. -/
def atoi (text : Text) : Option Int :=
  let (sign, digits) : Int × Text := match text with
    | '-' :: rest => (-1, rest)
    | '+' :: rest => (1, rest)
    | _ => (1, text)
  if digits = [] || !digits.all Char.isDigit then none
  else
    let n : Nat := digits.foldl (fun n c => n * 10 + (c.toNat - '0'.toNat)) 0
    let value := sign * n
    if -(2 ^ 63) ≤ value ∧ value < 2 ^ 63 then some value else none

/-- The part after the last colon is a port if it is a number. -/
def extractHostAndPort (str : Text) (defaultPort : Int) : Text × Int :=
  let tail := (str.reverse.takeWhile (· ≠ ':')).reverse
  if tail.length < str.length ∧ tail ≠ [] then
    match atoi tail with
    | some port => (str.take (str.length - tail.length - 1), port)
    | none => (str, defaultPort)
  else (str, defaultPort)

example : extractHostAndPort "192.0.2.1:53".toList 443 = ("192.0.2.1".toList, 53) := by decide
example : extractHostAndPort "[2001:db8::1]".toList 443 = ("[2001:db8::1]".toList, 443) := by decide

structure URL where
  scheme : Text
  host : Text
  path : Text
  rawQuery : Text
  deriving DecidableEq, Repr

/-- The packages `net` and `net/url`. `parseIP` gives 16 bytes; `addQuery` is `Query`, `Add`
and `Encode` together. -/
structure NetLibrary where
  parseIP : Text → Option IP
  parseIP_length : ∀ text ip, parseIP text = some ip → ip.length = 16
  resolve : NetProto → Text → Except GoError Endpoint
  parseURL : Text → Except GoError URL
  pathEscape : Text → Text
  addQuery : Text → List (Text × Text) → Text
  urlString : URL → Text

/-- `bits.LeadingZeros8` -/
def leadingZeros8 (x : UInt8) : Nat := if x = 0 then 8 else 7 - Nat.log2 x.toNat

/-- The number of leading bits that two addresses share, up to the first byte in which
they differ. -/
def samePrefixBits : Bytes → Bytes → Nat
  | s :: server, r :: relay =>
    if s ^^^ r ≠ 0 then leadingZeros8 (s ^^^ r) else 8 + samePrefixBits server relay
  | _, _ => 0

/-! ## Routes -/

/-- Why a call does not return. -/
inductive Abort where
  /-- `rand.Intn(0)` panics. -/
  | invalidIntn
  | fatal (text : String)
  deriving DecidableEq, Repr

/-- What `route` reads of the proxy. -/
structure Routing where
  routes : Option (List (Text × List Text))
  registry : ProxyRegistry
  info : ServersRegistry
  stamps : StampLibrary
  net : NetLibrary

/-- `l[rand.Intn(len(l))]` -/
def pick {α : Type} (draw : Nat) (l : List α) : Except Abort α :=
  match l[draw % l.length]? with
  | some a => .ok a
  | none => .error .invalidIntn

def relayProtoForServerProto : StampProtoType → Option StampProtoType
  | .dnscrypt => some .dnscryptRelay
  | .odohTarget => some .odohRelay
  | _ => none

def nonExistentRelay (name : Text) : GoError :=
  .plain ("Non-existent relay set for server [" ++ String.ofList name ++ "]")

def noValidRelay (name : Text) : GoError :=
  .plain ("No valid relay for server [" ++ String.ofList name ++ "]")

namespace Routing

variable (r : Routing)

/-- The relays that the table lists for a server, and whether they are those of the
wildcard entry. -/
def via (name : Text) : Option (List Text × Bool) :=
  r.routes.bind fun routes =>
    match lookup Prod.fst name routes with
    | some (_, relayNames) => some (relayNames, false)
    | none => (lookup Prod.fst ['*'] routes).map fun (_, relayNames) => (relayNames, true)

/-- The loop over the relays of a route, each stamp with the name it goes by. The loop ends
at a wildcard. -/
def relayStamps (relayProto : StampProtoType) : List Text → List (ServerStamp × Text) × Bool
  | [] => ([], false)
  | relayName :: relayNames =>
    match r.stamps.newServerStampFromString relayName with
    | .ok stamp =>
      let (stamps, wildcard) := relayStamps relayProto relayNames
      if stamp.proto = relayProto then ((stamp, relayName) :: stamps, wildcard)
      else (stamps, wildcard)
    | .error _ =>
      if relayName = ['*'] then
        ((r.info.registeredRelays.entries.filter (·.stamp.proto = relayProto)).map
          fun relay => (relay.stamp, relay.name), true)
      else
        let (stamps, wildcard) := relayStamps relayProto relayNames
        match r.info.registeredRelays.entries.find? fun relay =>
            relay.name = relayName && relay.stamp.proto = relayProto with
        | some relay => ((relay.stamp, relayName) :: stamps, wildcard)
        | none => (stamps, wildcard)

def compareRelay (serverAddr : IP) (best : List ServerStamp × Nat) (relayStamp : ServerStamp) :
    List ServerStamp × Nat :=
  if relayStamp.proto ≠ .dnscryptRelay then best
  else match r.net.parseIP (extractHostAndPort relayStamp.serverAddrStr 443).1 with
    | none => best
    | some relayAddr =>
      let relayIsIPv6 := (IP.to4 relayAddr).isNone
      if relayIsIPv6 ≠ (IP.to4 serverAddr).isNone then best
      else
        let firstByte := if relayIsIPv6 then 0 else 12
        let bits := samePrefixBits (serverAddr.drop firstByte) (relayAddr.drop firstByte)
        if bits ≤ best.2 then (best.1 ++ [relayStamp], bits) else best

def bestRelays (serverAddr : IP) (relayStamps : List ServerStamp) : List ServerStamp :=
  (relayStamps.foldl (r.compareRelay serverAddr) ([], 128)).1

def findFarthestRoute (name : Text) (relayStamps : List ServerStamp) (draw : Nat) :
    Except Abort (Option ServerStamp) :=
  match lookup RegisteredServer.name name r.info.registeredServers.entries with
  | none => .ok none
  | some server =>
    if server.stamp.proto = .odohTarget then
      (pick draw (relayStamps.filter (·.proto = .odohRelay))).map some
    else if server.stamp.proto ≠ .dnscrypt then .ok none
    else match r.net.parseIP (extractHostAndPort server.stamp.serverAddrStr 443).1 with
      | none => .ok none
      | some serverAddr =>
        if r.info.registeredRelays.entries = [] then .ok none
        else (pick draw (r.bestRelays serverAddr relayStamps)).map some

/-- The URL of an ODoH relay, before the target is added to it. -/
def relayBaseURL (relayStamp : ServerStamp) : Except GoError URL :=
  r.net.parseURL ("https://".toList ++ r.net.pathEscape relayStamp.providerName ++ relayStamp.path)

/-- The end of `route`: the relay behind the stamp that was chosen. The address of an ODoH
relay is saved for its host besides. -/
def relayBehind (name relayName : Text) (relayStamp : ServerStamp) : Except GoError Relay :=
  match relayStamp.proto with
  | .dnscrypt | .dnscryptRelay => do
    let relayUDPAddr ← r.net.resolve .udp relayStamp.serverAddrStr
    let relayTCPAddr ← r.net.resolve .tcp relayStamp.serverAddrStr
    return ⟨some ⟨relayUDPAddr, relayTCPAddr⟩, none⟩
  | .odohRelay => do
    let relayBaseURL ← r.relayBaseURL relayStamp
    match r.registry.registeredServers.entries.find? fun server =>
        server.name = name && server.stamp.proto = .odohTarget with
    | none => .error (.plain ("Relay [" ++ String.ofList relayName ++ "] not found"))
    | some server =>
      let rawQuery := r.net.addQuery relayBaseURL.rawQuery
        [("targethost".toList, server.stamp.providerName), ("targetpath".toList, server.stamp.path)]
      return ⟨none, some (r.net.urlString { relayBaseURL with rawQuery := rawQuery })⟩
  | _ => .error (.plain ("Invalid relay set for server [" ++ String.ofList name ++ "]"))

/-- The stamp to use among those of a route. -/
def candidate (name : Text) (relayStamps : List ServerStamp) (wildcard : Bool) (draw : Nat) :
    Except Abort (Option ServerStamp) :=
  if !wildcard || relayStamps.length = 1 then (pick draw relayStamps).map some
  else r.findFarthestRoute name relayStamps draw

/-- The name under which a stamp was last noted. -/
def nameOf (stamps : List (ServerStamp × Text)) (stamp : ServerStamp) : Text :=
  ((stamps.reverse.find? fun noted =>
    r.stamps.string noted.1 = r.stamps.string stamp).map Prod.snd).getD []

/-- What `route` returns for the stamp that was chosen among those of the list. -/
def routed (name : Text) (stamps : List (ServerStamp × Text)) :
    Option ServerStamp → Except GoError (Option Relay)
  | none => .error (noValidRelay name)
  | some stamp => (r.relayBehind name (r.nameOf stamps stamp) stamp).map some

def route (name : Text) (serverProto : StampProtoType) (draw : Nat) :
    Except Abort (Except GoError (Option Relay)) :=
  match r.via name with
  | none => .ok (.ok none)
  | some ([], _) => .ok (.ok none)
  | some (relayNames, wildcard) =>
    match relayProtoForServerProto serverProto with
    | none => .ok (.ok none)
    | some relayProto =>
      let (stamps, wildcard') := r.relayStamps relayProto relayNames
      if stamps = [] then .ok (.error (nonExistentRelay name))
      else
        (r.candidate name (stamps.map Prod.fst) (wildcard || wildcard') draw).map
          (r.routed name stamps)

section Route

variable {r} {name : Text} {relayNames : List Text} {wildcard : Bool}
  {serverProto relayProto : StampProtoType} (hvia : r.via name = some (relayNames, wildcard))
  (hproto : relayProtoForServerProto serverProto = some relayProto) (draw : Nat)

include hvia hproto

theorem route_of_no_stamps (hne : relayNames ≠ [])
    (hstamps : (r.relayStamps relayProto relayNames).1 = []) :
    r.route name serverProto draw = .ok (.error (nonExistentRelay name)) := by
  obtain ⟨first, rest, rfl⟩ := List.exists_cons_of_ne_nil hne
  simp [route, hvia, hproto, hstamps]

theorem route_of_stamps (hstamps : (r.relayStamps relayProto relayNames).1 ≠ []) :
    r.route name serverProto draw =
      (r.candidate name ((r.relayStamps relayProto relayNames).1.map Prod.fst)
        (wildcard || (r.relayStamps relayProto relayNames).2) draw).map
          (r.routed name (r.relayStamps relayProto relayNames).1) := by
  have hne : relayNames ≠ [] := by
    rintro rfl
    exact hstamps rfl
  obtain ⟨first, rest, rfl⟩ := List.exists_cons_of_ne_nil hne
  unfold route
  rw [hvia, hproto]
  dsimp only
  rw [if_neg hstamps]

end Route

/-! ## Relays that are designated -/

/-- An entry of a route designates the relay of a stamp: it is the text of the stamp, the
wildcard and the relay is registered, or the name of the relay. -/
inductive Designates (relayName : Text) (stamp : ServerStamp) : Prop where
  | stamp (parses : r.stamps.newServerStampFromString relayName = .ok stamp)
  | wildcard (relay : RegisteredServer) (registered : relay ∈ r.info.registeredRelays.entries)
      (wild : relayName = ['*']) (same : relay.stamp = stamp)
  | name (relay : RegisteredServer) (registered : relay ∈ r.info.registeredRelays.entries)
      (named : relay.name = relayName) (same : relay.stamp = stamp)

/-- The relay has the address of the stamp, or its URL with the target in the query. -/
inductive HasAddress (stamp : ServerStamp) : Relay → Prop where
  | dnscrypt {udp tcp : Endpoint} (proto : stamp.proto = .dnscryptRelay)
      (resolvesUDP : r.net.resolve .udp stamp.serverAddrStr = .ok udp)
      (resolvesTCP : r.net.resolve .tcp stamp.serverAddrStr = .ok tcp) :
      HasAddress stamp ⟨some ⟨udp, tcp⟩, none⟩
  | odoh {base : URL} (proto : stamp.proto = .odohRelay) (parses : r.relayBaseURL stamp = .ok base)
      (rawQuery : Text) :
      HasAddress stamp ⟨none, some (r.net.urlString { base with rawQuery := rawQuery })⟩

variable {r} {stamp : ServerStamp} {draw : Nat} {name : Text}

theorem relayStamps_designated {relayProto : StampProtoType} {relayNames : List Text} {noted : Text}
    (h : (stamp, noted) ∈ (r.relayStamps relayProto relayNames).1) :
    stamp.proto = relayProto ∧ ∃ relayName ∈ relayNames, r.Designates relayName stamp := by
  induction relayNames with
  | nil => simp [relayStamps] at h
  | cons relayName relayNames ih =>
    -- what the later entries designate, this list designates too
    have hlater : (stamp, noted) ∈ (r.relayStamps relayProto relayNames).1 →
        stamp.proto = relayProto ∧ ∃ name ∈ relayName :: relayNames, r.Designates name stamp := by
      intro hin
      obtain ⟨hproto, name, hname, hd⟩ := ih hin
      exact ⟨hproto, name, List.mem_cons_of_mem _ hname, hd⟩
    have hhere : stamp.proto = relayProto → r.Designates relayName stamp →
        stamp.proto = relayProto ∧ ∃ name ∈ relayName :: relayNames, r.Designates name stamp :=
      fun hproto hd => ⟨hproto, relayName, List.mem_cons_self, hd⟩
    unfold relayStamps at h
    split at h
    · next stamp' hparse =>
      dsimp only at h
      split at h
      · next hproto =>
        rcases List.mem_cons.mp h with heq | h
        · cases heq
          exact hhere hproto (.stamp hparse)
        · exact hlater h
      · exact hlater h
    · split at h
      · next hwild =>
        obtain ⟨relay, hrelay, heq⟩ := List.mem_map.mp h
        cases heq
        obtain ⟨hin, hproto⟩ := List.mem_filter.mp hrelay
        exact hhere (by simpa using hproto) (.wildcard relay hin hwild rfl)
      · dsimp only at h
        split at h
        · next relay hfind =>
          rcases List.mem_cons.mp h with heq | h
          · cases heq
            have hrelay := List.find?_some hfind
            simp only [Bool.and_eq_true, decide_eq_true_eq] at hrelay
            exact hhere hrelay.2 (.name relay (List.mem_of_find?_eq_some hfind) hrelay.1 rfl)
          · exact hlater h
        · exact hlater h

theorem pick_mem {α : Type} {l : List α} {a : α} (h : pick draw l = .ok a) : a ∈ l := by
  unfold pick at h
  split at h
  · next b hb =>
    cases h
    exact List.mem_of_getElem? hb
  · cases h

theorem pick_map_mem {α : Type} {l : List α} {a : α} (h : (pick draw l).map some = .ok (some a)) :
    a ∈ l := by
  obtain ⟨b, hp, hb⟩ := ok_of_map h
  cases hb
  exact pick_mem hp

theorem compareRelay_cases (serverAddr : IP) (best : List ServerStamp × Nat)
    (relayStamp : ServerStamp) :
    (r.compareRelay serverAddr best relayStamp).1 = best.1 ∨
      (r.compareRelay serverAddr best relayStamp).1 = best.1 ++ [relayStamp] := by
  unfold compareRelay
  dsimp only
  split
  · exact .inl rfl
  · split
    · exact .inl rfl
    · split
      · exact .inl rfl
      · generalize samePrefixBits _ _ = bits
        split
        · exact .inr rfl
        · exact .inl rfl

theorem bestRelays_subset (serverAddr : IP) (stamps : List ServerStamp) :
    r.bestRelays serverAddr stamps ⊆ stamps := by
  have hloop : ∀ (l : List ServerStamp) (best : List ServerStamp × Nat),
      (∀ s ∈ l, s ∈ stamps) → best.1 ⊆ stamps →
        (l.foldl (r.compareRelay serverAddr) best).1 ⊆ stamps := by
    intro l
    induction l with
    | nil => exact fun _ _ h => h
    | cons relayStamp l ih =>
      intro best hl hbest
      apply ih _ fun s hs => hl s (List.mem_cons_of_mem _ hs)
      rcases compareRelay_cases serverAddr best relayStamp with h | h
      · rw [h]
        exact hbest
      · rw [h]
        intro s hs
        rcases List.mem_append.mp hs with hs | hs
        · exact hbest hs
        · rw [List.mem_singleton.mp hs]
          exact hl relayStamp List.mem_cons_self
  exact hloop stamps ([], 128) (fun _ hs => hs) (List.nil_subset _)

theorem findFarthestRoute_mem {stamps : List ServerStamp}
    (h : r.findFarthestRoute name stamps draw = .ok (some stamp)) : stamp ∈ stamps := by
  unfold findFarthestRoute at h
  split at h
  · cases h
  · split at h
    · exact (List.mem_filter.mp (pick_map_mem h)).1
    · split at h
      · cases h
      · split at h
        · cases h
        · split at h
          · cases h
          · exact bestRelays_subset _ _ (pick_map_mem h)

theorem candidate_mem {stamps : List ServerStamp} {wildcard : Bool}
    (h : r.candidate name stamps wildcard draw = .ok (some stamp)) : stamp ∈ stamps := by
  unfold candidate at h
  split at h
  · exact pick_map_mem h
  · exact findFarthestRoute_mem h

theorem relayBehind_address {relayName : Text} {relay : Relay}
    (hproto : stamp.proto = .dnscryptRelay ∨ stamp.proto = .odohRelay)
    (h : r.relayBehind name relayName stamp = .ok relay) : r.HasAddress stamp relay := by
  rcases hproto with hproto | hproto
  · unfold relayBehind at h
    rw [hproto] at h
    cases hu : r.net.resolve .udp stamp.serverAddrStr with
    | error e =>
      simp [hu] at h
      cases h
    | ok udp =>
      cases ht : r.net.resolve .tcp stamp.serverAddrStr with
      | error e =>
        simp [hu, ht] at h
        cases h
      | ok tcp =>
        simp [hu, ht] at h
        cases h
        exact .dnscrypt hproto hu ht
  · unfold relayBehind at h
    rw [hproto] at h
    cases hb : r.relayBaseURL stamp with
    | error e =>
      simp [hb] at h
      cases h
    | ok base =>
      simp only [hb] at h
      dsimp only [bind, Except.bind] at h
      split at h
      · cases h
      · cases h
        exact .odoh hproto hb _

theorem route_designated {relayNames : List Text} {wildcard : Bool}
    {serverProto relayProto : StampProtoType} {result : Except GoError (Option Relay)}
    (hvia : r.via name = some (relayNames, wildcard)) (hne : relayNames ≠ [])
    (hproto : relayProtoForServerProto serverProto = some relayProto)
    (h : r.route name serverProto draw = .ok result) :
    (∃ e, result = .error e) ∨ ∃ relay stamp, result = .ok (some relay) ∧
      stamp.proto = relayProto ∧ (∃ relayName ∈ relayNames, r.Designates relayName stamp) ∧
      r.HasAddress stamp relay := by
  have hrelay : relayProto = .dnscryptRelay ∨ relayProto = .odohRelay := by
    cases serverProto <;> simp_all [relayProtoForServerProto]
  by_cases hstamps : (r.relayStamps relayProto relayNames).1 = []
  · rw [route_of_no_stamps hvia hproto draw hne hstamps] at h
    cases h
    exact .inl ⟨_, rfl⟩
  · rw [route_of_stamps hvia hproto draw hstamps] at h
    obtain ⟨chosen, hc, rfl⟩ := ok_of_map h
    cases chosen with
    | none => exact .inl ⟨_, rfl⟩
    | some stamp =>
      obtain ⟨⟨_, noted⟩, hin, rfl⟩ := List.mem_map.mp (candidate_mem hc)
      obtain ⟨hstamp, hdesignated⟩ := relayStamps_designated hin
      dsimp only [routed]
      generalize r.nameOf _ _ = relayName
      cases hb : r.relayBehind name relayName _ with
      | error e => exact .inl ⟨e, rfl⟩
      | ok relay =>
        have haddress := relayBehind_address (by rw [hstamp]; exact hrelay) hb
        exact .inr ⟨relay, _, rfl, hstamp, hdesignated, haddress⟩

end Routing

/-! ## Servers -/

/-- What is used of a certificate. -/
structure CertInfo where
  serverPk : Bytes
  sharedKey : Bytes
  magicQuery : Bytes
  cryptoConstruction : CryptoConstruction
  deriving DecidableEq, Repr

/-- What `FetchCurrentDNSCryptCert` returns. -/
structure CertReply where
  certInfo : CertInfo
  rtt : Int
  fragmentsBlocked : Bool
  err : Option GoError
  deriving DecidableEq, Repr

structure FetchSettings where
  serversBlockingFragments : List Text
  skipAnonIncompatibleResolvers : Bool
  deriving DecidableEq, Repr

def hexDigit (b : UInt8) : Option UInt8 :=
  if 0x30 ≤ b ∧ b ≤ 0x39 then some (b - 0x30)
  else if 0x61 ≤ b ∧ b ≤ 0x66 then some (b - 0x61 + 10)
  else if 0x41 ≤ b ∧ b ≤ 0x46 then some (b - 0x41 + 10)
  else none

/-- `hex.DecodeString` -/
def hexDecode : Bytes → Option Bytes
  | [] => some []
  | hi :: lo :: rest => do
    let hi ← hexDigit hi
    let lo ← hexDigit lo
    return (hi * 16 + lo) :: (← hexDecode rest)
  | [_] => none

def publicKeySize : Nat := 32

/-- The key of a stamp, which may be written in hexadecimal, with colons. -/
def serverPublicKey (name : Text) (serverPk : Bytes) : Except Abort Bytes :=
  if serverPk.length = publicKeySize then .ok serverPk
  else
    let unsupported := .error (.fatal ("Unsupported public key for [" ++ String.ofList name ++ "]: [" ++
      String.ofList (serverPk.map fun b => Char.ofNat b.toNat) ++ "]"))
    match hexDecode (serverPk.filter (· ≠ 0x3a)) with
    | some key => if key.length = publicKeySize then .ok key else unsupported
    | none => unsupported

/-- A relay is given up for a server that fragmented queries do not reach, or the server is
skipped. -/
def fetchDNSCryptServerInfo (r : Routing) (settings : FetchSettings)
    (fetchCert : Bytes → Option DNSCryptRelay → Bool → CertReply) (name : Text)
    (stamp : ServerStamp) (draw : Nat) : Except Abort (Except GoError (ServerInfo × Int)) := do
  let serverPk ← serverPublicKey name stamp.serverPk
  let known := settings.serversBlockingFragments.any (· = name)
  match ← r.route name stamp.proto draw with
  | .error e => return .error e
  | .ok relay =>
    let dnscryptRelay := relay.bind (·.dnscrypt)
    let reply := fetchCert serverPk dnscryptRelay known
    let fragmentsBlocked := known || reply.fragmentsBlocked
    let unreachable := fragmentsBlocked && dnscryptRelay.isSome
    if unreachable && settings.skipAnonIncompatibleResolvers then
      return .error (.plain "Resolver couldn't be reached anonymously")
    else match reply.err with
      | some e => return .error e
      | none => return do
        let remoteUDPAddr ← r.net.resolve .udp stamp.serverAddrStr
        let remoteTCPAddr ← r.net.resolve .tcp stamp.serverAddrStr
        let serverInfo : ServerInfo :=
          { name := name, proto := .dnscrypt, udpAddr := remoteUDPAddr, tcpAddr := remoteTCPAddr
            relay := if unreachable then none else relay
            url := [], useGet := false
            cryptoConstruction := reply.certInfo.cryptoConstruction
            serverPk := reply.certInfo.serverPk, sharedKey := reply.certInfo.sharedKey
            magicQuery := reply.certInfo.magicQuery, fragmentsBlocked := fragmentsBlocked
            odohTargetConfigs := [] }
        return (serverInfo, reply.rtt)

theorem fetchDNSCryptServerInfo_relay {r : Routing} {settings : FetchSettings}
    {fetchCert : Bytes → Option DNSCryptRelay → Bool → CertReply} {name : Text}
    {stamp : ServerStamp} {draw : Nat} {info : ServerInfo} {rtt : Int}
    (h : fetchDNSCryptServerInfo r settings fetchCert name stamp draw = .ok (.ok (info, rtt))) :
    ∃ relay, r.route name stamp.proto draw = .ok (.ok relay) ∧
      (settings.skipAnonIncompatibleResolvers = true → info.relay = relay) := by
  unfold fetchDNSCryptServerInfo at h
  obtain ⟨serverPk, -, h⟩ := ok_of_bind h
  obtain ⟨routed, hroute, h⟩ := ok_of_bind h
  cases routed with
  | error e => cases h
  | ok relay =>
    refine ⟨relay, hroute, ?_⟩
    intro hskip
    dsimp only at h
    generalize fetchCert serverPk (relay.bind (·.dnscrypt)) _ = reply at h
    generalize ((_ || _) && _) = unreachable at h
    rw [hskip, Bool.and_true] at h
    cases unreachable with
    | true => cases h
    | false =>
      simp only [Bool.false_eq_true, if_false] at h
      cases he : reply.err with
      | some e =>
        rw [he] at h
        cases h
      | none =>
        rw [he] at h
        obtain ⟨udp, -, h⟩ := ok_of_bind (Except.ok.inj h)
        obtain ⟨tcp, -, h⟩ := ok_of_bind h
        cases h
        rfl

/-- The protocol of the relays for a server's protocol. -/
inductive RelayProto : StampProtoType → StampProtoType → Prop where
  | dnscrypt : RelayProto .dnscrypt .dnscryptRelay
  | odoh : RelayProto .odohTarget .odohRelay

theorem RelayProto.eq {serverProto relayProto : StampProtoType}
    (h : RelayProto serverProto relayProto) :
    relayProtoForServerProto serverProto = some relayProto := by
  cases h <;> rfl

/-- A server for which the table lists relays. Whenever `route` returns, it returns an error
or a relay that the list designates, of the protocol that goes with the server's. Where
servers that cannot be reached through a relay are to be skipped, a DNSCrypt server is
taken into use only with a DNSCrypt relay. -/
theorem designated_relay_used (r : Routing) (settings : FetchSettings)
    (fetchCert : Bytes → Option DNSCryptRelay → Bool → CertReply) {name : Text}
    {relayNames : List Text} {wildcard : Bool} (hvia : r.via name = some (relayNames, wildcard))
    (hne : relayNames ≠ []) :
    (∀ serverProto relayProto draw result, RelayProto serverProto relayProto →
      r.route name serverProto draw = .ok result →
      (∃ e, result = .error e) ∨ ∃ relay stamp, result = .ok (some relay) ∧
        stamp.proto = relayProto ∧ (∃ relayName ∈ relayNames, r.Designates relayName stamp) ∧
        r.HasAddress stamp relay) ∧
    (settings.skipAnonIncompatibleResolvers = true → ∀ stamp draw info rtt,
      stamp.proto = .dnscrypt →
      fetchDNSCryptServerInfo r settings fetchCert name stamp draw = .ok (.ok (info, rtt)) →
      ∃ relay, info.dnscryptRelay = some relay) := by
  constructor
  · intro serverProto relayProto draw result hproto h
    exact Routing.route_designated hvia hne hproto.eq h
  · intro hskip stamp draw info rtt hproto h
    obtain ⟨relay, hroute, hrelay⟩ := fetchDNSCryptServerInfo_relay h
    rw [hproto] at hroute
    rcases Routing.route_designated hvia hne RelayProto.dnscrypt.eq hroute with
      ⟨e, he⟩ | ⟨relay', stamp', heq, hstamp, -, haddress⟩
    · cases he
    · cases heq
      cases haddress with
      | dnscrypt proto hu ht => exact ⟨_, by rw [ServerInfo.dnscryptRelay, hrelay hskip]; rfl⟩
      | odoh proto =>
        rw [hstamp] at proto
        cases proto

namespace Sample

def v4 (a b c d : UInt8) (port : UInt16) : Endpoint := ⟨[a, b, c, d], port, .inl rfl⟩

def relayEndpoint : Endpoint := v4 198 51 100 1 443

/-- A network with the addresses of one relay. -/
def net : NetLibrary where
  parseIP _ := none
  parseIP_length := nofun
  resolve _ text := if text = "198.51.100.1:443".toList then .ok relayEndpoint
    else .ok (v4 192 0 2 1 443)
  parseURL _ := .error (.plain "invalid URL")
  pathEscape text := text
  addQuery rawQuery _ := rawQuery
  urlString url := url.path

theorem mem_of_parsed {addresses : List (Text × IP)} {text : Text} {ip : IP}
    (h : (lookup Prod.fst text addresses).map Prod.snd = some ip) : (text, ip) ∈ addresses := by
  obtain ⟨e, he, rfl⟩ := Option.map_eq_some_iff.mp h
  exact (lookup_key he : e.1 = text) ▸ lookup_mem he

/-- The addresses of a table are parsed, and nothing else. -/
def netOf (addresses : List (Text × IP)) (h : ∀ e ∈ addresses, e.2.length = 16) : NetLibrary :=
  { net with
    parseIP := fun text => (lookup Prod.fst text addresses).map Prod.snd
    parseIP_length := fun _ _ hip => h _ (mem_of_parsed hip) }

/-- The server `mine` is to be reached through the relay `anon`. -/
def routing : Routing where
  routes := some [("mine".toList, ["anon".toList])]
  registry := ⟨⟨[⟨"mine".toList, dnscryptStamp⟩], .of_nodup (List.nodup_singleton _)⟩,
    ⟨[⟨"anon".toList, relayStamp⟩], .of_nodup (List.nodup_singleton _)⟩⟩
  info := ⟨⟨[⟨"mine".toList, dnscryptStamp⟩], List.nodup_singleton _⟩,
    ⟨[⟨"anon".toList, relayStamp⟩], List.nodup_singleton _⟩⟩
  stamps := stamps
  net := net

def certReply : CertReply := ⟨⟨[], [], [], .xChacha20Poly1305⟩, 20, false, none⟩

/-- The server is found through its relay. -/
theorem mine_reached_through_anon :
    routing.via "mine".toList = some (["anon".toList], false) ∧
      (∃ relay stamp, routing.route "mine".toList .dnscrypt 0 = .ok (.ok (some relay)) ∧
        routing.HasAddress stamp relay) ∧
      ∃ info relay, fetchDNSCryptServerInfo routing ⟨[], true⟩ (fun _ _ _ => certReply)
        "mine".toList dnscryptStamp 0 = .ok (.ok (info, 20)) ∧ info.dnscryptRelay = some relay := by
  have hroute : routing.route "mine".toList .dnscrypt 0 =
      .ok (.ok (some ⟨some ⟨relayEndpoint, relayEndpoint⟩, none⟩)) := by decide +kernel
  have h := designated_relay_used routing ⟨[], true⟩ (fun _ _ _ => certReply)
    (by decide : routing.via "mine".toList = some (["anon".toList], false)) (by decide)
  refine ⟨by decide, ?_, ?_⟩
  · rcases h.1 _ _ 0 _ .dnscrypt hroute with ⟨e, he⟩ | ⟨relay, stamp, heq, -, -, haddress⟩
    · cases he
    · exact ⟨relay, stamp, by rw [hroute, heq], haddress⟩
  · obtain ⟨relay, hrelay⟩ := h.2 rfl dnscryptStamp 0 _ 20 rfl rfl
    exact ⟨_, relay, rfl, hrelay⟩

end Sample

end DnscryptProxy
