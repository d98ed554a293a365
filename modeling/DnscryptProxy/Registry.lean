import DnscryptProxy.Basic
import DnscryptProxy.Library.Chain
import DnscryptProxy.Library.KeyedList
import Mathlib.Data.List.ReduceOption

/-! The servers and relays that are known by name. The proxy keeps one registry, which
`loadSources` of `config.go` fills from the static entries and `updateRegisteredServers`
of `proxy.go` from the sources; `serversInfo` has a copy of it, from which servers are
taken into use. `registries_agree_iff` says when the two agree after an update, and
`separate_iff` when the lists of servers and of relays have nothing but servers and relays. -/

namespace DnscryptProxy

open Library

/-! ## Stamps -/

inductive StampProtoType where
  | plain
  | dnscrypt
  | doh
  | tls
  | doq
  | odohTarget
  | dnscryptRelay
  | odohRelay
  deriving DecidableEq, Repr

structure ServerStamp where
  serverAddrStr : Text
  serverPk : Bytes
  hashes : List Bytes
  providerName : Text
  path : Text
  props : UInt64
  proto : StampProtoType
  deriving DecidableEq, Repr

/-- The package `go-dnsstamps`: the stamp in a text, and the text of a stamp. Texts of
different stamps may be the same, where an IPv6 address stands without brackets. -/
structure StampLibrary where
  newServerStampFromString : Text → Except GoError ServerStamp
  string : ServerStamp → Text

/-- A library that knows the stamps of a table only. -/
def StampLibrary.ofTable (table : List (Text × ServerStamp)) : StampLibrary where
  newServerStampFromString text :=
    match table.find? (·.1 = text) with
    | some (_, stamp) => .ok stamp
    | none => .error (.plain "Stamps are expected to start with \"sdns:\"")
  string stamp := ((table.find? (·.2 = stamp)).map Prod.fst).getD []

structure RegisteredServer where
  name : Text
  stamp : ServerStamp
  deriving DecidableEq, Repr

def GoError.text : GoError → String
  | .plain text => text
  | .net text _ => text

def ServerStamp.isRelay (stamp : ServerStamp) : Bool :=
  stamp.proto = .dnscryptRelay || stamp.proto = .odohRelay

/-! ## The two registries -/

structure Registered where
  entries : List RegisteredServer
  consistent : Consistent RegisteredServer.name entries

structure ProxyRegistry where
  registeredServers : Registered
  registeredRelays : Registered

/-- A list of `serversInfo`, where every name stands once. -/
structure Registry where
  entries : List RegisteredServer
  nodup : (entries.map RegisteredServer.name).Nodup

structure ServersRegistry where
  registeredServers : Registry
  registeredRelays : Registry

/-- What `registerServer` and `registerRelay` do to their list. -/
def Registry.register (registry : Registry) (server : RegisteredServer) : Registry :=
  ⟨upsert RegisteredServer.name server registry.entries, upsert_nodup registry.nodup⟩

def registerServer (info : ServersRegistry) (server : RegisteredServer) : ServersRegistry :=
  { info with registeredServers := info.registeredServers.register server }

def registerRelay (info : ServersRegistry) (relay : RegisteredServer) : ServersRegistry :=
  { info with registeredRelays := info.registeredRelays.register relay }

/-- What a registry has under a name, among its relays or among its servers. -/
def ProxyRegistry.find (registry : ProxyRegistry) (relays : Bool) (name : Text) :
    Option RegisteredServer :=
  lookup RegisteredServer.name name
    (if relays then registry.registeredRelays else registry.registeredServers).entries

def ServersRegistry.find (info : ServersRegistry) (relays : Bool) (name : Text) :
    Option RegisteredServer :=
  lookup RegisteredServer.name name
    (if relays then info.registeredRelays else info.registeredServers).entries

/-! ## Static entries -/

/-- The static entries of the configuration, each with the text of its stamp. -/
structure StaticsConfig where
  entries : List (Text × Text)
  nodup : (entries.map Prod.fst).Nodup

section Statics

variable (lib : StampLibrary) (statics : StaticsConfig)

/-- The static relays, those whose stamp can be parsed. -/
def staticRelays : List RegisteredServer :=
  statics.entries.filterMap fun (name, text) =>
    match lib.newServerStampFromString text with
    | .ok stamp => if stamp.isRelay then some ⟨name, stamp⟩ else none
    | .error _ => none

/-- The static entry for a name of `server_names`, if there is one. -/
def staticServer (serverName : Text) : Except GoError (Option RegisteredServer) :=
  match lookup Prod.fst serverName statics.entries with
  | none => .ok none
  | some (_, text) =>
    if text = [] then
      .error (.plain ("Missing stamp for the static [" ++ String.ofList serverName ++ "] definition"))
    else match lib.newServerStampFromString text with
      | .ok stamp => .ok (some ⟨serverName, stamp⟩)
      | .error e => .error (.plain ("Stamp error for the static [" ++ String.ofList serverName ++
          "] definition: [" ++ e.text ++ "]"))

def staticServers (serverNames : List Text) : Except GoError (List RegisteredServer) := do
  let names := if serverNames = [] then statics.entries.map Prod.fst else serverNames
  let servers ← names.mapM (staticServer lib statics)
  return servers.reduceOption

variable {lib statics}

theorem staticRelays_consistent :
    Consistent RegisteredServer.name (staticRelays lib statics) := by
  have hentry : ∀ relay ∈ staticRelays lib statics, ∃ text, (relay.name, text) ∈ statics.entries ∧
      lib.newServerStampFromString text = .ok relay.stamp := by
    intro relay hr
    obtain ⟨⟨name, text⟩, hin, hsome⟩ := List.mem_filterMap.mp hr
    dsimp only at hsome
    split at hsome
    · next stamp hstamp =>
      split at hsome
      · cases hsome
        exact ⟨text, hin, hstamp⟩
      · cases hsome
    · cases hsome
  intro x hx y hy hname
  obtain ⟨text, hin, hstamp⟩ := hentry x hx
  obtain ⟨text', hin', hstamp'⟩ := hentry y hy
  rw [← hname] at hin'
  -- a static name has one text, and so one stamp
  cases Consistent.of_nodup statics.nodup _ hin _ hin' rfl
  rw [hstamp] at hstamp'
  obtain ⟨name, stamp⟩ := x
  obtain ⟨name', stamp'⟩ := y
  cases hname
  cases hstamp'
  rfl

theorem staticServer_name {serverName : Text} {server : RegisteredServer}
    (h : staticServer lib statics serverName = .ok (some server)) : server.name = serverName := by
  unfold staticServer at h
  split at h
  · cases h
  · split at h
    · cases h
    · split at h
      · cases h
        rfl
      · cases h

theorem staticServers_consistent {serverNames : List Text} {servers : List RegisteredServer}
    (h : staticServers lib statics serverNames = .ok servers) :
    Consistent RegisteredServer.name servers := by
  have hentry : ∀ server ∈ servers,
      staticServer lib statics server.name = .ok (some server) := by
    unfold staticServers at h
    generalize (if serverNames = [] then statics.entries.map Prod.fst else serverNames) = names at h
    obtain ⟨found, hm, h⟩ := ok_of_bind h
    cases h
    intro server hs
    have hfound : some server ∈ found := List.reduceOption_mem_iff.mp hs
    obtain ⟨name, -, hname⟩ := mapM_mem hm hfound
    rw [staticServer_name hname]
    exact hname
  intro x hx y hy hname
  have hx := hentry x hx
  rw [hname, hentry y hy] at hx
  cases hx
  rfl

end Statics

/-! ## Sources -/

/-- The settings that decide which entries of the sources are used. -/
structure SourceSettings where
  serverNames : List Text
  disabledServerNames : List Text
  requiredProps : UInt64
  sourceIPv4 : Bool
  sourceIPv6 : Bool
  sourceDNSCrypt : Bool
  sourceDoH : Bool
  sourceODoH : Bool
  deriving DecidableEq, Repr

/-- What `Parse` returns for a source, servers and an error together. -/
structure ParsedSource where
  registeredServers : List RegisteredServer
  err : Option GoError
  deriving DecidableEq, Repr

/-- The source ends the update. -/
def ParsedSource.unusable (source : ParsedSource) : Bool :=
  source.err.isSome && source.registeredServers = []

section Sources

variable (lib : StampLibrary) (equalFold : Text → Text → Bool) (settings : SourceSettings)

def includesName (names : List Text) (name : Text) : Bool := names.any (equalFold · name)

/-- Whether a stamp has an IPv4 address and whether it has an IPv6 address. -/
def ServerStamp.families (stamp : ServerStamp) : Bool × Bool :=
  if stamp.serverAddrStr.head? = some '[' then (false, true)
  else (true, stamp.proto = .doh)

/-- The checks that an entry of a source passes before it is registered. -/
def wanted (server : RegisteredServer) : Bool :=
  let stamp := server.stamp
  let named := stamp.isRelay ||
    if settings.serverNames ≠ [] then includesName equalFold settings.serverNames server.name
    else stamp.props &&& settings.requiredProps = settings.requiredProps
  let families := !(settings.sourceIPv4 || settings.sourceIPv6) ||
    (settings.sourceIPv4 = stamp.families.1 || settings.sourceIPv6 = stamp.families.2)
  let protocol := stamp.isRelay || (settings.sourceDNSCrypt && stamp.proto = .dnscrypt) ||
    (settings.sourceDoH && stamp.proto = .doh) || (settings.sourceODoH && stamp.proto = .odohTarget)
  named && !includesName equalFold settings.disabledServerNames server.name && families && protocol

def updateStamp (server current : RegisteredServer) : RegisteredServer :=
  if current.name = server.name ∧ lib.string current.stamp ≠ lib.string server.stamp then
    { current with stamp := server.stamp }
  else current

def updateOrAdd (entries : List RegisteredServer) (server : RegisteredServer) :
    List RegisteredServer :=
  let updated := entries.map (updateStamp lib server)
  if entries.any fun current => current.name = server.name then updated else updated ++ [server]

variable {lib equalFold settings}

@[simp] theorem updateStamp_name (server current : RegisteredServer) :
    (updateStamp lib server current).name = current.name := by
  unfold updateStamp
  split <;> rfl

theorem updateStamp_of_ne {server current : RegisteredServer} (h : current.name ≠ server.name) :
    updateStamp lib server current = current := by
  simp [updateStamp, h]

theorem updateOrAdd_consistent {entries : List RegisteredServer}
    (h : Consistent RegisteredServer.name entries) (server : RegisteredServer) :
    Consistent RegisteredServer.name (updateOrAdd lib entries server) := by
  have hupdated : Consistent RegisteredServer.name (entries.map (updateStamp lib server)) := by
    intro x hx y hy hname
    obtain ⟨x', hx', rfl⟩ := List.mem_map.mp hx
    obtain ⟨y', hy', rfl⟩ := List.mem_map.mp hy
    rw [updateStamp_name, updateStamp_name] at hname
    rw [h x' hx' y' hy' hname]
  unfold updateOrAdd
  split
  · exact hupdated
  · next hnew =>
    -- no entry has the name of the new one
    have hne : ∀ x ∈ entries.map (updateStamp lib server), x.name ≠ server.name := by
      intro x hx
      obtain ⟨y, hy, rfl⟩ := List.mem_map.mp hx
      rw [updateStamp_name]
      intro hname
      exact hnew (List.any_eq_true.mpr ⟨y, hy, by simpa using hname⟩)
    intro x hx y hy hname
    rcases List.mem_append.mp hx with hx | hx <;> rcases List.mem_append.mp hy with hy | hy
    · exact hupdated x hx y hy hname
    · rw [List.mem_singleton.mp hy] at hname
      exact absurd hname (hne x hx)
    · rw [List.mem_singleton.mp hx] at hname
      exact absurd hname.symm (hne y hy)
    · rw [List.mem_singleton.mp hx, List.mem_singleton.mp hy]

variable (lib equalFold settings)

def Registered.update (registered : Registered) (server : RegisteredServer) : Registered :=
  ⟨updateOrAdd lib registered.entries server, updateOrAdd_consistent registered.consistent server⟩

/-- The body of the loop over the entries of a source. -/
def addServer (registry : ProxyRegistry) (server : RegisteredServer) : ProxyRegistry :=
  if wanted equalFold settings server then
    if server.stamp.isRelay then
      { registry with registeredRelays := registry.registeredRelays.update lib server }
    else { registry with registeredServers := registry.registeredServers.update lib server }
  else registry

/-- The loop over the sources. -/
def readSources (registry : ProxyRegistry) : List ParsedSource → Option GoError × ProxyRegistry
  | [] => (none, registry)
  | source :: sources =>
    match source.err, source.registeredServers with
    | some e, [] => (some e, registry)
    | _, servers => readSources (servers.foldl (addServer lib equalFold settings) registry) sources

def updateRegisteredServers (sources : List ParsedSource) (registry : ProxyRegistry)
    (info : ServersRegistry) : Option GoError × ProxyRegistry × ServersRegistry :=
  match readSources lib equalFold settings registry sources with
  | (some e, registry) => (some e, registry, info)
  | (none, registry) =>
    let info := registry.registeredServers.entries.foldl registerServer info
    let info := registry.registeredRelays.entries.foldl registerRelay info
    (none, registry, info)

def ServersRegistry.empty : ServersRegistry := ⟨⟨[], List.nodup_nil⟩, ⟨[], List.nodup_nil⟩⟩

/-- The registries when the configuration is loaded. The error of the update is ignored;
the order in which both are shuffled at the end matters to nobody here. -/
def loadSources (statics : StaticsConfig) (sources : List ParsedSource) :
    Except GoError (ProxyRegistry × ServersRegistry) :=
  match h : staticServers lib statics settings.serverNames with
  | .error e => .error e
  | .ok servers =>
    .ok (updateRegisteredServers lib equalFold settings sources
      ⟨⟨servers, staticServers_consistent h⟩, ⟨staticRelays lib statics, staticRelays_consistent⟩⟩
      .empty).2

/-! ## What an update leaves -/

/-- What is registered under the name of `server` when it was listed and `found` was
registered before. -/
def mergeStamp (server : RegisteredServer) : Option RegisteredServer → RegisteredServer
  | none => server
  | some current => updateStamp lib server current

variable {lib equalFold settings}

theorem lookup_updateOrAdd (entries : List RegisteredServer) (server : RegisteredServer)
    (name : Text) : lookup RegisteredServer.name name (updateOrAdd lib entries server) =
      if server.name = name then
        some (mergeStamp lib server (lookup RegisteredServer.name name entries))
      else lookup RegisteredServer.name name entries := by
  have hmap : lookup RegisteredServer.name name (entries.map (updateStamp lib server)) =
      (lookup RegisteredServer.name name entries).map (updateStamp lib server) := by
    unfold lookup
    rw [List.find?_map]
    simp only [Function.comp_def, updateStamp_name]
  have hany : (entries.any fun current => current.name = server.name) = true ↔
      lookup RegisteredServer.name server.name entries ≠ none := by
    rw [Ne, lookup_eq_none, List.any_eq_true]
    simp
  unfold updateOrAdd
  by_cases hname : server.name = name
  · subst hname
    rw [if_pos rfl]
    cases hl : lookup RegisteredServer.name server.name entries with
    | none =>
      rw [if_neg (by rw [hany, hl]; simp), lookup_append_singleton, hmap, hl]
      simp [mergeStamp]
    | some current =>
      rw [if_pos (by rw [hany, hl]; simp), hmap, hl]
      rfl
  · rw [if_neg hname]
    have hother : (lookup RegisteredServer.name name entries).map (updateStamp lib server) =
        lookup RegisteredServer.name name entries := by
      cases hl : lookup RegisteredServer.name name entries with
      | none => rfl
      | some current =>
        have hne : current.name ≠ server.name := fun h => hname (h.symm.trans (lookup_key hl))
        rw [Option.map_some, updateStamp_of_ne hne]
    split
    · rw [hmap, hother]
    · rw [lookup_append_singleton, hmap, hother, if_neg hname, Option.or_none]

variable (lib equalFold settings)

/-- The entry of a source is about the given name, among the relays or the servers. -/
def concerns (relays : Bool) (server : RegisteredServer) (name : Text) : Bool :=
  wanted equalFold settings server && server.stamp.isRelay = relays && server.name = name

/-- The entries that are read: those of the sources before the first unusable one. -/
def listed (sources : List ParsedSource) : List RegisteredServer :=
  (sources.takeWhile fun source => !source.unusable).flatMap (·.registeredServers)

/-- The entry that the proxy ends with for a name, from the one it has and those that the
sources list. -/
def settled (sources : List ParsedSource) (registry : ProxyRegistry) (relays : Bool) (name : Text) :
    Option RegisteredServer :=
  ((listed sources).filter (concerns equalFold settings relays · name)).foldl
    (fun found server => some (mergeStamp lib server found)) (registry.find relays name)

variable {lib equalFold settings}

theorem find_addServer (registry : ProxyRegistry) (server : RegisteredServer) (relays : Bool)
    (name : Text) : (addServer lib equalFold settings registry server).find relays name =
      if concerns equalFold settings relays server name then
        some (mergeStamp lib server (registry.find relays name))
      else registry.find relays name := by
  unfold addServer concerns
  cases hw : wanted equalFold settings server with
  | false => simp
  | true =>
    cases hr : server.stamp.isRelay <;> cases relays <;>
      simp [ProxyRegistry.find, Registered.update, lookup_updateOrAdd]

theorem find_addServers (servers : List RegisteredServer) (registry : ProxyRegistry)
    (relays : Bool) (name : Text) :
    (servers.foldl (addServer lib equalFold settings) registry).find relays name =
      (servers.filter (concerns equalFold settings relays · name)).foldl
        (fun found server => some (mergeStamp lib server found)) (registry.find relays name) :=
  lookup_foldl (fun registry name => registry.find relays name) (mergeStamp lib)
    (fun registry server name => find_addServer registry server relays name) servers registry name

variable (lib equalFold settings)

theorem readSources_spec (sources : List ParsedSource) (registry : ProxyRegistry) :
    ((readSources lib equalFold settings registry sources).1 = none ↔
      ∀ source ∈ sources, source.unusable = false) ∧
    ∀ relays name, (readSources lib equalFold settings registry sources).2.find relays name =
      settled lib equalFold settings sources registry relays name := by
  induction sources generalizing registry with
  | nil => exact ⟨by simp [readSources], fun _ _ => rfl⟩
  | cons source sources ih =>
    obtain ⟨servers, err⟩ := source
    by_cases hu : (⟨servers, err⟩ : ParsedSource).unusable = true
    · -- the update ends here
      simp only [ParsedSource.unusable, Bool.and_eq_true, decide_eq_true_eq] at hu
      obtain ⟨he, rfl⟩ := hu
      obtain ⟨e, rfl⟩ := Option.isSome_iff_exists.mp he
      constructor
      · simp [readSources, ParsedSource.unusable]
      · intro relays name
        simp [readSources, settled, listed, ParsedSource.unusable]
    · have hread : readSources lib equalFold settings registry (⟨servers, err⟩ :: sources) =
          readSources lib equalFold settings
            (servers.foldl (addServer lib equalFold settings) registry) sources := by
        cases err with
        | none => rfl
        | some e =>
          cases servers with
          | nil => simp [ParsedSource.unusable] at hu
          | cons server servers => rfl
      rw [hread]
      have hu' : (⟨servers, err⟩ : ParsedSource).unusable = false := by simpa using hu
      constructor
      · rw [(ih _).1]
        simp [hu']
      · intro relays name
        rw [(ih _).2, settled, settled, find_addServers]
        simp [listed, hu']

variable {lib equalFold settings}

/-! ## The copy -/

theorem find_registerServer (info : ServersRegistry) (server : RegisteredServer) (relays : Bool)
    (name : Text) : (registerServer info server).find relays name =
      if !relays && server.name = name then some server else info.find relays name := by
  cases relays <;> simp [ServersRegistry.find, registerServer, Registry.register, lookup_upsert]

theorem find_registerRelay (info : ServersRegistry) (relay : RegisteredServer) (relays : Bool)
    (name : Text) : (registerRelay info relay).find relays name =
      if relays && relay.name = name then some relay else info.find relays name := by
  cases relays <;> simp [ServersRegistry.find, registerRelay, Registry.register, lookup_upsert]

theorem find_copied (registry : ProxyRegistry) (info : ServersRegistry) (relays : Bool)
    (name : Text) :
    (registry.registeredRelays.entries.foldl registerRelay
      (registry.registeredServers.entries.foldl registerServer info)).find relays name =
      (registry.find relays name).or (info.find relays name) := by
  rw [lookup_foldl (fun info name => ServersRegistry.find info relays name) (fun relay _ => relay)
      (fun info relay name => find_registerRelay info relay relays name),
    lookup_foldl (fun info name => ServersRegistry.find info relays name) (fun server _ => server)
      (fun info server name => find_registerServer info server relays name)]
  cases relays with
  | false =>
    simp only [Bool.false_and, Bool.not_false, Bool.true_and, List.filter_false, List.foldl_nil]
    exact registry.registeredServers.consistent.foldl_some _
  | true =>
    simp only [Bool.not_true, Bool.false_and, Bool.true_and, List.filter_false, List.foldl_nil]
    exact registry.registeredRelays.consistent.foldl_some _

/-! ## Agreement -/

/-- What the proxy has registered, `serversInfo` has with the same stamp. -/
def Agree (registry : ProxyRegistry) (info : ServersRegistry) : Prop :=
  (∀ server ∈ registry.registeredServers.entries, server ∈ info.registeredServers.entries) ∧
    ∀ relay ∈ registry.registeredRelays.entries, relay ∈ info.registeredRelays.entries

theorem agree_iff_find (registry : ProxyRegistry) (info : ServersRegistry) :
    Agree registry info ↔ ∀ relays name server,
      registry.find relays name = some server → info.find relays name = some server := by
  have hlist : ∀ (registered : Registered) (copy : Registry),
      (∀ server ∈ registered.entries, server ∈ copy.entries) ↔
        ∀ name server, lookup RegisteredServer.name name registered.entries = some server →
          lookup RegisteredServer.name name copy.entries = some server := by
    intro registered copy
    have hcopy : Consistent RegisteredServer.name copy.entries := .of_nodup copy.nodup
    constructor
    · intro h name server hs
      rw [← lookup_key hs]
      exact hcopy.lookup_iff.mpr (h server (lookup_mem hs))
    · intro h server hs
      exact lookup_mem (h _ _ (registered.consistent.lookup_iff.mpr hs))
  rw [Agree, hlist, hlist, Bool.forall_bool]
  exact Iff.rfl

variable (lib equalFold settings)

/-- The registries agree after an update if and only if no source is unusable or
`serversInfo` already has, for every name, the entry that the proxy ends with. -/
theorem registries_agree_iff (sources : List ParsedSource) (registry : ProxyRegistry)
    (info : ServersRegistry) :
    Agree (updateRegisteredServers lib equalFold settings sources registry info).2.1
        (updateRegisteredServers lib equalFold settings sources registry info).2.2 ↔
      ((∃ source ∈ sources, source.unusable = true) → ∀ relays name server,
        settled lib equalFold settings sources registry relays name = some server →
          info.find relays name = some server) := by
  obtain ⟨herr, hfind⟩ := readSources_spec lib equalFold settings sources registry
  unfold updateRegisteredServers
  match hread : readSources lib equalFold settings registry sources with
  | (none, registry') =>
    rw [hread] at herr
    have husable : ¬∃ source ∈ sources, source.unusable = true := by
      rintro ⟨source, hs, hu⟩
      rw [herr.mp rfl source hs] at hu
      cases hu
    constructor
    · intro _ h
      exact absurd h husable
    · intro _
      rw [agree_iff_find]
      intro relays name server hs
      rw [find_copied, hs]
      rfl
  | (some e, registry') =>
    rw [hread] at herr hfind
    have hunusable : ∃ source ∈ sources, source.unusable = true := by
      by_contra h
      have hall : ∀ source ∈ sources, source.unusable = false := by
        intro source hs
        cases hu : source.unusable with
        | false => rfl
        | true => exact absurd ⟨source, hs, hu⟩ h
      cases herr.mpr hall
    rw [agree_iff_find]
    constructor
    · intro h _ relays name server hs
      exact h relays name server ((hfind relays name).trans hs)
    · intro h relays name server hs
      exact h hunusable relays name server ((hfind relays name).symm.trans hs)

end Sources

/-! ## Servers and relays -/

/-- The names for which `loadSources` looks for a static entry. -/
def staticNames (statics : StaticsConfig) (serverNames : List Text) : List Text :=
  if serverNames = [] then statics.entries.map Prod.fst else serverNames

theorem mem_staticServers {statics : StaticsConfig} {serverNames : List Text}
    {servers : List RegisteredServer} {lib : StampLibrary}
    (h : staticServers lib statics serverNames = .ok servers) (server : RegisteredServer) :
    server ∈ servers ↔ server.name ∈ staticNames statics serverNames ∧
      staticServer lib statics server.name = .ok (some server) := by
  obtain ⟨found, hm, h⟩ := ok_of_bind h
  cases h
  rw [List.reduceOption_mem_iff]
  constructor
  · intro hfound
    obtain ⟨name, hname, hstatic⟩ := mapM_mem hm hfound
    obtain rfl := staticServer_name hstatic
    exact ⟨hname, hstatic⟩
  · rintro ⟨hname, hstatic⟩
    exact mem_of_mapM hm hname hstatic

theorem isRelay_of_mem_staticRelays {lib : StampLibrary} {statics : StaticsConfig}
    {relay : RegisteredServer} (h : relay ∈ staticRelays lib statics) : relay.stamp.isRelay := by
  obtain ⟨⟨name, text⟩, -, hsome⟩ := List.mem_filterMap.mp h
  dsimp only at hsome
  split at hsome
  · split at hsome
    · next hrelay =>
      cases hsome
      exact hrelay
    · cases hsome
  · cases hsome

section Separation

variable {lib : StampLibrary} {equalFold : Text → Text → Bool} {settings : SourceSettings}

theorem isRelay_merged {relays : Bool} {servers : List RegisteredServer}
    (hservers : ∀ server ∈ servers, server.stamp.isRelay = relays) {found : Option RegisteredServer}
    (hfound : ∀ current, found = some current → current.stamp.isRelay = relays)
    {final : RegisteredServer}
    (h : servers.foldl (fun found server => some (mergeStamp lib server found)) found = some final) :
    final.stamp.isRelay = relays := by
  induction servers generalizing found with
  | nil => exact hfound final h
  | cons server servers ih =>
    have hserver := hservers server List.mem_cons_self
    refine ih (fun s hs => hservers s (List.mem_cons_of_mem server hs)) ?_ h
    rintro merged heq
    cases heq
    cases found with
    | none => exact hserver
    | some current =>
      rw [mergeStamp, updateStamp]
      split
      · exact hserver
      · exact hfound current rfl

theorem isRelay_displaced_iff {servers : List RegisteredServer} {current final : RegisteredServer}
    (hservers : ∀ server ∈ servers, server.stamp.isRelay = false ∧ server.name = current.name)
    (hcurrent : current.stamp.isRelay = true)
    (h : servers.foldl (fun found server => some (mergeStamp lib server found)) (some current) =
      some final) :
    final.stamp.isRelay = true ↔
      ∀ server ∈ servers, lib.string server.stamp = lib.string current.stamp := by
  induction servers with
  | nil =>
    cases h
    simp [hcurrent]
  | cons server servers ih =>
    have hrest := fun s hs => hservers s (List.mem_cons_of_mem server hs)
    obtain ⟨hkind, hname⟩ := hservers server List.mem_cons_self
    rw [List.foldl_cons, mergeStamp, updateStamp] at h
    by_cases htext : lib.string server.stamp = lib.string current.stamp
    · rw [if_neg fun hne => hne.2 htext.symm] at h
      rw [ih hrest h]
      simp [htext]
    · rw [if_pos ⟨hname.symm, fun heq => htext heq.symm⟩] at h
      have hfinal : final.stamp.isRelay = false := by
        refine isRelay_merged (fun s hs => (hrest s hs).1) ?_ h
        rintro current' heq
        cases heq
        exact hkind
      simp [hfinal, htext]

variable (lib equalFold settings) in
/-- A static relay is wanted as a server, and no source lists a server of its name with another
stamp. -/
def StaysAmongServers (statics : StaticsConfig) (sources : List ParsedSource)
    (relay : RegisteredServer) : Prop :=
  relay.name ∈ staticNames statics settings.serverNames ∧
    staticServer lib statics relay.name = .ok (some relay) ∧ relay.stamp.isRelay = true ∧
    ∀ server ∈ listed sources, concerns equalFold settings false server relay.name = true →
      lib.string server.stamp = lib.string relay.stamp

theorem updateRegisteredServers_registry (sources : List ParsedSource) (registry : ProxyRegistry)
    (info : ServersRegistry) :
    (updateRegisteredServers lib equalFold settings sources registry info).2.1 =
      (readSources lib equalFold settings registry sources).2 := by
  unfold updateRegisteredServers
  split <;> next hread => rw [hread]

theorem loadSources_find {statics : StaticsConfig} {sources : List ParsedSource}
    {registry : ProxyRegistry} {info : ServersRegistry}
    (h : loadSources lib equalFold settings statics sources = .ok (registry, info)) :
    ∃ initial : ProxyRegistry,
      staticServers lib statics settings.serverNames = .ok initial.registeredServers.entries ∧
      initial.registeredRelays.entries = staticRelays lib statics ∧
      ∀ relays name, registry.find relays name =
        settled lib equalFold settings sources initial relays name := by
  unfold loadSources at h
  split at h
  · cases h
  · next servers hstatic =>
    refine ⟨⟨⟨servers, staticServers_consistent hstatic⟩,
      ⟨staticRelays lib statics, staticRelays_consistent⟩⟩, hstatic, rfl, ?_⟩
    intro relays name
    have hregistry : _ = registry := congrArg Prod.fst (Except.ok.inj h)
    rw [← (readSources_spec lib equalFold settings sources _).2, ← hregistry,
      updateRegisteredServers_registry]

theorem mem_concerned {sources : List ParsedSource} {relays : Bool} {name : Text}
    {server : RegisteredServer}
    (h : server ∈ (listed sources).filter (concerns equalFold settings relays · name)) :
    server.stamp.isRelay = relays ∧ server.name = name := by
  have hconcerns := (List.mem_filter.mp h).2
  simp only [concerns, Bool.and_eq_true, decide_eq_true_eq] at hconcerns
  exact ⟨hconcerns.1.2, hconcerns.2⟩

variable (lib) in
theorem merged_some (servers : List RegisteredServer) (current : RegisteredServer) :
    ∃ final, servers.foldl (fun found server => some (mergeStamp lib server found)) (some current) =
      some final := by
  induction servers generalizing current with
  | nil => exact ⟨current, rfl⟩
  | cons server servers ih => exact ih _

theorem isRelay_settled {sources : List ParsedSource} {initial : ProxyRegistry} {relays : Bool}
    {name : Text} {final : RegisteredServer}
    (hinitial : ∀ current, initial.find relays name = some current → current.stamp.isRelay = relays)
    (h : settled lib equalFold settings sources initial relays name = some final) :
    final.stamp.isRelay = relays :=
  isRelay_merged (fun _ hserver => (mem_concerned hserver).1) hinitial h

theorem initial_isRelay_of_settled {sources : List ParsedSource} {initial : ProxyRegistry}
    {name : Text} {final : RegisteredServer}
    (h : settled lib equalFold settings sources initial false name = some final)
    (hrelay : final.stamp.isRelay = true) :
    ∃ current, initial.find false name = some current ∧ current.stamp.isRelay = true := by
  by_contra hnone
  have hinitial : ∀ current, initial.find false name = some current →
      current.stamp.isRelay = false := by
    intro current hfound
    rw [← Bool.not_eq_true]
    exact fun hcurrent => hnone ⟨current, hfound, hcurrent⟩
  rw [isRelay_settled hinitial h] at hrelay
  cases hrelay

theorem isRelay_settled_iff {sources : List ParsedSource} {initial : ProxyRegistry}
    {relay final : RegisteredServer} (hinitial : initial.find false relay.name = some relay)
    (hrelay : relay.stamp.isRelay = true)
    (h : settled lib equalFold settings sources initial false relay.name = some final) :
    final.stamp.isRelay = true ↔ ∀ server ∈ listed sources,
      concerns equalFold settings false server relay.name = true →
        lib.string server.stamp = lib.string relay.stamp := by
  rw [settled, hinitial] at h
  rw [isRelay_displaced_iff (fun _ hserver => mem_concerned hserver) hrelay h]
  simp only [List.mem_filter, and_imp]

/-- A configuration that is accepted keeps relays out of the list of servers, and servers out of
the list of relays, unless a static relay is wanted as a server. -/
theorem separate_iff {statics : StaticsConfig} {sources : List ParsedSource}
    {registry : ProxyRegistry} {info : ServersRegistry}
    (h : loadSources lib equalFold settings statics sources = .ok (registry, info)) :
    ((∀ server ∈ registry.registeredServers.entries, server.stamp.isRelay = false) ∧
      ∀ relay ∈ registry.registeredRelays.entries, relay.stamp.isRelay = true) ↔
      ∀ relay, ¬StaysAmongServers lib equalFold settings statics sources relay := by
  obtain ⟨initial, hstatic, hstaticRelays, hfind⟩ := loadSources_find h
  have hrelays : ∀ relay ∈ registry.registeredRelays.entries, relay.stamp.isRelay = true := by
    intro relay hmem
    have hsettled : registry.find true relay.name = some relay :=
      registry.registeredRelays.consistent.lookup_iff.mpr hmem
    rw [hfind] at hsettled
    refine isRelay_settled (fun current hcurrent => ?_) hsettled
    have hmem : current ∈ initial.registeredRelays.entries := lookup_mem hcurrent
    rw [hstaticRelays] at hmem
    exact isRelay_of_mem_staticRelays hmem
  rw [and_iff_left hrelays]
  constructor
  · rintro hservers relay ⟨hname, hparsed, hrelay, hlisted⟩
    have hinitial : initial.find false relay.name = some relay :=
      initial.registeredServers.consistent.lookup_iff.mpr
        ((mem_staticServers hstatic relay).mpr ⟨hname, hparsed⟩)
    obtain ⟨final, hfinal⟩ := merged_some lib
      ((listed sources).filter (concerns equalFold settings false · relay.name)) relay
    rw [← hinitial] at hfinal
    have hkept : final.stamp.isRelay = true :=
      (isRelay_settled_iff hinitial hrelay hfinal).mpr hlisted
    rw [hservers final (lookup_mem ((hfind false relay.name).trans hfinal))] at hkept
    cases hkept
  · intro hstay server hmem
    rw [← Bool.not_eq_true]
    intro hrelay
    have hsettled : registry.find false server.name = some server :=
      registry.registeredServers.consistent.lookup_iff.mpr hmem
    rw [hfind] at hsettled
    obtain ⟨current, hinitial, hcurrent⟩ := initial_isRelay_of_settled hsettled hrelay
    obtain ⟨hwanted, hparsed⟩ := (mem_staticServers hstatic current).mp (lookup_mem hinitial)
    have hname : current.name = server.name := lookup_key hinitial
    rw [← hname] at hinitial hsettled
    exact hstay current ⟨hwanted, hparsed, hcurrent,
      (isRelay_settled_iff hinitial hcurrent hsettled).mp hrelay⟩

end Separation

namespace Sample

def stamp : ServerStamp :=
  ⟨"192.0.2.1:443".toList, [], [], "example.com".toList, "/dns-query".toList, 0, .doh⟩

def stampText : Text :=
  "sdns://AgAAAAAAAAAACTE5Mi4wLjIuMQALZXhhbXBsZS5jb20KL2Rucy1xdWVyeQ".toList

def dnscryptStamp : ServerStamp :=
  ⟨"192.0.2.1:443".toList, List.replicate 32 7, [], "2.dnscrypt-cert.example.com".toList, [], 0,
    .dnscrypt⟩

def dnscryptText : Text :=
  "sdns://AQAAAAAAAAAACTE5Mi4wLjIuMSAHBwcHBwcHBwcHBwcHBwcHBwcHBwcHBwcHBwcHBwcHBxsy".toList ++
    "LmRuc2NyeXB0LWNlcnQuZXhhbXBsZS5jb20".toList

def relayStamp : ServerStamp :=
  ⟨"198.51.100.1:443".toList, [], [], [], [], 0, .dnscryptRelay⟩

def relayText : Text := "sdns://gQwxOTguNTEuMTAwLjE".toList

def stampTable : List (Text × ServerStamp) :=
  [(stampText, stamp), (dnscryptText, dnscryptStamp), (relayText, relayStamp)]

def stamps : StampLibrary := .ofTable stampTable

def statics : StaticsConfig := ⟨[("mine".toList, stampText)], List.nodup_singleton _⟩

def sourceSettings : SourceSettings := ⟨[], [], 0, true, false, true, true, false⟩

/-- What the proxy has registered when it reads the sources. -/
def registry : ProxyRegistry where
  registeredServers := ⟨[⟨"mine".toList, stamp⟩], .of_nodup (List.nodup_singleton _)⟩
  registeredRelays := ⟨[], nofun⟩

def emptySource : ParsedSource := ⟨[], some (.plain "Invalid format for source at []")⟩

/-- A configuration with a static server and a source that cannot be parsed: the server is
registered with the proxy and unknown to `serversInfo`. -/
theorem static_server_not_registered :
    loadSources stamps (fun a b => a = b) sourceSettings statics [emptySource] =
        .ok (updateRegisteredServers stamps (fun a b => a = b) sourceSettings [emptySource] registry
          .empty).2 ∧
      ¬Agree
        (updateRegisteredServers stamps (fun a b => a = b) sourceSettings [emptySource] registry
          .empty).2.1
        (updateRegisteredServers stamps (fun a b => a = b) sourceSettings [emptySource] registry
          .empty).2.2 := by
  refine ⟨rfl, ?_⟩
  intro h
  exact absurd (h.1 ⟨"mine".toList, stamp⟩ (by decide)) (by decide)

theorem static_server_separate :
    ∃ registry info,
      loadSources stamps (fun a b => a = b) sourceSettings statics [] = .ok (registry, info) ∧
        (∀ server ∈ registry.registeredServers.entries, server.stamp.isRelay = false) ∧
        ∀ relay ∈ registry.registeredRelays.entries, relay.stamp.isRelay = true := by
  obtain ⟨registry, info, h⟩ : ∃ registry info,
      loadSources stamps (fun a b => a = b) sourceSettings statics [] = .ok (registry, info) :=
    ⟨_, _, rfl⟩
  refine ⟨registry, info, h, (separate_iff h).mpr ?_⟩
  rintro ⟨name, relayStamp⟩ ⟨hname, hparsed, hrelay, -⟩
  obtain rfl : name = "mine".toList := by simpa [staticNames, sourceSettings, statics] using hname
  cases hparsed
  cases hrelay

def relayStatics : StaticsConfig := ⟨[("anon".toList, relayText)], List.nodup_singleton _⟩

/-- Without `server_names` the relay is a server, too. -/
theorem static_relay_among_servers :
    ∃ registry info, loadSources stamps (fun a b => a = b) sourceSettings relayStatics [] =
        .ok (registry, info) ∧
      registry.registeredServers.entries.map (fun server => (server.name, server.stamp.proto)) =
        [("anon".toList, .dnscryptRelay)] := by
  have h : (loadSources stamps (fun a b => a = b) sourceSettings relayStatics []).map
      (fun loaded => loaded.1.registeredServers.entries.map
        fun server => (server.name, server.stamp.proto)) =
      .ok [("anon".toList, .dnscryptRelay)] := by
    decide +kernel
  obtain ⟨⟨registry, info⟩, hload, hservers⟩ := ok_of_map h
  exact ⟨registry, info, hload, hservers⟩

end Sample

end DnscryptProxy
