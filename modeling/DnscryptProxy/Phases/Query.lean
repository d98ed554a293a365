import DnscryptProxy.Plugins.Application
import DnscryptProxy.Proxy

/-! What the phases of `processIncomingQuery` keep, up to the decision to forward. A flow
is `Sound` when the call still has its client and its settings, when the shared cache has
changed by its own steps only, and when the variable `response` holds what its origin
says. Every phase keeps that, on its way to the next phase and on each of its exits. -/

namespace DnscryptProxy

open Library Relation

/-! ## Where responses come from -/

/-- The bytes were made from `source` by what the proxy does to a response on its way
to the client. -/
inductive ComesFrom (p : Proxy) (source : Bytes) : Bytes → Prop where
  | self : ComesFrom p source source
  | withID {response : Bytes} (from_ : ComesFrom p source response) (query : Bytes) :
      ComesFrom p source (restoreID query response)
  | filtered {response : Bytes} (from_ : ComesFrom p source response) {env : ResponseEnv}
      {st : PluginsState} {world : World} {applied : Applied}
      (applies : applyResponsePlugins p.settings p.pkgs env st world response none = .ok applied) :
      ComesFrom p source applied.packet
  | truncated {response response' : Bytes} (from_ : ComesFrom p source response)
      (truncates : truncatedResponse p.pkgs.dns response = .ok response') :
      ComesFrom p source response'
  | prefixed {response response' : Bytes} (from_ : ComesFrom p source response)
      (prefixes : prefixWithSize response = .ok response') : ComesFrom p source response'

inductive Accepted (p : Proxy) (env : CallEnv) (payload : Bytes) : Prop where
  | dnscrypt {serverInfo : ServerInfo} {minQuestionSize : Nat} {query response : Bytes}
      {proto : NetProto} {entropy : Entropy} {encrypted : Encrypted}
      (server : env.server = some serverInfo)
      (encrypts : encrypt p.pkgs.prims p.keys minQuestionSize serverInfo query proto entropy =
        .ok encrypted)
      (decrypts : decrypt p.pkgs.prims serverInfo encrypted.sharedKey response
        encrypted.clientNonce = (payload, none))
  | doh (complete : Bool) (exchanged : env.doh = .ok (payload, complete))
  | odoh {target : ODoHTargetConfig} {query : Bytes} {odohQuery : ODoHQuery}
      (encrypts : encryptQuery p.pkgs.hpke target query = .ok odohQuery)
      (decrypts : decryptResponse p.pkgs.hpke odohQuery env.odoh.body = .ok (.ok payload))

/-- The message was synthesized, or taken from the cache, or it is the stale answer that was put
aside. -/
def PluginsState.Holds (st : PluginsState) (msg : Msg) : Prop :=
  st.synthResponse = some msg ∨ st.stale = some msg

/-- The response is what its origin says. Unverified bytes need a reason `U`. -/
def Traced (p : Proxy) (env : CallEnv) (U : Prop) (st : PluginsState) (origin : Origin)
    (response : Bytes) : Prop :=
  match origin with
  | .nothing => response = []
  | .localMsg msg => st.Holds msg ∧
      ∃ packed, p.pkgs.dns.pack msg = .ok packed ∧ ComesFrom p packed response
  | .accepted payload => Accepted p env payload ∧ ComesFrom p payload response
  | .unverified _ => response ≠ [] → U

theorem Traced.onward {p : Proxy} {env : CallEnv} {U : Prop} {st : PluginsState} {origin : Origin}
    {response response' : Bytes} (h : Traced p env U st origin response)
    (hfrom : ∀ source, ComesFrom p source response → ComesFrom p source response')
    (hnil : response = [] → response' = []) : Traced p env U st origin response' := by
  cases origin with
  | nothing => exact hnil h
  | localMsg msg =>
    obtain ⟨hmsg, packed, hpack, hc⟩ := h
    exact ⟨hmsg, packed, hpack, hfrom packed hc⟩
  | accepted payload => exact ⟨h.1, hfrom payload h.2⟩
  | unverified bytes => exact fun hne => h fun hr => hne (hnil hr)

theorem Traced.of_holds {p : Proxy} {env : CallEnv} {U : Prop} {st st' : PluginsState}
    {origin : Origin} {response : Bytes} (h : Traced p env U st origin response)
    (hholds : ∀ msg, st.Holds msg → st'.Holds msg) : Traced p env U st' origin response := by
  cases origin with
  | localMsg msg => exact ⟨hholds msg h.1, h.2⟩
  | nothing | accepted _ | unverified _ => exact h

/-- What holds of the variables of a call that started in `world`. -/
structure Sound (p : Proxy) (caller : Caller) (env : CallEnv) (world : World) (U : Prop)
    (flow : Flow) : Prop where
  clientProto : flow.st.clientProto = caller.clientProto
  clientAddr : flow.st.clientAddr = caller.clientAddr
  settings : flow.st.settings = p.settings.query
  steps : CacheSteps p.pkgs p.settings.query world flow.world
  traced : Traced p env U flow.st flow.origin flow.response

/-- The two kinds of stops. -/
def Stop.All (X : Exit → Prop) (H : Halted → Prop) : Stop → Prop
  | .exit e => X e
  | .halt h => H h

section Phases

variable {p : Proxy} {caller : Caller} {env : CallEnv} {world : World} {U : Prop}

/-- A phase was left by an early exit, which writes nothing to the client. -/
structure Left (p : Proxy) (caller : Caller) (env : CallEnv) (world : World) (U : Prop)
    (exit : Exit) : Prop where
  sound : Sound p caller env world U exit.toFlow
  writes : exit.writes = []
  completed : exit.completed = false

/-- How a phase may stop. -/
abbrev SoundStop (p : Proxy) (caller : Caller) (env : CallEnv) (world : World) (U : Prop) :
    Stop → Prop :=
  Stop.All (Left p caller env world U)
    fun halted => CacheSteps p.pkgs p.settings.query world halted.world

variable {flow : Flow}

theorem Sound.update {flow' : Flow} (h : Sound p caller env world U flow)
    (hst : SameClient flow.st flow'.st)
    (hw : CacheSteps p.pkgs p.settings.query flow.world flow'.world)
    (ht : Traced p env U flow'.st flow'.origin flow'.response) : Sound p caller env world U flow' :=
  ⟨hst.clientProto.trans h.clientProto, hst.clientAddr.trans h.clientAddr, hst.settings.trans h.settings,
    h.steps.trans hw, ht⟩

theorem Sound.answered (h : Sound p caller env world U flow) {response : Bytes} {origin : Origin}
    (ht : Traced p env U flow.st origin response) :
    Sound p caller env world U (flow.answered response origin) :=
  h.update (.refl _) .refl ht

theorem Sound.cleared (h : Sound p caller env world U flow) :
    Sound p caller env world U (flow.answered [] .nothing) :=
  h.update (.refl _) .refl rfl

theorem Sound.unverified (h : Sound p caller env world U flow) {data : Bytes} (hU : data ≠ [] → U) :
    Sound p caller env world U (flow.answered data (.unverified data)) :=
  h.update (.refl _) .refl hU

theorem Sound.noticed (h : Sound p caller env world U flow) (notice : Notice) :
    Sound p caller env world U (flow.noticed notice) :=
  h.update (.refl _) .refl h.traced

theorem Sound.leaveSilently (h : Sound p caller env world U flow) :
    Left p caller env world U flow.leaveSilently :=
  ⟨h, rfl, rfl⟩

theorem Sound.leaveWith (h : Sound p caller env world U flow) (returnCode : PluginsReturnCode) :
    Left p caller env world U (flow.leaveWith returnCode) :=
  ⟨h.update ⟨rfl, rfl, rfl⟩ .refl h.traced, rfl, rfl⟩

theorem Sound.leaveFailing (h : Sound p caller env world U flow) (returnCode : PluginsReturnCode) :
    Left p caller env world U (flow.leaveFailing returnCode) :=
  ⟨h.update ⟨rfl, rfl, rfl⟩ .refl h.traced, rfl, rfl⟩

/-! ## The query -/

/-- The state of a call that has just begun. -/
def startState (p : Proxy) (caller : Caller) : PluginsState :=
  newPluginsState p.settings.query caller.clientProto caller.clientAddr
    (caller.serverProto p.mainProto)

/-- The flow with which a query is forwarded that no plugin has seen. -/
def unparsedFlow (p : Proxy) (caller : Caller) (world : World) (serverInfo : ServerInfo) : Flow :=
  ⟨{ startState p caller with serverName := serverInfo.name }, world, [], .nothing, none, []⟩

/-- What holds of a query that is forwarded. -/
structure Forwarded (p : Proxy) (caller : Caller) (env : CallEnv) (world : World) (U : Prop)
    (query : Bytes) (flow : Flow) (serverInfo : ServerInfo) (query' : Bytes) : Prop where
  sound : Sound p caller env world U flow
  idle : Idle flow.st
  response : flow.response = []
  origin : flow.origin = .nothing
  server : env.server = some serverInfo
  fits : fits query' = true
  uncached : caller.onlyCached = false
  checked : (∃ e, parseQuery p.pkgs.dns query = .error e ∧ query' = query ∧
      flow = unparsedFlow p caller world serverInfo) ∨
    PassedQuery p.settings p.pkgs env.query (startState p caller) world query

/-- The two ways on from `packSynth`. -/
def Packed (p : Proxy) (flow flow' : Flow) : Prop :=
  (flow.st.synthResponse = none ∧ flow' = flow) ∨
    ∃ synth response, flow.st.synthResponse = some synth ∧
      p.pkgs.dns.pack synth = .ok response ∧ flow' = flow.answered response (.localMsg synth)

theorem Sound.packSynth (h : Sound p caller env world U flow) :
    Ends (flow.packSynth p)
      (fun flow' => Sound p caller env world U flow' ∧ Packed p flow flow')
      (SoundStop p caller env world U) := by
  unfold Flow.packSynth
  split
  · next hnone => exact ⟨h, .inl ⟨hnone, rfl⟩⟩
  · next synth hsynth =>
    split
    · exact h.cleared.leaveWith .parseError
    · next response hpack =>
      exact ⟨h.answered ⟨.inl hsynth, response, hpack, .self⟩, .inr ⟨synth, response, hsynth, hpack, rfl⟩⟩

theorem pack_ne_nil {lib : DNSLibrary} {msg : Msg} {packet : Bytes} (h : lib.pack msg = .ok packet) :
    packet ≠ [] := by
  rintro rfl
  have hlen := lib.pack_length msg [] h
  simp at hlen

theorem Queried.checked {applied : Applied} {query : Bytes} {st : PluginsState}
    (hq : Queried p.settings p.pkgs env.query st world query applied)
    (hd : applied.st.action ≠ .drop) (hs : applied.st.synthResponse = none) :
    (∃ e, parseQuery p.pkgs.dns query = .error e ∧ applied = ⟨query, some e, st, world⟩) ∨
      (PassedQuery p.settings p.pkgs env.query st world query ∧ Idle applied.st) := by
  cases hq with
  | unparsed e unparsed returned => exact .inl ⟨e, unparsed, returned⟩
  | dropped dropped => exact absurd dropped hd
  | answered answered => exact absurd hs answered
  | passed passed idle => exact .inr ⟨passed, idle⟩

/-- The outcome of the first phase. -/
def Decision.Sound (p : Proxy) (caller : Caller) (env : CallEnv) (world : World) (U : Prop)
    (query : Bytes) : Decision → Prop
  | .respond flow _ => DnscryptProxy.Sound p caller env world U flow ∧ flow.handed = none ∧
      ∀ payload, flow.origin ≠ .accepted payload
  | .forward flow serverInfo query' => Forwarded p caller env world U query flow serverInfo query'

theorem afterQueryPlugins_ends {applied : Applied} {query : Bytes}
    (hq : Queried p.settings p.pkgs env.query (startState p caller) world query applied)
    (hs : SameClient (startState p caller) applied.st)
    (hw : CacheSteps p.pkgs p.settings.query world applied.world) :
    Ends (afterQueryPlugins p caller env.server applied)
      (Decision.Sound p caller env world U query) (SoundStop p caller env world U) := by
  have hsound : Sound p caller env world U ⟨applied.st, applied.world, [], .nothing, none, []⟩ :=
    ⟨hs.clientProto, hs.clientAddr, hs.settings, hw, rfl⟩
  unfold afterQueryPlugins
  split
  · exact hsound.leaveSilently
  next hfits =>
  split
  · exact hsound.leaveWith .drop
  next hd =>
  refine hsound.packSynth.bind fun flow _ hflow => ?_
  obtain ⟨hflow, hpacked⟩ := hflow
  have hlocal : flow.handed = none ∧ ∀ payload, flow.origin ≠ .accepted payload := by
    rcases hpacked with ⟨_, rfl⟩ | ⟨_, _, _, _, rfl⟩ <;> exact ⟨rfl, nofun⟩
  unfold route
  split
  · split
    · exact hflow.leaveSilently
    · exact ⟨hflow, hlocal⟩
  next huncached =>
  · split
    · exact ⟨hflow, hlocal⟩
    · next hresponse =>
      -- a packed message is not empty, so nothing was synthesized
      obtain ⟨hnone, rfl⟩ : applied.st.synthResponse = none ∧ flow = _ := by
        rcases hpacked with h | ⟨_, _, _, hpack, rfl⟩
        · exact h
        · exact absurd hpack fun hp => hresponse (pack_ne_nil hp)
      split
      · exact ⟨hflow, hlocal⟩
      · next serverInfo hserver =>
        simp only [Bool.not_eq_true, Bool.not_eq_false'] at hfits huncached
        rcases hq.checked hd hnone with ⟨e, he, rfl⟩ | ⟨hpassed, hidle⟩
        · exact ⟨hflow.update ⟨rfl, rfl, rfl⟩ .refl hflow.traced, ⟨rfl, rfl⟩, rfl, rfl, hserver,
            hfits, huncached, .inl ⟨e, he, rfl, rfl⟩⟩
        · exact ⟨hflow.update ⟨rfl, rfl, rfl⟩ .refl hflow.traced, hidle, rfl, rfl, hserver,
            hfits, huncached, .inr hpassed⟩

theorem dispatch_ends (query : Bytes) :
    Ends (dispatch p caller env world query) (Decision.Sound p caller env world U query)
      (SoundStop p caller env world U) := by
  unfold dispatch
  dsimp only
  split
  · exact ⟨⟨rfl, rfl, rfl, .refl, rfl⟩, rfl, rfl⟩
  · have hidle : Idle (startState p caller) := ⟨rfl, rfl⟩
    split
    · next halted hh => exact (applyQueryPlugins_ends hidle).of_error hh
    · next applied ha =>
      obtain ⟨hq, hs, hw⟩ := (applyQueryPlugins_ends hidle).of_ok ha
      exact afterQueryPlugins_ends hq hs hw

end Phases

end DnscryptProxy
