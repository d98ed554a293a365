import DnscryptProxy.Phases.Response

/-! The phases put together. `serve_ends` is the result for a whole call, and
`subqueryWith_effect` closes the recursion through DNS64. -/

namespace DnscryptProxy

open Library Relation

section Phases

variable {p : Proxy} {caller : Caller} {env : CallEnv} {world : World} {U : Prop}

/-- The exchange with the server ends with the given variables. -/
def Fetches (p : Proxy) (caller : Caller) (env : CallEnv) (world : World) (query : Bytes)
    (flow : Flow) : Prop :=
  ∃ flow₀ serverInfo query',
    dispatch p caller env world query = .ok (.forward flow₀ serverInfo query') ∧
    fetch p env flow₀ serverInfo query' = .ok flow

def Screened (p : Proxy) (caller : Caller) (env : CallEnv) (subquery : Subquery) (world : World)
    (query packet : Bytes) (exit : Exit) : Prop :=
  ∃ flow body, Fetches p caller env world query flow ∧ flow.response = packet ∧
    Filtered p.settings p.pkgs (responseEnv env subquery) flow.st (flow.hand env.responseTime).world
      packet body ∧
    Delivered p caller body exit

structure Finished (p : Proxy) (caller : Caller) (env : CallEnv) (subquery : Subquery)
    (world : World) (query : Bytes) (exit : Exit) : Prop where
  accounted : ∀ payload, exit.origin = .accepted payload → exit.handed ≠ none
  screened : ∀ packet, exit.handed = some packet →
    Screened p caller env subquery world query packet exit

variable {subquery : Subquery} {exit : Exit}

theorem phases_ends (hsub : SubqueryEffect p.pkgs p.settings.query subquery) (query : Bytes)
    (hU : ∀ flow serverInfo query', dispatch p caller env world query =
      .ok (.forward flow serverInfo query') → Unauthenticated p env flow serverInfo query' → U) :
    Ends (phases p caller env subquery world query)
      (fun exit => Sound p caller env world U exit.toFlow ∧ exit.completed = true ∧
        Finished p caller env subquery world query exit)
      (SoundStop p caller env world U) := by
  refine (dispatch_ends query).bind fun decision hd hsound => ?_
  cases decision with
  | respond flow charged =>
    obtain ⟨hflow, hhanded, horigin⟩ := hsound
    refine (deliver_ends hflow charged).mono (fun exit _ he => ?_) fun _ he => he
    refine ⟨he.sound, he.completed, ?_, ?_⟩
    · intro payload hp
      exact absurd (he.origin.symm.trans hp) (horigin payload)
    · intro packet hp
      rw [he.handed, hhanded] at hp
      cases hp
  | forward flow serverInfo query' =>
    have hfetch := (fetch_ends hsound.sound hsound.server query' (hU _ _ _ hd)).mono
      (fun _ _ h => h) fun _ h => h.sound hsound.sound
    refine hfetch.bind fun flow₁ hf h₁ => ?_
    have hidle : Idle flow₁.st := h₁.st ▸ hsound.idle
    refine (filter_ends h₁.sound hidle hsub).bind fun flow₂ _ h₂ => ?_
    obtain ⟨hsound₂, hhanded, hfiltered⟩ := h₂
    refine (deliver_ends hsound₂ true).mono (fun exit _ he => ?_) fun _ he => he
    refine ⟨he.sound, he.completed, ?_, ?_⟩
    · intro _ _
      rw [he.handed, hhanded]
      exact nofun
    · intro packet hp
      obtain rfl : flow₁.response = packet :=
        Option.some.inj (hhanded.symm.trans (he.handed.symm.trans hp))
      exact ⟨flow₁, _, ⟨_, _, _, hd, hf⟩, rfl, hfiltered, he.delivered⟩

theorem applyLoggingPlugins_world (s : Settings) (pkgs : Packages) (st : PluginsState) (w : World) :
    Ends (applyLoggingPlugins s pkgs st w) (fun _ => True) fun halted => halted.world = w := by
  unfold applyLoggingPlugins
  split
  · next ignored msg _ _ =>
    have hlog : Ends (queryLogEval pkgs ignored ⟨st, msg, w⟩) (fun _ => True)
        fun halted => halted.world = w := by
      unfold queryLogEval
      refine Ctx.ends_question (fun question _ _ => ?_) fun _ => rfl
      dsimp only
      split
      · trivial
      · refine Ctx.ends_logTo ?_ fun _ => rfl
        split <;> trivial
    cases hq : queryLogEval pkgs ignored ⟨st, msg, w⟩ with
    | ok r => trivial
    | error halted => exact hlog.of_error hq
  · trivial

theorem eq_of_leave {exit' : Exit} (h : leave p exit = .ok exit') : exit' = exit := by
  unfold leave at h
  split at h
  · obtain ⟨_, -, h⟩ := ok_of_bind h
    exact (Except.ok.inj h).symm
  · exact (Except.ok.inj h).symm

theorem exit_of_serve {query : Bytes} (h : serve p caller env subquery world query = .ok exit) :
    phases p caller env subquery world query = .ok exit ∨
      phases p caller env subquery world query = .error (.exit exit) := by
  unfold serve at h
  obtain ⟨exit', hh, h⟩ := ok_of_bind h
  obtain rfl : exit = exit' := eq_of_leave h
  unfold handle at hh
  split at hh
  · next he =>
    cases hh
    exact .inl he
  · next he =>
    cases hh
    exact .inr he
  · cases hh

theorem leave_ends (h : Sound p caller env world U exit.toFlow) :
    Ends (leave p exit) (fun exit' => exit' = exit)
      fun halted => CacheSteps p.pkgs p.settings.query world halted.world := by
  unfold leave
  split
  · refine (ends_bind _ _ _ _).mpr ?_
    refine (applyLoggingPlugins_world p.settings p.pkgs exit.st exit.world).mono
      (fun _ _ _ => rfl) fun halted hw => ?_
    rw [hw]
    exact h.steps
  · rfl

/-- What holds of every exit of a call; an early one writes nothing. -/
structure Served (p : Proxy) (caller : Caller) (env : CallEnv) (subquery : Subquery)
    (world : World) (query : Bytes) (U : Prop) (exit : Exit) : Prop where
  sound : Sound p caller env world U exit.toFlow
  early : exit.completed = false → exit.writes = []
  finished : exit.completed = true → Finished p caller env subquery world query exit

theorem handle_ends (hsub : SubqueryEffect p.pkgs p.settings.query subquery) (query : Bytes)
    (hU : ∀ flow serverInfo query', dispatch p caller env world query =
      .ok (.forward flow serverInfo query') → Unauthenticated p env flow serverInfo query' → U) :
    Ends (handle p caller env subquery world query) (Served p caller env subquery world query U)
      fun halted => CacheSteps p.pkgs p.settings.query world halted.world := by
  have hphases := phases_ends hsub query hU
  unfold handle
  split
  · next exit he =>
    obtain ⟨hsound, hcompleted, hfinished⟩ := hphases.of_ok he
    exact ⟨hsound, fun hc => absurd (hcompleted.symm.trans hc) nofun, fun _ => hfinished⟩
  · next exit he =>
    have hleft : Left p caller env world U exit := hphases.of_error he
    exact ⟨hleft.sound, fun _ => hleft.writes,
      fun hc => absurd (hleft.completed.symm.trans hc) nofun⟩
  · next halted he => exact hphases.of_error he

theorem serve_ends (hsub : SubqueryEffect p.pkgs p.settings.query subquery) (query : Bytes)
    (hU : ∀ flow serverInfo query', dispatch p caller env world query =
      .ok (.forward flow serverInfo query') → Unauthenticated p env flow serverInfo query' → U) :
    Ends (serve p caller env subquery world query) (Served p caller env subquery world query U)
      fun halted => CacheSteps p.pkgs p.settings.query world halted.world := by
  refine (handle_ends hsub query hU).bind fun exit _ hserved => ?_
  exact (leave_ends hserved.sound).mono (fun exit' _ he => he ▸ hserved) fun _ he => he

theorem subqueryWith_effect (p : Proxy) (envs : List CallEnv) :
    SubqueryEffect p.pkgs p.settings.query (subqueryWith p envs) := by
  induction envs with
  | nil => exact nofun
  | cons env envs ih =>
    intro sub hsub w packet
    cases hsub
    have hserve : Ends (serve p .trampoline env (subqueryWith p envs) w packet) _ _ :=
      serve_ends (U := True) ih packet fun _ _ _ _ _ => trivial
    exact (ends_map _ _ _ _).mpr (hserve.mono (fun _ _ h => h.sound.steps) fun _ he => he)

theorem processIncomingQuery_ends (envs : List CallEnv) (query : Bytes)
    (hU : ∀ flow serverInfo query', dispatch p caller env world query =
      .ok (.forward flow serverInfo query') → Unauthenticated p env flow serverInfo query' → U) :
    Ends (processIncomingQuery p caller env envs world query)
      (Served p caller env (subqueryWith p envs) world query U)
      fun halted => CacheSteps p.pkgs p.settings.query world halted.world :=
  serve_ends (subqueryWith_effect p envs) query hU

end Phases

/-! ## A call, evaluated

An address query for `example.com.`, as the client sends it, as it is sent to the
server, and its answers with a given TTL. -/

namespace Sample

def question : Question := ⟨"example.com.".toList, typeA, classINET⟩

def query : Msg :=
  ⟨0x1234, false, 0, false, false, true, false, false, false, false, 0, false, [question], [], [], []⟩

def opt (options : List EDNS0Option) : RR := ⟨['.'], 4048, 0, .opt options⟩

def padding : EDNS0Option := ⟨edns0Padding, List.replicate 24 0x58⟩

def reply (ttl : UInt32) : Msg :=
  { query with
    response := true, recursionAvailable := true, compress := true
    answer := [⟨question.name, classINET, ttl, .a [192, 0, 2, 1]⟩] }

def questionWire : Bytes :=
  [7, 101, 120, 97, 109, 112, 108, 101, 3, 99, 111, 109, 0, 0, 1, 0, 1]

def queryPacket : Bytes := [0x12, 0x34, 1, 0, 0, 1, 0, 0, 0, 0, 0, 0] ++ questionWire

def sentPacket : Bytes :=
  [0x12, 0x34, 1, 0, 0, 1, 0, 0, 0, 0, 0, 1] ++ questionWire ++
    [0, 0, 41, 15, 208, 0, 0, 0, 0, 0, 0]

def paddedPacket : Bytes :=
  [0x12, 0x34, 1, 0, 0, 1, 0, 0, 0, 0, 0, 1] ++ questionWire ++
    [0, 0, 41, 15, 208, 0, 0, 0, 0, 0, 28, 0, 12, 0, 24] ++ padding.data

def replyPacket (ttl : UInt8) : Bytes :=
  [0x12, 0x34, 0x81, 0x80, 0, 1, 0, 1, 0, 0, 0, 0] ++ questionWire ++
    [0xc0, 0x0c, 0, 1, 0, 1, 0, 0, 0, ttl, 0, 4, 192, 0, 2, 1]

def table : List (Bytes × Msg) :=
  [(queryPacket, query), (sentPacket, { query with extra := [opt []] }),
    (paddedPacket, { query with extra := [opt [padding]] }), (replyPacket 60, reply 60),
    (replyPacket 30, reply 30), (replyPacket 10, reply 10)]

def hpke : HPKE where
  newClientContext _ _ _ := .ok ([], [])
  encryptToServer _ b _ := .ok b
  exportSecret _ b _ := .ok b
  extract _ b _ := b
  expand _ b _ _ := .ok b
  keyBytes _ := 16
  nonceBytes _ := 12
  newRawCipher _ b := .ok b
  openRaw _ _ b _ := .ok b

def proxy (settings : Settings) (dns : DNSLibrary) : Proxy where
  settings := settings
  pkgs := ⟨dns, Sender.samplePrims, hpke, fun a b => a = b, fun _ => BlockedNames.mondayMorning⟩
  keys := ⟨false, List.replicate 32 1, List.replicate 32 2⟩
  dialer := .direct
  mainProto := .udp

def dns : DNSLibrary := .ofTable table (by decide)

def server (proto : StampProto) : ServerInfo where
  name := "example".toList
  proto := proto
  udpAddr := Sender.sampleServer
  tcpAddr := Sender.sampleServer
  relay := none
  url := "https://example/dns-query".toList
  useGet := false
  cryptoConstruction := .xSalsa20Poly1305
  serverPk := List.replicate 32 3
  sharedKey := List.replicate 32 4
  magicQuery := List.replicate 8 5
  fragmentsBlocked := false
  odohTargetConfigs := []

def env (proto : StampProto) (now : Time) (doh : Except GoError (Bytes × Bool))
    (datagram : Bytes) : CallEnv where
  server := some (server proto)
  query :=
    { now := now, subnet := 0, forwarder := 0
      lookupIP := fun _ => .error (.plain "no such host")
      shuffle := id, shuffle_perm := fun _ => .refl _
      exchange := fun _ _ _ => .error (.plain "connection refused") }
  entropy := ⟨List.replicate 12 6, 0, [], rfl⟩
  entropyForTCP := ⟨List.replicate 12 7, 0, [], rfl⟩
  entropyForRetry := ⟨List.replicate 12 8, 0, [], rfl⟩
  udp := ⟨none, none, ⟨none, .ok datagram⟩, ⟨none, .ok datagram⟩⟩
  tcp := Sender.silentConn
  doh := doh
  odohTarget := 0
  odoh := ⟨[], 0, none, false⟩
  responseTime := now
  freshID := 0x4321
  movingAverage := 0

def world : World := ⟨none, fun _ => ⟨[], [], [], none, false, []⟩, initialMinQuestionSize, []⟩

def client : Caller := .udpListener [192, 0, 2, 100] 5353 false

/-- A DoH server that answers. -/
def answering (now : Time) : CallEnv := env .doh now (.ok (replyPacket 60, true)) []

example : (processIncomingQuery (proxy .bare dns) client (answering 0) [] world queryPacket).map
    (fun exit => exit.writes) = .ok [replyPacket 60] := by
  rfl

end Sample

end DnscryptProxy
