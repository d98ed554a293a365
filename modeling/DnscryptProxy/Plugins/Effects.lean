import DnscryptProxy.Plugins.Pipeline
import Mathlib.Logic.Relation

/-! What the plugins can do. `CacheStep` is an abstract model of the shared cache and
of the history: it says which changes there are, and nothing about which plugin
makes them or when. Each `Eval` has one lemma, which says what it keeps of the
state of the query, how it may answer, and which of these changes it makes; the
lemmas about whole lists of plugins follow from them. -/

namespace DnscryptProxy

open Library Relation

/-! ## The cache as a transition system -/

/-- The message that the response plugins see of a packet. -/
def filteredMsg (msg : Msg) : Msg := removeEDNS0Options { msg with compress := true }

/-- What is stored for a message at a given time. -/
def storedResponse (ttls : TTLSettings) (msg : Msg) (time : Time) : CachedResponse :=
  ⟨time + getMinTTL msg ttls, updateTTL msg (time + getMinTTL msg ttls) time⟩

/-- What is served of a stored response at a given time, for a given message. -/
def servedResponse (msg : Msg) (cached : CachedResponse) (now : Time) : Msg :=
  updateTTL (servedFor msg cached.msg)
    (if now ≤ cached.expiration then cached.expiration else now + staleResponseTTL) now

/-- The changes of the cache and of the history. -/
inductive CacheStep (pkgs : Packages) (settings : QuerySettings) : World → World → Prop where
  | quiet {w w' : World} (cache : w'.cache = w.cache) (history : w'.history = w.history) :
      CacheStep pkgs settings w w'
  | received (w : World) (source : Source) (client : Option Msg) (packet : Bytes) (time : Time) :
      CacheStep pkgs settings w (w.log (.received source client packet time))
  | missed {w : World} {cache : ArcCache CacheKey CachedResponse} (present : w.cache = some cache)
      (key : CacheKey) : CacheStep pkgs settings w { w with cache := some (cache.get key).2 }
  | found {w : World} {cache : ArcCache CacheKey CachedResponse} (present : w.cache = some cache)
      (msg : Msg) {question : Question} {dnssec : Bool} {cached : CachedResponse} (now : Time)
      (hit : (cache.get (cacheKey pkgs.prims dnssec question)).1 = some cached) :
      CacheStep pkgs settings w (World.log
        { w with cache := some (cache.get (cacheKey pkgs.prims dnssec question)).2 }
        (.found (decide (now ≤ cached.expiration)) question dnssec
          (servedResponse msg cached now) now))
  /-- A packet that was received is stored under the key of its own question, with the
  message and the time of its reception. -/
  | stored {w : World} {cache : ArcCache CacheKey CachedResponse}
      (present : w.cache.or (ArcCache.new settings.cacheSize) = some cache) {source : Source}
      {client : Option Msg} {packet : Bytes} {time : Time}
      (received : .received source client packet time ∈ w.history) {msg : Msg}
      {question : Question} {rest : List Question} (unpack : pkgs.dns.unpack packet = .ok msg)
      (asked : msg.question = question :: rest) (dnssec : Bool) :
      CacheStep pkgs settings w (World.log
        { w with cache := some (cache.add (cacheKey pkgs.prims dnssec question)
          (storedResponse settings.ttls (filteredMsg msg) time)) }
        (.stored client dnssec (storedResponse settings.ttls (filteredMsg msg) time)))

theorem CacheStep.history_suffix {pkgs : Packages} {settings : QuerySettings} {w w' : World}
    (h : CacheStep pkgs settings w w') : w.history <:+ w'.history := by
  cases h with
  | quiet _ history => rw [history]
  | received => exact List.suffix_cons _ _
  | missed => exact List.suffix_rfl
  | found => exact List.suffix_cons _ _
  | stored => exact List.suffix_cons _ _

abbrev CacheSteps (pkgs : Packages) (settings : QuerySettings) : World → World → Prop :=
  ReflTransGen (CacheStep pkgs settings)

theorem CacheSteps.history_suffix {pkgs : Packages} {settings : QuerySettings} {w w' : World}
    (h : CacheSteps pkgs settings w w') : w.history <:+ w'.history := by
  induction h with
  | refl => exact List.suffix_rfl
  | tail _ hs ih => exact ih.trans hs.history_suffix

/-! ## Steps of an evaluation -/

section Rules

variable {α : Type} {Q : α → Prop} {E : Halted → Prop}

theorem Ctx.ends_question {ctx : Ctx} {f : Question → Except Halted α}
    (h : ∀ question rest, ctx.msg.question = question :: rest → Ends (f question) Q E)
    (hp : ctx.msg.question = [] → E ⟨.panic .indexOutOfRange, ctx.world⟩) :
    Ends (ctx.question >>= f) Q E := by
  unfold Ctx.question
  cases hq : ctx.msg.question with
  | nil => exact hp hq
  | cons question rest => exact h question rest hq

theorem World.ends_lift {β : Type} {w : World} {x : Except Panic β} {f : β → Except Halted α} :
    Ends (w.lift x >>= f) Q E ↔ Ends x (fun b => Ends (f b) Q E) fun p => E ⟨.panic p, w⟩ := by
  cases x <;> rfl

theorem Ctx.ends_logTo {ctx : Ctx} {logger : Bool} {f : Unit → Except Halted α}
    (h : Ends (f ()) Q E) (hp : ∀ p, E ⟨.panic p, ctx.world⟩) :
    Ends (ctx.logTo logger >>= f) Q E := by
  rw [Ctx.logTo, World.ends_lift]
  cases ctx.st.logTo logger with
  | ok => exact h
  | error p => exact hp p

theorem ends_checkAliases {ctx : Ctx} {names : BlockedNames} {now : LocalTime}
    {Q : Ctx × Option GoError → Prop} (hsame : ∀ err, Q (ctx, err))
    (hp : ∀ p, E ⟨.panic p, ctx.world⟩)
    (hchecked : ∀ target st, names.check now ctx.st target = .ok (true, st) →
      Q ({ ctx with st := st }, none)) (left : Nat) (targets : List Text) :
    Ends (checkAliases names now ctx left targets) Q E := by
  fun_induction checkAliases names now ctx left targets with
  | case1 => exact hsame none
  | case2 => exact hsame none
  | case3 left target targets e => exact hsame (some e)
  | case4 left target targets target' hn ih =>
    refine World.ends_lift.mpr ?_
    cases hc : names.check now ctx.st target' with
    | error p => exact hp p
    | ok r =>
      obtain ⟨blocked, st⟩ := r
      cases blocked with
      | false => exact ih
      | true => exact hchecked target' st hc

end Rules

/-! ## Effects -/

/-- What the stages hand on: the message, and the stale answer that was found for it. -/
abbrev Carried := Msg × Option Msg

def Ctx.carried (ctx : Ctx) : Carried := (ctx.msg, ctx.st.stale)

structure Kept (M : Carried → Carried → Prop) (ctx ctx' : Ctx) : Prop where
  clientProto : ctx'.st.clientProto = ctx.st.clientProto
  clientAddr : ctx'.st.clientAddr = ctx.st.clientAddr
  questionMsg : ctx'.st.questionMsg = ctx.st.questionMsg
  settings : ctx'.st.settings = ctx.st.settings
  carried : M ctx.carried ctx'.carried

theorem Kept.trans {M : Carried → Carried → Prop} [IsTrans _ M] {a b c : Ctx}
    (h : Kept M a b) (h' : Kept M b c) : Kept M a c :=
  ⟨h'.clientProto.trans h.clientProto, h'.clientAddr.trans h.clientAddr,
    h'.questionMsg.trans h.questionMsg, h'.settings.trans h.settings,
    IsTrans.trans _ _ _ h.carried h'.carried⟩

/-- The query plugins change messages, but not what they ask for. -/
def SameQuestion (carried carried' : Carried) : Prop :=
  carried'.1.question = carried.1.question

instance : IsPreorder Carried SameQuestion where
  refl _ := rfl
  trans _ _ _ h h' := h'.trans h

/-- The response plugins leave the stale answer alone too. -/
def SameAnswer (carried carried' : Carried) : Prop :=
  SameQuestion carried carried' ∧ carried'.2 = carried.2

instance : IsPreorder Carried SameAnswer where
  refl _ := ⟨rfl, rfl⟩
  trans _ _ _ h h' := ⟨h'.1.trans h.1, h'.2.trans h.2⟩

/-- Nothing was decided yet. -/
def Idle (st : PluginsState) : Prop := st.action = .cont ∧ st.synthResponse = none

/-- Still nothing was decided, or the query is rejected or has its answer. -/
def Settled (st : PluginsState) : Prop :=
  Idle st ∨ st.action = .reject ∨ (st.action = .synth ∧ st.synthResponse ≠ none)

/-- What an `Eval` that returns can do. -/
structure Effect (pkgs : Packages) (settings : QuerySettings) (M : Carried → Carried → Prop)
    (ctx ctx' : Ctx) : Prop where
  kept : Kept M ctx ctx'
  settled : Idle ctx.st → Settled ctx'.st
  world : CacheSteps pkgs settings ctx.world ctx'.world

/-- The evaluation has an effect on the context, or panics after steps of the cache. -/
def HasEffect (pkgs : Packages) (settings : QuerySettings) (M : Carried → Carried → Prop)
    (ctx : Ctx) (x : Evaluated) : Prop :=
  Ends x (fun r => Effect pkgs settings M ctx r.1) fun h => CacheSteps pkgs settings ctx.world h.world

variable {pkgs : Packages} {settings : QuerySettings} {M : Carried → Carried → Prop}

section Effects

variable [IsPreorder _ M] {ctx : Ctx}

theorem Effect.same (ctx : Ctx) : Effect pkgs settings M ctx ctx :=
  ⟨⟨rfl, rfl, rfl, rfl, refl _⟩, .inl, .refl⟩

theorem Effect.answer (ctx : Ctx) (synth : Msg) : Effect pkgs settings M ctx (ctx.answer synth) :=
  ⟨⟨rfl, rfl, rfl, rfl, refl _⟩, fun _ => .inr (.inr ⟨rfl, nofun⟩), .refl⟩

theorem Effect.answerCode (ctx : Ctx) (synth : Msg) (code : PluginsReturnCode) :
    Effect pkgs settings M ctx ((ctx.answer synth).withCode code) :=
  ⟨⟨rfl, rfl, rfl, rfl, refl _⟩, fun _ => .inr (.inr ⟨rfl, nofun⟩), .refl⟩

theorem Effect.whitelist (ctx : Ctx) :
    Effect pkgs settings M ctx { ctx with st.whitelisted := true } :=
  ⟨⟨rfl, rfl, rfl, rfl, refl _⟩, .inl, .refl⟩

theorem Effect.reject (ctx : Ctx) :
    Effect pkgs settings M ctx { ctx with st.action := .reject, st.returnCode := .reject } :=
  ⟨⟨rfl, rfl, rfl, rfl, refl _⟩, fun _ => .inr (.inl rfl), .refl⟩

theorem check_state {names : BlockedNames} {now : LocalTime} {st st' : PluginsState} {name : Text}
    {b : Bool} (h : names.check now st name = .ok (b, st')) :
    (b = false ∧ st' = st) ∨ (b = true ∧ st' = { st with action := .reject, returnCode := .reject }) := by
  unfold BlockedNames.check at h
  dsimp only at h
  split at h
  · cases h
    exact .inl ⟨rfl, rfl⟩
  · obtain ⟨_, -, h⟩ := ok_of_bind h
    cases h
    exact .inr ⟨rfl, rfl⟩

theorem Effect.checked {names : BlockedNames} {now : LocalTime} {st : PluginsState} {name : Text}
    {b : Bool} (h : names.check now ctx.st name = .ok (b, st)) :
    Effect pkgs settings M ctx { ctx with st := st } := by
  rcases check_state h with ⟨-, rfl⟩ | ⟨-, rfl⟩
  · exact .same ctx
  · exact .reject ctx

end Effects

/-! ## Query plugins -/

section Query

variable {env : QueryEnv} {ctx : Ctx}

theorem captivePortalEval_effect (ipsMap : CaptivePortalMap) :
    HasEffect pkgs settings SameQuestion ctx (captivePortalEval ipsMap ctx) := by
  unfold captivePortalEval
  split
  · exact .same ctx
  · exact .answer ctx _

theorem queryMetaEval_effect (txt : List Text) :
    HasEffect pkgs settings SameQuestion ctx (queryMetaEval txt ctx) :=
  ⟨⟨rfl, rfl, rfl, rfl, rfl⟩, .inl, .refl⟩

theorem allowNameEval_effect (now : Time) (names : BlockedNames) :
    HasEffect pkgs settings SameQuestion ctx (allowNameEval pkgs now names ctx) := by
  unfold allowNameEval
  dsimp only
  split
  · refine Ctx.ends_logTo ?_ fun _ => .refl
    exact ⟨⟨rfl, rfl, rfl, rfl, rfl⟩, .inl, .refl⟩
  · exact .same ctx

theorem firefoxEval_effect : HasEffect pkgs settings SameQuestion ctx (firefoxEval ctx) := by
  unfold firefoxEval
  split
  · exact .same ctx
  · refine Ctx.ends_question (fun question rest hq => ?_) fun _ => .refl
    split
    · exact .same ctx
    · split
      · exact .answerCode ctx _ _
      · exact .same ctx

theorem blockNameEval_effect (now : Time) (names : BlockedNames) :
    HasEffect pkgs settings SameQuestion ctx (blockNameEval pkgs now names ctx) := by
  unfold blockNameEval
  split
  · exact .same ctx
  · refine World.ends_lift.mpr ?_
    cases hc : names.check (pkgs.zone now) ctx.st ctx.st.qName with
    | error p => exact .refl
    | ok r => exact Effect.checked hc

theorem blockIPv6Eval_effect : HasEffect pkgs settings SameQuestion ctx (blockIPv6Eval ctx) := by
  unfold blockIPv6Eval
  refine Ctx.ends_question (fun question rest hq => ?_) fun _ => .refl
  split
  · exact .same ctx
  · exact .answerCode ctx _ _

theorem blockUnqualifiedEval_effect :
    HasEffect pkgs settings SameQuestion ctx (blockUnqualifiedEval ctx) := by
  unfold blockUnqualifiedEval
  refine Ctx.ends_question (fun question rest hq => ?_) fun _ => .refl
  split
  · exact .same ctx
  · split
    · exact .same ctx
    · exact .answerCode ctx _ _

theorem blockUndelegatedEval_effect (suffixes : PrefixMap Char Unit) :
    HasEffect pkgs settings SameQuestion ctx (blockUndelegatedEval suffixes ctx) := by
  unfold blockUndelegatedEval
  dsimp only
  split
  · exact .same ctx
  · split
    · exact .answerCode ctx _ _
    · exact .same ctx

theorem cloakEval_effect (rules : CloakRules) :
    HasEffect pkgs settings SameQuestion ctx (cloakEval rules env ctx) := by
  unfold cloakEval
  refine Ctx.ends_question (fun question rest hq => ?_) fun _ => .refl
  split
  · exact .same ctx
  · split
    · exact .same ctx
    · dsimp only
      split
      · split
        · exact .same ctx
        · -- the cloaked name behind the pointer is replaced
          exact ⟨⟨rfl, rfl, rfl, rfl, rfl⟩, fun _ => .inr (.inr ⟨rfl, nofun⟩), .single (.quiet rfl rfl)⟩
      · exact .answerCode ctx _ _

theorem ecsEval_cases (nets : List IPNet) (env : QueryEnv) (ctx : Ctx) :
    ecsEval nets env ctx = ctx.panic .indexOutOfRange ∨
      ∃ extra, ecsEval nets env ctx = Ctx.ok { ctx with msg := { ctx.msg with extra := extra } } := by
  unfold ecsEval
  dsimp only
  split
  · exact .inr ⟨ctx.msg.extra, rfl⟩
  · split
    · exact .inl rfl
    · split
      · split
        · exact .inr ⟨_, rfl⟩
        · exact .inr ⟨ctx.msg.extra, rfl⟩
      · split
        · exact .inr ⟨_, rfl⟩
        · exact .inr ⟨_, rfl⟩

theorem ecsEval_effect (nets : List IPNet) :
    HasEffect pkgs settings SameQuestion ctx (ecsEval nets env ctx) := by
  obtain h | ⟨extra, h⟩ := ecsEval_cases nets env ctx
  · rw [h]
    exact .refl
  · rw [h]
    exact ⟨⟨rfl, rfl, rfl, rfl, rfl⟩, .inl, .refl⟩

theorem getSetPayloadSizeEval_eq (ctx : Ctx) :
    ∃ extra original maxPayloadSize, getSetPayloadSizeEval ctx =
      Ctx.ok { ctx with
        msg := { ctx.msg with extra := extra }
        st := { ctx.st with
          originalMaxPayloadSize := original
          maxUnencryptedUDPSafePayloadSize := (ctx.msg.isEdns0.map fun rr => rr.udpSize.toNat).getD
            ctx.st.maxUnencryptedUDPSafePayloadSize
          dnssec := ctx.msg.isEdns0.any RR.edns0Do
          maxPayloadSize := maxPayloadSize } } := by
  unfold getSetPayloadSizeEval
  cases ctx.msg.isEdns0 with
  | none =>
    dsimp only
    split
    · split <;> exact ⟨_, _, _, rfl⟩
    · exact ⟨ctx.msg.extra, _, _, rfl⟩
  | some rr =>
    dsimp only
    split
    · split <;> exact ⟨_, _, _, rfl⟩
    · exact ⟨ctx.msg.extra, _, _, rfl⟩

theorem getSetPayloadSizeEval_effect :
    HasEffect pkgs settings SameQuestion ctx (getSetPayloadSizeEval ctx) := by
  obtain ⟨extra, original, maxPayloadSize, h⟩ := getSetPayloadSizeEval_eq ctx
  rw [h]
  exact ⟨⟨rfl, rfl, rfl, rfl, rfl⟩, .inl, .refl⟩

theorem forwardEval_effect (forwardMap : List ForwardEntry) :
    HasEffect pkgs settings SameQuestion ctx (forwardEval forwardMap env ctx) := by
  unfold forwardEval
  dsimp only
  split
  · exact .same ctx
  · split
    · exact ⟨⟨rfl, rfl, rfl, rfl, rfl⟩, .inl, .refl⟩
    · exact ⟨⟨rfl, rfl, rfl, rfl, rfl⟩, fun _ => .inr (.inr ⟨rfl, nofun⟩), .refl⟩

theorem cacheEval_effect (now : Time) :
    HasEffect pkgs settings SameQuestion ctx (cacheEval pkgs now ctx) := by
  unfold cacheEval
  refine Ctx.ends_question (fun question rest hq => ?_) fun _ => .refl
  dsimp only
  split
  · exact .same ctx
  · next cache hc =>
    split
    · exact ⟨⟨rfl, rfl, rfl, rfl, rfl⟩, .inl, .single (.missed hc _)⟩
    · next cached hit =>
      have hstep : CacheStep pkgs settings ctx.world _ :=
        .found hc ctx.msg now hit
      split
      · next hlt =>
        have hstale : ¬now ≤ cached.expiration := not_le.mpr hlt
        rw [servedResponse, if_neg hstale, decide_eq_false hstale] at hstep
        exact ⟨⟨rfl, rfl, rfl, rfl, rfl⟩, .inl, .single hstep⟩
      · next hle =>
        have hfresh : now ≤ cached.expiration := not_lt.mp hle
        rw [servedResponse, if_pos hfresh, decide_eq_true hfresh] at hstep
        exact ⟨⟨rfl, rfl, rfl, rfl, rfl⟩, fun _ => .inr (.inr ⟨rfl, nofun⟩), .single hstep⟩

theorem QueryPlugin.effect (plugin : QueryPlugin) :
    HasEffect pkgs settings SameQuestion ctx (plugin.eval pkgs env ctx) := by
  cases plugin with
  | captivePortal ipsMap => exact captivePortalEval_effect ipsMap
  | queryMeta txt => exact queryMetaEval_effect txt
  | allowName names => exact allowNameEval_effect env.now names
  | firefox => exact firefoxEval_effect
  | ecs nets => exact ecsEval_effect nets
  | blockName names => exact blockNameEval_effect env.now names
  | blockIPv6 => exact blockIPv6Eval_effect
  | cloak rules => exact cloakEval_effect rules
  | getSetPayloadSize => exact getSetPayloadSizeEval_effect
  | cache => exact cacheEval_effect env.now
  | forward forwardMap => exact forwardEval_effect forwardMap
  | blockUnqualified => exact blockUnqualifiedEval_effect
  | blockUndelegated => exact blockUndelegatedEval_effect undelegatedSuffixes

end Query

/-! ## Response plugins -/

section Response

variable {env : ResponseEnv} {ctx : Ctx}

theorem nxLogEval_effect : HasEffect pkgs settings Eq ctx (nxLogEval ctx) := by
  unfold nxLogEval
  split
  · exact .same ctx
  · refine Ctx.ends_question (fun question rest hq => ?_) fun _ => .refl
    exact Ctx.ends_logTo (.same ctx) fun _ => .refl

theorem allowedIPEval_effect (rules : IPRules) :
    HasEffect pkgs settings Eq ctx (allowedIPEval rules ctx) := by
  unfold allowedIPEval
  split
  · exact Ctx.ends_logTo (.whitelist ctx) fun _ => .refl
  · exact .same ctx

theorem blockIPEval_effect (rules : IPRules) :
    HasEffect pkgs settings Eq ctx (blockIPEval rules ctx) := by
  unfold blockIPEval
  split
  · exact .same ctx
  · split
    · exact Ctx.ends_logTo (.reject ctx) fun _ => .refl
    · exact .same ctx

theorem checkAliases_effect (names : BlockedNames) (now : LocalTime) (left : Nat)
    (targets : List Text) : HasEffect pkgs settings Eq ctx (checkAliases names now ctx left targets) :=
  ends_checkAliases (fun _ => .same ctx) (fun _ => .refl) (fun _ _ hchecked => .checked hchecked) left
    targets

theorem blockNameResponseEval_effect (now : Time) (names : BlockedNames) :
    HasEffect pkgs settings Eq ctx (blockNameResponseEval pkgs now names ctx) := by
  unfold blockNameResponseEval
  split
  · exact .same ctx
  · exact checkAliases_effect names _ _ _

/-- The sub-query changes the state of the proxy by steps of the cache only. -/
def SubqueryEffect (pkgs : Packages) (settings : QuerySettings)
    (subquery : Option (World → Bytes → Except Halted (Bytes × World))) : Prop :=
  ∀ sub, subquery = some sub → ∀ world packet, Ends (sub world packet)
    (fun r => CacheSteps pkgs settings world r.2) fun h => CacheSteps pkgs settings world h.world

theorem dns64Synthesize_effect (pref64 : List IPNet) (resp : Msg) :
    HasEffect pkgs settings Eq ctx (dns64Synthesize pref64 ctx resp) := by
  unfold dns64Synthesize
  split
  · exact .same ctx
  · refine World.ends_lift.mpr ?_
    cases resp.answer.mapM (synthesize pref64 (soaTTL resp.ns)) with
    | error p => exact .refl
    | ok synth64 => exact .answerCode ctx _ _

theorem dns64Query_effect (h : SubqueryEffect pkgs settings env.subquery) (pref64 : List IPNet)
    (packet : Bytes) : HasEffect pkgs settings Eq ctx (dns64Query pkgs env pref64 ctx packet) := by
  unfold dns64Query
  split
  · exact .same ctx
  · next sub hs =>
    refine (h sub hs ctx.world packet).bind fun r _ hw => ?_
    have hsame : Effect pkgs settings Eq ctx { ctx with world := r.2 } :=
      ⟨⟨rfl, rfl, rfl, rfl, rfl⟩, .inl, hw⟩
    dsimp only
    split
    · exact hsame
    · refine (dns64Synthesize_effect pref64 _).mono (fun r' _ he => ?_) fun _ he => hw.trans he
      exact ⟨hsame.kept.trans he.kept, he.settled, hw.trans he.world⟩

theorem dns64Eval_effect (h : SubqueryEffect pkgs settings env.subquery) (pref64 : List IPNet) :
    HasEffect pkgs settings Eq ctx (dns64Eval pkgs env pref64 ctx) := by
  unfold dns64Eval
  split
  · exact .same ctx
  · split
    · exact .refl
    · split
      · exact .refl
      · split
        · exact .same ctx
        · split
          · exact .same ctx
          · exact dns64Query_effect h pref64 _

theorem ResponsePlugin.effect_of_filter (h : SubqueryEffect pkgs settings env.subquery)
    {plugin : ResponsePlugin} (hp : plugin ≠ .cacheResponse) :
    HasEffect pkgs settings Eq ctx (plugin.eval pkgs env ctx) := by
  cases plugin with
  | nxLog => exact nxLogEval_effect
  | allowedIP rules => exact allowedIPEval_effect rules
  | blockName names => exact blockNameResponseEval_effect env.now names
  | blockIP rules => exact blockIPEval_effect rules
  | dns64 pref64 => exact dns64Eval_effect h pref64
  | cacheResponse => exact absurd rfl hp

theorem cacheResponseEval_effect {now : Time} {source : Source} {packet : Bytes} {msg : Msg}
    (hr : .received source ctx.st.questionMsg packet now ∈ ctx.world.history)
    (hu : pkgs.dns.unpack packet = .ok msg) (hm : ctx.msg = filteredMsg msg)
    (ht : ctx.st.settings = settings) :
    HasEffect pkgs settings SameAnswer ctx (cacheResponseEval pkgs now ctx) := by
  subst ht
  unfold cacheResponseEval
  split
  · exact .same ctx
  · split
    · exact .same ctx
    · refine Ctx.ends_question (fun question rest hq => ?_) fun _ => .refl
      split
      · exact .same ctx
      · next cache hc =>
        have asked : msg.question = question :: rest := by rw [← hq, hm]; rfl
        have hstep : CacheStep pkgs ctx.st.settings ctx.world _ :=
          .stored hc hr hu asked ctx.st.dnssec
        rw [← hm] at hstep
        exact ⟨⟨rfl, rfl, rfl, rfl, rfl, rfl⟩, .inl, .single hstep⟩

end Response

end DnscryptProxy
