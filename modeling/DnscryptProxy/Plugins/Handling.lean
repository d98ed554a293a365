import DnscryptProxy.Plugins.Application

/-! What the plugins leave alone of a query, and which answers they put aside. All but a few
plugins leave the message as it is; an answer that a plugin makes has the ID of the message.
Most of them are `Quiet`: they leave the allow lists and the history alone too. -/

namespace DnscryptProxy

open Library

/-! ## IDs of messages -/

@[simp]
theorem emptyResponseFromMessage_id (msg : Msg) : (emptyResponseFromMessage msg).id = msg.id := by
  unfold emptyResponseFromMessage
  split <;> rfl

@[simp]
theorem refusedResponseFromMessage_id (msg : Msg) (refusedCode : Bool) (ipv4 ipv6 : IP)
    (ttl : UInt32) : (refusedResponseFromMessage msg refusedCode ipv4 ipv6 ttl).id = msg.id := by
  unfold refusedResponseFromMessage
  split
  · exact emptyResponseFromMessage_id msg
  · split <;> exact emptyResponseFromMessage_id msg

/-! ## Plugins that leave the message alone -/

/-- The messages with which the query may be answered. -/
def PluginsState.answers (st : PluginsState) : List Msg :=
  st.synthResponse.toList ++ st.stale.toList

/-- The message and the limits stay, and new answers are answers to the message. -/
structure Handled (ctx ctx' : Ctx) : Prop where
  msg : ctx'.msg = ctx.msg
  maxPayloadSize : ctx'.st.maxPayloadSize = ctx.st.maxPayloadSize
  maxUnencrypted : ctx'.st.maxUnencryptedUDPSafePayloadSize =
    ctx.st.maxUnencryptedUDPSafePayloadSize
  answers : ∀ answer ∈ ctx'.st.answers, answer ∈ ctx.st.answers ∨ answer.id = ctx.msg.id

/-- The state of the allow lists, the name and the history stay. -/
structure Untouched (ctx ctx' : Ctx) : Prop where
  whitelisted : ctx'.st.whitelisted = ctx.st.whitelisted
  qName : ctx'.st.qName = ctx.st.qName
  history : ctx'.world.history = ctx.world.history

structure Quiet (ctx ctx' : Ctx) : Prop extends Handled ctx ctx', Untouched ctx ctx'

abbrev Handles (ctx : Ctx) (x : Evaluated) : Prop :=
  Ends x (fun r => Handled ctx r.1) fun _ => True

abbrev Leaves (ctx : Ctx) (x : Evaluated) : Prop :=
  Ends x (fun r => Untouched ctx r.1) fun halted => halted.world.history = ctx.world.history

/-- The evaluation is quiet, also where it ends in a panic. -/
def StaysQuiet (ctx : Ctx) (x : Evaluated) : Prop :=
  Ends x (fun r => Quiet ctx r.1) fun halted => halted.world.history = ctx.world.history

theorem StaysQuiet.handles {ctx : Ctx} {x : Evaluated} (h : StaysQuiet ctx x) : Handles ctx x :=
  h.mono (fun _ _ hr => hr.toHandled) fun _ _ => trivial

theorem StaysQuiet.leaves {ctx : Ctx} {x : Evaluated} (h : StaysQuiet ctx x) : Leaves ctx x :=
  h.mono (fun _ _ hr => hr.toUntouched) fun _ he => he

section Handled

variable {ctx : Ctx}

theorem Handled.same (ctx : Ctx) : Handled ctx ctx := ⟨rfl, rfl, rfl, fun _ h => .inl h⟩

theorem mem_answers {st : PluginsState} {answer : Msg} :
    answer ∈ st.answers ↔ st.synthResponse = some answer ∨ st.stale = some answer := by
  simp [PluginsState.answers]

theorem Handled.answered {ctx' : Ctx} {synth : Msg} (hs : ctx'.st.synthResponse = some synth)
    (hid : synth.id = ctx.msg.id) (hstale : ctx'.st.stale = ctx.st.stale) (hmsg : ctx'.msg = ctx.msg)
    (hmax : ctx'.st.maxPayloadSize = ctx.st.maxPayloadSize)
    (hsafe : ctx'.st.maxUnencryptedUDPSafePayloadSize = ctx.st.maxUnencryptedUDPSafePayloadSize) :
    Handled ctx ctx' := by
  refine ⟨hmsg, hmax, hsafe, fun answer hanswer => ?_⟩
  rcases mem_answers.mp hanswer with heq | hold
  · obtain rfl := Option.some.inj (hs.symm.trans heq)
    exact .inr hid
  · exact .inl (mem_answers.mpr (.inr (hstale.symm.trans hold)))

theorem Untouched.same (ctx : Ctx) : Untouched ctx ctx := ⟨rfl, rfl, rfl⟩

theorem Quiet.same (ctx : Ctx) : Quiet ctx ctx := ⟨.same ctx, .same ctx⟩

theorem Quiet.reject (ctx : Ctx) :
    Quiet ctx { ctx with st.action := .reject, st.returnCode := .reject } :=
  ⟨⟨rfl, rfl, rfl, fun _ h => .inl h⟩, ⟨rfl, rfl, rfl⟩⟩

theorem Quiet.checked {names : BlockedNames} {now : LocalTime} {st : PluginsState} {name : Text}
    {b : Bool} (h : names.check now ctx.st name = .ok (b, st)) : Quiet ctx { ctx with st := st } := by
  rcases check_state h with ⟨-, rfl⟩ | ⟨-, rfl⟩
  · exact .same ctx
  · exact .reject ctx

/-! ## Query plugins -/

variable {pkgs : Packages} {env : QueryEnv}

theorem captivePortalEval_quiet (ipsMap : CaptivePortalMap) :
    StaysQuiet ctx (captivePortalEval ipsMap ctx) := by
  unfold captivePortalEval
  split
  · exact .same ctx
  · exact ⟨.answered rfl (emptyResponseFromMessage_id ctx.msg) rfl rfl rfl rfl, ⟨rfl, rfl, rfl⟩⟩

theorem allowNameEval_handles (now : Time) (names : BlockedNames) :
    Handles ctx (allowNameEval pkgs now names ctx) := by
  unfold allowNameEval
  dsimp only
  split
  · refine Ctx.ends_logTo ?_ fun _ => trivial
    exact ⟨rfl, rfl, rfl, fun _ h => .inl h⟩
  · exact .same ctx

theorem firefoxEval_quiet : StaysQuiet ctx (firefoxEval ctx) := by
  unfold firefoxEval
  split
  · exact .same ctx
  · refine Ctx.ends_question (fun question rest hq => ?_) fun _ => rfl
    split
    · exact .same ctx
    · split
      · exact ⟨.answered rfl (emptyResponseFromMessage_id ctx.msg) rfl rfl rfl rfl, ⟨rfl, rfl, rfl⟩⟩
      · exact .same ctx

theorem blockNameEval_quiet (now : Time) (names : BlockedNames) :
    StaysQuiet ctx (blockNameEval pkgs now names ctx) := by
  unfold blockNameEval
  split
  · exact .same ctx
  · refine World.ends_lift.mpr ?_
    cases hc : names.check (pkgs.zone now) ctx.st ctx.st.qName with
    | error p => rfl
    | ok r => exact Quiet.checked hc

theorem blockIPv6Eval_quiet : StaysQuiet ctx (blockIPv6Eval ctx) := by
  unfold blockIPv6Eval
  refine Ctx.ends_question (fun question rest hq => ?_) fun _ => rfl
  split
  · exact .same ctx
  · exact ⟨.answered rfl (emptyResponseFromMessage_id ctx.msg) rfl rfl rfl rfl, ⟨rfl, rfl, rfl⟩⟩

theorem blockUnqualifiedEval_quiet : StaysQuiet ctx (blockUnqualifiedEval ctx) := by
  unfold blockUnqualifiedEval
  refine Ctx.ends_question (fun question rest hq => ?_) fun _ => rfl
  split
  · exact .same ctx
  · split
    · exact .same ctx
    · exact ⟨.answered rfl (emptyResponseFromMessage_id ctx.msg) rfl rfl rfl rfl, ⟨rfl, rfl, rfl⟩⟩

theorem blockUndelegatedEval_quiet (suffixes : PrefixMap Char Unit) :
    StaysQuiet ctx (blockUndelegatedEval suffixes ctx) := by
  unfold blockUndelegatedEval
  dsimp only
  split
  · exact .same ctx
  · split
    · exact ⟨.answered rfl (emptyResponseFromMessage_id ctx.msg) rfl rfl rfl rfl, ⟨rfl, rfl, rfl⟩⟩
    · exact .same ctx

theorem cloakEval_quiet (rules : CloakRules) : StaysQuiet ctx (cloakEval rules env ctx) := by
  unfold cloakEval
  refine Ctx.ends_question (fun question rest hq => ?_) fun _ => rfl
  split
  · exact .same ctx
  · split
    · exact .same ctx
    · dsimp only
      split
      · split
        · exact .same ctx
        · exact ⟨.answered rfl (emptyResponseFromMessage_id ctx.msg) rfl rfl rfl rfl, ⟨rfl, rfl, rfl⟩⟩
      · exact ⟨.answered rfl (emptyResponseFromMessage_id ctx.msg) rfl rfl rfl rfl, ⟨rfl, rfl, rfl⟩⟩

theorem forwardEval_quiet (forwardMap : List ForwardEntry) :
    StaysQuiet ctx (forwardEval forwardMap env ctx) := by
  unfold forwardEval
  dsimp only
  split
  · exact .same ctx
  · split
    · exact ⟨⟨rfl, rfl, rfl, fun _ h => .inl h⟩, ⟨rfl, rfl, rfl⟩⟩
    · exact ⟨.answered rfl rfl rfl rfl rfl rfl, ⟨rfl, rfl, rfl⟩⟩

theorem cacheEval_handles (now : Time) : Handles ctx (cacheEval pkgs now ctx) := by
  unfold cacheEval
  refine Ctx.ends_question (fun question rest hq => ?_) fun _ => trivial
  dsimp only
  split
  · exact .same ctx
  · split
    · exact ⟨rfl, rfl, rfl, fun _ h => .inl h⟩
    · split
      · -- the stale answer is put aside
        refine ⟨rfl, rfl, rfl, fun answer hanswer => ?_⟩
        rcases mem_answers.mp hanswer with hsynth | heq
        · exact .inl (mem_answers.mpr (.inl hsynth))
        · obtain rfl := Option.some.inj heq
          exact .inr rfl
      · exact Handled.answered rfl rfl rfl rfl rfl rfl

/-- The plugins that rewrite the additional section of the query. -/
def QueryPlugin.Rewrites : QueryPlugin → Prop
  | .queryMeta _ | .ecs _ | .getSetPayloadSize => True
  | _ => False

theorem QueryPlugin.handles {plugin : QueryPlugin} (h : ¬ plugin.Rewrites) :
    Handles ctx (plugin.eval pkgs env ctx) := by
  cases plugin with
  | queryMeta txt => exact absurd trivial h
  | ecs nets => exact absurd trivial h
  | getSetPayloadSize => exact absurd trivial h
  | captivePortal ipsMap => exact (captivePortalEval_quiet ipsMap).handles
  | allowName names => exact allowNameEval_handles env.now names
  | firefox => exact firefoxEval_quiet.handles
  | blockName names => exact (blockNameEval_quiet env.now names).handles
  | blockIPv6 => exact blockIPv6Eval_quiet.handles
  | cloak rules => exact (cloakEval_quiet rules).handles
  | cache => exact cacheEval_handles env.now
  | forward forwardMap => exact (forwardEval_quiet forwardMap).handles
  | blockUnqualified => exact blockUnqualifiedEval_quiet.handles
  | blockUndelegated => exact (blockUndelegatedEval_quiet undelegatedSuffixes).handles

theorem ecsEval_leaves (nets : List IPNet) : Leaves ctx (ecsEval nets env ctx) := by
  obtain h | ⟨extra, h⟩ := ecsEval_cases nets env ctx
  · rw [h]
    rfl
  · rw [h]
    exact ⟨rfl, rfl, rfl⟩

theorem getSetPayloadSizeEval_leaves : Leaves ctx (getSetPayloadSizeEval ctx) := by
  obtain ⟨extra, original, maxPayloadSize, h⟩ := getSetPayloadSizeEval_eq ctx
  rw [h]
  exact ⟨rfl, rfl, rfl⟩

theorem QueryPlugin.leaves {plugin : QueryPlugin} (hallow : ∀ names, plugin ≠ .allowName names)
    (hcache : plugin ≠ .cache) : Leaves ctx (plugin.eval pkgs env ctx) := by
  cases plugin with
  | allowName names => exact absurd rfl (hallow names)
  | cache => exact absurd rfl hcache
  | queryMeta txt => exact ⟨rfl, rfl, rfl⟩
  | ecs nets => exact ecsEval_leaves nets
  | getSetPayloadSize => exact getSetPayloadSizeEval_leaves
  | captivePortal ipsMap => exact (captivePortalEval_quiet ipsMap).leaves
  | firefox => exact firefoxEval_quiet.leaves
  | blockName names => exact (blockNameEval_quiet env.now names).leaves
  | blockIPv6 => exact blockIPv6Eval_quiet.leaves
  | cloak rules => exact (cloakEval_quiet rules).leaves
  | forward forwardMap => exact (forwardEval_quiet forwardMap).leaves
  | blockUnqualified => exact blockUnqualifiedEval_quiet.leaves
  | blockUndelegated => exact (blockUndelegatedEval_quiet undelegatedSuffixes).leaves

/-! ## Response plugins -/

variable {renv : ResponseEnv}

theorem nxLogEval_quiet : StaysQuiet ctx (nxLogEval ctx) := by
  unfold nxLogEval
  split
  · exact .same ctx
  · refine Ctx.ends_question (fun question rest hq => ?_) fun _ => rfl
    exact Ctx.ends_logTo (.same ctx) fun _ => rfl

theorem allowedIPEval_handles (rules : IPRules) : Handles ctx (allowedIPEval rules ctx) := by
  unfold allowedIPEval
  split
  · refine Ctx.ends_logTo ?_ fun _ => trivial
    exact ⟨rfl, rfl, rfl, fun _ h => .inl h⟩
  · exact .same ctx

theorem blockIPEval_quiet (rules : IPRules) : StaysQuiet ctx (blockIPEval rules ctx) := by
  unfold blockIPEval
  split
  · exact .same ctx
  · split
    · exact Ctx.ends_logTo (.reject ctx) fun _ => rfl
    · exact .same ctx

theorem checkAliases_quiet (names : BlockedNames) (now : LocalTime) (left : Nat)
    (targets : List Text) : StaysQuiet ctx (checkAliases names now ctx left targets) :=
  ends_checkAliases (fun _ => .same ctx) (fun _ => rfl) (fun _ _ hchecked => .checked hchecked) left
    targets

theorem blockNameResponseEval_quiet (now : Time) (names : BlockedNames) :
    StaysQuiet ctx (blockNameResponseEval pkgs now names ctx) := by
  unfold blockNameResponseEval
  split
  · exact .same ctx
  · exact checkAliases_quiet names _ _ _

theorem dns64Synthesize_handles (pref64 : List IPNet) (resp : Msg) :
    Handles ctx (dns64Synthesize pref64 ctx resp) := by
  unfold dns64Synthesize
  split
  · exact .same ctx
  · refine World.ends_lift.mpr ?_
    cases resp.answer.mapM (synthesize pref64 (soaTTL resp.ns)) with
    | error p => trivial
    | ok synth64 => exact Handled.answered rfl (emptyResponseFromMessage_id ctx.msg) rfl rfl rfl rfl

theorem dns64Query_handles (pref64 : List IPNet) (packet : Bytes) :
    Handles ctx (dns64Query pkgs renv pref64 ctx packet) := by
  unfold dns64Query
  split
  · exact .same ctx
  · refine Ends.bind (ends_true_iff.mpr fun _ _ => trivial) fun r _ _ => ?_
    dsimp only
    split
    · exact ⟨rfl, rfl, rfl, fun _ h => .inl h⟩
    · refine (dns64Synthesize_handles pref64 _).mono (fun _ _ h => ?_) fun _ h => h
      exact ⟨h.msg, h.maxPayloadSize, h.maxUnencrypted, h.answers⟩

theorem dns64Eval_handles (pref64 : List IPNet) : Handles ctx (dns64Eval pkgs renv pref64 ctx) := by
  unfold dns64Eval
  split
  · exact .same ctx
  · split
    · trivial
    · split
      · trivial
      · split
        · exact .same ctx
        · split
          · exact .same ctx
          · exact dns64Query_handles pref64 _

theorem ResponsePlugin.handles {plugin : ResponsePlugin} (h : plugin ≠ .cacheResponse) :
    Handles ctx (plugin.eval pkgs renv ctx) := by
  cases plugin with
  | nxLog => exact nxLogEval_quiet.handles
  | allowedIP rules => exact allowedIPEval_handles rules
  | blockName names => exact (blockNameResponseEval_quiet renv.now names).handles
  | blockIP rules => exact (blockIPEval_quiet rules).handles
  | dns64 pref64 => exact dns64Eval_handles pref64
  | cacheResponse => exact absurd rfl h

end Handled

end DnscryptProxy
