import DnscryptProxy.Plugins.Application

/-! When a plugin panics. `Avoids F x` says that `x` does not end in one of the panics
in `F`. For each plugin there is one lemma that says when this is so, by what the plugin
reads before it was checked to be there:

* the client address, for a log line (`ReadsAddress`);
* the first question of the message or of the client's query (`MissesQuestion`);
* the client's query, which is missing where it was not parsed (`MissesQuery`);
* the octets of an address behind its end, in DNS64 (`Overruns`). -/

namespace DnscryptProxy

open Library

/-- `x` does not end in one of the given panics. -/
def Avoids {α : Type} (F : Panic → Prop) (x : Except Halted α) : Prop :=
  Ends x (fun _ => True) fun h => ∀ panic, h.cause = .panic panic → ¬F panic

/-- Reading the client address does not end in one of the given panics. -/
def PluginsState.Readable (F : Panic → Prop) (st : PluginsState) : Prop :=
  ∀ panic, st.clientIPStr = .error panic → ¬F panic

section Rules

variable {F : Panic → Prop} {ctx : Ctx} {α : Type}

theorem avoids_panic {w : World} {panic : Panic} :
    Avoids F (.error ⟨.panic panic, w⟩ : Except Halted α) ↔ ¬F panic := by
  constructor
  · intro h
    exact h panic rfl
  · intro h panic' heq
    cases heq
    exact h

theorem avoids_bind_ok {β : Type} {x : Except Halted β} {f : β → Except Halted α}
    (hf : ∀ b, ∃ a, f b = .ok a) : Avoids F (x >>= f) ↔ Avoids F x := by
  cases x with
  | error halted => exact Iff.rfl
  | ok b =>
    obtain ⟨a, ha⟩ := hf b
    have hbind : (Except.ok b >>= f) = .ok a := ha
    rw [hbind]
    exact Iff.rfl

theorem avoids_iff_of_not {x : Except Halted α} {P R : Prop} (hx : Avoids F x) (hP : ¬P) :
    Avoids F x ↔ (P → R) := by
  constructor
  · intro _ h
    exact absurd h hP
  · intro _
    exact hx

theorem Ctx.avoids_question {f : Question → Except Halted α} :
    Avoids F (ctx.question >>= f) ↔
      (ctx.msg.question = [] → ¬F .indexOutOfRange) ∧
        ∀ question rest, ctx.msg.question = question :: rest → Avoids F (f question) := by
  unfold Ctx.question
  cases hq : ctx.msg.question with
  | nil =>
    refine Iff.trans avoids_panic ?_
    constructor
    · intro h
      exact ⟨fun _ => h, nofun⟩
    · intro h
      exact h.1 rfl
  | cons question rest =>
    constructor
    · intro h
      refine ⟨nofun, ?_⟩
      rintro _ _ ⟨⟩
      exact h
    · intro h
      exact h.2 question rest rfl

theorem Ctx.avoids_logTo {logger : Bool} {f : Unit → Except Halted α} (hf : ∃ r, f () = .ok r) :
    Avoids F (ctx.logTo logger >>= f) ↔ (logger = true → ctx.st.Readable F) := by
  obtain ⟨r, hf⟩ := hf
  unfold Ctx.logTo PluginsState.logTo PluginsState.Readable
  cases logger with
  | false =>
    have hgo : Avoids F (f ()) := by
      rw [hf]
      trivial
    exact avoids_iff_of_not hgo nofun
  | true =>
    cases hc : ctx.st.clientIPStr with
    | ok ip =>
      have hgo : Avoids F (f ()) := by
        rw [hf]
        trivial
      constructor
      · intro _ _
        exact nofun
      · intro _
        exact hgo
    | error panic =>
      refine Iff.trans avoids_panic ?_
      constructor
      · rintro h _ _ ⟨⟩
        exact h
      · intro h
        exact h rfl panic rfl

theorem Ctx.avoids_logTo_of {P : Prop} (hP : P) {logger : Bool} {f : Unit → Except Halted α}
    (hf : ∃ r, f () = .ok r) :
    Avoids F (ctx.logTo logger >>= f) ↔ (P ∧ logger = true → ctx.st.Readable F) := by
  rw [Ctx.avoids_logTo hf]
  simp [hP]

end Rules

/-- The verdict of a list of names. -/
def BlockedNames.rejects (names : BlockedNames) (now : LocalTime) (qName : Text) : Bool :=
  (names.patternMatcher.eval qName).reject &&
    BlockedNames.inForce now (names.patternMatcher.eval qName).val.join

theorem avoids_check {F : Panic → Prop} {ctx : Ctx} {α : Type} {names : BlockedNames}
    {now : LocalTime} {qName : Text} {f : Bool × PluginsState → Except Halted α}
    (hf : ∀ st, ∃ r, f (true, st) = .ok r) :
    Avoids F (ctx.world.lift (names.check now ctx.st qName) >>= f) ↔
      if names.rejects now qName then (names.logger = true → ctx.st.Readable F)
      else Avoids F (f (false, ctx.st)) := by
  unfold BlockedNames.check BlockedNames.rejects
  dsimp only
  cases (names.patternMatcher.eval qName).reject &&
    BlockedNames.inForce now (names.patternMatcher.eval qName).val.join with
  | false => exact Iff.rfl
  | true =>
    -- the state differs from `ctx.st` in its action, not in its client
    have hlog : Avoids F (Ctx.logTo { ctx with st.action := .reject, st.returnCode := .reject }
        names.logger >>= fun _ => f (true, { ctx.st with action := .reject, returnCode := .reject })) ↔
        (names.logger = true → ctx.st.Readable F) :=
      Ctx.avoids_logTo (hf _)
    refine Iff.trans ?_ hlog
    unfold Ctx.logTo
    cases PluginsState.logTo { ctx.st with action := .reject, returnCode := .reject }
      names.logger <;> exact Iff.rfl

/-! ## Query plugins -/

section Query

variable {pkgs : Packages} {env : QueryEnv} {ctx : Ctx} {F : Panic → Prop}

/-- The plugin writes a log line. -/
def QueryPlugin.ReadsAddress (pkgs : Packages) (env : QueryEnv) (ctx : Ctx) : QueryPlugin → Prop
  | .allowName names => names.rejects (pkgs.zone env.now) ctx.st.qName = true ∧ names.logger = true
  | .blockName names => ctx.st.whitelisted = false ∧
      names.rejects (pkgs.zone env.now) ctx.st.qName = true ∧ names.logger = true
  | _ => False

theorem allowNameEval_avoids (names : BlockedNames) :
    Avoids F (allowNameEval pkgs env.now names ctx) ↔
      (names.rejects (pkgs.zone env.now) ctx.st.qName = true ∧ names.logger = true →
        ctx.st.Readable F) := by
  unfold allowNameEval
  dsimp only
  split
  · next h => exact Ctx.avoids_logTo_of h (by exact ⟨_, rfl⟩)
  · next h => exact avoids_iff_of_not trivial fun hr => h hr.1

theorem blockNameEval_avoids (names : BlockedNames) :
    Avoids F (blockNameEval pkgs env.now names ctx) ↔
      (ctx.st.whitelisted = false ∧ names.rejects (pkgs.zone env.now) ctx.st.qName = true ∧
        names.logger = true → ctx.st.Readable F) := by
  unfold blockNameEval
  split
  · next h => exact avoids_iff_of_not trivial (by simp [h])
  · next h =>
    simp only [Bool.not_eq_true] at h
    refine Iff.trans (avoids_check fun st => ⟨_, rfl⟩) ?_
    split
    · next hreject => simp [h, hreject]
    · next hreject => exact avoids_iff_of_not trivial fun hr => hreject hr.2.1

theorem captivePortalEval_avoids (ipsMap : CaptivePortalMap) :
    Avoids F (captivePortalEval ipsMap ctx) := by
  unfold captivePortalEval
  split <;> trivial

theorem getSetPayloadSizeEval_avoids : Avoids F (getSetPayloadSizeEval ctx) := by
  obtain ⟨extra, original, maxPayloadSize, h⟩ := getSetPayloadSizeEval_eq ctx
  rw [h]
  trivial

theorem forwardEval_avoids (forwardMap : List ForwardEntry) :
    Avoids F (forwardEval forwardMap env ctx) := by
  unfold forwardEval
  dsimp only
  split
  · trivial
  · split <;> trivial

theorem blockUndelegatedEval_avoids (suffixes : PrefixMap Char Unit) :
    Avoids F (blockUndelegatedEval suffixes ctx) := by
  unfold blockUndelegatedEval
  dsimp only
  split
  · trivial
  · split <;> trivial

section Index

variable (hF : ¬F .indexOutOfRange)
include hF

theorem firefoxEval_avoids : Avoids F (firefoxEval ctx) := by
  unfold firefoxEval
  split
  · trivial
  · refine Ctx.avoids_question.mpr ⟨fun _ => hF, fun question rest _ => ?_⟩
    split
    · trivial
    · split <;> trivial

theorem blockIPv6Eval_avoids : Avoids F (blockIPv6Eval ctx) := by
  refine Ctx.avoids_question.mpr ⟨fun _ => hF, fun question rest _ => ?_⟩
  split <;> trivial

theorem blockUnqualifiedEval_avoids : Avoids F (blockUnqualifiedEval ctx) := by
  refine Ctx.avoids_question.mpr ⟨fun _ => hF, fun question rest _ => ?_⟩
  split
  · trivial
  · split <;> trivial

theorem cloakEval_avoids (rules : CloakRules) : Avoids F (cloakEval rules env ctx) := by
  refine Ctx.avoids_question.mpr ⟨fun _ => hF, fun question rest _ => ?_⟩
  split
  · trivial
  · split
    · trivial
    · dsimp only
      split
      · split <;> trivial
      · trivial

theorem ecsEval_avoids (nets : List IPNet) : Avoids F (ecsEval nets env ctx) := by
  obtain h | ⟨extra, h⟩ := ecsEval_cases nets env ctx
  · rw [h]
    exact avoids_panic.mpr hF
  · rw [h]
    trivial

theorem cacheEval_avoids (now : Time) : Avoids F (cacheEval pkgs now ctx) := by
  refine Ctx.avoids_question.mpr ⟨fun _ => hF, fun question rest _ => ?_⟩
  dsimp only
  split
  · trivial
  · split
    · trivial
    · split <;> trivial

theorem QueryPlugin.eval_avoids (plugin : QueryPlugin) :
    Avoids F (plugin.eval pkgs env ctx) ↔ (plugin.ReadsAddress pkgs env ctx → ctx.st.Readable F) := by
  have halways : ∀ {x : Evaluated}, Avoids F x → (Avoids F x ↔ (False → ctx.st.Readable F)) := by
    intro x h
    exact avoids_iff_of_not h not_false
  cases plugin with
  | captivePortal ipsMap => exact halways (captivePortalEval_avoids ipsMap)
  | queryMeta txt => exact halways trivial
  | allowName names => exact allowNameEval_avoids names
  | firefox => exact halways (firefoxEval_avoids hF)
  | ecs nets => exact halways (ecsEval_avoids hF nets)
  | blockName names => exact blockNameEval_avoids names
  | blockIPv6 => exact halways (blockIPv6Eval_avoids hF)
  | cloak rules => exact halways (cloakEval_avoids hF rules)
  | getSetPayloadSize => exact halways getSetPayloadSizeEval_avoids
  | cache => exact halways (cacheEval_avoids hF env.now)
  | forward forwardMap => exact halways (forwardEval_avoids forwardMap)
  | blockUnqualified => exact halways (blockUnqualifiedEval_avoids hF)
  | blockUndelegated => exact halways (blockUndelegatedEval_avoids undelegatedSuffixes)

end Index

end Query

/-! ## Response plugins -/

/-- One of the first aliases is blocked, before one that is no valid name. -/
def aliasBlocked (names : BlockedNames) (now : LocalTime) : Nat → List Text → Bool
  | 0, _ => false
  | _, [] => false
  | left + 1, target :: targets =>
    match normalizeQName target with
    | .error _ => false
    | .ok target => names.rejects now target || aliasBlocked names now left targets

/-- DNS64 makes a query for addresses of the old kind, with the given packet. -/
def AsksAgain (pkgs : Packages) (env : ResponseEnv) (ctx : Ctx) (packet : Bytes) : Prop :=
  hasAAAAAnswer ctx.msg = false ∧ ∃ client question rest, ctx.st.questionMsg = some client ∧
    client.question = question :: rest ∧ question.qclass = classINET ∧
    question.qtype = typeAAAA ∧
    pkgs.dns.pack (addressQuery client question env.freshID) = .ok packet

/-- The record has an IPv4 address that some prefix leaves no room for. -/
def RR.Overruns (pref64 : List IPNet) (rr : RR) : Prop :=
  ∃ ip ipv4 pref, rr.data = .a ip ∧ IP.to4 ip = some ipv4 ∧ pref ∈ pref64 ∧ 104 ≤ pref.ones

/-- An answer to the query for addresses has such a record. -/
def Overruns (pkgs : Packages) (pref64 : List IPNet) (respPacket : Bytes) : Prop :=
  ∃ resp rr, pkgs.dns.unpack respPacket = .ok resp ∧ resp.rcode = rcodeSuccess ∧
    rr ∈ resp.answer ∧ rr.Overruns pref64

namespace ResponsePlugin

/-- The plugin writes a log line. -/
def ReadsAddress (pkgs : Packages) (env : ResponseEnv) (ctx : Ctx) : ResponsePlugin → Prop
  | .nxLog => ctx.msg.rcode = rcodeNameError ∧ ctx.msg.question ≠ []
  | .allowedIP rules => rules.hits ctx.msg.answer = true ∧ rules.logger = true
  | .blockName names => ctx.st.whitelisted = false ∧ aliasBlocked names (pkgs.zone env.now)
      aliasesLimit (ctx.msg.answer.filterMap RR.aliasTarget) = true ∧ names.logger = true
  | .blockIP rules => ctx.st.whitelisted = false ∧ rules.hits ctx.msg.answer = true ∧
      rules.logger = true
  | .dns64 _ => False
  | .cacheResponse => False

/-- The plugin takes the first question where there is none. -/
def MissesQuestion (ctx : Ctx) : ResponsePlugin → Prop
  | .nxLog => ctx.msg.rcode = rcodeNameError ∧ ctx.msg.question = []
  | .dns64 _ => hasAAAAAnswer ctx.msg = false ∧
      ∃ client, ctx.st.questionMsg = some client ∧ client.question = []
  | .cacheResponse => cacheableRcode ctx.msg.rcode = true ∧ ctx.msg.truncated = false ∧
      ctx.msg.question = []
  | _ => False

/-- The plugin looks into the client's query where there is none. -/
def MissesQuery (ctx : Ctx) : ResponsePlugin → Prop
  | .dns64 _ => hasAAAAAnswer ctx.msg = false ∧ ctx.st.questionMsg = none
  | _ => False

end ResponsePlugin

section Response

variable {pkgs : Packages} {env : ResponseEnv} {ctx : Ctx} {F : Panic → Prop}

theorem nxLogEval_avoids : Avoids F (nxLogEval ctx) ↔
    (ctx.msg.rcode = rcodeNameError ∧ ctx.msg.question ≠ [] → ctx.st.Readable F) ∧
      (ctx.msg.rcode = rcodeNameError ∧ ctx.msg.question = [] → ¬F .indexOutOfRange) := by
  unfold nxLogEval
  split
  · next h =>
    constructor
    · intro _
      exact ⟨fun hr => absurd hr.1 h, fun hr => absurd hr.1 h⟩
    · intro _
      trivial
  · next h =>
    simp only [ne_eq, not_not] at h
    refine Iff.trans Ctx.avoids_question ?_
    constructor
    · rintro ⟨hnil, hcons⟩
      refine ⟨fun hr => ?_, fun hr => hnil hr.2⟩
      obtain ⟨question, rest, hq⟩ := List.exists_cons_of_ne_nil hr.2
      exact (Ctx.avoids_logTo (by exact ⟨_, rfl⟩)).mp (hcons question rest hq) rfl
    · rintro ⟨hread, hnil⟩
      refine ⟨fun hq => hnil ⟨h, hq⟩, fun question rest hq => ?_⟩
      have hne : ctx.msg.question ≠ [] := by simp [hq]
      exact (Ctx.avoids_logTo (by exact ⟨_, rfl⟩)).mpr fun _ => hread ⟨h, hne⟩

theorem allowedIPEval_avoids (rules : IPRules) : Avoids F (allowedIPEval rules ctx) ↔
    (rules.hits ctx.msg.answer = true ∧ rules.logger = true → ctx.st.Readable F) := by
  unfold allowedIPEval
  split
  · next h => exact Ctx.avoids_logTo_of h (by exact ⟨_, rfl⟩)
  · next h => exact avoids_iff_of_not trivial fun hr => h hr.1

theorem blockIPEval_avoids (rules : IPRules) : Avoids F (blockIPEval rules ctx) ↔
    (ctx.st.whitelisted = false ∧ rules.hits ctx.msg.answer = true ∧ rules.logger = true →
      ctx.st.Readable F) := by
  unfold blockIPEval
  split
  · next h => exact avoids_iff_of_not trivial (by simp [h])
  · next hw =>
    simp only [Bool.not_eq_true] at hw
    split
    · next h =>
      refine Iff.trans (Ctx.avoids_logTo_of (And.intro hw h) (by exact ⟨_, rfl⟩)) ?_
      rw [and_assoc]
      exact Iff.rfl
    · next h => exact avoids_iff_of_not trivial fun hr => h hr.2.1

theorem checkAliases_avoids (names : BlockedNames) (now : LocalTime) (left : Nat)
    (targets : List Text) : Avoids F (checkAliases names now ctx left targets) ↔
      (aliasBlocked names now left targets = true ∧ names.logger = true → ctx.st.Readable F) := by
  fun_induction checkAliases names now ctx left targets with
  | case1 => simp [aliasBlocked, Avoids, Ctx.ok]
  | case2 => simp [aliasBlocked, Avoids, Ctx.ok]
  | case3 left target targets e he => simp [aliasBlocked, he, Avoids, Ctx.fails]
  | case4 left target targets target' hn ih =>
    refine Iff.trans (avoids_check fun st => ⟨_, rfl⟩) ?_
    simp only [aliasBlocked, hn]
    split
    · next hr => simp [hr]
    · next hr =>
      simp only [Bool.not_eq_true] at hr
      simpa [hr] using ih

theorem blockNameResponseEval_avoids (names : BlockedNames) :
    Avoids F (blockNameResponseEval pkgs env.now names ctx) ↔
      (ctx.st.whitelisted = false ∧ aliasBlocked names (pkgs.zone env.now) aliasesLimit
        (ctx.msg.answer.filterMap RR.aliasTarget) = true ∧ names.logger = true →
          ctx.st.Readable F) := by
  unfold blockNameResponseEval
  split
  · next h => exact avoids_iff_of_not trivial (by simp [h])
  · next h =>
    simp only [Bool.not_eq_true] at h
    refine Iff.trans (checkAliases_avoids ..) ?_
    simp only [h, true_and]

theorem cacheResponseEval_avoids : Avoids F (cacheResponseEval pkgs env.now ctx) ↔
    (cacheableRcode ctx.msg.rcode = true ∧ ctx.msg.truncated = false ∧ ctx.msg.question = [] →
      ¬F .indexOutOfRange) := by
  unfold cacheResponseEval
  split
  · next h =>
    simp only [Bool.not_eq_true'] at h
    exact avoids_iff_of_not trivial (by simp [h])
  · next hc =>
    simp only [Bool.not_eq_true', Bool.not_eq_false] at hc
    split
    · next h => exact avoids_iff_of_not trivial (by simp [h])
    · next ht =>
      simp only [Bool.not_eq_true] at ht
      refine Iff.trans Ctx.avoids_question ?_
      constructor
      · intro h hr
        exact h.1 hr.2.2
      · intro h
        refine ⟨fun hq => h ⟨hc, ht, hq⟩, fun question rest hq => ?_⟩
        split <;> trivial

theorem embedFrom_ok {ipv6 : Bytes} {ipShift i : Nat} {ipv4 : Bytes} (hlen : ipv6.length = 16)
    (h : ipShift + i + ipv4.length ≤ 16) (h8 : ipShift + i ≤ 8 → ipShift + i + ipv4.length ≤ 15) :
    ∃ ip, embedFrom ipv6 ipShift i ipv4 = .ok ip := by
  induction ipv4 generalizing ipv6 ipShift i with
  | nil => exact ⟨ipv6, rfl⟩
  | cons b rest ih =>
    simp only [List.length_cons] at h h8
    unfold embedFrom
    by_cases hskip : ipShift + i = 8
    · rw [if_pos hskip, if_pos (by omega)]
      exact ih (by simpa using hlen) (by omega) (by omega)
    · rw [if_neg hskip, if_pos (by omega)]
      exact ih (by simpa using hlen) (by omega) (by omega)

theorem embedFrom_error {ipv6 : Bytes} {ipShift i : Nat} {ipv4 : Bytes} (hlen : ipv6.length = 16)
    (h : 16 < ipShift + i + ipv4.length) (hne : ipv4 ≠ []) :
    embedFrom ipv6 ipShift i ipv4 = .error .indexOutOfRange := by
  induction ipv4 generalizing ipv6 ipShift i with
  | nil => exact absurd rfl hne
  | cons b rest ih =>
    simp only [List.length_cons] at h
    unfold embedFrom
    generalize hshift : (if ipShift + i = 8 then ipShift + 1 else ipShift) = ipShift'
    have hle : ipShift ≤ ipShift' := by
      subst hshift
      split <;> omega
    dsimp only
    split
    · next hlt =>
      have hrest : rest ≠ [] := by
        rintro rfl
        simp only [List.length_nil] at h
        omega
      exact ih (by simpa using hlen) (by omega) hrest
    · rfl

theorem to4_length {ip ipv4 : IP} (h : IP.to4 ip = some ipv4) : ipv4.length = 4 := by
  unfold IP.to4 at h
  split at h
  · next hlen =>
    cases h
    exact hlen
  · split at h
    · next hlen =>
      cases h
      simp [hlen.1]
    · cases h

theorem translateToIPv6_cases {ip ipv4 : IP} (h : IP.to4 ip = some ipv4) (pref : IPNet) :
    (pref.ones < 104 ∧ ∃ ipv6, translateToIPv6 ipv4 pref = .ok ipv6) ∨
      (104 ≤ pref.ones ∧ translateToIPv6 ipv4 pref = .error .indexOutOfRange) := by
  have hlen := to4_length h
  have h4 : (ipv4.take 4).length = 4 := by simp [hlen]
  have h16 : ((pref.ip ++ List.replicate 16 0).take 16).length = 16 := by simp
  unfold translateToIPv6
  rcases Nat.lt_or_ge pref.ones 104 with hlt | hge
  · exact .inl ⟨hlt, embedFrom_ok h16 (by omega) (by omega)⟩
  · refine .inr ⟨hge, embedFrom_error h16 (by omega) fun hnil => ?_⟩
    simp [hnil] at h4

theorem synthesize_cases (pref64 : List IPNet) (initialTTL : UInt32) (rr : RR) :
    (¬rr.Overruns pref64 ∧ ∃ rrs, synthesize pref64 initialTTL rr = .ok rrs) ∨
      (rr.Overruns pref64 ∧ synthesize pref64 initialTTL rr = .error .indexOutOfRange) := by
  unfold synthesize
  split
  · next hdata =>
    refine .inl ⟨?_, _, rfl⟩
    rintro ⟨ip, _, _, hip, _⟩
    simp [hip] at hdata
  · next ip hdata =>
    dsimp only
    split
    · next hnone =>
      refine .inl ⟨?_, _, rfl⟩
      rintro ⟨ip', _, _, hip, hsome, _⟩
      obtain rfl : ip = ip' := by simpa [hdata] using hip
      simp [hnone] at hsome
    · next ipv4 hsome =>
      have hoverruns : ∀ pref ∈ pref64, 104 ≤ pref.ones → rr.Overruns pref64 :=
        fun pref hp ho => ⟨ip, ipv4, pref, hdata, hsome, hp, ho⟩
      rcases mapM_cases (fun pref => do
          let ipv6 ← translateToIPv6 ipv4 pref
          return { rr with
            ttl := if initialTTL > rr.ttl then rr.ttl else initialTTL, data := .aaaa ipv6 }) pref64
        with ⟨hok, hall⟩ | ⟨pref, hp, e, he, herror⟩
      · refine .inl ⟨?_, hok⟩
        rintro ⟨ip', ipv4', pref, hip, hsome', hp, ho⟩
        obtain ⟨_, hr⟩ := hall pref hp
        rcases translateToIPv6_cases hsome pref with ⟨hlt, _⟩ | ⟨_, herror⟩
        · omega
        · rw [herror] at hr
          cases hr
      · rcases translateToIPv6_cases hsome pref with ⟨_, _, hok⟩ | ⟨ho, hidx⟩
        · rw [hok] at he
          cases he
        · rw [hidx] at he
          cases he
          exact .inr ⟨hoverruns pref hp ho, herror⟩
  · next hcname ha =>
    refine .inl ⟨?_, _, rfl⟩
    rintro ⟨ip, _, _, hip, _⟩
    exact ha ip hip

theorem dns64Synthesize_avoids (pref64 : List IPNet) (resp : Msg) :
    Avoids F (dns64Synthesize pref64 ctx resp) ↔
      (resp.rcode = rcodeSuccess ∧ (∃ rr ∈ resp.answer, rr.Overruns pref64) →
        ¬F .indexOutOfRange) := by
  unfold dns64Synthesize
  split
  · next h =>
    refine avoids_iff_of_not trivial ?_
    rintro ⟨hsuccess, rr, hmem, -⟩
    rcases h with h | h
    · exact absurd hsuccess h
    · rw [h] at hmem
      cases hmem
  · next h =>
    simp only [ne_eq, not_or, not_not] at h
    rcases mapM_cases (synthesize pref64 (soaTTL resp.ns)) resp.answer
      with ⟨⟨rrs, hok⟩, hall⟩ | ⟨rr, hmem, e, he, herror⟩
    · rw [hok]
      refine avoids_iff_of_not trivial ?_
      rintro ⟨-, rr, hmem, hover⟩
      obtain ⟨_, hr⟩ := hall rr hmem
      rcases synthesize_cases pref64 (soaTTL resp.ns) rr with ⟨hnot, _⟩ | ⟨_, hidx⟩
      · exact absurd hover hnot
      · rw [hidx] at hr
        cases hr
    · rcases synthesize_cases pref64 (soaTTL resp.ns) rr with ⟨_, _, hok⟩ | ⟨hover, hidx⟩
      · rw [hok] at he
        cases he
      · rw [hidx] at he
        cases he
        rw [herror]
        refine Iff.trans avoids_panic ?_
        have hreached : resp.rcode = rcodeSuccess ∧ ∃ rr ∈ resp.answer, rr.Overruns pref64 :=
          ⟨h.1, rr, hmem, hover⟩
        simp only [hreached, true_imp_iff, and_self]

def SubqueryAvoids (F : Panic → Prop) (pkgs : Packages) (env : ResponseEnv) (pref64 : List IPNet)
    (ctx : Ctx) (packet : Bytes) : Prop :=
  ∀ sub, env.subquery = some sub → Ends (sub ctx.world packet)
    (fun r => Overruns pkgs pref64 r.1 → ¬F .indexOutOfRange)
    fun h => ∀ panic, h.cause = .panic panic → ¬F panic

theorem dns64Query_avoids (pref64 : List IPNet) (packet : Bytes) :
    Avoids F (dns64Query pkgs env pref64 ctx packet) ↔
      SubqueryAvoids F pkgs env pref64 ctx packet := by
  unfold dns64Query SubqueryAvoids
  split
  · next hnone =>
    constructor
    · intro _ sub hs
      cases hnone.symm.trans hs
    · intro _
      trivial
  · next sub hs =>
    simp only [hs, Option.some.injEq, forall_eq']
    rw [Avoids, ends_bind]
    cases hsub : sub ctx.world packet with
    | error h => exact Iff.rfl
    | ok r =>
      obtain ⟨respPacket, w⟩ := r
      simp only [ends_ok]
      cases hu : pkgs.dns.unpack respPacket with
      | error e =>
        refine avoids_iff_of_not trivial ?_
        rintro ⟨resp, _, hu', _⟩
        cases hu.symm.trans hu'
      | ok resp =>
        refine Iff.trans (dns64Synthesize_avoids pref64 resp) ?_
        constructor
        · rintro h ⟨resp', rr, hu', hsuccess, hmem, hover⟩
          cases hu.symm.trans hu'
          exact h ⟨hsuccess, rr, hmem, hover⟩
        · rintro h ⟨hsuccess, rr, hmem, hover⟩
          exact h ⟨resp, rr, hu, hsuccess, hmem, hover⟩

theorem dns64Eval_avoids_of_question {pref64 : List IPNet} {client : Msg} {question : Question}
    {rest : List Question} (hAAAA : hasAAAAAnswer ctx.msg = false)
    (hquery : ctx.st.questionMsg = some client) (hq : client.question = question :: rest) :
    Avoids F (dns64Eval pkgs env pref64 ctx) ↔ ∀ packet, AsksAgain pkgs env ctx packet →
      SubqueryAvoids F pkgs env pref64 ctx packet := by
  have hasks : ∀ packet, AsksAgain pkgs env ctx packet ↔ question.qclass = classINET ∧
      question.qtype = typeAAAA ∧
      pkgs.dns.pack (addressQuery client question env.freshID) = .ok packet := by
    intro packet
    constructor
    · rintro ⟨_, client', question', rest', hquery', hq', h⟩
      cases hquery.symm.trans hquery'
      cases hq.symm.trans hq'
      exact h
    · intro h
      exact ⟨hAAAA, client, question, rest, hquery, hq, h⟩
  simp only [dns64Eval, hAAAA, hquery, hq, hasks]
  split
  · next h => exact absurd h nofun
  split
  · next h =>
    constructor
    · rintro _ packet ⟨hclass, htype, -⟩
      rcases h with h | h
      · exact absurd hclass h
      · exact absurd htype h
    · intro _
      trivial
  · next h =>
    simp only [ne_eq, not_or, not_not] at h
    cases hp : pkgs.dns.pack (addressQuery client question env.freshID) with
    | error e =>
      constructor
      · rintro _ packet ⟨-, -, hpack⟩
        cases hpack
      · intro _
        trivial
    | ok packet =>
      refine Iff.trans (dns64Query_avoids pref64 packet) ?_
      constructor
      · rintro hs _ ⟨-, -, ⟨⟩⟩
        exact hs
      · intro hs
        exact hs packet ⟨h.1, h.2, rfl⟩

theorem dns64Eval_avoids (pref64 : List IPNet) :
    Avoids F (dns64Eval pkgs env pref64 ctx) ↔
      (ResponsePlugin.MissesQuestion ctx (.dns64 pref64) → ¬F .indexOutOfRange) ∧
      (ResponsePlugin.MissesQuery ctx (.dns64 pref64) → ¬F .nilDereference) ∧
      ∀ packet, AsksAgain pkgs env ctx packet → SubqueryAvoids F pkgs env pref64 ctx packet := by
  simp only [ResponsePlugin.MissesQuestion, ResponsePlugin.MissesQuery]
  cases hAAAA : hasAAAAAnswer ctx.msg with
  | true =>
    have hreturns : Avoids F (dns64Eval pkgs env pref64 ctx) := by
      simp only [dns64Eval, hAAAA, if_true]
      trivial
    simp [hreturns, AsksAgain, hAAAA]
  | false =>
    cases hquery : ctx.st.questionMsg with
    | none =>
      have hpanics : Avoids F (dns64Eval pkgs env pref64 ctx) ↔ ¬F .nilDereference := by
        simp only [dns64Eval, hAAAA, hquery]
        exact avoids_panic
      simp [hpanics, AsksAgain, hquery]
    | some client =>
      cases hq : client.question with
      | nil =>
        have hpanics : Avoids F (dns64Eval pkgs env pref64 ctx) ↔ ¬F .indexOutOfRange := by
          simp only [dns64Eval, hAAAA, hquery, hq]
          exact avoids_panic
        simp [hpanics, AsksAgain, hquery, hq]
      | cons question rest =>
        rw [dns64Eval_avoids_of_question hAAAA hquery hq]
        simp [hq]

theorem ResponsePlugin.eval_avoids (plugin : ResponsePlugin) :
    Avoids F (plugin.eval pkgs env ctx) ↔
      (plugin.ReadsAddress pkgs env ctx → ctx.st.Readable F) ∧
      (plugin.MissesQuestion ctx → ¬F .indexOutOfRange) ∧
      (plugin.MissesQuery ctx → ¬F .nilDereference) ∧
      ∀ pref64, plugin = .dns64 pref64 → ∀ packet, AsksAgain pkgs env ctx packet →
        SubqueryAvoids F pkgs env pref64 ctx packet := by
  cases plugin with
  | nxLog =>
    refine Iff.trans nxLogEval_avoids ?_
    constructor
    · intro h
      exact ⟨h.1, h.2, False.elim, nofun⟩
    · intro h
      exact ⟨h.1, h.2.1⟩
  | allowedIP rules =>
    refine Iff.trans (allowedIPEval_avoids rules)
      ⟨fun h => ⟨h, False.elim, False.elim, nofun⟩, fun h => h.1⟩
  | blockName names =>
    refine Iff.trans (blockNameResponseEval_avoids names)
      ⟨fun h => ⟨h, False.elim, False.elim, nofun⟩, fun h => h.1⟩
  | blockIP rules =>
    refine Iff.trans (blockIPEval_avoids rules)
      ⟨fun h => ⟨h, False.elim, False.elim, nofun⟩, fun h => h.1⟩
  | dns64 pref64 =>
    refine Iff.trans (dns64Eval_avoids pref64) ?_
    constructor
    · rintro ⟨hquestion, hquery, hagain⟩
      refine ⟨False.elim, hquestion, hquery, ?_⟩
      rintro _ ⟨⟩
      exact hagain
    · rintro ⟨-, hquestion, hquery, hagain⟩
      exact ⟨hquestion, hquery, hagain pref64 rfl⟩
  | cacheResponse =>
    refine Iff.trans cacheResponseEval_avoids
      ⟨fun h => ⟨False.elim, h, False.elim, nofun⟩, fun h => h.2.1⟩

end Response

end DnscryptProxy
