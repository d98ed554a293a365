import DnscryptProxy.CacheRuns
import DnscryptProxy.Phases.History

/-! Whether the response filters have a say in what the cache serves. A fresh hit ends the
query plugins, so `PluginBlockNameResponse` and `PluginBlockIP` see an answer when it is
stored and not again when it is served.

The invariant is that every answer in the history of the cache was permitted by the lists for
the query it was stored for. `hits_pass_filters` follows for runs in which the lists of names
say the same at all times and responses are for the question that was asked. With a rule that
comes into force between the two queries it fails. -/

namespace DnscryptProxy

open Library

/-! ## Names of questions -/

set_option maxRecDepth 2048 in
theorem normalizeRawQName_char (c : Char) :
    let d := if 'A' ≤ c ∧ c ≤ 'Z' then Char.ofNat (c.toNat + 32) else c
    (d = '.' ↔ c = '.') ∧ (d.toNat ≥ 0x80 ↔ c.toNat ≥ 0x80) ∧
      (if 'A' ≤ d ∧ d ≤ 'Z' then Char.ofNat (d.toNat + 32) else d) = d := by
  by_cases hascii : c.toNat < 0x80
  · have hall : ∀ n < 0x80, let c := Char.ofNat n
        let d := if 'A' ≤ c ∧ c ≤ 'Z' then Char.ofNat (c.toNat + 32) else c
        (d = '.' ↔ c = '.') ∧ (d.toNat ≥ 0x80 ↔ c.toNat ≥ 0x80) ∧
          (if 'A' ≤ d ∧ d ≤ 'Z' then Char.ofNat (d.toNat + 32) else d) = d := by
      decide
    have hc := hall c.toNat hascii
    rw [Char.ofNat_toNat] at hc
    exact hc
  · have hupper : ¬('A' ≤ c ∧ c ≤ 'Z') := by
      rintro ⟨-, hle⟩
      have hle : c.toNat ≤ 'Z'.toNat := hle
      have hz : 'Z'.toNat < 0x80 := by decide
      omega
    simp [if_neg hupper]

theorem normalizeQName_normalizeRawQName (name : Text) :
    normalizeQName (normalizeRawQName name) = normalizeQName name := by
  have hdot : (normalizeRawQName name = ['.']) ↔ name = ['.'] := by
    match name with
    | [] => simp [normalizeRawQName]
    | [c] => simpa [normalizeRawQName] using (normalizeRawQName_char c).1
    | c :: d :: rest => simp [normalizeRawQName]
  have hnil : normalizeRawQName name = [] ↔ name = [] := by simp [normalizeRawQName]
  have hlast : (normalizeRawQName name).getLast? = some '.' ↔ name.getLast? = some '.' := by
    rw [normalizeRawQName, List.getLast?_map]
    cases name.getLast? with
    | none => simp
    | some c => simpa using (normalizeRawQName_char c).1
  have hascii (l : Text) : ((normalizeRawQName l).any fun c => c.toNat ≥ 0x80) =
      l.any fun c => c.toNat ≥ 0x80 := by
    rw [normalizeRawQName, List.any_map]
    congr 1
    funext c
    exact decide_eq_decide.mpr (normalizeRawQName_char c).2.1
  have hidem (l : Text) : normalizeRawQName (normalizeRawQName l) = normalizeRawQName l := by
    rw [normalizeRawQName, normalizeRawQName, List.map_map]
    exact List.map_congr_left fun c _ => (normalizeRawQName_char c).2.2
  have htrim : (if (normalizeRawQName name).getLast? = some '.' then (normalizeRawQName name).dropLast
      else normalizeRawQName name) =
      normalizeRawQName (if name.getLast? = some '.' then name.dropLast else name) := by
    simp only [hlast]
    split
    · rw [normalizeRawQName, normalizeRawQName, List.map_dropLast]
    · rfl
  simp only [normalizeQName, hnil, hdot, htrim, hascii, hidem]

theorem AsksSame.normalizeQName_eq {question question' : Question} (h : AsksSame question question') :
    normalizeQName question.name = normalizeQName question'.name := by
  rw [← normalizeQName_normalizeRawQName question.name, h.name, normalizeQName_normalizeRawQName]

/-! ## Times -/

/-- The two times that a call reads from the clock. -/
structure CallEnv.During (T : Set Time) (env : CallEnv) : Prop where
  query : env.query.now ∈ T
  response : env.responseTime ∈ T

/-- The states that the proxy is in after calls that were made during `T`. -/
inductive ReachableDuring (p : Proxy) (T : Set Time) : World → Prop where
  | start {w : World} (cache : w.cache = none) (history : w.history = []) : ReachableDuring p T w
  | returned {w : World} (before : ReachableDuring p T w) {caller : Caller} {env : CallEnv}
      {envs : List CallEnv} {query : Bytes} {exit : Exit} (during : ∀ e ∈ env :: envs, e.During T)
      (call : processIncomingQuery p caller env envs w query = .ok exit) :
      ReachableDuring p T exit.world
  | halted {w : World} (before : ReachableDuring p T w) {caller : Caller} {env : CallEnv}
      {envs : List CallEnv} {query : Bytes} {halted : Halted}
      (during : ∀ e ∈ env :: envs, e.During T)
      (call : processIncomingQuery p caller env envs w query = .error halted) :
      ReachableDuring p T halted.world

theorem ReachableDuring.reachable {p : Proxy} {T : Set Time} {w : World}
    (h : ReachableDuring p T w) : Reachable p w := by
  induction h with
  | start cache history => exact .start cache history
  | returned _ _ call ih => exact ih.returned call
  | halted _ _ call ih => exact ih.halted call

/-- The two lists of names cover the same names at all times of `T`. -/
def Steady (p : Proxy) (T : Set Time) : Prop :=
  ∀ names, p.settings.allowName = some names ∨ p.settings.blockName = some names →
    ∀ t ∈ T, ∀ t' ∈ T, ∀ name, names.covers (p.pkgs.zone t) name = names.covers (p.pkgs.zone t') name

section Steady

variable {p : Proxy} {T : Set Time} {t t' : Time}

theorem Steady.allowsName (h : Steady p T) (ht : t ∈ T) (ht' : t' ∈ T) (qName : Text) :
    p.settings.allowsName (p.pkgs.zone t) qName = p.settings.allowsName (p.pkgs.zone t') qName := by
  unfold Settings.allowsName
  cases hnames : p.settings.allowName with
  | none => rfl
  | some names => exact h names (.inl hnames) t ht t' ht' qName

theorem Steady.permits (h : Steady p T) (ht : t ∈ T) (ht' : t' ∈ T) {whitelisted : Bool}
    {answers : List RR} (hp : Permits p.settings (p.pkgs.zone t) whitelisted answers) :
    Permits p.settings (p.pkgs.zone t') whitelisted answers := by
  rcases hp with hallowed | hclean
  · exact .inl hallowed
  · refine .inr ⟨fun names hnames target htarget => ?_, hclean.addresses⟩
    obtain ⟨name, hname, hcovers⟩ := hclean.names names hnames target htarget
    exact ⟨name, hname, h names (.inr hnames) t ht t' ht' name ▸ hcovers⟩

/-! ## What is in the history -/

def Vetted (p : Proxy) (T : Set Time) : Event → Prop
  | .received .. => True
  | .stored none _ _ => True
  | .stored (some client) _ cached => ∃ asked qName, client.question = [asked] ∧
      normalizeQName asked.name = .ok qName ∧ ∀ t ∈ T, Permits p.settings (p.pkgs.zone t)
        (p.settings.allowsName (p.pkgs.zone t) qName) cached.msg.answer
  | .found _ _ _ _ time => time ∈ T

theorem vouches_vetted (h : Steady p T) {env : CallEnv} (he : env.During T) :
    Vouches p (Vetted p T) env where
  received _ _ _ := trivial
  found _ _ _ _ := he.query
  stored st msg hallowed hpermits dnssec expiration ttl := by
    cases hclient : st.questionMsg with
    | none => trivial
    | some client =>
      obtain ⟨asked, qName, hasked, hname, hwhite⟩ := hallowed client hclient
      refine ⟨asked, qName, hasked, hname, fun t ht => (permits_withTTL ttl).mpr ?_⟩
      rw [h.allowsName ht he.query, ← hwhite]
      exact h.permits he.response ht hpermits

theorem ReachableDuring.vetted (h : Steady p T) {w : World} (hw : ReachableDuring p T w) :
    ∀ event ∈ w.history, Vetted p T event := by
  have hlogs {caller : Caller} {env : CallEnv} {envs : List CallEnv} {query : Bytes} {w : World}
      (during : ∀ e ∈ env :: envs, e.During T) :
      Ends (processIncomingQuery p caller env envs w query)
        (fun exit => Logs (Vetted p T) w exit.world) fun halted => Logs (Vetted p T) w halted.world :=
    processIncomingQuery_logs fun e he => vouches_vetted h (during e he)
  induction hw with
  | start _ history => simp [history]
  | returned _ during call ih =>
    intro event he
    exact ((hlogs during).of_ok call event he).elim (ih event) id
  | halted _ during call ih =>
    intro event he
    exact ((hlogs during).of_error call event he).elim (ih event) id

end Steady

/-! ## What the cache serves -/

theorem SameRecords.permits {msg msg' : Msg} (h : SameRecords msg msg') {s : Settings}
    {now : LocalTime} {whitelisted : Bool} (hp : Permits s now whitelisted msg'.answer) :
    Permits s now whitelisted msg.answer := by
  have hanswer : msg.answer.map (RR.withTTL 0) = msg'.answer.map (RR.withTTL 0) := h.answer
  rw [← permits_withTTL 0] at hp ⊢
  rw [hanswer]
  exact hp

def Settings.allowListed (s : Settings) (now : LocalTime) (question : Question) (answer : Msg) :
    Bool :=
  (match normalizeQName question.name with
    | .ok qName => s.allowsName now qName
    | .error _ => false) || s.allowsIP answer.answer

/-- An answer that was found fresh would be let through by the filters at that time, for
the query that it was found for. -/
def PassesFilters (p : Proxy) : Event → Prop
  | .found true question _ answer time => ∀ ctx : Ctx, ctx.msg = answer →
      ctx.st.whitelisted = p.settings.allowListed (p.pkgs.zone time) question answer →
      LetThrough p.settings p.pkgs time ctx
  | _ => True

/-- In a run during which the lists of names say the same at all times and every packet that
was handed to the response plugins echoes the question it was received for, the filters would
let every fresh hit through. -/
theorem hits_pass_filters (p : Proxy) (hinj : Function.Injective p.pkgs.prims.sum512_256)
    (T : Set Time) (hsteady : Steady p T) (w : World) (hw : ReachableDuring p T w)
    (hecho : ∀ source client packet time, .received source client packet time ∈ w.history →
      Echoes p.pkgs.dns client packet) :
    ∀ event ∈ w.history, PassesFilters p event := by
  intro event hevent
  cases event with
  | received => trivial
  | stored => trivial
  | found fresh question dnssec answer time =>
    cases fresh with
    | false => trivial
    | true =>
      have htime : time ∈ T := hw.vetted hsteady _ hevent
      obtain ⟨newer, older, heq⟩ := List.append_of_mem hevent
      have hold {e : Event} (he : e ∈ older) : e ∈ w.history := by
        rw [heq]
        exact List.mem_append_right _ (List.mem_cons_of_mem _ he)
      obtain ⟨client, asked, cached, hs, hclient, hsame, hrecords⟩ :=
        (hw.reachable.accounted.answers newer _ older heq).storedForSame hinj
          fun source client packet time hr => hecho source client packet time (hold hr)
      obtain ⟨asked', qName, hasked', hname, hpermits⟩ := hw.vetted hsteady _ (hold hs)
      obtain rfl : asked = asked' := (List.cons.inj (hclient.symm.trans hasked')).1
      rw [hsame.normalizeQName_eq] at hname
      rintro ctx rfl hstatus
      have hallowed : ctx.st.whitelisted = (p.settings.allowsName (p.pkgs.zone time) qName ||
          p.settings.allowsIP ctx.msg.answer) := by
        rw [hstatus, Settings.allowListed, hname]
      -- the answer is the stored one, up to the TTLs of its records
      exact letThrough_of_permits (hrecords.permits (hpermits time htime)) hallowed

namespace Sample

/-- `example.com.` is an alias of `ads.example.net.`. -/
def aliasReply (ttl : UInt32) : Msg :=
  { reply ttl with
    answer := [⟨question.name, classINET, ttl, .cname "ads.example.net.".toList⟩,
      ⟨"ads.example.net.".toList, classINET, ttl, .a [192, 0, 2, 1]⟩] }

def aliasPacket (ttl : UInt8) : Bytes :=
  [0x12, 0x34, 0x81, 0x80, 0, 1, 0, 2, 0, 0, 0, 0] ++ questionWire ++
    [0xc0, 0x0c, 0, 5, 0, 1, 0, 0, 0, ttl, 0, 17, 3, 97, 100, 115, 7, 101, 120, 97, 109, 112, 108, 101,
      3, 110, 101, 116, 0] ++
    [0xc0, 0x29, 0, 1, 0, 1, 0, 0, 0, ttl, 0, 4, 192, 0, 2, 1]

def aliasDNS : DNSLibrary :=
  .ofTable (table ++ [(aliasPacket 60, aliasReply 60), (aliasPacket 40, aliasReply 40),
    (aliasPacket 10, aliasReply 10)]) (by decide)

/-- On Sundays, `ads.example.net` is blocked. -/
def sundayBlocking : Settings :=
  { Settings.bare with
    cache := true
    blockName := some ⟨BlockedNames.load PatternMatcher.asciiLower
      [⟨"ads.example.net".toList, some BlockedNames.sundays, 1⟩], false⟩
    blockIP := some ⟨["203.0.113.1".toList], .ofList [], false⟩ }

/-- The clock starts on a Saturday, 30 seconds before midnight. -/
def saturdayNight (t : Time) : LocalTime :=
  if t < 30 * second then ⟨⟨6, by decide⟩, 23, 59⟩ else ⟨⟨0, by decide⟩, 0, 0⟩

def weekend : Proxy :=
  { proxy sundayBlocking aliasDNS with
    pkgs := { (proxy sundayBlocking aliasDNS).pkgs with zone := saturdayNight } }

def aliasAnswering (now : Time) : CallEnv := env .doh now (.ok (aliasPacket 60, true)) []

/-- An answer on Saturday, and the same query again after the given time. -/
def askedAgain (later : Time) : World :=
  afterCall weekend (aliasAnswering later) (afterCall weekend (aliasAnswering 0) world queryPacket)
    queryPacket

theorem reachableDuring_afterCall {p : Proxy} {T : Set Time} {w : World}
    (h : ReachableDuring p T w) {env : CallEnv} (he : env.During T) (query : Bytes) :
    ReachableDuring p T (afterCall p env w query) := by
  have during : ∀ e ∈ [env], e.During T := by simpa using he
  unfold afterCall
  split
  · next call => exact h.returned during call
  · next call => exact h.halted during call

theorem steady_saturday : Steady weekend {t | t < 30 * second} := by
  have hsaturday {t : Time} (ht : t < 30 * second) :
      weekend.pkgs.zone t = ⟨⟨6, by decide⟩, 23, 59⟩ := if_pos ht
  intro names _ t ht t' ht' name
  rw [hsaturday ht, hsaturday ht']

theorem askedAgain_saturday : (askedAgain (20 * second)).history =
    [.found true question false (aliasReply 40) (20 * second),
      .stored (some sent) false ⟨60 * second, aliasReply 60⟩,
      .received .server (some sent) (aliasPacket 60) 0] := by
  rfl

/-- Before midnight, the answer that is served is one that the filters let through. -/
theorem saturday_hit_passes :
    .found true question false (aliasReply 40) (20 * second) ∈ (askedAgain (20 * second)).history ∧
      PassesFilters weekend (.found true question false (aliasReply 40) (20 * second)) := by
  have hmem : .found true question false (aliasReply 40) (20 * second) ∈
      (askedAgain (20 * second)).history := askedAgain_saturday ▸ List.mem_cons_self
  have hduring {t : Time} (ht : t < 30 * second) :
      (aliasAnswering t).During {t | t < 30 * second} := ⟨ht, ht⟩
  have hreach : ReachableDuring weekend {t | t < 30 * second} (askedAgain (20 * second)) :=
    reachableDuring_afterCall
      (reachableDuring_afterCall (.start rfl rfl) (hduring (by decide)) _) (hduring (by decide)) _
  refine ⟨hmem, hits_pass_filters weekend (fun _ _ h => h) _ steady_saturday _ hreach ?_ _ hmem⟩
  rw [askedAgain_saturday]
  intro source client packet time hr msg question' rest hu hasked
  simp only [List.mem_cons, reduceCtorEq, Event.received.injEq, false_or, or_false,
    List.not_mem_nil] at hr
  obtain ⟨-, rfl, rfl, -⟩ := hr
  obtain rfl : aliasReply 60 = msg := Except.ok.inj hu
  cases hasked
  exact ⟨sent, question, rfl, rfl, rfl, rfl, rfl⟩

theorem askedAgain_sunday : (askedAgain (50 * second)).history =
    [.found true question false (aliasReply 10) (50 * second),
      .stored (some sent) false ⟨60 * second, aliasReply 60⟩,
      .received .server (some sent) (aliasPacket 60) 0] := by
  rfl

/-- After midnight the alias is blocked, and the cache still serves it. -/
theorem sunday_hit_blocked :
    Reachable weekend (askedAgain (50 * second)) ∧
      .found true question false (aliasReply 10) (50 * second) ∈ (askedAgain (50 * second)).history ∧
      ¬PassesFilters weekend (.found true question false (aliasReply 10) (50 * second)) := by
  refine ⟨reachable_afterCall (reachable_afterCall (.start rfl rfl) _ _) _ _,
    askedAgain_sunday ▸ List.mem_cons_self, fun h => ?_⟩
  have hlet := h ⟨BlockedNames.sampleState, aliasReply 10, world⟩ rfl rfl
  have hname := hlet.blockName _ rfl
  have haction := congrArg (fun x => x.map fun r => r.1.st.action) hname
  cases haction

end Sample

end DnscryptProxy
