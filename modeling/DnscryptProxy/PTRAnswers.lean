import DnscryptProxy.CloakedPTR
import DnscryptProxy.RuleReasons

/-! The answers of `PluginCloak.Eval` to PTR queries, with the records that `Init` has made. The
names under which they are kept are exact rules, which come before all others, and no two
addresses share one (`reverseAddr_inj`).

* `ptr_answers_iff`: when every address that a line gives to a name is answered with that name. -/

namespace DnscryptProxy

open Library PatternMatcher

/-! ## Reverse names -/

section Reverse

variable {ip ip' : IP}

theorem reverseAddr_v4 {v4 : IP} (h : IP.to4 ip = some v4) : reverseAddr ip =
    (v4.reverse.flatMap fun b => Nat.toDigits 10 b.toNat ++ ['.']) ++ "in-addr.arpa.".toList := by
  unfold reverseAddr
  rw [h]

theorem reverseAddr_v6 (h : IP.to4 ip = none) : reverseAddr ip =
    (ip.reverse.flatMap fun b =>
      [Nat.digitChar (b.toNat % 16), '.', Nat.digitChar (b.toNat / 16), '.']) ++
        "ip6.arpa.".toList := by
  unfold reverseAddr
  rw [h]

theorem reverse_families_ne {a b : Text} :
    a ++ "in-addr.arpa.".toList ≠ b ++ "ip6.arpa.".toList := by
  intro h
  have hrev := congrArg List.reverse h
  simp at hrev

theorem decimal_inj {v4 v4' : IP}
    (h : (v4.flatMap fun b => Nat.toDigits 10 b.toNat ++ ['.']) =
      v4'.flatMap fun b => Nat.toDigits 10 b.toNat ++ ['.']) : v4 = v4' := by
  refine flatMap_inj (fun b => by simp) (fun b c hprefix => ?_) h
  have hdot (b : UInt8) : '.' ∉ Nat.toDigits 10 b.toNat :=
    not_mem_toDigits (by decide) (by decide) (by decide)
  have hdigits := eq_of_prefix_sep (hdot b) (hdot c) hprefix
  exact UInt8.toNat_inj.mp (toDigits_injective (by decide) (by decide) hdigits)

theorem nibbles_inj {v6 v6' : IP}
    (h : (v6.flatMap fun b =>
        [Nat.digitChar (b.toNat % 16), '.', Nat.digitChar (b.toNat / 16), '.']) =
      v6'.flatMap fun b =>
        [Nat.digitChar (b.toNat % 16), '.', Nat.digitChar (b.toNat / 16), '.']) : v6 = v6' := by
  refine flatMap_inj (fun b => List.cons_ne_nil _ _) (fun b c hprefix => ?_) h
  obtain ⟨hlo, hhi⟩ : Nat.digitChar (b.toNat % 16) = Nat.digitChar (c.toNat % 16) ∧
      Nat.digitChar (b.toNat / 16) = Nat.digitChar (c.toNat / 16) := by
    simpa using hprefix.eq_of_length rfl
  have hlo := digitChar_inj (Nat.mod_lt _ (by decide)) (Nat.mod_lt _ (by decide)) hlo
  have hb := b.toNat_lt
  have hc := c.toNat_lt
  have hhi := digitChar_inj (by omega) (by omega) hhi
  refine UInt8.toNat_inj.mp ?_
  rw [← Nat.div_add_mod b.toNat 16, hlo, hhi, Nat.div_add_mod]

theorem reverseAddr_inj (hlen : ip.length = 16) (hlen' : ip'.length = 16)
    (h : reverseAddr ip = reverseAddr ip') : ip = ip' := by
  cases hv4 : IP.to4 ip with
  | some v4 =>
    cases hv4' : IP.to4 ip' with
    | some v4' =>
      rw [reverseAddr_v4 hv4, reverseAddr_v4 hv4'] at h
      have hbytes := List.reverse_injective (decimal_inj (List.append_cancel_right h))
      rw [(IP.to4_eq_some hlen hv4).1, (IP.to4_eq_some hlen' hv4').1, hbytes]
    | none =>
      rw [reverseAddr_v4 hv4, reverseAddr_v6 hv4'] at h
      exact absurd h reverse_families_ne
  | none =>
    cases hv4' : IP.to4 ip' with
    | some v4' =>
      rw [reverseAddr_v6 hv4, reverseAddr_v4 hv4'] at h
      exact absurd h.symm reverse_families_ne
    | none =>
      rw [reverseAddr_v6 hv4, reverseAddr_v6 hv4'] at h
      exact List.reverse_injective (nibbles_inj (List.append_cancel_right h))

/-- The name that is asked for, as `normalizeQName` leaves it. -/
def reverseName (ip : IP) : Text := (reverseAddr ip).dropLast

theorem ptrKey_eq (ip : IP) : ptrKey ip = '=' :: reverseName ip := rfl

theorem reverseAddr_eq (ip : IP) : reverseAddr ip = reverseName ip ++ ['.'] := by
  unfold reverseName reverseAddr
  split
  · rw [List.dropLast_append_of_ne_nil (by decide), List.append_assoc]
    rfl
  · rw [List.dropLast_append_of_ne_nil (by decide), List.append_assoc]
    rfl

theorem ptrKey_inj (hlen : ip.length = 16) (hlen' : ip'.length = 16) (h : ptrKey ip = ptrKey ip') :
    ip = ip' := by
  have hname : reverseName ip = reverseName ip' := (List.cons.inj h).2
  refine reverseAddr_inj hlen hlen' ?_
  rw [reverseAddr_eq, reverseAddr_eq, hname]

theorem ptrKey_to4 {v4 : IP} (hlen : ip.length = 16) (h : IP.to4 ip = some v4) :
    ptrKey v4 = ptrKey ip := by
  have hself : IP.to4 v4 = some v4 := by
    unfold IP.to4
    rw [if_pos (IP.to4_eq_some hlen h).2]
  unfold ptrKey
  rw [reverseAddr_v4 h, reverseAddr_v4 hself]

def reverseChars : List Char := "0123456789abcdef.-inpr".toList

theorem mem_reverseAddr {c : Char} (h : c ∈ reverseAddr ip) : c ∈ reverseChars := by
  have hdigits : ∀ d : Fin 16, Nat.digitChar d ∈ reverseChars := by decide
  have hdot : '.' ∈ reverseChars := by decide
  unfold reverseAddr at h
  split at h
  · rcases List.mem_append.mp h with h | h
    · obtain ⟨b, -, h⟩ := List.mem_flatMap.mp h
      rcases List.mem_append.mp h with h | h
      · obtain ⟨d, hd, rfl⟩ := mem_toDigits (by decide) h
        exact hdigits ⟨d, by omega⟩
      · rw [List.mem_singleton.mp h]
        exact hdot
    · have hall : ("in-addr.arpa.".toList.all (· ∈ reverseChars)) = true := by decide
      exact of_decide_eq_true (List.all_eq_true.mp hall c h)
  · rcases List.mem_append.mp h with h | h
    · obtain ⟨b, -, h⟩ := List.mem_flatMap.mp h
      have hb := b.toNat_lt
      simp only [List.mem_cons, List.not_mem_nil, or_false] at h
      rcases h with rfl | rfl | rfl | rfl
      · exact hdigits ⟨b.toNat % 16, by omega⟩
      · exact hdot
      · exact hdigits ⟨b.toNat / 16, by omega⟩
      · exact hdot
    · have hall : ("ip6.arpa.".toList.all (· ∈ reverseChars)) = true := by decide
      exact of_decide_eq_true (List.all_eq_true.mp hall c h)

end Reverse

/-! ## Keys -/

/-- What is known of `strings.ToLower` besides: twice is once, and on ASCII it is what it is
there. -/
structure CloakCase extends LowerCase where
  idem : ∀ c, lower (lower c) = lower c
  ascii : ∀ c, c.toNat < 128 → lower c = c.toLower

section Keys

variable {lc : CloakCase} {ip : IP}

theorem CloakCase.text_text (lc : CloakCase) (t : Text) : lc.text (lc.text t) = lc.text t := by
  unfold LowerCase.text
  rw [List.map_map]
  exact List.map_congr_left fun c _ => lc.idem c

theorem mem_ptrKey {c : Char} (h : c ∈ ptrKey ip) :
    c ∉ special ∧ c.toNat < 128 ∧ c.toLower = c := by
  have hall : (('=' :: reverseChars).all fun c =>
      c ∉ special ∧ c.toNat < 128 ∧ c.toLower = c) = true := by
    decide
  have hmem : c ∈ '=' :: reverseChars := by
    rcases List.mem_cons.mp h with rfl | h
    · exact List.mem_cons_self
    · exact List.mem_cons_of_mem _ (mem_reverseAddr (List.dropLast_subset _ h))
  exact of_decide_eq_true (List.all_eq_true.mp hall c hmem)

theorem text_ptrKey (lc : CloakCase) (ip : IP) : lc.text (ptrKey ip) = ptrKey ip := by
  refine (List.map_congr_left fun c hc => ?_).trans (List.map_id _)
  obtain ⟨-, hascii, hlower⟩ := mem_ptrKey hc
  exact (lc.ascii c hascii).trans hlower

theorem classify_exact {p t : Text} (h : classify p = some (.exact, t)) : p = '=' :: t := by
  unfold classify at h
  dsimp only at h
  split at h
  · split at h <;> simp at h
  · split at h
    · split at h <;> simp at h
    · split at h
      · split at h <;> simp at h
      · split at h
        · next hexact =>
          split at h
          · cases h
          · cases p with
            | nil => cases hexact
            | cons c p =>
              cases hexact
              cases h
              rfl
        · simp at h

theorem two_le_length_reverseName (ip : IP) : 2 ≤ (reverseName ip).length := by
  have hlong : 9 ≤ (reverseAddr ip).length := by
    unfold reverseAddr
    split
    · rw [List.length_append]
      exact Nat.le_add_left_of_le (by decide)
    · rw [List.length_append]
      exact Nat.le_add_left_of_le (by decide)
  unfold reverseName
  rw [List.length_dropLast]
  omega

theorem classify_ptrKey (ip : IP) : classify (ptrKey ip) = some (.exact, reverseName ip) := by
  have hplain : Plain (ptrKey ip) := fun c hc => (mem_ptrKey hc).1
  have hhead : (ptrKey ip).head? = some '=' := rfl
  have hlast : (ptrKey ip).getLast? ≠ some '*' := fun h =>
    hplain '*' (List.mem_of_getLast? h) (by decide)
  have hlength : ¬(ptrKey ip).length < 2 := by
    have htwo := two_le_length_reverseName ip
    rw [ptrKey_eq, List.length_cons]
    omega
  unfold classify
  rw [hplain.not_glob]
  simp only [hlast, and_false, if_false, Bool.false_eq_true]
  rw [if_pos hhead, if_neg hlength]
  rfl

variable {names : CloakedNames} {r : Rule Nat}

theorem stored_ptrKey (lc : CloakCase) (h : r.pattern = ptrKey ip) :
    r.stored lc.text = some (.exact, reverseName ip) := by
  unfold Rule.stored
  rw [h, classify_ptrKey]
  have hlower : lc.text (reverseName ip) = reverseName ip := by
    have htext := text_ptrKey lc ip
    rw [ptrKey_eq] at htext
    exact (List.cons.inj htext).2
  simp only [Option.map_some, hlower]

theorem pattern_of_exact {text : Text} (hlower : lc.text r.pattern = r.pattern)
    (h : r.stored lc.text = some (.exact, text)) : r.pattern = '=' :: text := by
  obtain ⟨⟨kind, t⟩, hclassify, heq⟩ := Option.map_eq_some_iff.mp h
  cases heq
  have hpattern := classify_exact hclassify
  rw [hpattern] at hlower ⊢
  exact congrArg _ (List.cons.inj hlower).2.symm

theorem at_of_mem_cloakCalls (hnodup : (names.map Prod.fst).Nodup) (h : r ∈ cloakCalls names) :
    r.pattern ∈ names.map Prod.fst ∧ names.at r.val = (names.get r.pattern).name := by
  obtain ⟨⟨e, i⟩, hmem, rfl⟩ := List.mem_map.mp h
  have hi : names[i]? = some e := List.mem_zipIdx_iff_getElem?.mp hmem
  have he := List.mem_of_getElem? hi
  refine ⟨List.mem_map_of_mem he, ?_⟩
  unfold CloakedNames.at CloakedNames.get
  rw [lookupMap_of_mem hnodup he, hi]
  rfl

theorem exists_cloakCall {key : Text} (h : key ∈ names.map Prod.fst) :
    ∃ r ∈ cloakCalls names, r.pattern = key := by
  obtain ⟨e, he, rfl⟩ := List.mem_map.mp h
  obtain ⟨i, hi⟩ := List.mem_iff_getElem?.mp he
  have hmem : (e, i) ∈ names.zipIdx := List.mem_zipIdx_iff_getElem?.mpr hi
  exact ⟨_, List.mem_map_of_mem hmem, rfl⟩

end Keys

/-! ## Lookups -/

section Lookup

variable {lc : CloakCase} {rules : List CloakRule} {names : CloakedNames}
  {order : List (Rule Nat)} {m : PatternMatcher Nat} {ip : IP} {fqdn : Text}

/-- The entries are those of the rules, and were handed to the matcher in some order. -/
structure Loads (lc : CloakCase) (rules : List CloakRule) (names : CloakedNames)
    (order : List (Rule Nat)) (m : PatternMatcher Nat) : Prop where
  recorded : Recorded rules (Made rules) names
  lower : ∀ rule ∈ rules, lc.text rule.name = rule.name
  perm : order.Perm (cloakCalls names)
  represents : Represents lc.text order m

theorem Loads.lower_keys (h : Loads lc rules names order m) {r : Rule Nat} (hr : r ∈ order) :
    lc.text r.pattern = r.pattern := by
  have hkey := (at_of_mem_cloakCalls h.recorded.nodup (h.perm.mem_iff.mp hr)).1
  rcases h.recorded.keys _ hkey with ⟨rule, hrule, hname⟩ | ⟨ip, hip⟩
  · rw [← hname]
    exact h.lower rule hrule
  · rw [hip]
    exact text_ptrKey lc ip

theorem Loads.at_eq (h : Loads lc rules names order m) {r : Rule Nat} (hr : r ∈ order) :
    names.at r.val = (names.get r.pattern).name :=
  (at_of_mem_cloakCalls h.recorded.nodup (h.perm.mem_iff.mp hr)).2

theorem name_of_exact_candidate {V : Type} {toLower : Text → Text} {calls : List (Rule V)}
    {name text : Text} {kind : PatternType} {r : Rule V} (h : Candidate toLower calls name kind r)
    (hs : r.stored toLower = some (.exact, text)) : name = text := by
  cases h with
  | exact _ stored =>
    rw [hs] at stored
    cases stored
    rfl
  | suffix _ _ _ stored =>
    rw [hs] at stored
    cases stored
  | pre _ _ stored =>
    rw [hs] at stored
    cases stored
  | listed _ _ _ _ shares stored =>
    rw [hs] at stored
    cases stored
    exact absurd shares (by decide)

theorem Loads.made_of_found (h : Loads lc rules names order m) {reason : Text} {p : Nat}
    (hfind : m.find (reverseName ip) = some (reason, some p)) (hptr : fqdn ∈ (names.at p).ptr) :
    Made rules (ptrKey ip) fqdn := by
  obtain ⟨r, ⟨_, kind, _, _, hcandidate, _⟩, hval⟩ := find_decides h.represents hfind
  cases hval
  have hr := hcandidate.mem
  rw [h.at_eq hr, h.recorded.ptr] at hptr
  obtain ⟨name, ip', hstar, hpointed, hkey, hfqdn⟩ := hptr
  have hname := name_of_exact_candidate hcandidate (stored_ptrKey lc hkey)
  refine ⟨name, ip', hstar, hpointed, ?_, hfqdn⟩
  rw [ptrKey_eq, ptrKey_eq, hname]

theorem Loads.found_of_made (h : Loads lc rules names order m)
    (hmade : Made rules (ptrKey ip) fqdn) :
    ∃ reason p, m.find (reverseName ip) = some (reason, some p) ∧ fqdn ∈ (names.at p).ptr ∧
      (names.at p).isIP = true := by
  have hptr := (h.recorded.ptr _ _).mpr hmade
  have hisIP := (h.recorded.isIP _).mpr (.inr ⟨fqdn, hmade⟩)
  have hkey : ptrKey ip ∈ names.map Prod.fst := by
    by_contra hnone
    have hlookup : lookupMap names (ptrKey ip) = none := lookupMap_eq_none_iff.mpr fun e he heq =>
      hnone (heq ▸ List.mem_map_of_mem he)
    rw [CloakedNames.get, hlookup] at hptr
    cases hptr
  obtain ⟨r, hr, hpattern⟩ := exists_cloakCall hkey
  have hcandidate : Candidate lc.text order (reverseName ip) .exact r :=
    .exact (h.perm.mem_iff.mpr hr) (stored_ptrKey lc hpattern)
  obtain ⟨⟨reason, val⟩, hexact⟩ :=
    Option.isSome_iff_exists.mp (hcandidate.evalKind_isSome h.represents)
  -- there is only one exact rule for the name, because the keys are in lower case already
  obtain ⟨r', hcandidate', -, rfl⟩ := candidate_of_evalExact h.represents hexact
  have hr' := hcandidate'.mem
  have hpattern' : r'.pattern = ptrKey ip := by
    cases hcandidate' with
    | exact _ stored => exact pattern_of_exact (h.lower_keys hr') stored
    | listed hlisted => exact absurd hlisted (by decide)
  refine ⟨reason, r'.val, ?_, ?_, ?_⟩
  · have hexact : m.evalExact (reverseName ip) = some (reason, some r'.val) := hexact
    rw [PatternMatcher.find, hexact]
    rfl
  · rw [h.at_eq hr', hpattern']
    exact hptr
  · rw [h.at_eq hr', hpattern']
    exact hisIP

end Lookup

/-! ## Queries -/

/-- The names in the PTR records of an answer. -/
def ptrRecords (ctx : Ctx) : List Text :=
  match ctx.st.synthResponse with
  | none => []
  | some synth => synth.answer.filterMap fun rr =>
    match rr.data with
    | .ptr name => some name
    | _ => none

structure AsksPTR (loaded : LoadedCloaking) (ip : IP) (ctx : Ctx) : Prop where
  question : ∃ question rest, ctx.msg.question = question :: rest ∧
    question.qclass = classINET ∧ question.qtype = typePTR
  qName : ctx.st.qName = reverseName ip
  unanswered : ctx.st.synthResponse = none
  names : ∀ p, (ctx.world.cloakedNames p).ptr = (loaded.names p).ptr ∧
    (ctx.world.cloakedNames p).isIP = (loaded.names p).isIP

section Queries

variable {loaded : LoadedCloaking} {ip : IP} {ctx : Ctx} {env : QueryEnv} {fqdn : Text}

theorem mem_ptrRecords_answer {name : CloakedName} {question : Question} {ttl : UInt32}
    {synth : Msg} (hptr : question.qtype = typePTR)
    (hsynth : synth.answer = env.shuffle (cloakAnswers name question ttl)) :
    fqdn ∈ ptrRecords ((ctx.answer synth).withCode .cloak) ↔ fqdn ∈ name.ptr := by
  unfold ptrRecords
  dsimp only [Ctx.answer, Ctx.withCode]
  rw [hsynth, ((env.shuffle_perm _).filterMap _).mem_iff]
  unfold cloakAnswers
  rw [hptr]
  simp [show typePTR ≠ typeA by decide, show typePTR ≠ typeAAAA by decide]

theorem eval_reverseName (m : PatternMatcher Nat) (ip : IP) :
    (m.eval (reverseName ip)).val = (m.find (reverseName ip)).bind Prod.snd := by
  unfold PatternMatcher.eval
  rw [if_neg (Nat.not_lt.mpr (two_le_length_reverseName ip))]
  cases m.find (reverseName ip) <;> rfl

theorem cloakEval_ptr (env : QueryEnv) (h : AsksPTR loaded ip ctx) :
    ∃ ctx', cloakEval loaded.rules env ctx = .ok (ctx', none) ∧
      (∀ fqdn ∈ ptrRecords ctx', ∃ reason p,
        loaded.rules.patternMatcher.find (reverseName ip) = some (reason, some p) ∧
        fqdn ∈ (loaded.names p).ptr) ∧
      ∀ reason p, loaded.rules.patternMatcher.find (reverseName ip) = some (reason, some p) →
        (loaded.names p).isIP = true → ∀ fqdn ∈ (loaded.names p).ptr, fqdn ∈ ptrRecords ctx' := by
  obtain ⟨question, rest, hq, hclass, htype⟩ := h.question
  have hquestion : ctx.question = .ok question := by rw [Ctx.question, hq]
  have hnone : ptrRecords ctx = [] := by rw [ptrRecords, h.unanswered]
  have hasked : ¬(question.qclass ≠ classINET ∨
      (question.qtype ≠ typeA ∧ question.qtype ≠ typeAAAA ∧ question.qtype ≠ typePTR)) := by
    simp [hclass, htype]
  unfold cloakEval
  rw [hquestion]
  simp only [bind, Except.bind]
  rw [if_neg hasked, h.qName, eval_reverseName]
  rcases hfind : loaded.rules.patternMatcher.find (reverseName ip) with _ | ⟨reason, _ | p⟩
  · exact ⟨ctx, rfl, by simp [hnone], nofun⟩
  · exact ⟨ctx, rfl, by simp [hnone], nofun⟩
  · obtain ⟨hptr, hisIP⟩ := h.names p
    dsimp only [Option.bind_some]
    split
    · next hlookup =>
      -- the name of a host, which has no records
      have hnot : ¬(loaded.names p).isIP = true := by
        rw [← hisIP]
        simpa using hlookup.1
      split
      · refine ⟨ctx, rfl, by simp [hnone], fun reason' p' hfind' hip => ?_⟩
        cases hfind'
        exact absurd hip hnot
      · refine ⟨_, rfl, fun fqdn hfqdn => ⟨reason, p, rfl, ?_⟩, fun reason' p' hfind' hip => ?_⟩
        · have hname := (mem_ptrRecords_answer htype rfl).mp hfqdn
          rw [← hptr]
          exact hname
        · cases hfind'
          exact absurd hip hnot
    · refine ⟨_, rfl, fun fqdn hfqdn => ⟨reason, p, rfl, ?_⟩, fun reason' p' hfind' _ fqdn hfqdn => ?_⟩
      · rw [← hptr]
        exact (mem_ptrRecords_answer htype rfl).mp hfqdn
      · cases hfind'
        rw [← hptr] at hfqdn
        exact (mem_ptrRecords_answer htype rfl).mpr hfqdn

theorem Loads.answer {lc : CloakCase} {rules : List CloakRule} {names : CloakedNames}
    {order : List (Rule Nat)} (hnames : loaded.names = names.at)
    (hloads : Loads lc rules names order loaded.rules.patternMatcher)
    (h : AsksPTR loaded ip ctx) :
    ∃ ctx', cloakEval loaded.rules env ctx = .ok (ctx', none) ∧
      ∀ fqdn, fqdn ∈ ptrRecords ctx' ↔ Made rules (ptrKey ip) fqdn := by
  obtain ⟨ctx', heval, honly, hall⟩ := cloakEval_ptr env h
  rw [hnames] at honly hall
  refine ⟨ctx', heval, fun fqdn => ⟨fun hfqdn => ?_, fun hmade => ?_⟩⟩
  · obtain ⟨reason, p, hfind, hptr⟩ := honly fqdn hfqdn
    exact hloads.made_of_found hfind hptr
  · obtain ⟨reason, p, hfind, hptr, hisIP⟩ := hloads.found_of_made hmade
    exact hall reason p hfind hisIP fqdn hptr

end Queries

/-! ## Addresses -/

section Addresses

variable {rules : List CloakRule} {name : Text} {ip : IP} {fqdn : Text}

theorem mem_ipv6Of (h : ip ∈ ipv6Of rules name) :
    ∃ rule ∈ rules, rule.name = name ∧ rule.ipv6 = some ip := by
  obtain ⟨rule, hrule, hv6⟩ := List.mem_filterMap.mp h
  obtain ⟨hrule, hname⟩ := List.mem_filter.mp hrule
  exact ⟨rule, hrule, of_decide_eq_true hname, hv6⟩

theorem made_ptrKey_iff (hlen : ip.length = 16) : Made rules (ptrKey ip) fqdn ↔
    ∃ name, '*' ∉ name ∧ fqdn = ptrNameToFQDN name ∧
      ((∃ rule ∈ rules, rule.name = name ∧ rule.ip = some ip ∧ rule.ipv4 ≠ none) ∨
        (ipv6Of rules name).head? = some ip) := by
  constructor
  · rintro ⟨name, ip', hstar, ⟨rule, hrule, hname, hv4⟩ | hv6, hkey, hfqdn⟩
    · obtain ⟨addr, haddr, hto4⟩ := Option.bind_eq_some_iff.mp hv4
      have haddrLen := rule.ip_length addr haddr
      rw [ptrKey_to4 haddrLen hto4] at hkey
      cases ptrKey_inj hlen haddrLen hkey
      exact ⟨name, hstar, hfqdn, .inl ⟨rule, hrule, hname, haddr, by simp [hv4]⟩⟩
    · obtain ⟨rule, hrule, -, hrule6⟩ := mem_ipv6Of (List.mem_of_head? hv6)
      have haddr := (CloakRule.ipv6_eq_some.mp hrule6).1
      cases ptrKey_inj hlen (rule.ip_length ip' haddr) hkey
      exact ⟨name, hstar, hfqdn, .inr hv6⟩
  · rintro ⟨name, hstar, hfqdn, ⟨rule, hrule, hname, haddr, hv4⟩ | hv6⟩
    · obtain ⟨v4, hv4⟩ := Option.ne_none_iff_exists'.mp hv4
      refine ⟨name, v4, hstar, .inl ⟨rule, hrule, hname, hv4⟩, ?_, hfqdn⟩
      rw [CloakRule.ipv4, haddr] at hv4
      exact (ptrKey_to4 hlen hv4).symm
    · exact ⟨name, ip, hstar, .inr hv6, rfl, hfqdn⟩

/-- An IPv6 address that is given to a name, but is not the first one that any spelling of the
name is given. -/
def HiddenAddress (rules : List CloakRule) : Prop :=
  ∃ rule ∈ rules, '*' ∉ rule.name ∧ ∃ ip, rule.ipv6 = some ip ∧
    ∀ rule' ∈ rules, '*' ∉ rule'.name →
      ptrNameToFQDN rule'.name = ptrNameToFQDN rule.name →
        (ipv6Of rules rule'.name).head? ≠ some ip

theorem all_made_iff (rules : List CloakRule) :
    (∀ rule ∈ rules, '*' ∉ rule.name → ∀ ip, rule.ip = some ip →
        Made rules (ptrKey ip) (ptrNameToFQDN rule.name)) ↔ ¬HiddenAddress rules := by
  constructor
  · rintro hmade ⟨rule, hrule, hstar, ip, hv6, hhidden⟩
    obtain ⟨hip, hto4⟩ := CloakRule.ipv6_eq_some.mp hv6
    obtain ⟨name, hstar', hfqdn, ⟨rule', -, -, hip', hv4⟩ | hhead⟩ :=
      (made_ptrKey_iff (rule.ip_length ip hip)).mp (hmade rule hrule hstar ip hip)
    · rw [CloakRule.ipv4, hip', Option.bind_some] at hv4
      exact hv4 hto4
    · obtain ⟨rule', hrule', rfl, -⟩ := mem_ipv6Of (List.mem_of_head? hhead)
      exact hhidden rule' hrule' hstar' hfqdn.symm hhead
  · intro hhidden rule hrule hstar ip hip
    rw [made_ptrKey_iff (rule.ip_length ip hip)]
    cases hto4 : IP.to4 ip with
    | some v4 =>
      refine ⟨rule.name, hstar, rfl, .inl ⟨rule, hrule, rfl, hip, ?_⟩⟩
      rw [CloakRule.ipv4, hip, Option.bind_some, hto4]
      exact Option.some_ne_none v4
    | none =>
      by_contra hnone
      refine hhidden ⟨rule, hrule, hstar, ip, CloakRule.ipv6_eq_some.mpr ⟨hip, hto4⟩, ?_⟩
      intro rule' _ hstar' hfqdn hhead
      exact hnone ⟨rule'.name, hstar', hfqdn.symm, .inr hhead⟩

theorem not_made_of_absent (hlen : ip.length = 16) (habsent : ∀ rule ∈ rules, rule.ip ≠ some ip) :
    ¬Made rules (ptrKey ip) fqdn := by
  rw [made_ptrKey_iff hlen]
  rintro ⟨name, -, -, ⟨rule, hrule, -, hip, -⟩ | hhead⟩
  · exact habsent rule hrule hip
  · obtain ⟨rule, hrule, -, hv6⟩ := mem_ipv6Of (List.mem_of_head? hhead)
    exact habsent rule hrule (CloakRule.ipv6_eq_some.mp hv6).1

end Addresses

/-! ## Answers -/

/-- Every query for the address is answered, and one of the records points to the name. -/
def AnsweredWith (loaded : LoadedCloaking) (ip : IP) (fqdn : Text) : Prop :=
  ∀ env ctx, AsksPTR loaded ip ctx →
    ∃ ctx', cloakEval loaded.rules env ctx = .ok (ctx', none) ∧ fqdn ∈ ptrRecords ctx'

/-- No query for the address is answered with a record. -/
def Unanswered (loaded : LoadedCloaking) (ip : IP) : Prop :=
  ∀ env ctx, AsksPTR loaded ip ctx →
    ∃ ctx', cloakEval loaded.rules env ctx = .ok (ctx', none) ∧ ptrRecords ctx' = []

/-- A query for the PTR records of an address, right after the names were loaded. -/
def ptrQuery (loaded : LoadedCloaking) (ip : IP) : Ctx where
  st :=
    { newPluginsState ⟨512, ⟨60, 3600, 60, 3600⟩, 10⟩ .udp none .udp with qName := reverseName ip }
  msg :=
    { id := 7, response := false, opcode := 0, authoritative := false, truncated := false
      recursionDesired := true, recursionAvailable := false, zero := false
      authenticatedData := false, checkingDisabled := false, rcode := 0, compress := false
      question := [⟨reverseAddr ip, typePTR, classINET⟩], answer := [], ns := [], extra := [] }
  world := ⟨none, loaded.names, 0, []⟩

def ptrEnv : QueryEnv where
  now := 0
  subnet := 0
  forwarder := 0
  lookupIP _ := .error (.plain "no such host")
  shuffle := id
  shuffle_perm := List.Perm.refl
  exchange _ _ _ := .error (.plain "connection refused")

theorem asksPTR_ptrQuery (loaded : LoadedCloaking) (ip : IP) : AsksPTR loaded ip (ptrQuery loaded ip) :=
  ⟨⟨_, _, rfl, rfl, rfl⟩, rfl, rfl, fun _ => ⟨rfl, rfl⟩⟩

section Answers

variable {lc : CloakCase} {net : NetLibrary} {ttl : UInt32} {bin : Text} {loaded : LoadedCloaking}
  {iterate : List (Rule Nat) → List (Rule Nat)}

theorem loads_of_init (hperm : ∀ calls, (iterate calls).Perm calls)
    (hinit : cloakInit net lc.text true ttl iterate bin = .ok (.ok loaded)) :
    ∃ names, loaded.names = CloakedNames.at names ∧
      Loads lc (acceptedRules net lc.text bin) names (iterate (cloakCalls names))
        loaded.rules.patternMatcher := by
  obtain ⟨names, m, hnames, hm, rfl⟩ := cloakInit_ok.mp hinit
  refine ⟨names, rfl, ?_, fun rule hrule => ?_, hperm _, ?_⟩
  · rcases cloakedNames_cases net lc.text bin with ⟨names', hnames', hrecorded, -⟩ | ⟨⟨e, he⟩, -⟩
    · rw [hnames] at hnames'
      cases hnames'
      exact hrecorded
    · rw [hnames] at he
      cases he
  · obtain ⟨line, -, hline⟩ := List.mem_filterMap.mp hrule
    obtain ⟨accepted, -, rfl⟩ := Option.map_eq_some_iff.mp hline
    exact lc.text_text accepted.1
  · exact represents_addAll lc.text (represents_new lc.text) hm

theorem answeredWith_iff (hperm : ∀ calls, (iterate calls).Perm calls)
    (hinit : cloakInit net lc.text true ttl iterate bin = .ok (.ok loaded)) (ip : IP) (fqdn : Text) :
    AnsweredWith loaded ip fqdn ↔ Made (acceptedRules net lc.text bin) (ptrKey ip) fqdn := by
  obtain ⟨names, hnames, hloads⟩ := loads_of_init hperm hinit
  constructor
  · intro h
    obtain ⟨ctx', heval, hfqdn⟩ := h ptrEnv _ (asksPTR_ptrQuery loaded ip)
    obtain ⟨ctx'', heval', hrecords⟩ := hloads.answer hnames (asksPTR_ptrQuery loaded ip)
    rw [heval] at heval'
    cases heval'
    exact (hrecords fqdn).mp hfqdn
  · intro hmade env ctx hasks
    obtain ⟨ctx', heval, hrecords⟩ := hloads.answer hnames hasks
    exact ⟨ctx', heval, (hrecords fqdn).mpr hmade⟩

end Answers

/-- With PTR records, whatever the lines and the order of the map: every address that a line gives
to a name is answered with that name, and no other address is answered with a record, unless an
IPv6 address of a name is hidden behind the first one. -/
theorem ptr_answers_iff {lc : CloakCase} {net : NetLibrary} {ttl : UInt32} {bin : Text}
    {loaded : LoadedCloaking} {iterate : List (Rule Nat) → List (Rule Nat)}
    (hperm : ∀ calls, (iterate calls).Perm calls)
    (hinit : cloakInit net lc.text true ttl iterate bin = .ok (.ok loaded)) :
    ((∀ rule ∈ acceptedRules net lc.text bin, '*' ∉ rule.name → ∀ ip, rule.ip = some ip →
        AnsweredWith loaded ip (ptrNameToFQDN rule.name)) ∧
      ∀ ip, ip.length = 16 → (∀ rule ∈ acceptedRules net lc.text bin, rule.ip ≠ some ip) →
        Unanswered loaded ip) ↔
      ¬HiddenAddress (acceptedRules net lc.text bin) := by
  simp only [answeredWith_iff hperm hinit]
  rw [all_made_iff]
  refine and_iff_left fun ip hlen habsent env ctx hasks => ?_
  obtain ⟨names, hnames, hloads⟩ := loads_of_init hperm hinit
  obtain ⟨ctx', heval, hrecords⟩ := hloads.answer hnames hasks
  refine ⟨ctx', heval, List.eq_nil_iff_forall_not_mem.mpr fun fqdn hfqdn => ?_⟩
  exact not_made_of_absent hlen habsent ((hrecords fqdn).mp hfqdn)

namespace Sample

theorem asciiLower_idem (c : Char) : c.toLower.toLower = c.toLower := by
  by_cases h : c.val ≥ 'A'.val ∧ c.val ≤ 'Z'.val
  · have hA : 65 ≤ c.val.toNat := h.1
    have hsum := asciiLower_upper h
    have hnot : ¬(c.toLower.val ≥ 'A'.val ∧ c.toLower.val ≤ 'Z'.val) := by
      rintro ⟨-, hle⟩
      have hle : c.toLower.val.toNat ≤ 90 := hle
      omega
    exact dif_neg hnot
  · have hsame : c.toLower = c := dif_neg h
    rw [hsame, hsame]

/-- `asciiLower` is such a lower case. -/
def asciiCloak : CloakCase := { asciiCase with idem := asciiLower_idem, ascii := fun _ _ => rfl }

def firstV6 : IP := [0x20, 0x01, 0x0d, 0xb8] ++ List.replicate 11 0 ++ [1]

def secondV6 : IP := [0x20, 0x01, 0x0d, 0xb8] ++ List.replicate 11 0 ++ [2]

def ptrNet : NetLibrary :=
  netOf [("192.0.2.1".toList, IP.v4InV6Prefix ++ [192, 0, 2, 1]), ("2001:db8::1".toList, firstV6),
    ("2001:db8::2".toList, secondV6)] (by decide)

def oneOfEach : Text := "example.com 192.0.2.1\nexample.com 2001:db8::1".toList

theorem one_of_each_answered :
    ∃ loaded, cloakInit ptrNet asciiCloak.text true 600 id oneOfEach = .ok (.ok loaded) ∧
      ¬HiddenAddress (acceptedRules ptrNet asciiCloak.text oneOfEach) ∧
      (∀ rule ∈ acceptedRules ptrNet asciiCloak.text oneOfEach, '*' ∉ rule.name →
        ∀ ip, rule.ip = some ip → AnsweredWith loaded ip (ptrNameToFQDN rule.name)) ∧
      ∀ ip, ip.length = 16 →
        (∀ rule ∈ acceptedRules ptrNet asciiCloak.text oneOfEach, rule.ip ≠ some ip) →
          Unanswered loaded ip := by
  have hshown : ¬HiddenAddress (acceptedRules ptrNet asciiCloak.text oneOfEach) := by
    rintro ⟨rule, hrule, hstar, ip, hv6, hhidden⟩
    have hfirst : ∀ rule ∈ acceptedRules ptrNet asciiCloak.text oneOfEach, rule.ipv6 ≠ none →
        (ipv6Of (acceptedRules ptrNet asciiCloak.text oneOfEach) rule.name).head? = rule.ipv6 := by
      decide
    refine hhidden rule hrule hstar rfl ((hfirst rule hrule ?_).trans hv6)
    rw [hv6]
    exact Option.some_ne_none ip
  exact ⟨_, rfl, hshown, (ptr_answers_iff (fun _ => .refl _) rfl).mpr hshown⟩

def twoV6 : Text := "example.com 2001:db8::1\nexample.com 2001:db8::2".toList

/-- The names in the answer to a query for an address. -/
def ptrNames (bin : Text) (ip : IP) : Option (List Text) :=
  match cloakInit ptrNet asciiCloak.text true 600 id bin with
  | .ok (.ok loaded) =>
    (cloakEval loaded.rules ptrEnv (ptrQuery loaded ip)).toOption.map fun r => ptrRecords r.1
  | _ => none

/-- The second line gives the address to the name, but a query for it has no answer. -/
theorem second_address_unanswered :
    ∃ loaded, cloakInit ptrNet asciiCloak.text true 600 id twoV6 = .ok (.ok loaded) ∧
      (∃ rule ∈ acceptedRules ptrNet asciiCloak.text twoV6,
        rule.name = "example.com".toList ∧ rule.ip = some secondV6) ∧
      ¬AnsweredWith loaded secondV6 (ptrNameToFQDN "example.com".toList) := by
  obtain ⟨loaded, hinit⟩ :
      ∃ loaded, cloakInit ptrNet asciiCloak.text true 600 id twoV6 = .ok (.ok loaded) := ⟨_, rfl⟩
  refine ⟨loaded, hinit, ⟨_, List.mem_cons_of_mem _ List.mem_cons_self, rfl, rfl⟩, fun h => ?_⟩
  obtain ⟨ctx', heval, hfqdn⟩ := h ptrEnv _ (asksPTR_ptrQuery loaded secondV6)
  have hnames : ptrNames twoV6 secondV6 = some (ptrRecords ctx') := by
    unfold ptrNames
    rw [hinit]
    dsimp only
    rw [heval]
    rfl
  have hnone : ptrNames twoV6 secondV6 = some [] := by decide
  rw [hnone] at hnames
  rw [← Option.some.inj hnames] at hfqdn
  cases hfqdn

end Sample

end DnscryptProxy
