import DnscryptProxy.AddressText
import DnscryptProxy.Cloaking

/-! The PTR records that `PluginCloak.Init` makes for cloaked addresses. They are made while the
lines are read: the entry of a name collects what the lines give it, and after each line of a
name with an address one record is added, for the IPv4 address of the line or else for the first
IPv6 address of the name.

The loop is an invariant (`Recorded`) away from what the lines say: `Made` tells which records
there are in terms of the lines alone, and `Stops` at which lines the loop panics.

* `init_finishes_iff`: when `Init` returns. -/

namespace DnscryptProxy

open Library PatternMatcher

/-! ## Rules -/

/-- A line that is accepted, with its name in lower case and the address that its target is. -/
structure CloakRule where
  name : Text
  target : Text
  ip : Option IP
  lineNo : Nat
  ip_length : ∀ addr, ip = some addr → addr.length = 16

namespace CloakRule

def ipv4 (rule : CloakRule) : Option IP := rule.ip.bind IP.to4

def ipv6 (rule : CloakRule) : Option IP :=
  rule.ip.bind fun addr => if (IP.to4 addr).isNone then some addr else none

/-- The entry of a name with what a rule gives it. -/
def update (rule : CloakRule) (name : CloakedName) : CloakedName :=
  { name with
    target := if rule.ip.isNone then rule.target else name.target
    ipv4 := name.ipv4 ++ rule.ipv4.toList
    ipv6 := name.ipv6 ++ rule.ipv6.toList
    isIP := name.isIP || rule.ip.isSome }

end CloakRule

section Rules

variable (net : NetLibrary) (toLower : Text → Text)

def acceptedRule (line : Text × Nat) : Option CloakRule :=
  (cloakSyntax line.1).map fun accepted =>
    ⟨toLower accepted.1, accepted.2, net.parseIP accepted.2, line.2 + 1,
      net.parseIP_length accepted.2⟩

def acceptedRules (bin : Text) : List CloakRule :=
  (bin.splitOn '\n').zipIdx.filterMap (acceptedRule net toLower)

end Rules

/-- The key under which the PTR records of an address are kept. -/
def ptrKey (ip : IP) : Text := ptrEntryToQuery (reverseAddr ip).dropLast

/-- What a rule does to the entries. -/
def CloakRule.apply (rule : CloakRule) (createPTR : Bool) (names : CloakedNames) :
    Except Panic CloakedNames :=
  let name := rule.update (names.get rule.name).name
  let names := putMap names rule.name ⟨name, rule.lineNo⟩
  if !createPTR || rule.name.contains '*' || !name.isIP then .ok names
  else addPTR rule.lineNo rule.name rule.ip name names

theorem CloakRule.withTarget_eq (rule : CloakRule) (name : CloakedName) :
    name.withTarget rule.ip rule.target = some (rule.update name) := by
  unfold CloakedName.withTarget update ipv4 ipv6
  cases hip : rule.ip with
  | none => simp
  | some addr =>
    have hlength := rule.ip_length addr hip
    cases hto4 : IP.to4 addr with
    | some v4 => simp [hto4]
    | none => simp [hto4, IP.to16, hlength]

theorem cloakedNames_eq {net : NetLibrary} {toLower : Text → Text} {createPTR : Bool} {bin : Text} :
    cloakedNames net toLower createPTR bin =
      (acceptedRules net toLower bin).foldlM (fun names rule => rule.apply createPTR names) [] := by
  unfold cloakedNames acceptedRules
  rw [List.foldlM_filterMap]
  congr 1
  funext names line
  obtain ⟨line, i⟩ := line
  unfold cloakLine acceptedRule
  cases hline : cloakSyntax line with
  | none =>
    dsimp only [Option.map_none]
    rw [hline]
    rfl
  | some accepted =>
    obtain ⟨name, target⟩ := accepted
    have htarget := CloakRule.withTarget_eq ⟨toLower name, target, net.parseIP target, i + 1,
      net.parseIP_length target⟩ (names.get (toLower name)).name
    dsimp only [Option.map_some]
    rw [hline]
    dsimp only
    rw [htarget]
    rfl

/-! ## What the rules say -/

/-- The addresses of a name of either family, in the order of the lines. -/
def ipv6Of (rules : List CloakRule) (name : Text) : List IP :=
  (rules.filter fun rule => rule.name = name).filterMap CloakRule.ipv6

/-- The address for which a record is made after a rule. -/
def pointer (before : List CloakRule) (rule : CloakRule) : Option IP :=
  rule.ipv4.or (ipv6Of (before ++ [rule]) rule.name).head?

def Pointed (rules : List CloakRule) (name : Text) (ip : IP) : Prop :=
  (∃ rule ∈ rules, rule.name = name ∧ rule.ipv4 = some ip) ∨ (ipv6Of rules name).head? = some ip

/-- There is a PTR record under the key, which points to the name. -/
def Made (rules : List CloakRule) (key fqdn : Text) : Prop :=
  ∃ name ip, '*' ∉ name ∧ Pointed rules name ip ∧ key = ptrKey ip ∧ fqdn = ptrNameToFQDN name

def HasAddress (rules : List CloakRule) (name : Text) : Prop :=
  ∃ rule ∈ rules, rule.name = name ∧ rule.ip ≠ none

/-- A rule with the name of a host as its target, for a name that has an address or PTR records
but no IPv6 address. -/
def Stops (before : List CloakRule) (rule : CloakRule) : Prop :=
  rule.ip = none ∧ '*' ∉ rule.name ∧ ipv6Of before rule.name = [] ∧
    (HasAddress before rule.name ∨ ∃ fqdn, Made before rule.name fqdn)

/-- What the loop knows of the rules it has read. -/
structure Recorded (rules : List CloakRule) (made : Text → Text → Prop) (names : CloakedNames) :
    Prop where
  ipv6 : ∀ key, (names.get key).name.ipv6 = ipv6Of rules key
  ptr : ∀ key fqdn, fqdn ∈ (names.get key).name.ptr ↔ made key fqdn
  isIP : ∀ key, (names.get key).name.isIP = true ↔ HasAddress rules key ∨ ∃ fqdn, made key fqdn
  nodup : (names.map Prod.fst).Nodup
  keys : ∀ key ∈ names.map Prod.fst, (∃ rule ∈ rules, rule.name = key) ∨ ∃ ip, key = ptrKey ip

theorem get_putMap {names : CloakedNames} {key key' : Text} {entry : CloakEntry} :
    CloakedNames.get (putMap names key entry) key' =
    if key' = key then entry else names.get key' := by
  unfold CloakedNames.get
  rw [lookupMap_putMap]
  split <;> rfl

section Spec

variable {rules before : List CloakRule} {rule : CloakRule} {name : Text} {ip : IP}

theorem ipv6Of_concat : ipv6Of (before ++ [rule]) name =
    ipv6Of before name ++ if rule.name = name then rule.ipv6.toList else [] := by
  unfold ipv6Of
  rw [List.filter_append, List.filterMap_append]
  congr 1
  by_cases h : rule.name = name
  · simp only [List.filter_cons, h, decide_true, if_true, List.filter_nil]
    cases hv6 : rule.ipv6 <;> simp [hv6]
  · simp [h]

theorem hasAddress_concat : HasAddress (before ++ [rule]) name ↔
    HasAddress before name ∨ (rule.name = name ∧ rule.ip ≠ none) := by
  unfold HasAddress
  simp only [List.mem_append, List.mem_singleton, or_and_right, exists_or, exists_eq_left]

theorem head_ipv6Of_concat : (ipv6Of (before ++ [rule]) name).head? = some ip ↔
    (ipv6Of before name).head? = some ip ∨
      (ipv6Of before name = [] ∧ rule.name = name ∧ rule.ipv6 = some ip) := by
  rw [ipv6Of_concat]
  cases ipv6Of before name with
  | cons addr addrs => simp
  | nil => by_cases h : rule.name = name <;> cases hv6 : rule.ipv6 <;> simp [h]

theorem CloakRule.ipv6_eq_some :
    rule.ipv6 = some ip ↔ rule.ip = some ip ∧ IP.to4 ip = none := by
  unfold CloakRule.ipv6
  cases rule.ip with
  | none => simp
  | some addr =>
    rw [Option.bind_some, Option.some.injEq]
    constructor
    · intro h
      split at h
      · next hnone =>
        cases h
        exact ⟨rfl, Option.isNone_iff_eq_none.mp hnone⟩
      · cases h
    · rintro ⟨rfl, hto4⟩
      rw [hto4]
      rfl

theorem CloakRule.ipv4_eq_none_of_ipv6 (h : rule.ipv6 = some ip) : rule.ipv4 = none := by
  obtain ⟨hip, hto4⟩ := CloakRule.ipv6_eq_some.mp h
  rw [CloakRule.ipv4, hip, Option.bind_some, hto4]

theorem pointer_eq_some : pointer before rule = some ip ↔ rule.ipv4 = some ip ∨
    (rule.ipv4 = none ∧ (ipv6Of (before ++ [rule]) rule.name).head? = some ip) :=
  Option.or_eq_some_iff

theorem pointed_concat : Pointed (before ++ [rule]) name ip ↔
    Pointed before name ip ∨ (name = rule.name ∧ pointer before rule = some ip) := by
  unfold Pointed
  rw [pointer_eq_some]
  constructor
  · rintro (⟨r, hr, rfl, hv4⟩ | hv6)
    · rcases List.mem_append.mp hr with hr | hr
      · exact .inl (.inl ⟨r, hr, rfl, hv4⟩)
      · cases List.mem_singleton.mp hr
        exact .inr ⟨rfl, .inl hv4⟩
    · rcases head_ipv6Of_concat.mp hv6 with hbefore | ⟨hnil, rfl, hrule⟩
      · exact .inl (.inr hbefore)
      · exact .inr ⟨rfl, .inr ⟨CloakRule.ipv4_eq_none_of_ipv6 hrule, hv6⟩⟩
  · rintro ((⟨r, hr, hname, hv4⟩ | hv6) | ⟨rfl, hv4 | ⟨-, hv6⟩⟩)
    · exact .inl ⟨r, List.mem_append_left _ hr, hname, hv4⟩
    · exact .inr (head_ipv6Of_concat.mpr (.inl hv6))
    · exact .inl ⟨rule, by simp, rfl, hv4⟩
    · exact .inr hv6

theorem made_concat {key fqdn : Text} : Made (before ++ [rule]) key fqdn ↔
    Made before key fqdn ∨ ('*' ∉ rule.name ∧ ∃ ip, pointer before rule = some ip ∧
      key = ptrKey ip ∧ fqdn = ptrNameToFQDN rule.name) := by
  unfold Made
  simp only [pointed_concat]
  constructor
  · rintro ⟨name, ip, hstar, hpointed | ⟨rfl, hpointer⟩, hkey, hfqdn⟩
    · exact .inl ⟨name, ip, hstar, hpointed, hkey, hfqdn⟩
    · exact .inr ⟨hstar, ip, hpointer, hkey, hfqdn⟩
  · rintro (⟨name, ip, hstar, hpointed, hkey, hfqdn⟩ | ⟨hstar, ip, hpointer, hkey, hfqdn⟩)
    · exact ⟨name, ip, hstar, .inl hpointed, hkey, hfqdn⟩
    · exact ⟨rule.name, ip, hstar, .inr ⟨rfl, hpointer⟩, hkey, hfqdn⟩

theorem pointer_eq_none :
    pointer before rule = none ↔ rule.ip = none ∧ ipv6Of before rule.name = [] := by
  rw [pointer, ipv6Of_concat, if_pos rfl, Option.or_eq_none_iff, List.head?_eq_none_iff,
    List.append_eq_nil_iff]
  unfold CloakRule.ipv4 CloakRule.ipv6
  cases rule.ip with
  | none => simp
  | some addr => cases hto4 : IP.to4 addr <;> simp [hto4]

end Spec

section Loop

variable {rules : List CloakRule} {made made' : Text → Text → Prop} {names : CloakedNames}
  {rule : CloakRule}

theorem recorded_nil : Recorded [] (Made []) [] := by
  have hmade (key fqdn : Text) : ¬Made [] key fqdn := by
    rintro ⟨name, ip, -, ⟨rule, hrule, -⟩ | hv6, -⟩
    · cases hrule
    · cases hv6
  have hnone (key : Text) : ¬HasAddress [] key := by
    rintro ⟨rule, hrule, -⟩
    cases hrule
  refine ⟨fun _ => rfl, fun key fqdn => ?_, fun key => ?_, List.nodup_nil, nofun⟩
  · exact iff_of_false List.not_mem_nil (hmade key fqdn)
  · exact iff_of_false Bool.false_ne_true (not_or.mpr ⟨hnone key, fun ⟨fqdn, h⟩ => hmade key fqdn h⟩)

theorem Recorded.congr (h : Recorded rules made names)
    (hmade : ∀ key fqdn, made key fqdn ↔ made' key fqdn) : Recorded rules made' names := by
  obtain rfl : made = made' := funext₂ fun key fqdn => propext (hmade key fqdn)
  exact h

theorem Recorded.put (h : Recorded rules made names) (rule : CloakRule) (lineNo : Nat) :
    Recorded (rules ++ [rule]) made
      (putMap names rule.name ⟨rule.update (names.get rule.name).name, lineNo⟩) := by
  refine ⟨fun key => ?_, fun key fqdn => ?_, fun key => ?_, ?_, ?_⟩
  · rw [get_putMap, ipv6Of_concat, ← h.ipv6 key]
    by_cases hkey : key = rule.name
    · subst hkey
      rw [if_pos rfl, if_pos rfl]
      rfl
    · rw [if_neg hkey, if_neg (Ne.symm hkey), List.append_nil]
  · rw [get_putMap, ← h.ptr key]
    by_cases hkey : key = rule.name
    · subst hkey
      rw [if_pos rfl]
      rfl
    · rw [if_neg hkey]
  · rw [get_putMap, hasAddress_concat, or_right_comm, ← h.isIP key]
    by_cases hkey : key = rule.name
    · subst hkey
      rw [if_pos rfl]
      simp [CloakRule.update, Option.isSome_iff_ne_none]
    · rw [if_neg hkey]
      simp [Ne.symm hkey]
  · exact nodup_putMap _ h.nodup
  · intro key hkey
    rcases mem_keys_putMap.mp hkey with hkey | rfl
    · rcases h.keys key hkey with ⟨r, hr, hname⟩ | hptr
      · exact .inl ⟨r, List.mem_append_left _ hr, hname⟩
      · exact .inr hptr
    · exact .inl ⟨rule, by simp, rfl⟩

/-- The entry of an address with one more record. -/
def withPTR (lineNo : Nat) (fqdn : Text) (entry : CloakEntry) : CloakEntry :=
  ⟨{ entry.name with isIP := true, ptr := entry.name.ptr ++ [fqdn] }, lineNo⟩

/-- The second half. -/
theorem Recorded.withPTR (h : Recorded rules made names) (lineNo : Nat) (fqdn : Text) (ip : IP) :
    Recorded rules (fun key fqdn' => made key fqdn' ∨ (key = ptrKey ip ∧ fqdn' = fqdn))
      (putMap names (ptrKey ip) (withPTR lineNo fqdn (names.get (ptrKey ip)))) := by
  refine ⟨fun key => ?_, fun key fqdn' => ?_, fun key => ?_, nodup_putMap _ h.nodup, ?_⟩
  · rw [get_putMap, ← h.ipv6 key]
    by_cases hkey : key = ptrKey ip
    · subst hkey
      rw [if_pos rfl]
      rfl
    · rw [if_neg hkey]
  · rw [get_putMap, ← h.ptr key]
    by_cases hkey : key = ptrKey ip
    · subst hkey
      rw [if_pos rfl]
      simp [DnscryptProxy.withPTR]
    · rw [if_neg hkey]
      simp [hkey]
  · rw [get_putMap]
    by_cases hkey : key = ptrKey ip
    · subst hkey
      rw [if_pos rfl]
      exact iff_of_true rfl (.inr ⟨fqdn, .inr ⟨rfl, rfl⟩⟩)
    · rw [if_neg hkey, h.isIP key]
      simp [hkey]
  · intro key hkey
    rcases mem_keys_putMap.mp hkey with hkey | rfl
    · exact h.keys key hkey
    · exact .inr ⟨ip, rfl⟩

theorem addPTR_of_some {lineNo : Nat} {name : CloakedName} {ip : IP}
    (h : rule.ipv4.or name.ipv6.head? = some ip) :
    addPTR lineNo rule.name rule.ip name names = .ok (putMap names (ptrKey ip)
      (DnscryptProxy.withPTR lineNo (ptrNameToFQDN rule.name) (names.get (ptrKey ip)))) := by
  unfold CloakRule.ipv4 at h
  unfold addPTR ptrLine
  cases hv4 : rule.ip.bind IP.to4 with
  | some ipv4 =>
    rw [hv4] at h
    cases h
    rfl
  | none =>
    rw [hv4] at h
    cases hv6 : name.ipv6 with
    | nil =>
      rw [hv6] at h
      cases h
    | cons addr addrs =>
      rw [hv6] at h
      cases h
      rfl

theorem addPTR_of_none {lineNo : Nat} {name : CloakedName}
    (h : rule.ipv4.or name.ipv6.head? = none) :
    addPTR lineNo rule.name rule.ip name names = .error .indexOutOfRange := by
  obtain ⟨hv4, hv6⟩ := Option.or_eq_none_iff.mp h
  unfold CloakRule.ipv4 at hv4
  unfold addPTR ptrLine
  rw [hv4, List.head?_eq_none_iff.mp hv6]
  rfl

/-- After a rule, its name has an address or PTR records. -/
def MarkedIP (before : List CloakRule) (rule : CloakRule) : Prop :=
  HasAddress (before ++ [rule]) rule.name ∨ ∃ fqdn, Made before rule.name fqdn

theorem stops_iff : Stops rules rule ↔
    '*' ∉ rule.name ∧ MarkedIP rules rule ∧ pointer rules rule = none := by
  unfold Stops MarkedIP
  rw [pointer_eq_none, hasAddress_concat]
  constructor
  · rintro ⟨hip, hstar, hv6, hmarked⟩
    exact ⟨hstar, hmarked.imp_left .inl, hip, hv6⟩
  · rintro ⟨hstar, hmarked, hip, hv6⟩
    refine ⟨hip, hstar, hv6, hmarked.imp_left ?_⟩
    rintro (haddress | ⟨-, hne⟩)
    · exact haddress
    · exact absurd hip hne

theorem pointer_eq_none_of_not_marked (h : ¬MarkedIP rules rule) : pointer rules rule = none := by
  have hnone := (not_or.mp h).1
  rw [hasAddress_concat, not_or] at hnone
  refine pointer_eq_none.mpr ⟨?_, ?_⟩
  · by_contra hip
    exact hnone.2 ⟨rfl, hip⟩
  · refine List.filterMap_eq_nil_iff.mpr fun r hr => ?_
    obtain ⟨hr, hname⟩ := List.mem_filter.mp hr
    have hip : r.ip = none := by
      by_contra hip
      exact hnone.1 ⟨r, hr, of_decide_eq_true hname, hip⟩
    rw [CloakRule.ipv6, hip]
    rfl

theorem Recorded.apply_eq (h : Recorded rules (Made rules) names) (rule : CloakRule) :
    ∃ names₁ name, Recorded (rules ++ [rule]) (Made rules) names₁ ∧
      (name.isIP = true ↔ MarkedIP rules rule) ∧
      rule.ipv4.or name.ipv6.head? = pointer rules rule ∧
      rule.apply true names = if '*' ∈ rule.name ∨ ¬name.isIP = true then .ok names₁
        else addPTR rule.lineNo rule.name rule.ip name names₁ := by
  have hput := h.put rule rule.lineNo
  refine ⟨_, rule.update (names.get rule.name).name, hput, ?_, ?_, ?_⟩
  · have hisIP := hput.isIP rule.name
    rw [get_putMap, if_pos rfl] at hisIP
    exact hisIP
  · have hipv6 := hput.ipv6 rule.name
    rw [get_putMap, if_pos rfl] at hipv6
    rw [hipv6]
    rfl
  · unfold CloakRule.apply
    simp

theorem Recorded.apply (h : Recorded rules (Made rules) names) (hstops : ¬Stops rules rule) :
    ∃ names', rule.apply true names = .ok names' ∧
      Recorded (rules ++ [rule]) (Made (rules ++ [rule])) names' := by
  obtain ⟨names₁, name, hput, hmarked, hpointer, heq⟩ := h.apply_eq rule
  by_cases hskip : '*' ∈ rule.name ∨ ¬name.isIP = true
  · rw [if_pos hskip] at heq
    refine ⟨names₁, heq, hput.congr fun key fqdn => ?_⟩
    rw [made_concat]
    refine (or_iff_left ?_).symm
    rintro ⟨hstar, ip, hip, -⟩
    have hunmarked := hskip.resolve_left hstar
    rw [hmarked] at hunmarked
    rw [pointer_eq_none_of_not_marked hunmarked] at hip
    cases hip
  · rw [if_neg hskip] at heq
    obtain ⟨hstar, hisIP⟩ := not_or.mp hskip
    cases hip : pointer rules rule with
    | none => exact absurd (stops_iff.mpr ⟨hstar, hmarked.mp (not_not.mp hisIP), hip⟩) hstops
    | some ip =>
      rw [addPTR_of_some (hpointer.trans hip)] at heq
      refine ⟨_, heq, (hput.withPTR _ _ ip).congr fun key fqdn => ?_⟩
      rw [made_concat]
      refine or_congr_right ⟨?_, ?_⟩
      · rintro ⟨hkey, hfqdn⟩
        exact ⟨hstar, ip, hip, hkey, hfqdn⟩
      · rintro ⟨-, ip', hip', hkey, hfqdn⟩
        rw [hip] at hip'
        cases hip'
        exact ⟨hkey, hfqdn⟩

theorem Recorded.apply_stops (h : Recorded rules (Made rules) names) (hstops : Stops rules rule) :
    ∃ e, rule.apply true names = .error e := by
  obtain ⟨names₁, name, hput, hmarked, hpointer, heq⟩ := h.apply_eq rule
  obtain ⟨hstar, hisIP, hnone⟩ := stops_iff.mp hstops
  rw [if_neg (not_or.mpr ⟨hstar, not_not.mpr (hmarked.mpr hisIP)⟩),
    addPTR_of_none (hpointer.trans hnone)] at heq
  exact ⟨_, heq⟩

end Loop

/-! ## Loading -/

/-- Some line stops the loop. -/
def Crashes (rules : List CloakRule) : Prop :=
  ∃ before rule after, rules = before ++ rule :: after ∧ Stops before rule

section Load

variable {net : NetLibrary} {toLower : Text → Text} {bin : Text}

variable (net toLower bin) in
theorem cloakedNames_cases :
    (∃ names, cloakedNames net toLower true bin = .ok names ∧
        Recorded (acceptedRules net toLower bin) (Made (acceptedRules net toLower bin)) names ∧
        ¬Crashes (acceptedRules net toLower bin)) ∨
      (∃ e, cloakedNames net toLower true bin = .error e) ∧
        Crashes (acceptedRules net toLower bin) := by
  rw [cloakedNames_eq]
  rcases foldlM_cases (I := fun rules names => Recorded rules (Made rules) names) (S := Stops)
      (fun done rule names h hstops => h.apply hstops)
      (fun done rule names h hstops => h.apply_stops hstops) recorded_nil
      (acceptedRules net toLower bin) with ⟨⟨names, hnames, h⟩, hnot⟩ | ⟨herror, hcrash⟩
  · refine .inl ⟨names, hnames, h, ?_⟩
    rintro ⟨before, rule, after, hsplit, hstops⟩
    exact hnot before rule after hsplit hstops
  · exact .inr ⟨herror, hcrash⟩

theorem cloakedNames_without_ptr : ∃ names, cloakedNames net toLower false bin = .ok names := by
  rw [cloakedNames_eq]
  generalize acceptedRules net toLower bin = rules
  generalize ([] : CloakedNames) = names
  induction rules generalizing names with
  | nil => exact ⟨names, rfl⟩
  | cons rule rules ih => exact ih _

end Load

/-- `Init` returns, with success or with an error, for every text, unless PTR records are made
and some line stops the loop: one that gives the name of a host to a name which has an IPv4
address or PTR records, but no IPv6 address. -/
theorem init_finishes_iff (net : NetLibrary) (toLower : Text → Text) (createPTR : Bool)
    (ttl : UInt32) (iterate : List (Rule Nat) → List (Rule Nat)) (bin : Text) :
    (∃ result, cloakInit net toLower createPTR ttl iterate bin = .ok result) ↔
      createPTR = false ∨ ¬Crashes (acceptedRules net toLower bin) := by
  have hinit : (∃ result, cloakInit net toLower createPTR ttl iterate bin = .ok result) ↔
      ∃ names, cloakedNames net toLower createPTR bin = .ok names := by
    unfold cloakInit
    constructor
    · rintro ⟨result, h⟩
      obtain ⟨names, hnames, -⟩ := ok_of_bind h
      exact ⟨names, hnames⟩
    · rintro ⟨names, hnames⟩
      rw [hnames]
      exact ⟨_, rfl⟩
  rw [hinit]
  cases createPTR with
  | false => exact iff_of_true cloakedNames_without_ptr (.inl rfl)
  | true =>
    rcases cloakedNames_cases net toLower bin with ⟨names, hnames, -, hnot⟩ | ⟨⟨e, he⟩, hcrash⟩
    · exact iff_of_true ⟨names, hnames⟩ (.inr hnot)
    · refine iff_of_false ?_ ?_
      · rintro ⟨names, hnames⟩
        rw [hnames] at he
        cases he
      · rintro (h | h)
        · cases h
        · exact h hcrash

namespace Sample

/-- A name with an address and, in another line, with the name of a host. -/
def mixedRules : Text := "example.com 192.0.2.1\nexample.com www.example.org".toList

theorem mixed_rules_panic :
    cloakInit cloakingNet asciiLower true 600 id mixedRules = .error .indexOutOfRange :=
  rfl

end Sample

end DnscryptProxy
