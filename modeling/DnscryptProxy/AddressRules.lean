import DnscryptProxy.Cloaking
import DnscryptProxy.Plugins.Response

/-! `PluginBlockIP` and `PluginAllowedIP`: the file of rules, and the answers they cover.

A rule without a star means one address, a rule with one all the addresses that begin with its
text up to a separator (`IPRule.Covers`). The plugins differ from that in two ways. Only the
longest text that begins an address is looked at (`Hidden`), and a separator at the end of a
line is removed also where there is no star (`Cut`). `address_rules_iff` says that these two are
all. -/

namespace DnscryptProxy

open Library

/-! ## Files of rules -/

/-- `len(str)` -/
def byteLength (str : Text) : Nat := str.foldl (fun n c => n + c.utf8Size) 0

def endsWithSeparator (line : Text) : Bool :=
  line.getLast? = some ':' || line.getLast? = some '.'

def dropSeparator (line : Text) : Text :=
  if endsWithSeparator line then line.dropLast else line

/-- A line without its star, and whether it had one. -/
structure IPRule where
  text : Text
  star : Bool
  deriving DecidableEq, Repr

/-- The rule of a line. What is reported as suspicious, empty or invalid is passed over. -/
def ipRule (net : NetLibrary) (line : Text) : Option IPRule :=
  let line := trimAndStripInlineComments line
  if line = [] then none
  else
    let trailingStar := decide (line.getLast? = some '*')
    if byteLength line < 2 || ((net.parseIP line).isSome && trailingStar) then none
    else
      let text := if trailingStar then line.dropLast else line
      if dropSeparator text = [] then none
      else if (dropSeparator text).contains '*' then none
      else some ⟨text, trailingStar⟩

def ipRules (net : NetLibrary) (bin : Text) : List IPRule :=
  (bin.splitOn '\n').filterMap (ipRule net)

section Init

variable (toLower : Text → Text)

/-- The text under which a rule is stored. -/
def IPRule.line (r : IPRule) : Text := toLower (dropSeparator r.text)

def IPRules.add (rules : IPRules) (r : IPRule) : IPRules :=
  if r.star then { rules with prefixes := rules.prefixes.insert (r.line toLower) () }
  else { rules with ips := r.line toLower :: rules.ips }

/-- The loop of both `Init`s; there is a log if its file is given. -/
def loadIPRules (net : NetLibrary) (bin logFile : Text) : IPRules :=
  (bin.splitOn '\n').foldl
    (fun rules line => (ipRule net line).elim rules (rules.add toLower)) ⟨[], [], logFile ≠ []⟩

def blockIPInit (net : NetLibrary) (bin blockIPLogFile : Text) : IPRules :=
  loadIPRules toLower net bin blockIPLogFile

def allowedIPInit (net : NetLibrary) (bin allowedIPLogFile : Text) : IPRules :=
  loadIPRules toLower net bin allowedIPLogFile

end Init

/-! ## What rules cover -/

/-- The address ends after the text or goes on with a separator. -/
def Aligned (p ip : Text) : Prop :=
  p <+: ip ∧ (p.length = ip.length ∨ ip[p.length]? = some '.' ∨ ip[p.length]? = some ':')

section Meaning

variable (toLower : Text → Text)

/-- The documented meaning of a rule. -/
def IPRule.Covers (r : IPRule) (ip : Text) : Prop :=
  if r.star then Aligned (r.line toLower) ip else ip = toLower r.text

def Listed (rules : List IPRule) (ips : List Text) : Prop :=
  ∃ ip ∈ ips, ∃ r ∈ rules, r.Covers toLower ip

def starLines (rules : List IPRule) : List Text :=
  (rules.filter (·.star)).map (·.line toLower)

/-- The longest of the texts with a star that begin the address is aligned, or not. -/
def LongestAligned (rules : List IPRule) (ip : Text) : Prop :=
  ∃ p, PatternMatcher.LongestPrefix (starLines toLower rules) ip p ∧ Aligned p ip

/-- A text that covers the address stands behind a longer one that does not. -/
def Hidden (rules : List IPRule) (ip : Text) : Prop :=
  (∃ r ∈ rules, r.star = true ∧ Aligned (r.line toLower) ip) ∧ ¬ LongestAligned toLower rules ip

/-- A whole address that loses a separator. -/
def IPRule.Cut (r : IPRule) : Prop := r.star = false ∧ endsWithSeparator r.text = true

/-- What the plugins look for. -/
def AddressFound (rules : List IPRule) (ip : Text) : Prop :=
  (∃ r ∈ rules, r.star = false ∧ ip = r.line toLower) ∨ LongestAligned toLower rules ip

/-- An address is listed, as a hidden one or by a line that is cut, and nothing is found; or
what is left of a line that is cut is found, and nothing is listed. -/
def AddressMisjudged (rules : List IPRule) (ips : List Text) : Prop :=
  ((∃ ip ∈ ips, Hidden toLower rules ip ∨ ∃ r ∈ rules, r.Cut ∧ ip = toLower r.text) ∧
      ∀ ip ∈ ips, ¬ AddressFound toLower rules ip) ∨
    (∃ ip ∈ ips, ∃ r ∈ rules, r.Cut ∧ ip = r.line toLower) ∧ ¬ Listed toLower rules ips

end Meaning

/-! ## What the plugins find -/

section Found

variable {toLower : Text → Text} {rules : List IPRule} {ip : Text}

theorem IPRule.line_of_not_cut {r : IPRule} (hstar : r.star = false) (hcut : ¬ r.Cut) :
    r.line toLower = toLower r.text := by
  have hsep : ¬ endsWithSeparator r.text = true := fun h => hcut ⟨hstar, h⟩
  unfold line dropSeparator
  rw [if_neg hsep]

theorem foldl_add_ips (base : IPRules) :
    ip ∈ (rules.foldl (IPRules.add toLower) base).ips ↔
      (∃ r ∈ rules, r.star = false ∧ ip = r.line toLower) ∨ ip ∈ base.ips := by
  induction rules generalizing base with
  | nil => simp
  | cons r rules ih =>
    rw [List.foldl_cons, ih]
    cases hstar : r.star <;> simp [IPRules.add, hstar, or_left_comm, or_assoc]

theorem foldl_add_prefixes (base : IPRules) :
    (rules.foldl (IPRules.add toLower) base).prefixes =
      (starLines toLower rules).foldl (fun t line => t.insert line ()) base.prefixes := by
  induction rules generalizing base with
  | nil => rfl
  | cons r rules ih =>
    rw [List.foldl_cons, ih]
    cases hstar : r.star <;> simp [IPRules.add, starLines, hstar]

theorem loadIPRules_eq (net : NetLibrary) (bin logFile : Text) :
    loadIPRules toLower net bin logFile =
      (ipRules net bin).foldl (IPRules.add toLower) ⟨[], [], logFile ≠ []⟩ := by
  unfold loadIPRules ipRules
  rw [List.foldl_filterMap]
  congr
  funext rules line
  cases ipRule net line <;> rfl

theorem longestPrefix_foldl_insert (lines : List Text) :
    (lines.foldl (fun t line => PrefixMap.insert line () t) []).longestPrefix ip =
      PrefixMap.longestPrefix (lines.map fun line => (line, ())) ip := by
  rw [← PrefixMap.longestPrefix_ofList (lines.map fun line => (line, ())), PrefixMap.ofList,
    List.foldl_map]

theorem probe_aligned_iff (lines : List Text) :
    (∃ hit, PrefixMap.longestPrefix (lines.map fun line => (line, ())) ip = some (hit, ()) ∧
      Aligned hit ip) ↔ ∃ p, PatternMatcher.LongestPrefix lines ip p ∧ Aligned p ip := by
  constructor
  · rintro ⟨hit, hl, haligned⟩
    obtain ⟨hmem, hpre, hmax⟩ := PrefixMap.longestPrefix_eq_some hl
    refine ⟨hit, ⟨by simpa using hmem, hpre, fun q hq hqpre => ?_⟩, haligned⟩
    exact hmax (q, ()) (List.mem_map_of_mem hq) hqpre
  · rintro ⟨p, ⟨hmem, hpre, hmax⟩, haligned⟩
    cases hl : PrefixMap.longestPrefix (lines.map fun line => (line, ())) ip with
    | none => exact absurd hpre (PrefixMap.longestPrefix_eq_none.mp hl (p, ()) (List.mem_map_of_mem hmem))
    | some found =>
      obtain ⟨hit, _⟩ := found
      obtain ⟨hmem', hpre', hmax'⟩ := PrefixMap.longestPrefix_eq_some hl
      have hle : hit.length ≤ p.length := hmax hit (by simpa using hmem') hpre'
      have hge : p.length ≤ hit.length := hmax' (p, ()) (List.mem_map_of_mem hmem) hpre
      -- two prefixes of the address with one length
      have heq := (List.prefix_of_prefix_length_le hpre hpre' hge).eq_of_length (by omega)
      exact ⟨hit, rfl, heq ▸ haligned⟩

theorem covers_iff (net : NetLibrary) (bin logFile : Text) :
    (loadIPRules toLower net bin logFile).covers ip = true ↔ AddressFound toLower (ipRules net bin) ip := by
  have hips : ((loadIPRules toLower net bin logFile).ips.any (· = ip)) = true ↔
      ∃ r ∈ ipRules net bin, r.star = false ∧ ip = r.line toLower := by
    have hmem := @foldl_add_ips toLower (ipRules net bin) ip ⟨[], [], logFile ≠ []⟩
    rw [← loadIPRules_eq] at hmem
    simpa using hmem
  have hlongest : (loadIPRules toLower net bin logFile).prefixes.longestPrefix ip =
      PrefixMap.longestPrefix ((starLines toLower (ipRules net bin)).map fun line => (line, ())) ip := by
    rw [loadIPRules_eq, foldl_add_prefixes, longestPrefix_foldl_insert]
  unfold IPRules.covers AddressFound LongestAligned
  rw [Bool.or_eq_true, hips, hlongest, ← probe_aligned_iff]
  refine or_congr_right ?_
  cases hl : PrefixMap.longestPrefix
      ((starLines toLower (ipRules net bin)).map fun line => (line, ())) ip with
  | none => simp
  | some found =>
    obtain ⟨hit, _⟩ := found
    have hpre := (PrefixMap.longestPrefix_eq_some hl).2.1
    simp [Aligned, hpre, or_assoc]

theorem listed_not_found (hfound : ¬ AddressFound toLower rules ip) :
    (∃ r ∈ rules, r.Covers toLower ip) ↔
      Hidden toLower rules ip ∨ ∃ r ∈ rules, r.Cut ∧ ip = toLower r.text := by
  constructor
  · rintro ⟨r, hr, hcovers⟩
    unfold IPRule.Covers at hcovers
    split at hcovers
    · next hstar => exact .inl ⟨⟨r, hr, hstar, hcovers⟩, fun hl => hfound (.inr hl)⟩
    · next hstar =>
      have hstar := Bool.eq_false_iff.mpr hstar
      refine .inr ⟨r, hr, ?_, hcovers⟩
      by_contra hcut
      exact hfound (.inl ⟨r, hr, hstar, hcovers.trans (r.line_of_not_cut hstar hcut).symm⟩)
  · rintro (⟨⟨r, hr, hstar, haligned⟩, -⟩ | ⟨r, hr, ⟨hstar, -⟩, htext⟩)
    · exact ⟨r, hr, by simpa [IPRule.Covers, hstar] using haligned⟩
    · exact ⟨r, hr, by simpa [IPRule.Covers, hstar] using htext⟩

theorem found_not_listed (hlisted : ¬ ∃ r ∈ rules, r.Covers toLower ip) :
    AddressFound toLower rules ip ↔ ∃ r ∈ rules, r.Cut ∧ ip = r.line toLower := by
  constructor
  · rintro (⟨r, hr, hstar, hline⟩ | ⟨p, ⟨hmem, -⟩, haligned⟩)
    · refine ⟨r, hr, ?_, hline⟩
      by_contra hcut
      refine hlisted ⟨r, hr, ?_⟩
      simpa [IPRule.Covers, hstar] using hline.trans (r.line_of_not_cut hstar hcut)
    · obtain ⟨r, hr, rfl⟩ := List.mem_map.mp hmem
      obtain ⟨hr, hstar⟩ := List.mem_filter.mp hr
      exact absurd ⟨r, hr, by simpa [IPRule.Covers, hstar] using haligned⟩ hlisted
  · rintro ⟨r, hr, ⟨hstar, -⟩, hline⟩
    exact .inl ⟨r, hr, hstar, hline⟩

theorem found_iff_listed (ips : List Text) :
    ((∃ ip ∈ ips, AddressFound toLower rules ip) ↔ Listed toLower rules ips) ↔
      ¬ AddressMisjudged toLower rules ips := by
  constructor
  · rintro hiff (⟨⟨ip, hip, hlost⟩, hnone⟩ | ⟨⟨ip, hip, hcut⟩, hnone⟩)
    · have hlisted := (listed_not_found (hnone ip hip)).mpr hlost
      obtain ⟨ip', hip', hfound⟩ := hiff.mpr ⟨ip, hip, hlisted⟩
      exact hnone ip' hip' hfound
    · refine hnone (hiff.mp ⟨ip, hip, ?_⟩)
      obtain ⟨r, hr, hrcut, hline⟩ := hcut
      exact .inl ⟨r, hr, hrcut.1, hline⟩
  · intro hjudged
    constructor
    · rintro ⟨ip, hip, hfound⟩
      by_contra hnone
      refine hjudged (.inr ⟨⟨ip, hip, ?_⟩, hnone⟩)
      exact (found_not_listed fun h => hnone ⟨ip, hip, h⟩).mp hfound
    · rintro ⟨ip, hip, hlisted⟩
      by_contra hnone
      have hnone : ∀ ip ∈ ips, ¬ AddressFound toLower rules ip := fun ip hip h => hnone ⟨ip, hip, h⟩
      exact hjudged (.inl ⟨⟨ip, hip, (listed_not_found (hnone ip hip)).mp hlisted⟩, hnone⟩)

end Found

/-! ## The plugins -/

def addresses (answers : List RR) : List Text := answers.filterMap RR.ipStr

/-- The response is rejected. -/
def Rejects (e : Evaluated) : Prop := ∃ r, e = .ok r ∧ r.1.st.action = .reject

def Whitelists (e : Evaluated) : Prop := ∃ r, e = .ok r ∧ r.1.st.whitelisted = true

section Plugins

variable (toLower : Text → Text) (net : NetLibrary) (bin logFile : Text) {ctx : Ctx}

theorem hits_iff (answers : List RR) :
    (loadIPRules toLower net bin logFile).hits answers = true ↔
      ∃ ip ∈ addresses answers, AddressFound toLower (ipRules net bin) ip := by
  unfold IPRules.hits addresses
  rw [List.any_eq_true]
  constructor
  · rintro ⟨rr, hrr, hany⟩
    cases hip : rr.ipStr with
    | none => simp [hip] at hany
    | some ip =>
      rw [hip] at hany
      exact ⟨ip, List.mem_filterMap.mpr ⟨rr, hrr, hip⟩, (covers_iff net bin logFile).mp hany⟩
  · rintro ⟨ip, hip, hfound⟩
    obtain ⟨rr, hrr, hip⟩ := List.mem_filterMap.mp hip
    refine ⟨rr, hrr, ?_⟩
    rw [hip]
    exact (covers_iff net bin logFile).mpr hfound

theorem ok_of_logTo (hclient : ∃ ip, ctx.st.clientIPStr = .ok ip) (logger : Bool) :
    (do ctx.logTo logger; ctx.ok) = ctx.ok := by
  obtain ⟨ip, hclient⟩ := hclient
  unfold Ctx.logTo PluginsState.logTo
  cases logger with
  | false => rfl
  | true =>
    rw [if_pos rfl, hclient]
    rfl

theorem rejects_of_hits {rules : IPRules} (hwhite : ctx.st.whitelisted = false)
    (hclient : ∃ ip, ctx.st.clientIPStr = .ok ip) (hhits : rules.hits ctx.msg.answer = true) :
    Rejects (blockIPEval rules ctx) := by
  unfold blockIPEval
  rw [if_neg (by simp [hwhite]), if_pos hhits]
  refine ⟨_, ok_of_logTo ?_ rules.logger, rfl⟩
  exact hclient

theorem blockIPEval_rejects_iff {rules : IPRules} (hwhite : ctx.st.whitelisted = false)
    (haction : ctx.st.action ≠ .reject) (hclient : ∃ ip, ctx.st.clientIPStr = .ok ip) :
    Rejects (blockIPEval rules ctx) ↔ rules.hits ctx.msg.answer = true := by
  refine ⟨fun hrejects => ?_, rejects_of_hits hwhite hclient⟩
  by_contra hhits
  unfold blockIPEval at hrejects
  rw [if_neg (by simp [hwhite]), if_neg hhits] at hrejects
  obtain ⟨r, hr, hreject⟩ := hrejects
  cases hr
  exact haction hreject

theorem whitelists_of_hits {rules : IPRules} (hclient : ∃ ip, ctx.st.clientIPStr = .ok ip)
    (hhits : rules.hits ctx.msg.answer = true) : Whitelists (allowedIPEval rules ctx) := by
  unfold allowedIPEval
  rw [if_pos hhits]
  refine ⟨_, ok_of_logTo ?_ rules.logger, rfl⟩
  exact hclient

theorem allowedIPEval_whitelists_iff {rules : IPRules} (hwhite : ctx.st.whitelisted = false)
    (hclient : ∃ ip, ctx.st.clientIPStr = .ok ip) :
    Whitelists (allowedIPEval rules ctx) ↔ rules.hits ctx.msg.answer = true := by
  refine ⟨fun hwhitelists => ?_, whitelists_of_hits hclient⟩
  by_contra hhits
  unfold allowedIPEval at hwhitelists
  rw [if_neg hhits] at hwhitelists
  obtain ⟨r, hr, hwhitelisted⟩ := hwhitelists
  cases hr
  exact absurd (hwhite.symm.trans hwhitelisted) Bool.false_ne_true

/-- The response is rejected, or let through unexamined, as the rules say exactly unless its
addresses are misjudged. -/
theorem address_rules_iff (hwhite : ctx.st.whitelisted = false)
    (haction : ctx.st.action ≠ .reject) (hclient : ∃ ip, ctx.st.clientIPStr = .ok ip) :
    ((Rejects (blockIPEval (blockIPInit toLower net bin logFile) ctx) ↔
        Listed toLower (ipRules net bin) (addresses ctx.msg.answer)) ∧
      (Whitelists (allowedIPEval (allowedIPInit toLower net bin logFile) ctx) ↔
        Listed toLower (ipRules net bin) (addresses ctx.msg.answer))) ↔
      ¬ AddressMisjudged toLower (ipRules net bin) (addresses ctx.msg.answer) := by
  have hhits := hits_iff toLower net bin logFile ctx.msg.answer
  have hblock : Rejects (blockIPEval (blockIPInit toLower net bin logFile) ctx) ↔ _ :=
    (blockIPEval_rejects_iff hwhite haction hclient).trans hhits
  have hallow : Whitelists (allowedIPEval (allowedIPInit toLower net bin logFile) ctx) ↔ _ :=
    (allowedIPEval_whitelists_iff hwhite hclient).trans hhits
  rw [hblock, hallow, and_self]
  exact found_iff_listed _

end Plugins

namespace Sample

def addressReply (data : RData) : Ctx where
  st := BlockedNames.sampleState
  msg :=
    { id := 7, response := true, opcode := 0, authoritative := false, truncated := false
      recursionDesired := true, recursionAvailable := true, zero := false
      authenticatedData := false, checkingDisabled := false, rcode := 0, compress := false
      question := [], answer := [⟨"example.com.".toList, classINET, 60, data⟩], ns := [], extra := [] }
  world := ⟨none, fun _ => CloakEntry.new.name, 0, []⟩

def rangeRules : Text := "192.168.*\n192.168.1*".toList

/-- Neither rule stands in the way of the other for this address. -/
theorem address_in_range :
    Listed PatternMatcher.asciiLower (ipRules net rangeRules) ["192.168.2.3".toList] ∧
      ¬ AddressMisjudged PatternMatcher.asciiLower (ipRules net rangeRules) ["192.168.2.3".toList] ∧
      Rejects (blockIPEval (blockIPInit PatternMatcher.asciiLower net rangeRules [])
        (addressReply (.a [192, 168, 2, 3]))) ∧
      Whitelists (allowedIPEval (allowedIPInit PatternMatcher.asciiLower net rangeRules [])
        (addressReply (.a [192, 168, 2, 3]))) := by
  have hrules : ipRules net rangeRules = [⟨"192.168.".toList, true⟩, ⟨"192.168.1".toList, true⟩] := by
    decide
  have hcovers : Aligned "192.168".toList "192.168.2.3".toList :=
    ⟨by decide, .inr (.inl (by decide))⟩
  have hlisted : Listed PatternMatcher.asciiLower (ipRules net rangeRules) ["192.168.2.3".toList] := by
    rw [hrules]
    exact ⟨_, List.mem_singleton_self _, ⟨"192.168.".toList, true⟩, List.mem_cons_self, hcovers⟩
  have hfound : AddressFound PatternMatcher.asciiLower (ipRules net rangeRules)
      "192.168.2.3".toList := by
    rw [hrules]
    exact .inr ⟨_, ⟨List.mem_cons_self, by decide, by decide⟩, hcovers⟩
  have hjudged : ¬ AddressMisjudged PatternMatcher.asciiLower (ipRules net rangeRules)
      ["192.168.2.3".toList] := by
    rintro (⟨-, hnone⟩ | ⟨-, hnone⟩)
    · exact hnone _ (List.mem_singleton_self _) hfound
    · exact hnone hlisted
  have h := (@address_rules_iff PatternMatcher.asciiLower net rangeRules []
    (addressReply (.a [192, 168, 2, 3])) rfl (by decide) ⟨_, rfl⟩).mpr hjudged
  exact ⟨hlisted, hjudged, h.1.mpr hlisted, h.2.mpr hlisted⟩

/-- `192.168.*` covers the address, but `192.168.1` is a longer text that begins it. -/
theorem address_behind_longer_rule :
    Listed PatternMatcher.asciiLower (ipRules net rangeRules)
        (addresses (addressReply (.a [192, 168, 12, 3])).msg.answer) ∧
      ¬ Rejects (blockIPEval (blockIPInit PatternMatcher.asciiLower net rangeRules [])
        (addressReply (.a [192, 168, 12, 3]))) ∧
      ¬ Whitelists (allowedIPEval (allowedIPInit PatternMatcher.asciiLower net rangeRules [])
        (addressReply (.a [192, 168, 12, 3]))) := by
  have hrules : ipRules net rangeRules = [⟨"192.168.".toList, true⟩, ⟨"192.168.1".toList, true⟩] := by
    decide
  have hips : addresses (addressReply (.a [192, 168, 12, 3])).msg.answer =
      ["192.168.12.3".toList] := by decide
  have hhits : (loadIPRules PatternMatcher.asciiLower net rangeRules []).hits
      (addressReply (.a [192, 168, 12, 3])).msg.answer = false := by decide
  refine ⟨?_, ?_, ?_⟩
  · rw [hrules, hips]
    refine ⟨_, List.mem_singleton_self _, ⟨"192.168.".toList, true⟩, List.mem_cons_self, ?_⟩
    exact ⟨by decide, .inr (.inl (by decide))⟩
  · exact mt (blockIPEval_rejects_iff rfl (by decide) ⟨_, rfl⟩).mp (Bool.eq_false_iff.mp hhits)
  · exact mt (allowedIPEval_whitelists_iff rfl ⟨_, rfl⟩).mp (Bool.eq_false_iff.mp hhits)

/-- A whole address that ends with a separator is not found. -/
example : (ipRule net "2001:db8::".toList).map (·.line PatternMatcher.asciiLower) =
    some "2001:db8:".toList := by decide

end Sample

end DnscryptProxy
