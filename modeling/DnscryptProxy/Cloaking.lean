import DnscryptProxy.Relays
import DnscryptProxy.RuleOrder
import DnscryptProxy.Plugins.Query

/-! `PluginCloak.Init`: the lines of a file of cloaking rules become entries of a map, and the
entries are handed to the pattern matcher in whatever order Go iterates over the map.
`cloaking_order_iff` says for which names that order does not matter. -/

namespace DnscryptProxy

open Library PatternMatcher

/-! ## Lines -/

/-- `unicode.IsSpace` -/
def isSpace (c : Char) : Bool :=
  let n := c.toNat
  (9 ≤ n && n ≤ 13) || n = 0x20 || n = 0x85 || n = 0xa0 || n = 0x1680 ||
    (0x2000 ≤ n && n ≤ 0x200a) || n = 0x2028 || n = 0x2029 || n = 0x202f || n = 0x205f || n = 0x3000

def trimSpace (str : Text) : Text :=
  ((str.dropWhile isSpace).reverse.dropWhile isSpace).reverse

/-- A comment begins at the last `#`, which stands first or after a blank. -/
def trimAndStripInlineComments (str : Text) : Text :=
  if str.contains '#' then
    let idx := str.length - 1 - (str.reverse.takeWhile (· ≠ '#')).length
    if idx = 0 || str.head? = some '#' then []
    else if str[idx - 1]? = some ' ' || str[idx - 1]? = some '\t' then trimSpace (str.take (idx - 1))
    else trimSpace str
  else trimSpace str

/-- `strings.FieldsFunc` with `unicode.IsSpace` -/
def fields (str : Text) : List Text := (str.splitOnP isSpace).filter (· ≠ [])

/-- The name and the target of a line. A line with an error is passed over. -/
def cloakSyntax (line : Text) : Option (Text × Text) :=
  match fields (trimAndStripInlineComments line) with
  | [line, target] => some (trimSpace line, trimSpace target)
  | _ => none

/-! ## Entries -/

structure CloakEntry where
  name : CloakedName
  lineNo : Nat

/-- `&CloakedName{}` -/
def CloakEntry.new : CloakEntry := ⟨⟨[], [], [], none, false, []⟩, 0⟩

/-- The map, with its entries in the order in which they were made. -/
abbrev CloakedNames := List (Text × CloakEntry)

def CloakedNames.get (names : CloakedNames) (line : Text) : CloakEntry :=
  (lookupMap names line).getD .new

/-- The target of a rule is added to the addresses of a name, or replaces its target. -/
def CloakedName.withTarget (name : CloakedName) (ip : Option IP) (target : Text) :
    Option CloakedName :=
  match ip with
  | none => some { name with target := target }
  | some ip =>
    match IP.to4 ip with
    | some ipv4 => some { name with ipv4 := name.ipv4 ++ [ipv4], isIP := true }
    | none =>
      match IP.to16 ip with
      | some ipv6 => some { name with ipv6 := name.ipv6 ++ [ipv6], isIP := true }
      | none => none

/-- `dns.ReverseAddr` -/
def reverseAddr (ip : IP) : Text :=
  match IP.to4 ip with
  | some ipv4 =>
    (ipv4.reverse.flatMap fun b => Nat.toDigits 10 b.toNat ++ ['.']) ++ "in-addr.arpa.".toList
  | none =>
    (ip.reverse.flatMap fun b =>
      [Nat.digitChar (b.toNat % 16), '.', Nat.digitChar (b.toNat / 16), '.']) ++ "ip6.arpa.".toList

example : reverseAddr [192, 0, 2, 1] = "1.2.0.192.in-addr.arpa.".toList := by decide

def ptrEntryToQuery (ptrEntry : Text) : Text := '=' :: ptrEntry

def ptrNameToFQDN (ptrLine : Text) : Text :=
  (if ptrLine.head? = some '=' then ptrLine.drop 1 else ptrLine) ++ ['.']

def ptrLine (ip : Option IP) (name : CloakedName) : Except Panic Text :=
  match ip.bind IP.to4, name.ipv6 with
  | some ipv4, _ => .ok (reverseAddr ipv4).dropLast
  | none, ipv6 :: _ => .ok (reverseAddr ipv6).dropLast
  | none, [] => .error .indexOutOfRange

def addPTR (lineNo : Nat) (line : Text) (ip : Option IP) (name : CloakedName)
    (names : CloakedNames) : Except Panic CloakedNames := do
  let ptrLine ← ptrLine ip name
  let ptrQueryLine := ptrEntryToQuery ptrLine
  let ptrName := (names.get ptrQueryLine).name
  return putMap names ptrQueryLine
    ⟨{ ptrName with isIP := true, ptr := ptrName.ptr ++ [ptrNameToFQDN line] }, lineNo⟩

section Init

variable (net : NetLibrary) (toLower : Text → Text) (createPTR : Bool)

/-- One turn of the loop of `Init`. -/
def cloakLine (lineNo : Nat) (line : Text) (names : CloakedNames) : Except Panic CloakedNames :=
  match cloakSyntax line with
  | none => .ok names
  | some (line, target) =>
    let line := toLower line
    let ip := net.parseIP target
    match (names.get line).name.withTarget ip target with
    | none => .ok names
    | some name =>
      let names := putMap names line ⟨name, lineNo⟩
      if !createPTR || line.contains '*' || !name.isIP then .ok names
      else addPTR lineNo line ip name names

def cloakedNames (bin : Text) : Except Panic CloakedNames :=
  (bin.splitOn '\n').zipIdx.foldlM
    (fun names (line, i) => cloakLine net toLower createPTR (i + 1) line names) []

/-- The calls of `Add`, with pointers to the entries. -/
def cloakCalls (names : CloakedNames) : List (Rule Nat) :=
  names.zipIdx.map fun (e, pointer) => ⟨e.1, pointer, e.2.lineNo⟩

def CloakedNames.at (names : CloakedNames) (pointer : Nat) : CloakedName :=
  match names[pointer]? with
  | some e => e.2.name
  | none => CloakEntry.new.name

/-- The plugin, and what its pointers point to. -/
structure LoadedCloaking where
  rules : CloakRules
  names : Nat → CloakedName

/-- `Init`. The map is iterated over in the order `iterate`. -/
def cloakInit (ttl : UInt32) (iterate : List (Rule Nat) → List (Rule Nat)) (bin : Text) :
    Except Panic (Except GoError LoadedCloaking) := do
  let names ← cloakedNames net toLower createPTR bin
  return do
    let patternMatcher ← PatternMatcher.new.addAll toLower (iterate (cloakCalls names))
    return ⟨⟨patternMatcher, ttl⟩, names.at⟩

end Init

/-- The entry that `cloakEval` finds for a name. -/
def LoadedCloaking.selected (loaded : LoadedCloaking) (qName : Text) : Option CloakedName :=
  (loaded.rules.patternMatcher.eval qName).val.map loaded.names

section Order

variable {net : NetLibrary} {toLower : Text → Text} {createPTR : Bool} {ttl : UInt32} {bin : Text}

theorem cloakInit_ok {iterate : List (Rule Nat) → List (Rule Nat)} {loaded : LoadedCloaking} :
    cloakInit net toLower createPTR ttl iterate bin = .ok (.ok loaded) ↔
      ∃ names m, cloakedNames net toLower createPTR bin = .ok names ∧
        new.addAll toLower (iterate (cloakCalls names)) = .ok m ∧ loaded = ⟨⟨m, ttl⟩, names.at⟩ := by
  unfold cloakInit
  constructor
  · intro h
    obtain ⟨names, hnames, h⟩ := ok_of_bind h
    obtain ⟨m, hm, h⟩ := ok_of_bind (Except.ok.inj h)
    cases h
    exact ⟨names, m, hnames, hm, rfl⟩
  · rintro ⟨names, m, hnames, hm, rfl⟩
    rw [hnames]
    show Except.ok _ = _
    rw [hm]
    rfl

/-- **The order of iteration** over the entries does not matter for a name exactly when the
rules that decide about it, in one order or another, have the same entry. -/
theorem cloaking_order_iff (qName : Text) :
    (∀ iterate iterate' loaded loaded', (∀ calls, (iterate calls).Perm calls) →
      (∀ calls, (iterate' calls).Perm calls) →
      cloakInit net toLower createPTR ttl iterate bin = .ok (.ok loaded) →
      cloakInit net toLower createPTR ttl iterate' bin = .ok (.ok loaded') →
      loaded.selected qName = loaded'.selected qName) ↔
    (∀ names, cloakedNames net toLower createPTR bin = .ok names → 2 ≤ qName.length →
      (∀ r ∈ cloakCalls names, (r.stored toLower).isSome) →
      ∀ r r', Decides toLower (cloakCalls names) qName r → Decides toLower (cloakCalls names) qName r' →
        names.at r.val = names.at r'.val) := by
  constructor
  · intro hsame names hnames
    refine (eval_order_iff names.at).mp fun order order' m m' hperm hperm' hm hm' => ?_
    classical
    -- the two orders, as ways to iterate over any map
    let ordered (order calls : List (Rule Nat)) := if calls = cloakCalls names then order else calls
    have hordered {order : List (Rule Nat)} (hperm : order.Perm (cloakCalls names)) (calls) :
        (ordered order calls).Perm calls := by
      dsimp only [ordered]
      by_cases h : calls = cloakCalls names
      · rw [if_pos h, h]
        exact hperm
      · rw [if_neg h]
    have hinit {order : List (Rule Nat)} {m : PatternMatcher Nat}
        (hm : new.addAll toLower order = .ok m) :
        cloakInit net toLower createPTR ttl (ordered order) bin = .ok (.ok ⟨⟨m, ttl⟩, names.at⟩) := by
      have hat : ordered order (cloakCalls names) = order := if_pos rfl
      exact cloakInit_ok.mpr ⟨names, m, hnames, by rw [hat, hm], rfl⟩
    exact hsame _ _ _ _ (hordered hperm) (hordered hperm') (hinit hm) (hinit hm')
  · intro hagree iterate iterate' loaded loaded' hperm hperm' hinit hinit'
    obtain ⟨names, m, hnames, hm, rfl⟩ := cloakInit_ok.mp hinit
    obtain ⟨names', m', hnames', hm', rfl⟩ := cloakInit_ok.mp hinit'
    rw [hnames] at hnames'
    cases hnames'
    exact (eval_order_iff names.at).mpr (hagree names hnames) _ _ m m' (hperm _) (hperm' _) hm hm'

end Order

/-! Two rules that are stored under the same text. -/

namespace Sample

def cloakingRules : Text := "example.com 192.0.2.1\n*.example.com 192.0.2.2".toList

def cloakingNet : NetLibrary :=
  netOf [("192.0.2.1".toList, IP.v4InV6Prefix ++ [192, 0, 2, 1]),
    ("192.0.2.2".toList, IP.v4InV6Prefix ++ [192, 0, 2, 2])] (by decide)

/-- The addresses of the entry that is found for `www.example.com`. -/
def cloakedAddresses (iterate : List (Rule Nat) → List (Rule Nat)) : Option (List IP) :=
  match cloakInit cloakingNet asciiLower false 600 iterate cloakingRules with
  | .ok (.ok loaded) => (loaded.selected "www.example.com".toList).map CloakedName.ipv4
  | _ => none

/-- The rule that is added first is the one that counts. -/
theorem cloaked_by_either :
    cloakedAddresses id = some [[192, 0, 2, 1]] ∧
      cloakedAddresses List.reverse = some [[192, 0, 2, 2]] ∧
      ∀ calls : List (Rule Nat), calls.reverse.Perm calls :=
  ⟨by decide, by decide, fun calls => calls.reverse_perm⟩

end Sample

end DnscryptProxy
