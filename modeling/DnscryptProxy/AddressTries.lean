import DnscryptProxy.Library.UTF8
import DnscryptProxy.Radix
import DnscryptProxy.AddressRules

/-! `PluginBlockIP` and `PluginAllowedIP` with the radix trees that they have. The keys of a tree
are bytes, and so are the lengths and separators that `Eval` looks at; `IPRules` has a list of
texts in the place of the tree. `radixIP_refines` says that this makes no difference. -/

namespace DnscryptProxy

open Library Library.UTF8

structure RadixRules where
  ips : List Text
  prefixes : Radix.Tree Unit
  logger : Bool

namespace RadixRules

def add (toLower : Text → Text) (rules : RadixRules) (r : IPRule) : RadixRules :=
  if r.star then { rules with prefixes := rules.prefixes.insert (encode (r.line toLower)) () }
  else { rules with ips := r.line toLower :: rules.ips }

def load (toLower : Text → Text) (net : NetLibrary) (bin logFile : Text) : RadixRules :=
  (bin.splitOn '\n').foldl
    (fun rules line => (ipRule net line).elim rules (rules.add toLower)) ⟨[], .new, logFile ≠ []⟩

def covers (rules : RadixRules) (ipStr : Text) : Bool :=
  rules.ips.any (· = ipStr) ||
    match rules.prefixes.longestPrefix (encode ipStr) with
    | none => false
    | some (hit, _) =>
      hit.length = (encode ipStr).length || (encode ipStr)[hit.length]? = some 0x2e ||
        (encode ipStr)[hit.length]? = some 0x3a

def hits (rules : RadixRules) (answers : List RR) : Bool :=
  answers.any fun rr => rr.ipStr.any rules.covers

def allowedIPEval (rules : RadixRules) (ctx : Ctx) : Evaluated := do
  if rules.hits ctx.msg.answer then
    let ctx := { ctx with st.whitelisted := true }
    ctx.logTo rules.logger
    ctx.ok
  else ctx.ok

def blockIPEval (rules : RadixRules) (ctx : Ctx) : Evaluated := do
  if ctx.st.whitelisted then ctx.ok
  else if rules.hits ctx.msg.answer then
    let ctx := { ctx with st.action := .reject, st.returnCode := .reject }
    ctx.logTo rules.logger
    ctx.ok
  else ctx.ok

/-! ## The tree stands for the list of starts -/

/-- The tree that the texts with a star make. -/
def tree (lines : List Text) : Radix.Tree Unit :=
  .ofList (lines.map fun line => (encode line, ()))

theorem tree_snoc (lines : List Text) (line : Text) :
    tree (lines ++ [line]) = (tree lines).insert (encode line) () := by
  simp [tree, Radix.Tree.ofList]

/-- Rules with a tree, and the same rules with a list. -/
structure Refines (r : RadixRules) (m : IPRules) : Prop where
  ips : r.ips = m.ips
  prefixes : ∃ lines, r.prefixes = tree lines ∧
    m.prefixes = lines.foldl (fun t line => PrefixMap.insert line () t) []
  logger : r.logger = m.logger

variable {r : RadixRules} {m : IPRules}

theorem Refines.add (h : Refines r m) (toLower : Text → Text) (rule : IPRule) :
    Refines (r.add toLower rule) (m.add toLower rule) := by
  obtain ⟨lines, htree, hlist⟩ := h.prefixes
  cases hstar : rule.star with
  | false =>
    simp only [RadixRules.add, IPRules.add, hstar, Bool.false_eq_true, if_false]
    exact ⟨by rw [h.ips], ⟨lines, htree, hlist⟩, h.logger⟩
  | true =>
    simp only [RadixRules.add, IPRules.add, hstar, if_true]
    refine ⟨h.ips, ⟨lines ++ [rule.line toLower], ?_, ?_⟩, h.logger⟩
    · rw [tree_snoc, htree]
    · rw [List.foldl_append, hlist]
      rfl

theorem refines_load (toLower : Text → Text) (net : NetLibrary) (bin logFile : Text) :
    Refines (load toLower net bin logFile) (loadIPRules toLower net bin logFile) := by
  have hfold (lines : List Text) {r : RadixRules} {m : IPRules} (h : Refines r m) :
      Refines (lines.foldl (fun rules line => (ipRule net line).elim rules (rules.add toLower)) r)
        (lines.foldl (fun rules line => (ipRule net line).elim rules (rules.add toLower)) m) := by
    induction lines generalizing r m with
    | nil => exact h
    | cons line lines ih =>
      simp only [List.foldl_cons]
      apply ih
      cases ipRule net line with
      | none => exact h
      | some rule => exact h.add toLower rule
  exact hfold _ ⟨rfl, ⟨[], rfl, rfl⟩, rfl⟩

theorem longestPrefix_tree (lines : List Text) (ip : Text) :
    (tree lines).longestPrefix (encode ip) =
      (PrefixMap.longestPrefix (lines.map fun line => (line, ())) ip).map fun e => (encode e.1, ()) := by
  have hbytes : (lines.map fun line => (encode line, ())).reverse =
      (lines.map encode).reverse.map fun k => (k, ()) := by
    rw [List.map_reverse, List.map_map]
    rfl
  rw [tree, Radix.Tree.longestPrefix_ofList, hbytes]
  cases hl : PrefixMap.longestPrefix (lines.map fun line => (line, ())) ip with
  | none =>
    have hnone := PrefixMap.longestPrefix_eq_none.mp hl
    refine PrefixMap.longestPrefix_eq_none.mpr fun e he hpre => ?_
    simp only [List.mem_map, List.mem_reverse] at he
    obtain ⟨_, ⟨line, hline, rfl⟩, rfl⟩ := he
    exact hnone (line, ()) (List.mem_map_of_mem hline) (encode_prefix_iff.mp hpre)
  | some e =>
    obtain ⟨hit, _⟩ := e
    obtain ⟨hmem, hpre, hmax⟩ := PrefixMap.longestPrefix_unit_iff.mp hl
    refine PrefixMap.longestPrefix_unit_iff.mpr ⟨?_, encode_prefix_iff.mpr hpre, fun k hk hkpre => ?_⟩
    · exact List.mem_reverse.mpr (List.mem_map_of_mem hmem)
    · obtain ⟨line, hline, rfl⟩ := List.mem_map.mp (List.mem_reverse.mp hk)
      have hle := hmax line hline (encode_prefix_iff.mp hkpre)
      -- two starts of one address: the shorter text begins the longer one
      have hstart : line <+: hit :=
        List.prefix_of_prefix_length_le (encode_prefix_iff.mp hkpre) hpre hle
      exact (encode_prefix_iff.mpr hstart).length_le

theorem Refines.covers (h : Refines r m) (ip : Text) : r.covers ip = m.covers ip := by
  obtain ⟨lines, htree, hlist⟩ := h.prefixes
  unfold RadixRules.covers IPRules.covers
  rw [h.ips, htree, hlist, longestPrefix_tree, longestPrefix_foldl_insert]
  congr 1
  cases hl : PrefixMap.longestPrefix (lines.map fun line => (line, ())) ip with
  | none => rfl
  | some e =>
    obtain ⟨hit, _⟩ := e
    have hpre := (PrefixMap.longestPrefix_eq_some hl).2.1
    have hlength : (encode hit).length = (encode ip).length ↔ hit.length = ip.length := by
      constructor
      · intro hlen
        rw [encode_injective ((encode_prefix_iff.mpr hpre).eq_of_length hlen)]
      · intro hlen
        rw [hpre.eq_of_length hlen]
    have hdot : (encode ip)[(encode hit).length]? = some 0x2e ↔ ip[hit.length]? = some '.' :=
      getElem?_encode_length (by decide) (by decide) hpre
    have hcolon : (encode ip)[(encode hit).length]? = some 0x3a ↔ ip[hit.length]? = some ':' :=
      getElem?_encode_length (by decide) (by decide) hpre
    simp only [Option.map_some, hlength, hdot, hcolon]

theorem Refines.hits (h : Refines r m) (answers : List RR) : r.hits answers = m.hits answers := by
  have hcovers : r.covers = m.covers := funext h.covers
  rw [RadixRules.hits, IPRules.hits, hcovers]

end RadixRules

/-- Both plugins, with the rules of any file, do with the tree what they do with the list. -/
theorem radixIP_refines (toLower : Text → Text) (net : NetLibrary) (bin logFile : Text) (ctx : Ctx) :
    (RadixRules.load toLower net bin logFile).blockIPEval ctx =
        blockIPEval (blockIPInit toLower net bin logFile) ctx ∧
      (RadixRules.load toLower net bin logFile).allowedIPEval ctx =
        allowedIPEval (allowedIPInit toLower net bin logFile) ctx := by
  have h := RadixRules.refines_load toLower net bin logFile
  have hhits := h.hits ctx.msg.answer
  constructor
  · unfold RadixRules.blockIPEval
    rewrite [hhits, h.logger]
    rfl
  · unfold RadixRules.allowedIPEval
    rewrite [hhits, h.logger]
    rfl

end DnscryptProxy
