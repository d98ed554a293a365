import DnscryptProxy.Library.Edges
import DnscryptProxy.Library.PrefixMap
import DnscryptProxy.Basic

/-! The radix tree of `go-immutable-radix`, which holds the starts of addresses in the plugins for
IP addresses. An edge to a node has the first byte of the node's `prefix` as its label. A
transaction copies the nodes that it changes, so that a tree is a value.

`Node.insert_spec` says that an insertion sets one key and leaves the others, and
`Tree.longestPrefix_latest` what a tree answers in terms of everything that was inserted. -/

namespace DnscryptProxy.Radix

open Library

variable {β : Type}

/-- `pre` is the field `prefix`: what the node adds to the key of the node above it. -/
structure Node (β : Type) where
  leaf : Option (Bytes × β)
  pre : Bytes
  edges : List (UInt8 × Node β)

/-- The function `longestPrefix`: the length of what two keys share. -/
def commonPrefix : Bytes → Bytes → Nat
  | a :: k, b :: k' => if a = b then commonPrefix k k' + 1 else 0
  | _, _ => 0

def leafNode (k : Bytes) (v : β) (search : Bytes) : Node β := ⟨some (k, v), search, []⟩

namespace Node

/-- The node in the middle of an edge, with the old child and the new leaf below it. -/
def splitNode (child : Node β) (k search : Bytes) (v : β) : Option (Node β) :=
  let common := commonPrefix search child.pre
  child.pre[common]?.map fun label =>
    let edges := Edges.add [] (label, { child with pre := child.pre.drop common })
    match search.drop common with
    | [] => ⟨some (k, v), search.take common, edges⟩
    | b :: rest => ⟨none, search.take common, Edges.add edges (b, leafNode k v (b :: rest))⟩

def insert : Nat → Node β → Bytes → Bytes → β → Option (Node β)
  | 0, _, _, _, _ => none
  | _ + 1, n, k, [], v => some { n with leaf := some (k, v) }
  | fuel + 1, n, k, b :: search, v =>
    match Edges.get n.edges b with
    | none => some { n with edges := Edges.add n.edges (b, leafNode k v (b :: search)) }
    | some (idx, child) =>
      if commonPrefix (b :: search) child.pre = child.pre.length then
        (insert fuel child k ((b :: search).drop child.pre.length) v).map fun newChild =>
          { n with edges := n.edges.set idx (b, newChild) }
      else
        (splitNode child k (b :: search) v).bind fun split =>
          (Edges.replace n.edges (b, split)).map fun edges => { n with edges := edges }

/-- The loop of `LongestPrefix`, with the last leaf it has come by. -/
def longestPrefixFrom : Nat → Node β → Bytes → Option (Bytes × β) → Option (Bytes × β)
  | 0, _, _, last => last
  | _ + 1, n, [], last => n.leaf.or last
  | fuel + 1, n, b :: search, last =>
    match Edges.get n.edges b with
    | none => n.leaf.or last
    | some (_, child) =>
      if child.pre <+: b :: search then
        longestPrefixFrom fuel child ((b :: search).drop child.pre.length) (n.leaf.or last)
      else n.leaf.or last

def longestPrefix (n : Node β) (k : Bytes) : Option (Bytes × β) :=
  longestPrefixFrom (k.length + 1) n k none

/-! ## What a tree holds -/

/-- The rest of a key leads from the node to a value. -/
inductive Has : Node β → Bytes → β → Prop
  | leaf {n : Node β} {k : Bytes} {v : β} (hleaf : n.leaf = some (k, v)) : Has n [] v
  | edge {n child : Node β} {b : UInt8} {rest : Bytes} {v : β} (hedge : (b, child) ∈ n.edges)
      (hbelow : Has child rest v) : Has n (child.pre ++ rest) v

/-- The same from the node above. -/
def Holds (child : Node β) (search : Bytes) (v : β) : Prop :=
  ∃ rest, search = child.pre ++ rest ∧ child.Has rest v

/-- A node to which `path` leads. Every edge takes a byte of the key at least. -/
inductive WellFormed : Bytes → Node β → Prop
  | node {path : Bytes} {n : Node β} (hleaf : ∀ k v, n.leaf = some (k, v) → k = path)
      (hincreasing : Edges.Increasing n.edges)
      (hlabel : ∀ b child, (b, child) ∈ n.edges → child.pre.head? = some b)
      (hbelow : ∀ b child, (b, child) ∈ n.edges → WellFormed (path ++ child.pre) child) :
      WellFormed path n

variable {n n' child child' : Node β} {path s search k : Bytes} {b : UInt8} {v w : β}

namespace WellFormed

theorem leaf (h : n.WellFormed path) : ∀ k v, n.leaf = some (k, v) → k = path := by
  cases h
  assumption

theorem increasing (h : n.WellFormed path) : Edges.Increasing n.edges := by
  cases h
  assumption

theorem label (h : n.WellFormed path) (hedge : (b, child) ∈ n.edges) : child.pre.head? = some b := by
  cases h with
  | node _ _ hlabel _ => exact hlabel b child hedge

theorem ofEdge (h : n.WellFormed path) (hedge : (b, child) ∈ n.edges) :
    child.WellFormed (path ++ child.pre) := by
  cases h with
  | node _ _ _ hbelow => exact hbelow b child hedge

theorem withPre (h : n.WellFormed path) (p : Bytes) : WellFormed path { n with pre := p } :=
  .node h.leaf h.increasing (fun _ _ => h.label) fun _ _ => h.ofEdge

end WellFormed

theorem has_iff : n.Has s v ↔
    (s = [] ∧ ∃ k, n.leaf = some (k, v)) ∨ ∃ b child, (b, child) ∈ n.edges ∧ child.Holds s v := by
  constructor
  · intro h
    cases h with
    | leaf hleaf => exact .inl ⟨rfl, _, hleaf⟩
    | edge hedge hbelow => exact .inr ⟨_, _, hedge, _, rfl, hbelow⟩
  · rintro (⟨rfl, k, hleaf⟩ | ⟨b, child, hedge, rest, rfl, hbelow⟩)
    · exact .leaf hleaf
    · exact .edge hedge hbelow

theorem has_withPre (p : Bytes) : Has { n with pre := p } s v ↔ n.Has s v := by
  rw [has_iff, has_iff]

theorem has_leafNode : (leafNode k v search).Has s w ↔ s = [] ∧ w = v := by
  simp [has_iff, leafNode, @eq_comm _ v w]

theorem Holds.head (h : child.Holds s v) (hlabel : child.pre.head? = some b) : s.head? = some b := by
  obtain ⟨rest, rfl, -⟩ := h
  rw [List.head?_append, hlabel]
  rfl

/-! ## Insertion -/

/-- One key leads to a new value, the others where they led before. -/
def Sets (n n' : Node β) (search : Bytes) (v : β) : Prop :=
  ∀ s w, n'.Has s w ↔ (s = search ∧ w = v) ∨ (s ≠ search ∧ n.Has s w)

theorem sets_of_child (h : n.WellFormed path) (hleaf : n'.leaf = n.leaf)
    (hincreasing : Edges.Increasing n'.edges)
    (hedges : ∀ e, e ∈ n'.edges ↔ e = (b, child') ∨ e.1 ≠ b ∧ e ∈ n.edges)
    (hlabel : child'.pre.head? = some b) (hbelow : child'.WellFormed (path ++ child'.pre))
    (hchild : ∀ s w, child'.Holds s w ↔ (s = search ∧ w = v) ∨
      (s ≠ search ∧ ∃ child, (b, child) ∈ n.edges ∧ child.Holds s w))
    (hhead : search.head? = some b) : n'.WellFormed path ∧ n.Sets n' search v := by
  refine ⟨.node (hleaf ▸ h.leaf) hincreasing ?_ ?_, fun s w => ?_⟩
  · intro c node hedge
    rcases (hedges _).mp hedge with hnew | ⟨-, hold⟩
    · cases hnew
      exact hlabel
    · exact h.label hold
  · intro c node hedge
    rcases (hedges _).mp hedge with hnew | ⟨-, hold⟩
    · cases hnew
      exact hbelow
    · exact h.ofEdge hold
  · rw [has_iff, has_iff, hleaf]
    constructor
    · rintro (⟨rfl, hk⟩ | ⟨c, node, hedge, hholds⟩)
      · refine .inr ⟨?_, .inl ⟨rfl, hk⟩⟩
        rintro rfl
        cases hhead
      · rcases (hedges _).mp hedge with hnew | ⟨hother, hold⟩
        · cases hnew
          exact ((hchild s w).mp hholds).imp_right fun ⟨hne, node, hedge, hholds⟩ =>
            ⟨hne, .inr ⟨_, node, hedge, hholds⟩⟩
        · refine .inr ⟨?_, .inr ⟨c, node, hold, hholds⟩⟩
          rintro rfl
          have hc := hholds.head (h.label hold)
          rw [hhead] at hc
          exact hother (Option.some.inj hc).symm
    · rintro (hnew | ⟨hne, ⟨rfl, hk⟩ | ⟨c, node, hedge, hholds⟩⟩)
      · exact .inr ⟨b, child', (hedges _).mpr (.inl rfl), (hchild s w).mpr (.inl hnew)⟩
      · exact .inl ⟨rfl, hk⟩
      · by_cases hc : c = b
        · subst hc
          exact .inr ⟨c, child', (hedges _).mpr (.inl rfl),
            (hchild s w).mpr (.inr ⟨hne, node, hedge, hholds⟩)⟩
        · exact .inr ⟨c, node, (hedges _).mpr (.inr ⟨hc, hedge⟩), hholds⟩

end Node

theorem commonPrefix_split {k k' : Bytes} (h : commonPrefix k k' ≠ k'.length) :
    ∃ p a q rest, k' = p ++ a :: q ∧ k = p ++ rest ∧ commonPrefix k k' = p.length ∧
      rest.head? ≠ some a := by
  induction k generalizing k' with
  | nil =>
    cases k' with
    | nil => exact absurd rfl h
    | cons a q => exact ⟨[], a, q, [], rfl, rfl, rfl, nofun⟩
  | cons b k ih =>
    cases k' with
    | nil => exact absurd rfl h
    | cons a k' =>
      by_cases hab : b = a
      · subst hab
        simp only [commonPrefix, if_true, List.length_cons, ne_eq, Nat.add_right_cancel_iff] at h
        obtain ⟨p, a, q, rest, rfl, rfl, hlen, hhead⟩ := ih h
        exact ⟨b :: p, a, q, rest, rfl, rfl, by simp [commonPrefix, hlen], hhead⟩
      · exact ⟨[], a, k', b :: k, rfl, rfl, by simp [commonPrefix, hab], by simpa using hab⟩

theorem commonPrefix_eq_length {k k' : Bytes} (h : commonPrefix k k' = k'.length) : k' <+: k := by
  induction k generalizing k' with
  | nil =>
    cases k' with
    | nil => exact List.prefix_rfl
    | cons a k' => simp [commonPrefix] at h
  | cons b k ih =>
    cases k' with
    | nil => exact List.nil_prefix
    | cons a k' =>
      by_cases hab : b = a
      · simp only [commonPrefix, hab, if_true, List.length_cons, Nat.add_right_cancel_iff] at h
        exact List.cons_prefix_cons.mpr ⟨hab.symm, ih h⟩
      · simp [commonPrefix, hab] at h

namespace Node

variable {n child child' : Node β} {path s search k : Bytes} {b : UInt8} {v w : β}

theorem wellFormed_leafNode : (leafNode (path ++ search) v search).WellFormed (path ++ search) :=
  .node (fun _ _ h => by cases h; rfl) .nil nofun nofun

theorem holds_leafNode : (leafNode k v search).Holds s w ↔ s = search ∧ w = v := by
  constructor
  · rintro ⟨rest, hs, hhas⟩
    obtain ⟨rfl, rfl⟩ := has_leafNode.mp hhas
    exact ⟨hs.trans (List.append_nil _), rfl⟩
  · rintro ⟨rfl, rfl⟩
    exact ⟨[], (List.append_nil _).symm, has_leafNode.mpr ⟨rfl, rfl⟩⟩

theorem splitNode_spec (h : child.WellFormed (path ++ child.pre)) (hlabel : child.pre.head? = some b)
    (hhead : search.head? = some b) (hsplit : commonPrefix search child.pre ≠ child.pre.length)
    (hk : k = path ++ search) :
    ∃ split, splitNode child k search v = some split ∧ split.pre.head? = some b ∧
      split.WellFormed (path ++ split.pre) ∧
      ∀ s w, split.Holds s w ↔ (s = search ∧ w = v) ∨ (s ≠ search ∧ child.Holds s w) := by
  obtain ⟨p, a, q, rest, hpre, rfl, hlen, hrest⟩ := commonPrefix_split hsplit
  have hp : p.head? = some b := by
    cases p with
    | nil =>
      rw [hpre] at hlabel
      exact absurd (hhead.trans hlabel.symm) hrest
    | cons c p => exact hhead
  have hindex : child.pre[p.length]? = some a := by simp [hpre]
  have hdrop : child.pre.drop p.length = a :: q := by simp [hpre]
  have hmod : WellFormed (path ++ p ++ (a :: q)) { child with pre := a :: q } := by
    rw [List.append_assoc, ← hpre]
    exact h.withPre _
  -- what the old child held is held through the two nodes that it became
  have hold (s : Bytes) (w : β) : (∃ t, s = p ++ t ∧ Holds { child with pre := a :: q } t w) ↔
      child.Holds s w := by
    unfold Holds
    constructor
    · rintro ⟨_, rfl, rest, rfl, hhas⟩
      exact ⟨rest, by rw [hpre, List.append_assoc], (has_withPre _).mp hhas⟩
    · rintro ⟨rest, rfl, hhas⟩
      exact ⟨a :: q ++ rest, by rw [hpre, List.append_assoc], rest, rfl, (has_withPre _).mpr hhas⟩
  have hnot (w : β) : ¬ child.Holds (p ++ rest) w := by
    rintro ⟨t, ht, -⟩
    rw [hpre, List.append_assoc] at ht
    rw [List.append_cancel_left ht] at hrest
    exact hrest rfl
  have hmove (s : Bytes) (w : β) : ((s = p ++ rest ∧ w = v) ∨ child.Holds s w) ↔
      (s = p ++ rest ∧ w = v) ∨ (s ≠ p ++ rest ∧ child.Holds s w) :=
    or_congr_right ⟨fun hs => ⟨fun hsame => hnot w (hsame ▸ hs), hs⟩, And.right⟩
  have hadd (e : UInt8 × Node β) : Edges.add [] e = [e] := rfl
  have hlabels : ∀ c node, (c, node) ∈ [(a, { child with pre := a :: q })] → node.pre.head? = some c := by
    intro c node hedge
    cases List.mem_singleton.mp hedge
    rfl
  have hmods : ∀ c node, (c, node) ∈ [(a, { child with pre := a :: q })] →
      node.WellFormed (path ++ p ++ node.pre) := by
    intro c node hedge
    cases List.mem_singleton.mp hedge
    exact hmod
  cases rest with
  | nil =>
    refine ⟨⟨some (k, v), p, [(a, { child with pre := a :: q })]⟩, ?_, hp, ?_, fun s w => ?_⟩
    · simp only [splitNode, hlen, hindex, hdrop, hadd, Option.map_some, List.drop_left, List.take_left]
    · exact .node (fun _ _ hleaf => by cases hleaf; simpa using hk) (List.pairwise_singleton _ _)
        hlabels hmods
    · rw [← hmove, ← hold]
      unfold Holds
      simp only [has_iff (n := ⟨some (k, v), p, _⟩), List.mem_singleton, Prod.mk.injEq]
      constructor
      · rintro ⟨t, rfl, ⟨rfl, _, hleaf⟩ | ⟨_, _, ⟨rfl, rfl⟩, hholds⟩⟩
        · cases hleaf
          exact .inl ⟨rfl, rfl⟩
        · exact .inr ⟨t, rfl, hholds⟩
      · rintro (⟨rfl, rfl⟩ | ⟨t, rfl, hholds⟩)
        · exact ⟨[], rfl, .inl ⟨rfl, k, rfl⟩⟩
        · exact ⟨t, rfl, .inr ⟨a, _, ⟨rfl, rfl⟩, hholds⟩⟩
  | cons c r =>
    have hca : c ≠ a := by simpa using hrest
    have hincreasing : Edges.Increasing
        (Edges.add [(a, { child with pre := a :: q })] (c, leafNode k v (c :: r))) :=
      Edges.increasing_add (List.pairwise_singleton _ _) fun node hedge => by
        cases List.mem_singleton.mp hedge
        exact hca rfl
    refine ⟨⟨none, p, Edges.add [(a, { child with pre := a :: q })] (c, leafNode k v (c :: r))⟩,
      ?_, hp, ?_, fun s w => ?_⟩
    · simp only [splitNode, hlen, hindex, hdrop, hadd, Option.map_some, List.drop_left, List.take_left]
    · refine .node nofun hincreasing ?_ ?_
      · intro d node hedge
        rcases Edges.mem_add.mp hedge with hnew | hedge
        · cases hnew
          rfl
        · exact hlabels d node hedge
      · intro d node hedge
        rcases Edges.mem_add.mp hedge with hnew | hedge
        · cases hnew
          rw [hk, ← List.append_assoc]
          exact wellFormed_leafNode
        · exact hmods d node hedge
    · rw [← hmove, ← hold]
      unfold Holds
      simp only [has_iff (n := ⟨none, p, _⟩), Edges.mem_add, List.mem_singleton, Prod.mk.injEq]
      constructor
      · rintro ⟨t, rfl, ⟨-, _, hleaf⟩ | ⟨_, _, ⟨rfl, rfl⟩ | ⟨rfl, rfl⟩, hholds⟩⟩
        · cases hleaf
        · obtain ⟨rfl, rfl⟩ := holds_leafNode.mp hholds
          exact .inl ⟨rfl, rfl⟩
        · exact .inr ⟨t, rfl, hholds⟩
      · rintro (⟨rfl, rfl⟩ | ⟨t, rfl, hholds⟩)
        · exact ⟨c :: r, rfl, .inr ⟨c, _, .inl ⟨rfl, rfl⟩, holds_leafNode.mpr ⟨rfl, rfl⟩⟩⟩
        · exact ⟨t, rfl, .inr ⟨a, _, .inr ⟨rfl, rfl⟩, hholds⟩⟩

theorem sets_leaf (h : n.WellFormed path) : WellFormed path { n with leaf := some (path, v) } ∧
    n.Sets { n with leaf := some (path, v) } [] v := by
  refine ⟨.node (fun _ _ hleaf => ?_) h.increasing (fun _ _ => h.label) fun _ _ => h.ofEdge,
    fun s w => ?_⟩
  · cases hleaf
    rfl
  · rw [has_iff, has_iff]
    constructor
    · rintro (⟨rfl, _, hleaf⟩ | ⟨b, child, hedge, hholds⟩)
      · cases hleaf
        exact .inl ⟨rfl, rfl⟩
      · refine .inr ⟨?_, .inr ⟨b, child, hedge, hholds⟩⟩
        rintro rfl
        cases hholds.head (h.label hedge)
    · rintro (⟨rfl, rfl⟩ | ⟨hne, ⟨rfl, -⟩ | hedge⟩)
      · exact .inl ⟨rfl, path, rfl⟩
      · exact absurd rfl hne
      · exact .inr hedge

theorem sets_newEdge (h : n.WellFormed path) (hget : Edges.get n.edges b = none)
    (hk : k = path ++ b :: search) :
    WellFormed path { n with edges := Edges.add n.edges (b, leafNode k v (b :: search)) } ∧
      n.Sets { n with edges := Edges.add n.edges (b, leafNode k v (b :: search)) } (b :: search) v := by
  have hnew := (Edges.get_eq_none_iff h.increasing).mp hget
  have hleaf : (leafNode k v (b :: search)).WellFormed (path ++ (leafNode k v (b :: search)).pre) := by
    rw [hk]
    exact wellFormed_leafNode
  refine sets_of_child h rfl (Edges.increasing_add h.increasing hnew) (fun e => ?_) rfl hleaf
    (fun s w => ?_) rfl
  · rw [Edges.mem_add]
    refine or_congr_right ⟨fun he => ⟨fun hb => ?_, he⟩, And.right⟩
    subst hb
    exact hnew e.2 he
  · rw [holds_leafNode]
    refine ⟨.inl, fun hs => hs.resolve_right ?_⟩
    rintro ⟨-, child, hedge, -⟩
    exact hnew child hedge

theorem sets_edge {i : Nat} (h : n.WellFormed path) (hi : n.edges[i]? = some (b, child))
    (hlabel : child'.pre.head? = some b) (hbelow : child'.WellFormed (path ++ child'.pre))
    (hchild : ∀ s w, child'.Holds s w ↔
      (s = b :: search ∧ w = v) ∨ (s ≠ b :: search ∧ child.Holds s w)) :
    WellFormed path { n with edges := n.edges.set i (b, child') } ∧
      n.Sets { n with edges := n.edges.set i (b, child') } (b :: search) v := by
  have hedge : (b, child) ∈ n.edges := List.mem_of_getElem? hi
  refine sets_of_child h rfl (Edges.increasing_set h.increasing hi)
    (fun e => Edges.mem_set h.increasing hi) hlabel hbelow (fun s w => ?_) rfl
  rw [hchild]
  refine or_congr_right (and_congr_right fun _ => ⟨fun hholds => ⟨child, hedge, hholds⟩, ?_⟩)
  rintro ⟨node, hnode, hholds⟩
  rwa [Edges.eq_of_label h.increasing hedge hnode]

theorem holds_of_sets {rest : Bytes} (hpre : child'.pre = child.pre) (hsets : child.Sets child' rest v) :
    child'.Holds s w ↔
      (s = child.pre ++ rest ∧ w = v) ∨ (s ≠ child.pre ++ rest ∧ child.Holds s w) := by
  unfold Holds
  rw [hpre]
  constructor
  · rintro ⟨t, rfl, hhas⟩
    rcases (hsets t w).mp hhas with ⟨rfl, rfl⟩ | ⟨hne, hhas⟩
    · exact .inl ⟨rfl, rfl⟩
    · exact .inr ⟨fun hsame => hne (List.append_cancel_left hsame), t, rfl, hhas⟩
  · rintro (⟨rfl, rfl⟩ | ⟨hne, t, rfl, hhas⟩)
    · exact ⟨rest, rfl, (hsets rest w).mpr (.inl ⟨rfl, rfl⟩)⟩
    · exact ⟨t, rfl, (hsets t w).mpr (.inr ⟨fun hsame => hne (hsame ▸ rfl), hhas⟩)⟩

theorem insert_spec {fuel : Nat} (h : n.WellFormed path) (hk : k = path ++ search)
    (hfuel : search.length < fuel) : ∃ n', insert fuel n k search v = some n' ∧ n'.pre = n.pre ∧
      n'.WellFormed path ∧ n.Sets n' search v := by
  induction fuel generalizing n path search with
  | zero => omega
  | succ fuel ih =>
    cases search with
    | nil =>
      rw [List.append_nil] at hk
      subst hk
      exact ⟨_, rfl, rfl, sets_leaf h⟩
    | cons b search =>
      cases hget : Edges.get n.edges b with
      | none =>
        refine ⟨{ n with edges := Edges.add n.edges (b, leafNode k v (b :: search)) }, ?_, rfl,
          sets_newEdge h hget hk⟩
        simp only [insert, hget]
      | some found =>
        obtain ⟨idx, child⟩ := found
        have hidx := Edges.getElem?_of_get hget
        have hedge : (b, child) ∈ n.edges := List.mem_of_getElem? hidx
        have hlabel := h.label hedge
        by_cases hcommon : commonPrefix (b :: search) child.pre = child.pre.length
        · obtain ⟨rest, hrest⟩ := commonPrefix_eq_length hcommon
          have hdrop : (b :: search).drop child.pre.length = rest := by
            rw [← hrest, List.drop_left]
          have hpos : child.pre ≠ [] := by
            intro hnil
            simp [hnil] at hlabel
          have hlen := congrArg List.length hrest
          have hpos := List.length_pos_iff.mpr hpos
          rw [List.length_append] at hlen
          have hbelow : k = path ++ child.pre ++ rest := by rw [hk, ← hrest, List.append_assoc]
          obtain ⟨newChild, hinsert, hpre, hnewChild, hsets⟩ := ih (h.ofEdge hedge) hbelow (by omega)
          refine ⟨{ n with edges := n.edges.set idx (b, newChild) }, ?_, rfl, ?_⟩
          · simp only [insert, hget, hcommon, if_true, hdrop, hinsert, Option.map_some]
          · refine sets_edge h hidx (hpre ▸ hlabel) (hpre ▸ hnewChild) fun s w => ?_
            rw [← hrest]
            exact holds_of_sets hpre hsets
        · obtain ⟨split, hsplit, hsplitLabel, hsplitNode, hholds⟩ :=
            splitNode_spec (v := v) (h.ofEdge hedge) hlabel rfl hcommon hk
          obtain ⟨i, hi, hreplace⟩ : ∃ i, n.edges[i]? = some (b, child) ∧
              Edges.replace n.edges (b, split) = some (n.edges.set i (b, split)) :=
            Edges.replace_eq_some h.increasing hedge
          refine ⟨{ n with edges := n.edges.set i (b, split) }, ?_, rfl, ?_⟩
          · simp only [insert, hget, hcommon, if_false, hsplit, Option.bind_some, hreplace,
              Option.map_some]
          · exact sets_edge h hi hsplitLabel hsplitNode hholds

/-! ## Lookup -/

/-- The leaf of the longest key that begins the search, or the last leaf from above. -/
def Longest (n : Node β) (path search : Bytes) (last found : Option (Bytes × β)) : Prop :=
  (∃ s w, s <+: search ∧ n.Has s w ∧ found = some (path ++ s, w) ∧
      ∀ s' w', s' <+: search → n.Has s' w' → s'.length ≤ s.length) ∨
    (∀ s w, s <+: search → ¬ n.Has s w) ∧ found = last

theorem longest_here {last : Option (Bytes × β)} (h : n.WellFormed path)
    (hstop : ∀ s w b child, s <+: search → (b, child) ∈ n.edges → ¬ child.Holds s w) :
    n.Longest path search last (n.leaf.or last) := by
  have honly {s : Bytes} {w : β} (hs : s <+: search) (hhas : n.Has s w) :
      s = [] ∧ ∃ k, n.leaf = some (k, w) := by
    rcases has_iff.mp hhas with hleaf | ⟨b, child, hedge, hholds⟩
    · exact hleaf
    · exact absurd hholds (hstop s w b child hs hedge)
  cases hleaf : n.leaf with
  | none =>
    refine .inr ⟨fun s w hs hhas => ?_, rfl⟩
    obtain ⟨-, k, hk⟩ := honly hs hhas
    rw [hleaf] at hk
    cases hk
  | some e =>
    obtain ⟨k, w⟩ := e
    refine .inl ⟨[], w, List.nil_prefix, .leaf hleaf, ?_, fun s' w' hs' hhas => ?_⟩
    · rw [List.append_nil, h.leaf k w hleaf]
      rfl
    · rw [(honly hs' hhas).1]

theorem label_of_holds (h : n.WellFormed path) (hs : s <+: search) (hedge : (b, child) ∈ n.edges)
    (hholds : child.Holds s w) : search.head? = some b := by
  obtain ⟨rest, rfl⟩ := hs
  rw [List.head?_append, hholds.head (h.label hedge)]
  rfl

theorem has_of_holds {node : Node β} {c : UInt8} {rest : Bytes} (h : n.WellFormed path)
    (hedge : (b, child) ∈ n.edges) (hsearch : search = child.pre ++ rest) (hs : s <+: search)
    (hnode : (c, node) ∈ n.edges) (hholds : node.Holds s w) :
    ∃ t, s = child.pre ++ t ∧ t <+: rest ∧ child.Has t w := by
  have hc := label_of_holds h hs hnode hholds
  rw [hsearch, List.head?_append, h.label hedge] at hc
  obtain rfl : b = c := Option.some.inj hc
  obtain rfl : child = node := Edges.eq_of_label h.increasing hedge hnode
  obtain ⟨t, rfl, hhas⟩ := hholds
  rw [hsearch] at hs
  exact ⟨t, rfl, (List.prefix_append_right_inj _).mp hs, hhas⟩

theorem longest_below {last found : Option (Bytes × β)} {rest : Bytes} (h : n.WellFormed path)
    (hedge : (b, child) ∈ n.edges) (hsearch : search = child.pre ++ rest)
    (hfound : child.Longest (path ++ child.pre) rest (n.leaf.or last) found) :
    n.Longest path search last found := by
  rcases hfound with ⟨s, w, hs, hhas, hfound, hmax⟩ | ⟨hnone, rfl⟩
  · refine .inl ⟨child.pre ++ s, w, ?_, .edge hedge hhas, ?_, fun s' w' hs' hhas' => ?_⟩
    · rw [hsearch]
      exact (List.prefix_append_right_inj _).mpr hs
    · rw [hfound, List.append_assoc]
    · rcases has_iff.mp hhas' with ⟨rfl, -⟩ | ⟨c, node, hnode, hholds⟩
      · exact Nat.zero_le _
      · obtain ⟨t, rfl, ht, hhas⟩ := has_of_holds h hedge hsearch hs' hnode hholds
        have hle := hmax t w' ht hhas
        simp only [List.length_append]
        omega
  · refine longest_here h fun s w c node hs hnode hholds => ?_
    obtain ⟨t, rfl, ht, hhas⟩ := has_of_holds h hedge hsearch hs hnode hholds
    exact hnone t w ht hhas

theorem longestPrefixFrom_spec {fuel : Nat} {last : Option (Bytes × β)} (h : n.WellFormed path)
    (hfuel : search.length < fuel) :
    n.Longest path search last (longestPrefixFrom fuel n search last) := by
  induction fuel generalizing n path search last with
  | zero => omega
  | succ fuel ih =>
    cases search with
    | nil =>
      refine longest_here h fun s w b child hs hedge hholds => ?_
      cases label_of_holds h hs hedge hholds
    | cons b search =>
      cases hget : Edges.get n.edges b with
      | none =>
        simp only [longestPrefixFrom, hget]
        refine longest_here h fun s w c child hs hedge hholds => ?_
        obtain rfl : b = c := Option.some.inj (label_of_holds h hs hedge hholds)
        exact (Edges.get_eq_none_iff h.increasing).mp hget child hedge
      | some found =>
        obtain ⟨idx, child⟩ := found
        have hedge : (b, child) ∈ n.edges := List.mem_of_getElem? (Edges.getElem?_of_get hget)
        by_cases hpre : child.pre <+: b :: search
        · obtain ⟨rest, hrest⟩ := hpre
          have hlabel := h.label hedge
          have hpos : 0 < child.pre.length := by
            cases hcase : child.pre with
            | nil => simp [hcase] at hlabel
            | cons c p => simp
          have hlen := congrArg List.length hrest
          rw [List.length_append] at hlen
          have hdrop : (b :: search).drop child.pre.length = rest := by
            rw [← hrest, List.drop_left]
          have hthrough : child.pre <+: b :: search := ⟨rest, hrest⟩
          simp only [longestPrefixFrom, hget, hthrough, if_true, hdrop]
          exact longest_below h hedge hrest.symm (ih (h.ofEdge hedge) (by omega))
        · simp only [longestPrefixFrom, hget, hpre, if_false]
          refine longest_here h fun s w c node hs hnode hholds => hpre ?_
          obtain rfl : b = c := Option.some.inj (label_of_holds h hs hnode hholds)
          obtain rfl : child = node := Edges.eq_of_label h.increasing hedge hnode
          obtain ⟨t, rfl, -⟩ := hholds
          exact (List.prefix_append _ t).trans hs

end Node

/-! ## Trees -/

/-- A tree that was built from nothing. -/
structure Tree (β : Type) where
  root : Node β
  wellFormed : root.WellFormed []

namespace Tree

def new : Tree β := ⟨⟨none, [], []⟩, .node nofun .nil nofun nofun⟩

theorem insert_root (t : Tree β) (k : Bytes) (v : β) :
    ∃ n, Node.insert (k.length + 1) t.root k k v = some n ∧ n.WellFormed [] ∧ t.root.Sets n k v := by
  obtain ⟨n, hinsert, -, hspec⟩ : ∃ n, Node.insert (k.length + 1) t.root k k v = some n ∧
      n.pre = t.root.pre ∧ n.WellFormed [] ∧ t.root.Sets n k v :=
    Node.insert_spec t.wellFormed (List.nil_append k).symm (Nat.lt_succ_self _)
  exact ⟨n, hinsert, hspec⟩

theorem insert_isSome (t : Tree β) (k : Bytes) (v : β) :
    (Node.insert (k.length + 1) t.root k k v).isSome := by
  obtain ⟨n, hinsert, -⟩ := t.insert_root k v
  simp [hinsert]

/-- Insertion goes through: no edge is missing and no index is out of range. -/
def insert (t : Tree β) (k : Bytes) (v : β) : Tree β where
  root := (Node.insert (k.length + 1) t.root k k v).get (t.insert_isSome k v)
  wellFormed := by
    obtain ⟨n, hinsert, hwf, -⟩ := t.insert_root k v
    simp only [hinsert, Option.get_some, hwf]

def longestPrefix (t : Tree β) (k : Bytes) : Option (Bytes × β) := t.root.longestPrefix k

def ofList (l : List (Bytes × β)) : Tree β := l.foldl (fun t e => t.insert e.1 e.2) new

theorem has_new (s : Bytes) (v : β) : ¬ (new : Tree β).root.Has s v := by
  rw [Node.has_iff]
  simp [new]

theorem sets_insert (t : Tree β) (k : Bytes) (v : β) : t.root.Sets (t.insert k v).root k v := by
  obtain ⟨n, hinsert, -, hsets⟩ := t.insert_root k v
  simpa only [insert, hinsert, Option.get_some] using hsets

theorem has_ofList (l : List (Bytes × β)) (k : Bytes) (v : β) :
    (ofList l).root.Has k v ↔ l.reverse.lookup k = some v := by
  induction l using List.reverseRecOn with
  | nil => exact iff_of_false (has_new k v) nofun
  | append_singleton l e ih =>
    obtain ⟨k', v'⟩ := e
    have hsnoc : ofList (l ++ [(k', v')]) = (ofList l).insert k' v' := by simp [ofList]
    rw [hsnoc, (ofList l).sets_insert k' v', ih, List.reverse_append, List.reverse_singleton,
      List.singleton_append, List.lookup_cons]
    by_cases hk : k = k'
    · simp [hk, eq_comm]
    · have hbeq : (k == k') = false := by simpa using hk
      simp [hk, hbeq]

theorem longestPrefix_spec (t : Tree β) (key : Bytes) :
    t.root.Longest [] key none (t.longestPrefix key) :=
  Node.longestPrefixFrom_spec t.wellFormed (Nat.lt_succ_self _)

theorem longestPrefix_ofList (l : List (Bytes × β)) (key : Bytes) :
    (ofList l).longestPrefix key = PrefixMap.longestPrefix l.reverse key := by
  rcases (ofList l).longestPrefix_spec key with ⟨s, w, hs, hhas, hfound, hmax⟩ | ⟨hnone, hfound⟩
  · rw [hfound, List.nil_append, eq_comm, PrefixMap.longestPrefix_iff_lookup]
    exact ⟨(has_ofList l s w).mp hhas, hs, fun k v hk hpre => hmax k v hpre ((has_ofList l k v).mpr hk)⟩
  · rw [hfound]
    cases hl : PrefixMap.longestPrefix l.reverse key with
    | none => rfl
    | some e =>
      obtain ⟨hk, hpre, -⟩ := PrefixMap.longestPrefix_iff_lookup (k := e.1) (v := e.2) |>.mp hl
      exact absurd ((has_ofList l e.1 e.2).mpr hk) (hnone e.1 e.2 hpre)

/-- A tree finds the longest of the keys that were inserted and begin the key that is asked for,
with the value that was inserted last under it. -/
theorem longestPrefix_latest (l : List (Bytes × β)) (key k : Bytes) (v : β) :
    (ofList l).longestPrefix key = some (k, v) ↔ l.reverse.lookup k = some v ∧ k <+: key ∧
      ∀ e ∈ l, e.1 <+: key → e.1.length ≤ k.length := by
  rw [longestPrefix_ofList]
  constructor
  · intro h
    obtain ⟨-, hpre, hmax⟩ := PrefixMap.longestPrefix_eq_some h
    exact ⟨PrefixMap.lookup_of_longestPrefix h, hpre, fun e he => hmax e (List.mem_reverse.mpr he)⟩
  · rintro ⟨hk, hpre, hmax⟩
    refine PrefixMap.longestPrefix_iff_lookup.mpr ⟨hk, hpre, fun k' v' hk' => ?_⟩
    exact hmax (k', v') (List.mem_reverse.mp (PrefixMap.mem_of_lookup hk'))

end Tree

end DnscryptProxy.Radix
