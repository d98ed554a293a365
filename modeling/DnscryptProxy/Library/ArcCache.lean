import Mathlib.Data.List.Basic
import Mathlib.Data.List.Nodup
import Mathlib.Data.Nat.Basic

/-! An adaptive replacement cache: two bounded lists of live entries, one for keys
seen once and one for keys seen again, and two lists of the keys lately dropped
from them, which steer how the space is shared. All that its users rely on is
said by `holds_of_get`, `holds_get` and `holds_add`: a cache may forget, but it
never invents an entry.

`Sound` is how much it holds: no key twice, and one entry more than its size at
most. -/

namespace DnscryptProxy.Library

/-- A bounded list of entries, the most recently used one first. -/
structure LRU (K V : Type) where
  size : Nat
  entries : List (K × V)
  deriving DecidableEq

namespace LRU

variable {K V : Type} [DecidableEq K]

def peek (c : LRU K V) (k : K) : Option V := (c.entries.find? fun e => e.1 = k).map (·.2)

def contains (c : LRU K V) (k : K) : Bool := c.entries.any fun e => e.1 = k

def len (c : LRU K V) : Nat := c.entries.length

def remove (c : LRU K V) (k : K) : LRU K V :=
  { c with entries := c.entries.filter fun e => e.1 ≠ k }

/-- The oldest key and the list without it. -/
def removeOldest (c : LRU K V) : Option K × LRU K V :=
  (c.entries.getLast?.map (·.1), { c with entries := c.entries.dropLast })

def add (c : LRU K V) (k : K) (v : V) : LRU K V :=
  if c.contains k then { c with entries := (k, v) :: (c.remove k).entries }
  else
    let c : LRU K V := { c with entries := (k, v) :: c.entries }
    if c.entries.length > c.size then c.removeOldest.2 else c

end LRU

structure ArcCache (K V : Type) where
  size : Nat
  p : Nat
  t1 : LRU K V
  b1 : LRU K Unit
  t2 : LRU K V
  b2 : LRU K Unit
  deriving DecidableEq

namespace ArcCache

variable {K V : Type} [DecidableEq K]

/-- `none` unless the size is positive. -/
def new (size : Int) : Option (ArcCache K V) :=
  if size ≤ 0 then none
  else some ⟨size.toNat, 0, ⟨size.toNat, []⟩, ⟨size.toNat, []⟩, ⟨size.toNat, []⟩, ⟨size.toNat, []⟩⟩

/-- A hit moves the key to the list of keys seen again. -/
def get (c : ArcCache K V) (k : K) : Option V × ArcCache K V :=
  match c.t1.peek k with
  | some v => (some v, { c with t1 := c.t1.remove k, t2 := c.t2.add k v })
  | none =>
    match c.t2.peek k with
    | some v => (some v, { c with t2 := c.t2.add k v })
    | none => (none, c)

def replace (c : ArcCache K V) (b2ContainsKey : Bool) : ArcCache K V :=
  if c.t1.len > 0 ∧ (c.t1.len > c.p ∨ (c.t1.len = c.p ∧ b2ContainsKey)) then
    let (k, t1) := c.t1.removeOldest
    { c with t1 := t1, b1 := match k with | some k => c.b1.add k () | none => c.b1 }
  else
    let (k, t2) := c.t2.removeOldest
    { c with t2 := t2, b2 := match k with | some k => c.b2.add k () | none => c.b2 }

/-- Make room when the live lists are full. -/
def makeRoom (c : ArcCache K V) (b2ContainsKey : Bool) : ArcCache K V :=
  if c.t1.len + c.t2.len ≥ c.size then c.replace b2ContainsKey else c

def withP (c : ArcCache K V) (p : Nat) : ArcCache K V := { c with p := p }

/-- Keep the lists of dropped keys within their share. -/
def trimGhosts (c : ArcCache K V) : ArcCache K V :=
  let c := if c.b1.len > c.size - c.p then { c with b1 := c.b1.removeOldest.2 } else c
  if c.b2.len > c.p then { c with b2 := c.b2.removeOldest.2 } else c

def add (c : ArcCache K V) (k : K) (v : V) : ArcCache K V :=
  if c.t1.contains k then { c with t1 := c.t1.remove k, t2 := c.t2.add k v }
  else if c.t2.contains k then { c with t2 := c.t2.add k v }
  else if c.b1.contains k then
    let delta := if c.b2.len > c.b1.len then c.b2.len / c.b1.len else 1
    let c := (c.withP (if c.p + delta ≥ c.size then c.size else c.p + delta)).makeRoom false
    { c with b1 := c.b1.remove k, t2 := c.t2.add k v }
  else if c.b2.contains k then
    let delta := if c.b1.len > c.b2.len then c.b1.len / c.b2.len else 1
    let c := (c.withP (if delta ≥ c.p then 0 else c.p - delta)).makeRoom true
    { c with b2 := c.b2.remove k, t2 := c.t2.add k v }
  else
    let c := (c.makeRoom false).trimGhosts
    { c with t1 := c.t1.add k v }

end ArcCache

/-! ## What a cache holds -/

namespace LRU

variable {K V : Type} [DecidableEq K]

def Holds (c : LRU K V) (k : K) (v : V) : Prop := (k, v) ∈ c.entries

variable {c : LRU K V} {k : K} {v : V}

theorem holds_of_peek (h : c.peek k = some v) : c.Holds k v := by
  obtain ⟨e, he, rfl⟩ := Option.map_eq_some_iff.mp h
  have hk : e.1 = k := by simpa using List.find?_some he
  exact hk ▸ List.mem_of_find?_eq_some he

theorem holds_remove {k' : K} (h : (c.remove k).Holds k' v) :
    c.Holds k' v := List.mem_of_mem_filter h

omit [DecidableEq K] in
theorem holds_removeOldest {c : LRU K V} {k : K} {v : V} (h : c.removeOldest.2.Holds k v) :
    c.Holds k v := (List.dropLast_subset _) h

theorem holds_add {k' : K} {v' : V} (h : (c.add k v).Holds k' v') :
    (k' = k ∧ v' = v) ∨ c.Holds k' v' := by
  have hmem : (k', v') ∈ (k, v) :: c.entries := by
    unfold add at h
    split at h
    · exact List.mem_cons.mpr ((List.mem_cons.mp h).imp_right holds_remove)
    · dsimp only at h
      split at h
      · exact holds_removeOldest h
      · exact h
  simpa [Holds] using hmem

end LRU

namespace ArcCache

variable {K V : Type} [DecidableEq K]

/-- One of the lists of live entries has this entry. -/
def Holds (c : ArcCache K V) (k : K) (v : V) : Prop := c.t1.Holds k v ∨ c.t2.Holds k v

omit [DecidableEq K] in
theorem not_holds_new {size : Int} {c : ArcCache K V} (h : new size = some c) (k : K) (v : V) :
    ¬ c.Holds k v := by
  unfold new at h
  split at h
  · cases h
  · cases h
    simp [Holds, LRU.Holds]

variable {c : ArcCache K V} {k : K} {v : V}

theorem holds_of_get (h : (c.get k).1 = some v) : c.Holds k v := by
  unfold get at h
  split at h
  · next hv =>
    cases h
    exact .inl (LRU.holds_of_peek hv)
  · split at h
    · next hv =>
      cases h
      exact .inr (LRU.holds_of_peek hv)
    · cases h

theorem holds_get {k' : K} (h : (c.get k).2.Holds k' v) : c.Holds k' v := by
  unfold get at h
  split at h
  · next hv =>
    rcases h with h | h
    · exact .inl (LRU.holds_remove h)
    · rcases LRU.holds_add h with ⟨rfl, rfl⟩ | h
      · exact .inl (LRU.holds_of_peek hv)
      · exact .inr h
  · split at h
    · next hv =>
      rcases h with h | h
      · exact .inl h
      · rcases LRU.holds_add h with ⟨rfl, rfl⟩ | h
        · exact .inr (LRU.holds_of_peek hv)
        · exact .inr h
    · exact h

theorem holds_makeRoom {b : Bool} (h : (c.makeRoom b).Holds k v) : c.Holds k v := by
  unfold makeRoom at h
  split at h
  · unfold replace at h
    split at h
    · exact h.imp_left LRU.holds_removeOldest
    · exact h.imp_right LRU.holds_removeOldest
  · exact h

omit [DecidableEq K] in
theorem holds_trimGhosts {c : ArcCache K V} {k : K} {v : V} (h : c.trimGhosts.Holds k v) :
    c.Holds k v := by
  unfold trimGhosts at h
  dsimp only at h
  split at h <;> split at h <;> exact h

theorem holds_add {k' : K} {v' : V} (h : (c.add k v).Holds k' v') :
    (k' = k ∧ v' = v) ∨ c.Holds k' v' := by
  -- every branch adds to one live list of a cache that holds no more than `c`
  have hadd : ∀ d : ArcCache K V, (∀ w, d.Holds k' w → c.Holds k' w) →
      d.t1.Holds k' v' ∨ (d.t2.add k v).Holds k' v' → (k' = k ∧ v' = v) ∨ c.Holds k' v' := by
    rintro d hd (h | h)
    · exact .inr (hd _ (.inl h))
    · exact (LRU.holds_add h).imp_right fun h => hd _ (.inr h)
  have hroom := fun p b => hadd ((c.withP p).makeRoom b)
    fun _ h => holds_makeRoom (c := c.withP p) h
  unfold add at h
  split at h
  · exact hadd { c with t1 := c.t1.remove k } (fun _ h => h.imp_left LRU.holds_remove) h
  · split at h
    · exact hadd c (fun _ h => h) h
    · split at h
      · exact hroom _ _ h
      · split at h
        · exact hroom _ _ h
        · rcases h with h | h
          · exact (LRU.holds_add h).imp_right fun h => holds_makeRoom (holds_trimGhosts (.inl h))
          · exact .inr (holds_makeRoom (holds_trimGhosts (.inr h)))

end ArcCache

/-! ## How much a cache holds -/

namespace LRU

variable {K V : Type} [DecidableEq K] {c : LRU K V} {n : Nat} {k k' : K} {v v' : V}

def keys (c : LRU K V) : List K := c.entries.map Prod.fst

theorem contains_iff : c.contains k = true ↔ k ∈ c.keys := by
  simp [contains, keys]

theorem mem_keys_of_peek (h : c.peek k = some v) : k ∈ c.keys :=
  List.mem_map_of_mem (f := Prod.fst) (holds_of_peek h)

theorem keys_remove : (c.remove k).keys = c.keys.filter (· ≠ k) := by
  simp [keys, remove, List.filter_map, Function.comp_def]

theorem mem_keys_remove : k' ∈ (c.remove k).keys ↔ k' ∈ c.keys ∧ k' ≠ k := by
  simp [keys_remove]

omit [DecidableEq K] in
theorem keys_removeOldest : c.removeOldest.2.keys = c.keys.dropLast := by
  simp [keys, removeOldest, List.map_dropLast]

theorem mem_keys_add (h : k' ∈ (c.add k v).keys) : k' = k ∨ k' ∈ c.keys := by
  obtain ⟨e, he, rfl⟩ := List.mem_map.mp h
  have hadd : (c.add k v).Holds e.1 e.2 := he
  exact (holds_add hadd).imp And.left (List.mem_map_of_mem (f := Prod.fst))

theorem eq_of_holds_add (h : (c.add k v).Holds k v') : v' = v := by
  have hmem : (k, v') ∈ (k, v) :: (c.remove k).entries := by
    unfold add at h
    split at h
    · exact h
    · next hk =>
      have hall : (c.remove k).entries = c.entries := by
        refine List.filter_eq_self.mpr fun e he => decide_eq_true fun heq => hk ?_
        exact contains_iff.mpr (heq ▸ List.mem_map_of_mem he)
      rw [hall]
      dsimp only at h
      split at h
      · exact holds_removeOldest h
      · exact h
  rcases List.mem_cons.mp hmem with heq | hmem
  · exact (Prod.mk.inj heq).2
  · exact absurd (List.mem_map_of_mem (f := Prod.fst) hmem) fun hkey => (mem_keys_remove.mp hkey).2 rfl

theorem not_holds_of_peek (h : c.peek k = none) : ¬c.Holds k v := by
  intro hholds
  rw [peek, Option.map_eq_none_iff, List.find?_eq_none] at h
  exact h _ hholds (by simp)

theorem holds_add_self (h : 0 < c.size) : (c.add k v).Holds k v := by
  unfold add
  split
  · exact List.mem_cons_self
  · dsimp only
    split
    · next hlen =>
      cases hentries : c.entries with
      | nil =>
        rw [hentries, List.length_singleton] at hlen
        omega
      | cons e es => simp [Holds, removeOldest]
    · exact List.mem_cons_self

/-- The keys are distinct, and there are no more than `n`. -/
structure Fits (c : LRU K V) (n : Nat) : Prop where
  size : c.size = n
  nodup : c.keys.Nodup
  len : c.len ≤ n

theorem len_remove_lt (h : c.contains k = true) : (c.remove k).len < c.len := by
  obtain ⟨e, he, hk⟩ := List.any_eq_true.mp h
  refine List.length_filter_lt_length_iff_exists.mpr ⟨e, he, ?_⟩
  simpa using hk

theorem len_remove_le : (c.remove k).len ≤ c.len := List.length_filter_le _ _

theorem len_add_le : (c.add k v).len ≤ c.len + 1 := by
  unfold add
  split
  · exact Nat.succ_le_succ len_remove_le
  · dsimp only
    split
    · exact (List.dropLast_sublist _).length_le
    · exact le_rfl

theorem len_add_of_contains (h : c.contains k = true) : (c.add k v).len ≤ c.len := by
  unfold add
  rw [if_pos h]
  exact len_remove_lt h

omit [DecidableEq K] in
theorem len_removeOldest : c.removeOldest.2.len = c.len - 1 := List.length_dropLast

theorem Fits.remove (h : c.Fits n) : (c.remove k).Fits n := by
  refine ⟨h.size, ?_, Nat.le_trans len_remove_le h.len⟩
  rw [keys_remove]
  exact h.nodup.filter _

omit [DecidableEq K] in
theorem Fits.removeOldest (h : c.Fits n) : c.removeOldest.2.Fits n := by
  refine ⟨h.size, ?_, ?_⟩
  · rw [keys_removeOldest]
    exact h.nodup.sublist (List.dropLast_sublist _)
  · rw [len_removeOldest]
    exact Nat.le_trans (Nat.sub_le _ _) h.len

theorem Fits.add (h : c.Fits n) : (c.add k v).Fits n := by
  unfold LRU.add
  split
  · next hk =>
    refine ⟨h.size, ?_, Nat.lt_of_lt_of_le (len_remove_lt hk) h.len⟩
    refine List.nodup_cons.mpr ⟨fun hmem => ?_, h.remove.nodup⟩
    exact (mem_keys_remove.mp hmem).2 rfl
  · next hk =>
    have hnodup : (k :: c.keys).Nodup := List.nodup_cons.mpr ⟨mt contains_iff.mpr hk, h.nodup⟩
    dsimp only
    split
    · refine ⟨h.size, ?_, ?_⟩
      · rw [keys_removeOldest]
        exact hnodup.sublist (List.dropLast_sublist _)
      · rw [len_removeOldest]
        exact h.len
    · next hlen =>
      exact ⟨h.size, hnodup, h.size ▸ Nat.le_of_not_lt hlen⟩

end LRU

namespace ArcCache

variable {K V : Type} [DecidableEq K] {c : ArcCache K V} {k : K} {v v' : V}

/-- What all operations keep. The lists of dropped keys play no part in it. -/
structure Sound (c : ArcCache K V) : Prop where
  p_le : c.p ≤ c.size
  t1 : c.t1.Fits c.size
  t2 : c.t2.Fits c.size
  apart : ∀ k ∈ c.t1.keys, k ∉ c.t2.keys
  total : c.t1.len + c.t2.len ≤ c.size + 1

omit [DecidableEq K] in
theorem sound_new {size : Int} (h : new size = some c) : c.Sound := by
  unfold new at h
  split at h
  · cases h
  · cases h
    have hfits : LRU.Fits (⟨size.toNat, []⟩ : LRU K V) size.toNat :=
      ⟨rfl, List.nodup_nil, Nat.zero_le _⟩
    exact ⟨Nat.zero_le _, hfits, hfits, nofun, Nat.zero_le _⟩

omit [DecidableEq K] in
theorem trimGhosts_live (c : ArcCache K V) :
    c.trimGhosts.t1 = c.t1 ∧ c.trimGhosts.t2 = c.t2 ∧ c.trimGhosts.size = c.size := by
  unfold trimGhosts
  dsimp only
  split <;> split <;> exact ⟨rfl, rfl, rfl⟩

namespace Sound

theorem addSecond (h : c.Sound) (hk : k ∉ c.t1.keys)
    (htotal : c.t1.len + (c.t2.add k v).len ≤ c.size + 1) : Sound { c with t2 := c.t2.add k v } := by
  refine ⟨h.p_le, h.t1, h.t2.add, fun k' hk' hmem => ?_, htotal⟩
  rcases LRU.mem_keys_add hmem with rfl | hmem
  · exact hk hk'
  · exact h.apart k' hk' hmem

theorem removeFirst (h : c.Sound) : Sound { c with t1 := c.t1.remove k } :=
  ⟨h.p_le, h.t1.remove, h.t2, fun k' hk' => h.apart k' (LRU.mem_keys_remove.mp hk').1,
    Nat.le_trans (Nat.add_le_add_right LRU.len_remove_le _) h.total⟩

theorem move (h : c.Sound) (hk : k ∈ c.t1.keys) :
    Sound { c with t1 := c.t1.remove k, t2 := c.t2.add k v } := by
  refine h.removeFirst.addSecond (fun hmem => (LRU.mem_keys_remove.mp hmem).2 rfl) ?_
  have hlt := LRU.len_remove_lt (LRU.contains_iff.mpr hk)
  have hle := LRU.len_add_le (c := c.t2) (k := k) (v := v)
  have htotal := h.total
  dsimp only
  omega

theorem renew (h : c.Sound) (hk : k ∈ c.t2.keys) : Sound { c with t2 := c.t2.add k v } := by
  refine h.addSecond (fun hmem => h.apart k hmem hk) ?_
  have hle := LRU.len_add_of_contains (v := v) (LRU.contains_iff.mpr hk)
  have htotal := h.total
  omega

theorem get (h : c.Sound) : (c.get k).2.Sound := by
  unfold ArcCache.get
  split
  · next hv => exact h.move (LRU.mem_keys_of_peek hv)
  · split
    · next hv => exact h.renew (LRU.mem_keys_of_peek hv)
    · exact h

theorem makeRoom (h : c.Sound) (b : Bool) :
    (c.makeRoom b).Sound ∧ (c.makeRoom b).t1.len + (c.makeRoom b).t2.len ≤ c.size ∧
      (c.makeRoom b).size = c.size ∧ (∀ k ∈ (c.makeRoom b).t1.keys, k ∈ c.t1.keys) ∧
      ∀ k ∈ (c.makeRoom b).t2.keys, k ∈ c.t2.keys := by
  have htotal := h.total
  unfold ArcCache.makeRoom
  split
  · unfold replace
    split
    · next hfirst =>
      have hlen := LRU.len_removeOldest (c := c.t1)
      have hkeys {k : K} (hk : k ∈ c.t1.removeOldest.2.keys) : k ∈ c.t1.keys := by
        rw [LRU.keys_removeOldest] at hk
        exact List.dropLast_subset _ hk
      refine ⟨⟨h.p_le, h.t1.removeOldest, h.t2, fun k hk => h.apart k (hkeys hk), ?_⟩, ?_, rfl,
        fun k hk => hkeys hk, fun k hk => hk⟩
      · dsimp only
        omega
      · dsimp only
        omega
    · next hfirst =>
      have hlen := LRU.len_removeOldest (c := c.t2)
      have hp := h.p_le
      have hkeys {k : K} (hk : k ∈ c.t2.removeOldest.2.keys) : k ∈ c.t2.keys := by
        rw [LRU.keys_removeOldest] at hk
        exact List.dropLast_subset _ hk
      refine ⟨⟨h.p_le, h.t1, h.t2.removeOldest, fun k hk hmem => h.apart k hk (hkeys hmem), ?_⟩, ?_,
        rfl, fun k hk => hk, fun k hk => hkeys hk⟩
      · dsimp only
        omega
      · dsimp only
        omega
  · exact ⟨h, by omega, rfl, fun k hk => hk, fun k hk => hk⟩

omit [DecidableEq K] in
theorem trimGhosts (h : c.Sound) : c.trimGhosts.Sound := by
  unfold ArcCache.trimGhosts
  dsimp only
  split <;> split <;> exact ⟨h.p_le, h.t1, h.t2, h.apart, h.total⟩

omit [DecidableEq K] in
theorem withP (h : c.Sound) {p : Nat} (hp : p ≤ c.size) : (c.withP p).Sound :=
  ⟨hp, h.t1, h.t2, h.apart, h.total⟩

theorem addBack (h : c.Sound) {p : Nat} (hp : p ≤ c.size) (b : Bool) (hk : k ∉ c.t1.keys)
    (b1 b2 : LRU K Unit) : Sound { (c.withP p).makeRoom b with
      b1 := b1, b2 := b2, t2 := ((c.withP p).makeRoom b).t2.add k v } := by
  obtain ⟨hsound, hlen, hsize, hkeys, -⟩ := (h.withP hp).makeRoom b
  have hle := LRU.len_add_le (c := ((c.withP p).makeRoom b).t2) (k := k) (v := v)
  have hadd := hsound.addSecond (v := v) (fun hmem => hk (hkeys k hmem)) (by
    rw [hsize]
    omega)
  exact ⟨hadd.p_le, hadd.t1, hadd.t2, hadd.apart, hadd.total⟩

theorem add (h : c.Sound) : (c.add k v).Sound := by
  unfold ArcCache.add
  split
  · next hk => exact h.move (LRU.contains_iff.mp hk)
  · next hk1 =>
    rw [LRU.contains_iff] at hk1
    split
    · next hk2 => exact h.renew (LRU.contains_iff.mp hk2)
    · next hk2 =>
      rw [LRU.contains_iff] at hk2
      split
      · dsimp only
        generalize (if c.b2.len > c.b1.len then c.b2.len / c.b1.len else 1) = delta
        refine h.addBack ?_ false hk1 _ _
        split <;> omega
      · split
        · dsimp only
          generalize (if c.b1.len > c.b2.len then c.b1.len / c.b2.len else 1) = delta
          have hp := h.p_le
          refine h.addBack ?_ true hk1 _ _
          split <;> omega
        · obtain ⟨hsound, hlen, hsize, -, hkeys⟩ := h.makeRoom false
          have hle := LRU.len_add_le (c := (c.makeRoom false).t1) (k := k) (v := v)
          obtain ⟨ht1, ht2, htsize⟩ := trimGhosts_live (c.makeRoom false)
          have htrim := hsound.trimGhosts
          refine ⟨htrim.p_le, htrim.t1.add, htrim.t2, ?_, ?_⟩
          · dsimp only
            rw [ht1, ht2]
            intro k' hk' hmem
            rcases LRU.mem_keys_add hk' with rfl | hk'
            · exact hk2 (hkeys k' hmem)
            · exact hsound.apart k' hk' hmem
          · dsimp only
            rw [ht1, ht2, htsize, hsize]
            omega

omit [DecidableEq K] in
theorem nodup (h : c.Sound) : ((c.t1.entries ++ c.t2.entries).map Prod.fst).Nodup := by
  rw [List.map_append, List.nodup_append']
  exact ⟨h.t1.nodup, h.t2.nodup, fun k hk hk' => h.apart k hk hk'⟩

end Sound

theorem mem_of_mem_makeRoom {b : Bool} (h : k ∈ (c.makeRoom b).t1.keys ∨ k ∈ (c.makeRoom b).t2.keys) :
    k ∈ c.t1.keys ∨ k ∈ c.t2.keys := by
  unfold makeRoom replace at h
  split at h
  · split at h
    · refine h.imp_left fun h => ?_
      rw [LRU.keys_removeOldest] at h
      exact List.dropLast_subset _ h
    · refine h.imp_right fun h => ?_
      rw [LRU.keys_removeOldest] at h
      exact List.dropLast_subset _ h
  · exact h

theorem eq_of_holds_add (h : (c.add k v).Holds k v') : v' = v := by
  have hkey {d : LRU K V} (hh : d.Holds k v') : k ∈ d.keys := List.mem_map_of_mem (f := Prod.fst) hh
  unfold add at h
  split at h
  · rcases h with h | h
    · exact absurd rfl (LRU.mem_keys_remove.mp (hkey h)).2
    · exact LRU.eq_of_holds_add h
  · next hk1 =>
    rw [LRU.contains_iff] at hk1
    split at h
    · exact h.elim (fun h => absurd (hkey h) hk1) LRU.eq_of_holds_add
    · next hk2 =>
      rw [LRU.contains_iff] at hk2
      have hroom {p : Nat} {b : Bool} : k ∉ ((c.withP p).makeRoom b).t1.keys := fun h =>
        (mem_of_mem_makeRoom (.inl h)).elim hk1 hk2
      split at h
      · exact h.elim (fun h => absurd (hkey h) hroom) LRU.eq_of_holds_add
      · split at h
        · exact h.elim (fun h => absurd (hkey h) hroom) LRU.eq_of_holds_add
        · refine h.elim LRU.eq_of_holds_add fun h => ?_
          have hmem := hkey h
          rw [(trimGhosts_live _).2.1] at hmem
          exact ((mem_of_mem_makeRoom (.inr hmem)).elim hk1 hk2).elim

/-! ## What a cache finds again -/

theorem size_makeRoom (b : Bool) :
    (c.makeRoom b).size = c.size ∧ (c.makeRoom b).t1.size = c.t1.size ∧
      (c.makeRoom b).t2.size = c.t2.size := by
  unfold makeRoom replace
  split
  · split <;> exact ⟨rfl, rfl, rfl⟩
  · exact ⟨rfl, rfl, rfl⟩

omit [DecidableEq K] in
theorem size_new {size : Int} (h : new size = some c) : 0 < size ∧ (c.size : Int) = size := by
  unfold new at h
  split at h
  · cases h
  · next hpos =>
    cases h
    dsimp only
    omega

theorem size_get : (c.get k).2.size = c.size := by
  unfold get
  split
  · rfl
  · split <;> rfl

theorem size_add : (c.add k v).size = c.size := by
  have hroom {p : Nat} (b : Bool) : ((c.withP p).makeRoom b).size = c.size := (size_makeRoom b).1
  unfold add
  split
  · rfl
  · split
    · rfl
    · split
      · exact hroom false
      · split
        · exact hroom true
        · exact (trimGhosts_live _).2.2.trans (size_makeRoom false).1

theorem holds_add_self (h1 : 0 < c.t1.size) (h2 : 0 < c.t2.size) : (c.add k v).Holds k v := by
  have hsize {p : Nat} (b : Bool) : ((c.withP p).makeRoom b).t2.size = c.t2.size :=
    (size_makeRoom b).2.2
  unfold add
  split
  · exact .inr (LRU.holds_add_self h2)
  · split
    · exact .inr (LRU.holds_add_self h2)
    · split
      · refine .inr (LRU.holds_add_self ?_)
        rw [hsize]
        exact h2
      · split
        · refine .inr (LRU.holds_add_self ?_)
          rw [hsize]
          exact h2
        · refine .inl (LRU.holds_add_self ?_)
          have hfirst : (c.makeRoom false).t1.size = c.t1.size := (size_makeRoom false).2.1
          rw [(trimGhosts_live _).1, hfirst]
          exact h1

theorem get_ne_none (h : c.Holds k v) : (c.get k).1 ≠ none := by
  unfold get
  split
  · simp
  · next hfirst =>
    split
    · simp
    · next hsecond =>
      exact absurd h (not_or.mpr ⟨LRU.not_holds_of_peek hfirst, LRU.not_holds_of_peek hsecond⟩)

theorem get_add (h : c.Sound) (hsize : 0 < c.size) : ((c.add k v).get k).1 = some v := by
  have hholds : (c.add k v).Holds k v :=
    holds_add_self (h.t1.size.symm ▸ hsize) (h.t2.size.symm ▸ hsize)
  cases hget : ((c.add k v).get k).1 with
  | none => exact absurd hget (get_ne_none hholds)
  | some v' => rw [eq_of_holds_add (holds_of_get hget)]

end ArcCache

end DnscryptProxy.Library
