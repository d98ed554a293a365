import Mathlib.Data.List.Basic
import Mathlib.Data.List.Infix

/-! Writers that append to a buffer and keep a table of what stands in it, and readers that go from
offset to offset.

* `Local`: what stands in the buffer already matters to a writer by its length only. A length that
  is filled in afterwards could then as well have been there from the start.
* `Spares`: the first bytes may be changed afterwards.
* `Codes`: a writer that succeeds where there is room, and a reader that gets back what it wrote. -/

namespace DnscryptProxy.Library

/-- What was written so far, and what is remembered of it. -/
structure Buffer (τ : Type) where
  msg : List UInt8
  table : τ
  deriving DecidableEq

namespace Buffer

variable {τ ε α β : Type} {b b' : Buffer τ} {bs : List UInt8}

def write (b : Buffer τ) (bs : List UInt8) : Buffer τ := { b with msg := b.msg ++ bs }

@[simp] theorem write_msg : (b.write bs).msg = b.msg ++ bs := rfl

/-- Bytes that replace those that were written at an offset. -/
def patch (b : Buffer τ) (off : Nat) (bs : List UInt8) : Buffer τ :=
  { b with msg := b.msg.take off ++ bs ++ b.msg.drop (off + bs.length) }

theorem patch_write {before old out : List UInt8} {t : τ} (h : old.length = bs.length) :
    patch ⟨before ++ old ++ out, t⟩ before.length bs = ⟨before ++ bs ++ out, t⟩ := by
  have hdrop : (before ++ (old ++ out)).drop (before.length + bs.length) = out := by
    rw [← List.drop_drop, List.drop_left' rfl, ← h, List.drop_left' rfl]
  simp [patch, hdrop]

/-! ## Writers -/

abbrev Writer (τ ε : Type) := Buffer τ → Except ε (Buffer τ)

/-- At such a length and with such a table, the writer appends `out` to whatever stands there. -/
def Appends (w : Writer τ ε) (b : Buffer τ) (out : List UInt8) (t : τ) : Prop :=
  ∀ before : List UInt8, before.length = b.msg.length → w ⟨before, b.table⟩ = .ok ⟨before ++ out, t⟩

/-- The writer appends, and looks at nothing in front of that. -/
def Local (w : Writer τ ε) : Prop :=
  ∀ ⦃b b' : Buffer τ⦄, w b = .ok b' → ∃ out, b'.msg = b.msg ++ out ∧ Appends w b out b'.table

variable {w w' : Writer τ ε}

theorem Local.isPrefix (hw : Local w) (h : w b = .ok b') : b.msg <+: b'.msg := by
  obtain ⟨out, hout, -⟩ := hw h
  exact ⟨out, hout.symm⟩

theorem Local.length_le (hw : Local w) (h : w b = .ok b') : b.msg.length ≤ b'.msg.length :=
  (hw.isPrefix h).length_le

theorem local_ok : Local (fun b : Buffer τ => (.ok b : Except ε (Buffer τ))) := by
  intro b b' h
  cases h
  exact ⟨[], by simp, fun before _ => by simp⟩

theorem local_error (e : ε) : Local fun _ : Buffer τ => .error e := by
  intro b b' h
  cases h

theorem local_if (p : Nat → Prop) [DecidablePred p] (hw : Local w) (hw' : Local w') :
    Local fun b => if p b.msg.length then w b else w' b := by
  intro b b' h
  dsimp only at h
  by_cases hp : p b.msg.length
  · rw [if_pos hp] at h
    obtain ⟨out, hout, hbefore⟩ := hw h
    refine ⟨out, hout, fun before hlen => ?_⟩
    dsimp only
    rw [hlen, if_pos hp]
    exact hbefore before hlen
  · rw [if_neg hp] at h
    obtain ⟨out, hout, hbefore⟩ := hw' h
    refine ⟨out, hout, fun before hlen => ?_⟩
    dsimp only
    rw [hlen, if_neg hp]
    exact hbefore before hlen

theorem local_write (bs : List UInt8) : Local fun b : Buffer τ => (.ok (b.write bs) : Except ε _) := by
  intro b b' h
  cases h
  exact ⟨bs, rfl, fun before _ => rfl⟩

theorem local_append (f : Nat → Except ε (List UInt8)) :
    Local fun b : Buffer τ => (f b.msg.length).map b.write := by
  intro b b' h
  dsimp only at h
  cases hf : f b.msg.length with
  | error e =>
    rw [hf] at h
    cases h
  | ok out =>
    rw [hf] at h
    cases h
    refine ⟨out, rfl, fun before hlen => ?_⟩
    dsimp only
    rw [hlen, hf]
    rfl

theorem Local.bind (hw : Local w) (hw' : Local w') : Local fun b => w b >>= w' := by
  intro b b' h
  dsimp only at h
  cases hmid : w b with
  | error e =>
    rw [hmid] at h
    cases h
  | ok mid =>
    rw [hmid] at h
    obtain ⟨out, hout, hbefore⟩ := hw hmid
    obtain ⟨out', hout', hbefore'⟩ := hw' (b := mid) h
    refine ⟨out ++ out', by rw [hout', hout, List.append_assoc], fun before hlen => ?_⟩
    dsimp only
    rw [hbefore before hlen]
    change w' _ = _
    rw [hbefore' (before ++ out) (by simp [hout, hlen]), List.append_assoc]

theorem local_foldlM {w : α → Writer τ ε} (h : ∀ a, Local (w a)) (l : List α) :
    Local fun b => l.foldlM (fun b a => w a b) b := by
  induction l with
  | nil => exact local_ok
  | cons a l ih => exact (h a).bind ih

/-! ## The front of a buffer -/

theorem patch_append (head rest : List UInt8) (t : τ) (off : Nat) :
    patch ⟨head ++ rest, t⟩ (head.length + off) bs = ⟨head ++ (patch ⟨rest, t⟩ off bs).msg, t⟩ := by
  simp [patch, List.take_length_add_append, Nat.add_assoc, List.drop_length_add_append]

theorem length_patch {off : Nat} (h : off + bs.length ≤ b.msg.length) :
    (b.patch off bs).msg.length = b.msg.length := by
  simp only [patch, List.length_append, List.length_take, List.length_drop]
  omega

/-- With `m` bytes behind them, the writer neither reads nor changes the first `n` bytes. -/
def Spares (n m : Nat) (w : Writer τ ε) : Prop :=
  ∀ ⦃head head' rest : List UInt8⦄ ⦃t : τ⦄ ⦃b' : Buffer τ⦄, head.length = n → head'.length = n →
    m ≤ rest.length → w ⟨head ++ rest, t⟩ = .ok b' →
    ∃ rest', m ≤ rest'.length ∧ b' = ⟨head ++ rest', b'.table⟩ ∧
      w ⟨head' ++ rest, t⟩ = .ok ⟨head' ++ rest', b'.table⟩

theorem Local.spares (hw : Local w) (n m : Nat) : Spares n m w := by
  intro head head' rest t b' hhead hhead' hrest h
  obtain ⟨out, hout, happends⟩ := hw h
  rw [List.append_assoc] at hout
  have hlen : (head' ++ rest).length = (head ++ rest).length := by simp [hhead, hhead']
  have hother := happends (head' ++ rest) hlen
  rw [List.append_assoc] at hother
  exact ⟨rest ++ out, by rw [List.length_append]; omega, by rw [← hout], hother⟩

theorem Spares.bind {n m : Nat} (hw : Spares n m w) (hw' : Spares n m w') :
    Spares n m fun b => w b >>= w' := by
  intro head head' rest t b' hhead hhead' hrest h
  dsimp only at h
  cases hmid : w ⟨head ++ rest, t⟩ with
  | error e =>
    rw [hmid] at h
    cases h
  | ok mid =>
    obtain ⟨rest₁, hrest₁, hb₁, hother⟩ := hw hhead hhead' hrest hmid
    rw [hmid, hb₁] at h
    obtain ⟨rest₂, hrest₂, hb₂, hother'⟩ := hw' hhead hhead' hrest₁ h
    refine ⟨rest₂, hrest₂, hb₂, ?_⟩
    dsimp only
    rw [hother]
    exact hother'

theorem spares_foldlM {n m : Nat} {w : α → Writer τ ε} (h : ∀ a, Spares n m (w a)) (l : List α) :
    Spares n m fun b => l.foldlM (fun b a => w a b) b := by
  induction l with
  | nil => exact local_ok.spares n m
  | cons a l ih => exact (h a).bind ih

/-! ## Readers -/

abbrev Reader (ε α : Type) := List UInt8 → Nat → Except ε (α × Nat)

def Codes (Inv : Buffer τ → Prop) (size : Nat) (w : Writer τ ε) (r : Reader ε α) (a : α)
    (lo hi : Nat) : Prop :=
  ∀ b, Inv b → b.msg.length + hi < size → ∃ out t, Appends w b out t ∧ Inv ⟨b.msg ++ out, t⟩ ∧
    lo ≤ out.length ∧ out.length ≤ hi ∧
    ∀ more, r (b.msg ++ out ++ more) b.msg.length = .ok (a, (b.msg ++ out).length)

/-- Items as long as the offset increases, at most so many. -/
def readItems (r : Reader ε α) (msg : List UInt8) : (count off : Nat) → Except ε (List α × Nat)
  | 0, off => .ok ([], off)
  | count + 1, off => do
    let (a, next) ← r msg off
    if next = off then return ([], off)
    else
      let (l, stop) ← readItems r msg count next
      return (a :: l, stop)

/-- The sum of the lengths. -/
def total (len : α → Nat) : List α → Nat
  | [] => 0
  | a :: l => len a + total len l

section Codes

variable {Inv : Buffer τ → Prop} {size lo lo' hi hi' : Nat} {r : Reader ε α} {r' : Reader ε β} {a : α}
  {a' : β} {out out' : List UInt8} {t t' : τ}

theorem Appends.ok (h : Appends w b out t) : w b = .ok ⟨b.msg ++ out, t⟩ := h b.msg rfl

theorem Appends.of_length {before before' : List UInt8} (h : Appends w ⟨before, t⟩ out t')
    (hlen : before.length = before'.length) : Appends w ⟨before', t⟩ out t' :=
  fun other hother => h other (hother.trans hlen.symm)

theorem Appends.unique (h : Appends w b out t) (h' : Appends w b out' t') : out = out' ∧ t = t' := by
  have hsame := h.ok.symm.trans h'.ok
  simpa using hsame

theorem Appends.bind (h : Appends w b out t) (h' : Appends w' ⟨b.msg ++ out, t⟩ out' t') :
    Appends (fun b => w b >>= w') b (out ++ out') t' := by
  intro before hlen
  dsimp only
  rw [h before hlen]
  change w' _ = _
  rw [h' (before ++ out) (by simp [hlen]), List.append_assoc]

theorem Codes.ofLocal (hw : Local w)
    (h : ∀ b, Inv b → b.msg.length + hi < size → ∃ b', w b = .ok b' ∧ Inv b' ∧
      b.msg.length + lo ≤ b'.msg.length ∧ b'.msg.length ≤ b.msg.length + hi ∧
      ∀ more, r (b'.msg ++ more) b.msg.length = .ok (a, b'.msg.length)) :
    Codes Inv size w r a lo hi := by
  intro b hinv hroom
  obtain ⟨b', hok, hinv', hlo, hhi, hread⟩ := h b hinv hroom
  obtain ⟨out, hout, happends⟩ := hw hok
  have hb' : ⟨b.msg ++ out, b'.table⟩ = b' := by rw [← hout]
  rw [hout, List.length_append] at hlo hhi
  refine ⟨out, b'.table, happends, hb'.symm ▸ hinv', by omega, by omega, ?_⟩
  rw [← hout]
  exact hread

theorem Codes.seq (h : Codes Inv size w r a lo hi) (h' : Codes Inv size w' r' a' lo' hi') (hinv : Inv b)
    (hroom : b.msg.length + (hi + hi') < size) :
    ∃ out out' t, Appends (fun b => w b >>= w') b (out ++ out') t ∧ Inv ⟨b.msg ++ (out ++ out'), t⟩ ∧
      lo ≤ out.length ∧ lo' ≤ out'.length ∧ (out ++ out').length ≤ hi + hi' ∧
      ∀ more, r (b.msg ++ (out ++ out') ++ more) b.msg.length = .ok (a, (b.msg ++ out).length) ∧
        r' (b.msg ++ (out ++ out') ++ more) (b.msg ++ out).length =
          .ok (a', (b.msg ++ (out ++ out')).length) := by
  obtain ⟨out, t, happends, hinvMid, hlo, hlen, hread⟩ := h b hinv (by omega)
  have hroom' : (b.msg ++ out).length + hi' < size := by
    rw [List.length_append]
    omega
  obtain ⟨out', t', happends', hinv', hlo', hlen', hread'⟩ := h' ⟨b.msg ++ out, t⟩ hinvMid hroom'
  rw [List.append_assoc] at hinv' hread'
  refine ⟨out, out', t', happends.bind happends', hinv', hlo, hlo', by rw [List.length_append]; omega,
    fun more => ⟨?_, hread' more⟩⟩
  have hfirst := hread (out' ++ more)
  rw [← List.append_assoc, List.append_assoc b.msg] at hfirst
  exact hfirst

theorem Codes.items {w : α → Writer τ ε} {len : α → Nat} {l : List α}
    (h : ∀ a ∈ l, Codes Inv size (w a) r a 1 (len a)) :
    Codes Inv size (fun b => l.foldlM (fun b a => w a b) b) (fun msg => readItems r msg l.length) l
      l.length (total len l) := by
  induction l with
  | nil =>
    intro b hinv _
    refine ⟨[], b.table, fun before _ => by simp [pure, Except.pure], ?_, le_rfl, le_rfl, fun more => ?_⟩
    · rw [List.append_nil]
      exact hinv
    · rw [List.append_nil]
      rfl
  | cons a l ih =>
    obtain ⟨ha, hl⟩ := List.forall_mem_cons.mp h
    intro b hinv hroom
    obtain ⟨out, out', t, happends, hinv', hlo, hlo', hhi, hread⟩ := ha.seq (ih hl) hinv hroom
    refine ⟨out ++ out', t, happends, hinv', ?_, hhi, fun more => ?_⟩
    · rw [List.length_append, List.length_cons]
      omega
    obtain ⟨hfirst, hrest⟩ := hread more
    have hne : (b.msg ++ out).length ≠ b.msg.length := by
      rw [List.length_append]
      omega
    simp only [List.length_cons, readItems, hfirst, bind, Except.bind]
    rw [if_neg hne, hrest]
    rfl

end Codes

end Buffer

end DnscryptProxy.Library
