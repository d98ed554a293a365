import Mathlib.Data.List.Basic
import Mathlib.Tactic.Common

/-! Readers that decode as the input arrives. A decoder is shown all the input so far,
and settles on a result or waits for more; `readLoop` collects reads in a buffer of
limited capacity until the decoder settles.

* `readLoop_split`: how the input is cut into reads does not matter, for a decoder that
  is steady and settles by the time the buffer is full.
* `rooms_pos` and `rooms_length_le`: such a loop never reads into a full buffer, and it
  ends. -/

namespace DnscryptProxy.Library

variable {α β ε : Type}

/-- More input does not change a result. -/
def Steady (decode : List α → Option β) : Prop :=
  ∀ input more r, decode input = some r → decode (input ++ more) = some r

/-- Input that fills the buffer is always enough. -/
def SettlesWithin (decode : List α → Option β) (capacity : Nat) : Prop :=
  ∀ input, decode input = none → input.length < capacity

section Loop

variable (decode : List α → Option β) (capacity : Nat)

/-- The buffer after a read, which delivers no more than there is room for. -/
def received (buf chunk : List α) : List α := buf ++ chunk.take (capacity - buf.length)

/-- Read until the decoder settles, or a read fails, or nothing more comes. -/
def readLoop (nothing : β) (failed : ε → β) (buf : List α) : List (Except ε (List α)) → β
  | [] => nothing
  | .error e :: _ => failed e
  | .ok chunk :: reads =>
    (decode (received capacity buf chunk)).getD
      (readLoop nothing failed (received capacity buf chunk) reads)

/-- The room in the buffer at each read that the loop makes. -/
def rooms (buf : List α) : List (Except ε (List α)) → List Nat
  | [] => [capacity - buf.length]
  | .error _ :: _ => [capacity - buf.length]
  | .ok chunk :: reads =>
    (capacity - buf.length) ::
      if (decode (received capacity buf chunk)).isSome then []
      else rooms (received capacity buf chunk) reads

variable {decode capacity} {nothing : β} {failed : ε → β} {buf chunk : List α}
  {reads : List (Except ε (List α))}

theorem received_of_none (hcap : SettlesWithin decode capacity)
    (h : decode (received capacity buf chunk) = none) :
    received capacity buf chunk = buf ++ chunk := by
  have hlen := hcap _ h
  simp only [received, List.length_append, List.length_take] at hlen
  rw [received, List.take_of_length_le (by omega)]

theorem received_prefix (capacity : Nat) (buf chunk : List α) :
    ∃ more, buf ++ chunk = received capacity buf chunk ++ more :=
  ⟨chunk.drop (capacity - buf.length), by simp [received]⟩

theorem readLoop_split (hs : Steady decode) (hcap : SettlesWithin decode capacity)
    (chunks : List (List α)) (hbuf : decode buf = none) :
    readLoop decode capacity nothing failed buf (chunks.map .ok ++ reads) =
      (decode (buf ++ chunks.flatten)).getD
        (readLoop decode capacity nothing failed (buf ++ chunks.flatten) reads) := by
  induction chunks generalizing buf with
  | nil => simp [hbuf]
  | cons chunk chunks ih =>
    rw [List.map_cons, List.cons_append, readLoop, List.flatten_cons, ← List.append_assoc]
    cases hd : decode (received capacity buf chunk) with
    | none =>
      have hwhole := received_of_none hcap hd
      rw [hwhole] at hd ⊢
      exact ih hd
    | some r =>
      obtain ⟨more, hmore⟩ := received_prefix capacity buf chunk
      have hfinal : decode (buf ++ chunk ++ chunks.flatten) = some r := by
        rw [hmore, List.append_assoc]
        exact hs _ _ _ hd
      rw [hfinal]
      rfl

theorem rooms_pos (hcap : SettlesWithin decode capacity) (hbuf : decode buf = none) :
    ∀ room ∈ rooms decode capacity buf reads, 0 < room := by
  have hroom : 0 < capacity - buf.length := Nat.sub_pos_of_lt (hcap _ hbuf)
  induction reads generalizing buf with
  | nil => simpa [rooms] using hroom
  | cons read reads ih =>
    cases read with
    | error e => simpa [rooms] using hroom
    | ok chunk =>
      intro room hmem
      rw [rooms, List.mem_cons] at hmem
      rcases hmem with rfl | hmem
      · exact hroom
      · split at hmem
        · cases hmem
        · next hd =>
          have hd := Option.not_isSome_iff_eq_none.mp hd
          exact ih hd (Nat.sub_pos_of_lt (hcap _ hd)) room hmem

theorem rooms_length_le (hcap : SettlesWithin decode capacity) (hbuf : decode buf = none)
    (hne : ∀ chunk, .ok chunk ∈ reads → chunk ≠ []) :
    (rooms decode capacity buf reads).length ≤ capacity - buf.length := by
  induction reads generalizing buf with
  | nil =>
    have hlt := hcap _ hbuf
    simp only [rooms, List.length_singleton]
    omega
  | cons read reads ih =>
    have hlt := hcap _ hbuf
    cases read with
    | error e =>
      simp only [rooms, List.length_singleton]
      omega
    | ok chunk =>
      rw [rooms, List.length_cons]
      split
      · simp only [List.length_nil]
        omega
      · next hd =>
        have hd := Option.not_isSome_iff_eq_none.mp hd
        have hrest := ih hd fun c hc => hne c (List.mem_cons_of_mem _ hc)
        have hpos : 0 < chunk.length := List.length_pos_iff.mpr (hne chunk List.mem_cons_self)
        have hlen : (received capacity buf chunk).length = buf.length + chunk.length := by
          rw [received_of_none hcap hd, List.length_append]
        have hlt' := hcap _ hd
        omega

end Loop

end DnscryptProxy.Library
