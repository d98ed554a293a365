import DnscryptProxy.Basic
import DnscryptProxy.Library.Incremental

/-! The framing of messages over TCP: `ReadPrefixed` and `PrefixWithSize` of `common.go`.
What `ReadPrefixed` returns is a function of the bytes that have arrived, `framed`; the
loop of the source is the reader of that decoder, with a buffer for the longest packet
and its length. -/

namespace DnscryptProxy

open Library

/-- What the bytes received so far say of the packet. -/
def framed : Bytes → Option (Except GoError Bytes)
  | hi :: lo :: body =>
    let packetLength := uint16 hi lo
    if packetLength > maxDNSPacketSize - 1 then some (.error (.plain "Packet too large"))
    else if packetLength < minDNSPacketSize then some (.error (.plain "Packet too short"))
    else if packetLength ≤ body.length then some (.ok (body.take packetLength))
    else none
  | _ => none

/-- `2 + MaxDNSPacketSize`, the size of the buffer. -/
def readBufferSize : Nat := 2 + maxDNSPacketSize

theorem readPrefixedFrom_cons (buf chunk : Bytes) (reads : List (Except GoError Bytes)) :
    readPrefixedFrom buf (.ok chunk :: reads) =
      (framed (received readBufferSize buf chunk)).getD
        (readPrefixedFrom (received readBufferSize buf chunk) reads) := by
  unfold received readBufferSize
  rw [readPrefixedFrom]
  generalize buf ++ chunk.take (2 + maxDNSPacketSize - buf.length) = buf
  match buf with
  | [] => rfl
  | [_] => rfl
  | hi :: lo :: body =>
    simp only [framed]
    split
    · rfl
    · split
      · rfl
      · split <;> rfl

theorem readPrefixedFrom_eq (buf : Bytes) (reads : List (Except GoError Bytes)) :
    readPrefixedFrom buf reads =
      readLoop framed readBufferSize (.error (.net "i/o timeout" true)) .error buf reads := by
  induction reads generalizing buf with
  | nil => rfl
  | cons read reads ih =>
    cases read with
    | error e => rfl
    | ok chunk => rw [readPrefixedFrom_cons, readLoop, ih]

theorem framed_eq_none {input : Bytes} (h : framed input = none) :
    input.length < 2 ∨ ∃ hi lo body, input = hi :: lo :: body ∧
      uint16 hi lo ≤ maxDNSPacketSize - 1 ∧ body.length < uint16 hi lo := by
  match input with
  | [] => exact .inl (by decide)
  | [_] => exact .inl (by simp)
  | hi :: lo :: body =>
    refine .inr ⟨hi, lo, body, rfl, ?_⟩
    simp only [framed] at h
    split at h
    · cases h
    · split at h
      · cases h
      · split at h
        · cases h
        · omega

theorem framed_settlesWithin : SettlesWithin framed readBufferSize := by
  intro input h
  unfold readBufferSize
  rcases framed_eq_none h with hshort | ⟨hi, lo, body, rfl, hmax, hbody⟩
  · omega
  · simp only [List.length_cons]
    omega

theorem framed_steady : Steady framed := by
  intro input more r h
  match input with
  | [] => cases h
  | [_] => cases h
  | hi :: lo :: body =>
    simp only [framed, List.cons_append] at h ⊢
    split at h
    · next hlarge => rw [if_pos hlarge, h]
    · next hlarge =>
      rw [if_neg hlarge]
      split at h
      · next hshort => rw [if_pos hshort, h]
      · next hshort =>
        rw [if_neg hshort]
        split at h
        · next harrived =>
          have hmore : uint16 hi lo ≤ (body ++ more).length := by
            rw [List.length_append]
            omega
          rw [if_pos hmore, List.take_append_of_le_length harrived, h]
        · cases h

theorem readPrefixed_chunks (chunks : List Bytes) (rest : List (Except GoError Bytes)) :
    readPrefixed (chunks.map .ok ++ rest) =
      (framed chunks.flatten).getD (readPrefixedFrom chunks.flatten rest) := by
  rw [readPrefixed, readPrefixedFrom_eq, readPrefixedFrom_eq,
    readLoop_split framed_steady framed_settlesWithin chunks rfl, List.nil_append]

theorem framed_prefixWithSize {packet : Bytes} (hmin : minDNSPacketSize ≤ packet.length)
    (hmax : packet.length ≤ maxDNSPacketSize - 1) (more : Bytes) :
    ∃ bytes, prefixWithSize packet = .ok bytes ∧ framed (bytes ++ more) = some (.ok packet) := by
  unfold maxDNSPacketSize at hmax
  refine ⟨putUint16 packet.length ++ packet, ?_, ?_⟩
  · rw [prefixWithSize, if_neg (by omega)]
  · simp only [putUint16, List.cons_append, List.nil_append, framed]
    rw [uint16_putUint16 _ (by omega), if_neg (by unfold maxDNSPacketSize; omega),
      if_neg (by omega), if_pos (by simp), List.take_left' rfl]

/-- **`ReadPrefixed` depends on the stream only.** Whatever reads the stream arrives in
and whatever the connection does after them (`rest`): the result is an error once the
length is out of bounds, and the packet once it has arrived; before that it is what the
other reads make of it. No read is made into a full buffer, and with reads that deliver
something the loop ends. -/
theorem readPrefixed_stream (chunks : List Bytes) (rest : List (Except GoError Bytes)) :
    (∀ hi lo body, chunks.flatten = hi :: lo :: body →
      (uint16 hi lo > maxDNSPacketSize - 1 →
        readPrefixed (chunks.map .ok ++ rest) = .error (.plain "Packet too large")) ∧
      (uint16 hi lo < minDNSPacketSize →
        readPrefixed (chunks.map .ok ++ rest) = .error (.plain "Packet too short")) ∧
      (minDNSPacketSize ≤ uint16 hi lo → uint16 hi lo ≤ maxDNSPacketSize - 1 →
        uint16 hi lo ≤ body.length →
        readPrefixed (chunks.map .ok ++ rest) = .ok (body.take (uint16 hi lo)))) ∧
    (∀ chunks' : List Bytes, chunks'.flatten = chunks.flatten →
      readPrefixed (chunks'.map .ok ++ rest) = readPrefixed (chunks.map .ok ++ rest)) ∧
    (∀ room ∈ rooms framed readBufferSize [] (chunks.map .ok ++ rest), 0 < room) ∧
    ((∀ chunk, .ok chunk ∈ chunks.map Except.ok ++ rest → chunk ≠ []) →
      (rooms framed readBufferSize [] (chunks.map .ok ++ rest)).length ≤ readBufferSize) ∧
    (∀ packet : Bytes, minDNSPacketSize ≤ packet.length → packet.length ≤ maxDNSPacketSize - 1 →
      ∃ bytes, prefixWithSize packet = .ok bytes ∧
        ∀ more, chunks.flatten = bytes ++ more →
          readPrefixed (chunks.map .ok ++ rest) = .ok packet) := by
  refine ⟨?_, ?_, rooms_pos framed_settlesWithin rfl,
    rooms_length_le framed_settlesWithin rfl, ?_⟩
  · intro hi lo body hstream
    rw [readPrefixed_chunks, hstream]
    refine ⟨?_, ?_, ?_⟩
    · intro hlarge
      simp [framed, hlarge]
    · intro hshort
      have hlarge : ¬ uint16 hi lo > maxDNSPacketSize - 1 := by
        unfold minDNSPacketSize at hshort
        unfold maxDNSPacketSize
        omega
      simp [framed, hlarge, hshort]
    · intro hmin hmax harrived
      simp [framed, Nat.not_lt.mpr hmin, Nat.not_lt.mpr hmax, harrived]
  · intro chunks' heq
    rw [readPrefixed_chunks, readPrefixed_chunks, heq]
  · intro packet hmin hmax
    obtain ⟨bytes, hbytes, -⟩ := framed_prefixWithSize hmin hmax []
    refine ⟨bytes, hbytes, fun more hstream => ?_⟩
    obtain ⟨bytes', hbytes', hframed⟩ := framed_prefixWithSize hmin hmax more
    cases hbytes.symm.trans hbytes'
    rw [readPrefixed_chunks, hstream, hframed]
    rfl

end DnscryptProxy
