import DnscryptProxy.Phases.Call

/-! The datagrams of `exchangeWithUDPServer`: what becomes of the outcomes of its reads,
on which the caller decides whether to send the query again over TCP. -/

namespace DnscryptProxy

/-- The outcomes of the reads that are made. The query is sent a second time only after
a first read that failed. -/
def UDPConn.reads (conn : UDPConn) : List (Except GoError Bytes) :=
  match conn.dial, conn.setDeadline, conn.first.write with
  | none, none, none =>
    match conn.first.read, conn.second.write with
    | .ok reply, _ => [.ok reply]
    | .error e, some _ => [.error e]
    | .error e, none => [.error e, conn.second.read]
  | _, _, _ => []

/-- What `Decrypt` says of a buffer that nothing was read into. -/
def invalidMessage : GoError := .plain "Invalid message size or prefix"

theorem decrypt_zeros (prims : Primitives) (serverInfo : ServerInfo) (sharedKey nonce : Bytes) :
    decrypt prims serverInfo sharedKey (List.replicate maxDNSPacketSize 0) nonce =
      (List.replicate maxDNSPacketSize 0, some invalidMessage) := by
  unfold decrypt
  rw [if_pos]
  · rfl
  · refine .inr (.inr ?_)
    rw [List.take_replicate]
    decide

/-- All reads failed, and the error that is returned is not one of theirs: it is that of
the second write, or of decrypting a buffer that nothing was read into. -/
def UDPConn.LosesReadError (conn : UDPConn) : Prop :=
  conn.reads ≠ [] ∧ (∀ reply, .ok reply ∉ conn.reads) ∧
    .error (conn.second.write.getD invalidMessage) ∉ conn.reads

section Exchange

variable (prims : Primitives) (dialer : Dialer) (serverInfo : ServerInfo)
  (sharedKey encryptedQuery clientNonce : Bytes) (conn : UDPConn)

/-- The result is made of the reads: that of decrypting the one that succeeded, or the
error of one that failed; when all have timed out, the query is sent again over TCP. -/
def KeepsReads (exchanged : Exchanged) : Prop :=
  (∀ reply, .ok reply ∈ conn.reads → (exchanged.data, exchanged.err) =
    decrypt prims serverInfo sharedKey (reply.take maxDNSPacketSize) clientNonce) ∧
  (conn.reads ≠ [] → (∀ reply, .ok reply ∉ conn.reads) →
    ∃ e, .error e ∈ conn.reads ∧ exchanged.err = some e) ∧
  (conn.reads ≠ [] → (∀ read ∈ conn.reads, ∃ e, read = .error e ∧ e.isTimeout) →
    retryOverTCP exchanged)

theorem exchangeWithUDPServer_cases {exchanged : Exchanged}
    (h : exchangeWithUDPServer prims dialer serverInfo sharedKey encryptedQuery clientNonce conn =
      exchanged) :
    conn.reads = [] ∨
      (∃ reply failed, conn.reads = failed ++ [.ok reply] ∧ (∀ reply, .ok reply ∉ failed) ∧
        (exchanged.data, exchanged.err) =
          decrypt prims serverInfo sharedKey (reply.take maxDNSPacketSize) clientNonce) ∨
      (conn.reads ≠ [] ∧ (∀ reply, .ok reply ∉ conn.reads) ∧
        exchanged.err = some (conn.second.write.getD invalidMessage)) := by
  subst h
  unfold exchangeWithUDPServer UDPConn.reads
  cases conn.dial with
  | some e => exact .inl rfl
  | none =>
    cases conn.setDeadline with
    | some e => exact .inl rfl
    | none =>
      simp only [udpTries]
      cases conn.first.write with
      | some e => exact .inl rfl
      | none =>
        cases conn.first.read with
        | ok reply => exact .inr (.inl ⟨reply, [], rfl, by simp, rfl⟩)
        | error e =>
          cases conn.second.write with
          | some w => exact .inr (.inr ⟨by simp, by simp, rfl⟩)
          | none =>
            cases conn.second.read with
            | ok reply => exact .inr (.inl ⟨reply, [.error e], rfl, by simp, rfl⟩)
            | error e' =>
              refine .inr (.inr ⟨by simp, by simp, ?_⟩)
              dsimp only
              rw [decrypt_zeros]
              rfl

/-- **When the outcome of the reads is what is returned**: unless all the reads that were
made failed, and the error is that of the second write or of decrypting an empty
buffer. -/
theorem exchangeWithUDPServer_keepsReads_iff :
    KeepsReads prims serverInfo sharedKey clientNonce conn
        (exchangeWithUDPServer prims dialer serverInfo sharedKey encryptedQuery clientNonce conn) ↔
      ¬ conn.LosesReadError := by
  generalize hx : exchangeWithUDPServer prims dialer serverInfo sharedKey encryptedQuery
    clientNonce conn = exchanged
  constructor
  · rintro ⟨-, hkept, -⟩ ⟨hmade, hfailed, hlost⟩
    obtain ⟨e, hread, herr⟩ := hkept hmade hfailed
    rcases exchangeWithUDPServer_cases prims dialer serverInfo sharedKey encryptedQuery clientNonce
        conn hx with hnone | ⟨reply, failed, hreads, -, -⟩ | ⟨-, -, herr'⟩
    · exact hmade hnone
    · exact hfailed reply (by rw [hreads]; simp)
    · rw [herr, Option.some.injEq] at herr'
      exact hlost (herr' ▸ hread)
  · intro hnot
    rcases exchangeWithUDPServer_cases prims dialer serverInfo sharedKey encryptedQuery clientNonce
        conn hx with hnone | ⟨reply, failed, hreads, hfailed, hdecrypt⟩ | ⟨hmade, hfailed, herr⟩
    · exact ⟨by simp [hnone], by simp [hnone], by simp [hnone]⟩
    · have hmem : .ok reply ∈ conn.reads := by rw [hreads]; simp
      refine ⟨?_, fun _ h => absurd hmem (h reply), fun _ h => ?_⟩
      · intro reply' hreply'
        rw [hreads, List.mem_append, List.mem_singleton] at hreply'
        rcases hreply' with h | h
        · exact absurd h (hfailed reply')
        · cases h
          exact hdecrypt
      · obtain ⟨e, he, -⟩ := h _ hmem
        cases he
    · have hread : .error (conn.second.write.getD invalidMessage) ∈ conn.reads := by
        by_contra hlost
        exact hnot ⟨hmade, hfailed, hlost⟩
      refine ⟨fun reply h => absurd h (hfailed reply), fun _ _ => ⟨_, hread, herr⟩, fun _ h => ?_⟩
      obtain ⟨e, he, htimeout⟩ := h _ hread
      cases he
      simp only [retryOverTCP, herr]
      exact htimeout

end Exchange

namespace Sample

/-- A socket on which both reads fail in the same way. -/
def failingReads (e : GoError) : UDPConn := ⟨none, none, ⟨none, .error e⟩, ⟨none, .error e⟩⟩

/-- With both reads refused, the error is neither of them; with both timed out, the query
is not sent again. -/
theorem failed_reads_lost :
    (failingReads (.net "connection refused" false)).LosesReadError ∧
      (exchangeWithUDPServer Sender.samplePrims .direct (server .dnscrypt) [] [] []
        (failingReads (.net "connection refused" false))).err = some invalidMessage ∧
      retryOverTCP (exchangeWithUDPServer Sender.samplePrims .direct (server .dnscrypt) [] [] []
        (failingReads (.net "i/o timeout" true))) = false := by
  refine ⟨⟨by simp [failingReads, UDPConn.reads], by simp [failingReads, UDPConn.reads],
    by decide⟩, ?_, ?_⟩
  · simp [failingReads, exchangeWithUDPServer, udpTries, decrypt_zeros]
  · simp [failingReads, exchangeWithUDPServer, udpTries, decrypt_zeros, retryOverTCP,
      invalidMessage, GoError.isTimeout]

end Sample

end DnscryptProxy
