import DnscryptProxy.ObliviousDoH

/-! Which ODoH responses `decryptResponse` gets through, and what it says of their padding.

* `decrypt_returns_iff`: it returns unless a slice or an index is out of range. A nonce of 65533
  bytes makes the end of its slice zero, and the lengths inside a plaintext are not checked.
* `padding_verdict_iff`: the padding is read in the response, at the indexes it has in the
  plaintext. The verdict is right exactly where both have the same zeros. -/

namespace DnscryptProxy

def malformedResponse : GoError := .plain "Malformed response"

/-- The length of the nonce in a response whose header is accepted. -/
def nonceLength : Bytes → Option Nat
  | messageType :: hi :: lo :: rest =>
    if messageType = 0x02 ∧ 5 + uint16 hi lo ≤ rest.length + 3 then some (uint16 hi lo) else none
  | _ => none

/-- The ciphertext after a nonce of `n` bytes is opened. -/
def openWith (hpke : HPKE) (q : ODoHQuery) (response : Bytes) (n : Nat) (responseNonceEnc : Bytes) :
    Except GoError Bytes :=
  openResponse hpke q responseNonceEnc (response.drop (5 + n)) (response.take (3 + n))
    (uint16 (response.getD (3 + n) 0) (response.getD (4 + n) 0) = (response.drop (5 + n)).length)

/-- What the ciphertext of a response opens to. -/
def opened (hpke : HPKE) (q : ODoHQuery) (response : Bytes) (n : Nat) : Except GoError Bytes :=
  openWith hpke q response n ((response.take ((3 + n) % 65536)).drop 1)

/-- The rest of `decryptResponse`. -/
def readOpened (response : Bytes) : Except GoError Bytes → Except Panic (Except GoError Bytes)
  | .error e => .ok (.error e)
  | .ok plaintext => responseMessage response plaintext

/-- The length at the start of a plaintext. -/
def messageLength (plaintext : Bytes) : Nat := uint16 (plaintext.getD 0 0) (plaintext.getD 1 0)

/-- A message that lies inside its plaintext, with no more padding than the response has bytes. -/
def Inside (response plaintext : Bytes) : Prop :=
  2 ≤ plaintext.length ∧ 2 + messageLength plaintext ≤ plaintext.length ∧
    (plaintext.length ≤ 4 + messageLength plaintext ∨ plaintext.length ≤ response.length)

/-! ## Slices and indexes -/

section Bounds

variable {hpke : HPKE} {q : ODoHQuery} {response plaintext : Bytes}

theorem zeroFrom_eq (response : Bytes) (i n : Nat) :
    zeroFrom response i n =
      if n = 0 ∨ i + n ≤ response.length then .ok (((response.drop i).take n).all (· = 0x00))
      else .error .indexOutOfRange := by
  induction n generalizing i with
  | zero => simp [zeroFrom]
  | succ n ih =>
    unfold zeroFrom
    cases hb : response[i]? with
    | none =>
      rw [List.getElem?_eq_none_iff] at hb
      rw [if_neg (by omega)]
    | some b =>
      obtain ⟨hi, hget⟩ := List.getElem?_eq_some_iff.mp hb
      rw [ih, List.drop_eq_getElem_cons hi, hget, List.take_succ_cons, List.all_cons]
      by_cases hn : i + (n + 1) ≤ response.length
      · rw [if_pos (by omega), if_pos (.inr hn)]
        rfl
      · by_cases hzero : n = 0
        · omega
        · rw [if_neg (by omega), if_neg (by omega)]
          rfl

theorem decryptResponse_none (h : nonceLength response = none) :
    decryptResponse hpke q response = .ok (.error malformedResponse) := by
  rcases response with _ | ⟨messageType, _ | ⟨hi, _ | ⟨lo, rest⟩⟩⟩
  · rfl
  · rfl
  · rfl
  · have hbad : ¬ (messageType = 0x02 ∧ 5 + uint16 hi lo ≤ rest.length + 3) := by
      intro hok
      rw [nonceLength, if_pos hok] at h
      cases h
    rw [decryptResponse]
    by_cases htype : messageType = 0x02
    · have hshort : (messageType :: hi :: lo :: rest).length < 5 + uint16 hi lo :=
        Nat.lt_of_not_le fun hlen => hbad ⟨htype, hlen⟩
      rw [if_neg (not_not.mpr htype), if_pos hshort]
      rfl
    · rw [if_pos htype]
      rfl

theorem nonceLength_bounds {n : Nat} (h : nonceLength response = some n) :
    5 + n ≤ response.length ∧ n < 65536 := by
  unfold nonceLength at h
  split at h
  · next messageType hi lo rest =>
    split at h
    · next hok =>
      cases h
      have hhi := hi.toNat_lt
      have hlo := lo.toNat_lt
      unfold uint16 at *
      simp only [List.length_cons]
      omega
    · cases h
  · cases h

theorem decryptResponse_some {n : Nat} (h : nonceLength response = some n) :
    decryptResponse hpke q response =
      (slice response 1 ((3 + n) % 65536)).bind fun responseNonceEnc =>
        readOpened response (openWith hpke q response n responseNonceEnc) := by
  have hbounds := nonceLength_bounds h
  unfold nonceLength at h
  split at h
  · next messageType hi lo rest =>
    split at h
    · next hok =>
      cases h
      obtain ⟨rfl, hlen⟩ := hok
      rw [decryptResponse, if_neg (not_not.mpr rfl), if_neg (by omega)]
      cases slice (0x02 :: hi :: lo :: rest) 1 ((3 + uint16 hi lo) % 65536) with
      | error p => rfl
      | ok responseNonceEnc =>
        dsimp only [bind, Except.bind]
        split
        · next hopen => rw [openWith, hopen]; rfl
        · next hopen => rw [openWith, hopen]; rfl
    · cases h
  · cases h

theorem decryptResponse_wraps {n : Nat} (h : nonceLength response = some n) (hn : n = 65533) :
    decryptResponse hpke q response = .error .indexOutOfRange := by
  subst hn
  rw [decryptResponse_some h, slice_error (by omega)]
  rfl

theorem decryptResponse_reads {n : Nat} (h : nonceLength response = some n) (hn : n ≠ 65533) :
    decryptResponse hpke q response = readOpened response (opened hpke q response n) := by
  obtain ⟨hlen, hmax⟩ := nonceLength_bounds h
  rw [decryptResponse_some h, slice_ok (by omega) (by omega)]
  rfl

theorem slice_messageLength (h : 2 ≤ plaintext.length) :
    ∃ length, slice plaintext 0 2 = .ok length ∧
      uint16 (length.getD 0 0) (length.getD 1 0) = messageLength plaintext := by
  rcases plaintext with _ | ⟨hi, _ | ⟨lo, rest⟩⟩
  · simp at h
  · simp at h
  · exact ⟨[hi, lo], slice_ok (by omega) (by simp), rfl⟩

theorem responseMessage_inside (h : Inside response plaintext) :
    responseMessage response plaintext =
      .ok (if ((response.drop (4 + messageLength plaintext)).take
          (plaintext.length - (4 + messageLength plaintext))).all (· = 0x00)
        then .ok ((plaintext.drop 2).take (messageLength plaintext))
        else .error malformedResponse) := by
  obtain ⟨htwo, hmessage, hpadding⟩ := h
  obtain ⟨length, hslice, hlength⟩ := slice_messageLength htwo
  unfold responseMessage
  rw [hslice]
  dsimp only [bind, Except.bind]
  rw [hlength, zeroFrom_eq, if_pos (by omega), slice_ok (by omega) hmessage, List.drop_take,
    Nat.add_sub_cancel_left]
  cases ((response.drop (4 + messageLength plaintext)).take
    (plaintext.length - (4 + messageLength plaintext))).all (· = 0x00) <;> rfl

theorem responseMessage_outside (h : ¬ Inside response plaintext) :
    responseMessage response plaintext = .error .indexOutOfRange := by
  unfold responseMessage
  by_cases htwo : 2 ≤ plaintext.length
  · obtain ⟨length, hslice, hlength⟩ := slice_messageLength htwo
    rw [hslice]
    dsimp only [bind, Except.bind]
    rw [hlength, zeroFrom_eq]
    by_cases hrange : plaintext.length - (4 + messageLength plaintext) = 0 ∨
        4 + messageLength plaintext + (plaintext.length - (4 + messageLength plaintext)) ≤
          response.length
    · -- the padding is in range, so the message is not: there is no padding
      have hmessage : ¬ 2 + messageLength plaintext ≤ plaintext.length :=
        fun hmessage => h ⟨htwo, hmessage, by omega⟩
      rw [if_pos hrange, slice_error (by omega),
        show plaintext.length - (4 + messageLength plaintext) = 0 by omega]
      rfl
    · rw [if_neg hrange]
  · rw [slice_error (by omega)]
    rfl

end Bounds

/-- **Every response** is read to an end exactly if the length of its nonce does not wrap and
what it opens to lies inside its own lengths. -/
theorem decrypt_returns_iff (hpke : HPKE) (q : ODoHQuery) (response : Bytes) :
    (∃ result, decryptResponse hpke q response = .ok result) ↔
      ∀ n, nonceLength response = some n →
        n ≠ 65533 ∧ ∀ plaintext, opened hpke q response n = .ok plaintext →
          Inside response plaintext := by
  cases hn : nonceLength response with
  | none =>
    refine iff_of_true ⟨_, decryptResponse_none hn⟩ ?_
    rintro n ⟨⟩
  | some n =>
    by_cases hwrap : n = 65533
    · refine iff_of_false ?_ fun h => (h n rfl).1 hwrap
      rintro ⟨result, hresult⟩
      rw [decryptResponse_wraps hn hwrap] at hresult
      cases hresult
    · rw [decryptResponse_reads hn hwrap]
      cases hopen : opened hpke q response n with
      | error e =>
        refine iff_of_true ⟨_, rfl⟩ ?_
        rintro _ ⟨⟩
        exact ⟨hwrap, fun plaintext h => by rw [hopen] at h; cases h⟩
      | ok plaintext =>
        by_cases hinside : Inside response plaintext
        · refine iff_of_true ⟨_, responseMessage_inside hinside⟩ ?_
          rintro _ ⟨⟩
          refine ⟨hwrap, fun plaintext' h => ?_⟩
          rw [hopen] at h
          cases h
          exact hinside
        · refine iff_of_false ?_ fun h => hinside ((h n rfl).2 plaintext hopen)
          rintro ⟨result, hresult⟩
          have hresult : responseMessage response plaintext = .ok result := hresult
          rw [responseMessage_outside hinside] at hresult
          cases hresult

/-! ## Padding -/

/-- A message as `encryptQuery` lays it out, with its padding. -/
def padded (m padLength pad : Bytes) : Bytes := putUint16 m.length ++ m ++ padLength ++ pad

/-- The bytes of the response that stand where the plaintext has its padding. -/
def shadow (response m pad : Bytes) : Bytes := (response.drop (4 + m.length)).take pad.length

section Padding

variable {hpke : HPKE} {q : ODoHQuery} {response m padLength pad : Bytes} {n : Nat}

theorem messageLength_padded (hm : m.length < 65536) :
    messageLength (padded m padLength pad) = m.length := by
  show uint16 (UInt8.ofNat (m.length / 256)) (UInt8.ofNat m.length) = m.length
  exact uint16_putUint16 m.length hm

theorem length_padded (hpad : padLength.length = 2) :
    (padded m padLength pad).length = 4 + m.length + pad.length := by
  simp only [padded, putUint16, List.length_append, List.length_cons, List.length_nil, hpad]
  omega

theorem inside_padded (hm : m.length < 65536) (hpad : padLength.length = 2) :
    Inside response (padded m padLength pad) ↔ (shadow response m pad).length = pad.length := by
  unfold Inside shadow
  rw [messageLength_padded hm, length_padded hpad, List.length_take, List.length_drop]
  omega

theorem responseMessage_padded (hm : m.length < 65536) (hpad : padLength.length = 2)
    (hshadow : (shadow response m pad).length = pad.length) :
    responseMessage response (padded m padLength pad) =
      .ok (if (shadow response m pad).all (· = 0x00) then .ok m else .error malformedResponse) := by
  have htake : ((padded m padLength pad).drop 2).take m.length = m := by
    show ((m ++ padLength ++ pad).take m.length) = m
    rw [List.append_assoc, List.take_left]
  rw [responseMessage_inside ((inside_padded hm hpad).mpr hshadow), messageLength_padded hm,
    length_padded hpad, Nat.add_sub_cancel_left, htake]
  rfl

theorem encryptQuery_plaintext {t : ODoHTargetConfig} {query : Bytes} {sent : ODoHQuery}
    (h : encryptQuery hpke t query = .ok sent) : sent.odohPlaintext = padded query [0, 0] [] := by
  unfold encryptQuery at h
  cases hctx : hpke.newClientContext t.suite t.publicKey (asciiBytes "odoh query") with
  | error e =>
    rw [hctx] at h
    cases h
  | ok ctx =>
    rw [hctx] at h
    dsimp only [bind, Except.bind] at h
    split at h
    · cases h
    · cases h
      exact (List.append_nil _).symm

/-- **The padding of a message** is judged as it should be exactly if the response has as many
zeros in its place. What `encryptQuery` would lay out is always accepted. -/
theorem padding_verdict_iff (hm : m.length < 65536) (hn : nonceLength response = some n)
    (hwrap : n ≠ 65533) :
    (∀ padLength pad, padLength.length = 2 →
      opened hpke q response n = .ok (padded m padLength pad) →
      (decryptResponse hpke q response =
          .ok (if pad.all (· = 0x00) then .ok m else .error malformedResponse) ↔
        (shadow response m pad).length = pad.length ∧
          (shadow response m pad).all (· = 0x00) = pad.all (· = 0x00))) ∧
    ∀ t sent, encryptQuery hpke t m = .ok sent →
      opened hpke q response n = .ok sent.odohPlaintext →
      decryptResponse hpke q response = .ok (.ok m) := by
  have hread {plaintext : Bytes} (hopen : opened hpke q response n = .ok plaintext) :
      decryptResponse hpke q response = responseMessage response plaintext := by
    rw [decryptResponse_reads hn hwrap, hopen]
    rfl
  constructor
  · intro padLength pad hpad hopen
    rw [hread hopen]
    by_cases hshadow : (shadow response m pad).length = pad.length
    · rw [responseMessage_padded hm hpad hshadow]
      cases (shadow response m pad).all (· = 0x00) <;> cases pad.all (· = 0x00) <;>
        simp [hshadow]
    · rw [responseMessage_outside (mt (inside_padded hm hpad).mp hshadow)]
      exact iff_of_false (by simp) fun h => hshadow h.1
  · intro t sent hsent hopen
    rw [hread hopen, encryptQuery_plaintext hsent,
      responseMessage_padded hm rfl (by simp [shadow])]
    simp [shadow]

end Padding

namespace Sample

/-- A cipher with a tag of 16 bytes that is never wrong. -/
def xorHPKE : HPKE where
  newClientContext _ publicKey _ := .ok (publicKey, [])
  encryptToServer _ plaintext _ := .ok plaintext
  exportSecret _ _ _ := .ok []
  extract _ secret _ := secret
  expand _ _ _ _ := .ok []
  keyBytes _ := 16
  nonceBytes _ := 12
  newRawCipher _ key := .ok key
  openRaw _ _ ct _ := .ok ((ct.take (ct.length - 16)).map (· ^^^ 9))

def odohQuery : ODoHQuery := ⟨⟨32, 1, 1⟩, [], [], []⟩

/-- A response around a ciphertext, without a nonce. -/
def odohResponse (ct : Bytes) : Bytes := [0x02, 0, 0] ++ encodeLengthValue (ct ++ List.replicate 16 0)

/-- The ciphertext is only a tag: the plaintext has no length to read. -/
theorem empty_plaintext_panics :
    opened xorHPKE odohQuery (odohResponse []) 0 = .ok [] ∧
      decryptResponse xorHPKE odohQuery (odohResponse []) = .error .indexOutOfRange := by
  decide

/-- The message `[7]` with one byte of padding. -/
def paddedResponse : Bytes := odohResponse ((padded [7] [0, 1] [0]).map (· ^^^ 9))

/-- Another message, with a byte that is encrypted as zero. -/
def luckyResponse : Bytes := odohResponse ((padded [9, 7, 7] [0, 1] [0]).map (· ^^^ 9))

/-- The first byte of the message stands in the place of the padding here. -/
theorem paddedResponse_verdict :
    opened xorHPKE odohQuery luckyResponse 0 = .ok (padded [9, 7, 7] [0, 1] [0]) ∧
      shadow luckyResponse [9, 7, 7] [0] = [0] ∧
      decryptResponse xorHPKE odohQuery luckyResponse = .ok (.ok [9, 7, 7]) :=
  ⟨by decide, by decide, ((@padding_verdict_iff xorHPKE odohQuery luckyResponse [9, 7, 7] 0
    (by decide) (by decide) (by decide)).1 [0, 1] [0] rfl (by decide)).mpr (by decide)⟩

/-- The padding is zero, but the first byte of the ciphertext is read instead. -/
theorem zero_padding_refused :
    opened xorHPKE odohQuery paddedResponse 0 = .ok (padded [7] [0, 1] [0]) ∧
      decryptResponse xorHPKE odohQuery paddedResponse = .ok (.error malformedResponse) := by
  decide

end Sample

end DnscryptProxy
