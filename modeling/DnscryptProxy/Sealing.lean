import DnscryptProxy.Phases.Call

/-! What `Encrypt` and `Decrypt` of `crypto.go` produce and accept.

* `decrypt_accepts`: the language of the responses that `Decrypt` accepts, and that no
  index is out of range for the others either.
* `encrypt_output`: when `Encrypt` fails, and the bytes that it returns otherwise, for
  every estimate that `blindAdjust` and `adjust` can lead to. -/

namespace DnscryptProxy

/-! ## Padding -/

theorem pad_eq (packet : Bytes) (minSize : Nat) :
    pad packet minSize =
      packet ++ 0x80 :: List.replicate (minSize - (packet.length + 1)) 0 := by
  simp [pad]

theorem unpadFrom_eq_ok {r packet : Bytes} :
    unpadFrom r = .ok packet ↔
      ∃ zeros, r = List.replicate zeros 0 ++ 0x80 :: packet.reverse := by
  induction r with
  | nil => simp [unpadFrom]
  | cons b r ih =>
    rw [unpadFrom]
    by_cases hdelim : b = 0x80
    · subst hdelim
      rw [if_pos rfl]
      constructor
      · intro h
        cases h
        exact ⟨0, by simp⟩
      · rintro ⟨zeros, h⟩
        cases zeros with
        | zero =>
          cases h
          rw [List.reverse_reverse]
        | succ zeros => cases h
    · rw [if_neg hdelim]
      by_cases hzero : b = 0x00
      · subst hzero
        rw [if_neg (by simp), ih]
        constructor
        · rintro ⟨zeros, rfl⟩
          exact ⟨zeros + 1, rfl⟩
        · rintro ⟨zeros, h⟩
          cases zeros with
          | zero => cases h
          | succ zeros => exact ⟨zeros, (List.cons.inj h).2⟩
      · rw [if_pos hzero]
        constructor
        · intro h
          cases h
        · rintro ⟨zeros, h⟩
          cases zeros with
          | zero => exact absurd (List.cons.inj h).1 hdelim
          | succ zeros => exact absurd (List.cons.inj h).1 hzero

theorem unpad_eq_ok {padded packet : Bytes} :
    unpad padded = .ok packet ↔ ∃ zeros, padded = packet ++ 0x80 :: List.replicate zeros 0 := by
  rw [unpad, unpadFrom_eq_ok]
  refine exists_congr fun zeros => ?_
  rw [← List.reverse_inj, List.reverse_reverse]
  simp

theorem unpad_pad (packet : Bytes) (minSize : Nat) : unpad (pad packet minSize) = .ok packet :=
  unpad_eq_ok.mpr ⟨_, pad_eq packet minSize⟩

/-! ## Indices -/

theorem slice_zero {s : Bytes} {hi : Nat} (h : hi ≤ s.length) : slice s 0 hi = .ok (s.take hi) :=
  slice_ok (Nat.zero_le hi) h

/-- The loop of `unpad` with its index. -/
def unpadIndexedFrom (packet : Bytes) : Nat → Except Panic (Except GoError Bytes)
  | 0 => .ok (.error (.plain "Invalid padding (short packet)"))
  | i + 1 =>
    match packet[i]? with
    | none => .error .indexOutOfRange
    | some b =>
      if b = 0x80 then (slice packet 0 i).map .ok
      else if b ≠ 0x00 then .ok (.error (.plain "Invalid padding (delimiter not found)"))
      else unpadIndexedFrom packet i

def unpadIndexed (packet : Bytes) : Except Panic (Except GoError Bytes) :=
  unpadIndexedFrom packet packet.length

theorem unpadIndexedFrom_eq (packet : Bytes) {i : Nat} (h : i ≤ packet.length) :
    unpadIndexedFrom packet i = .ok (unpadFrom (packet.take i).reverse) := by
  induction i with
  | zero => rfl
  | succ i ih =>
    have hi : i < packet.length := h
    rw [unpadIndexedFrom, List.getElem?_eq_getElem hi, List.take_succ_eq_append_getElem hi,
      List.reverse_concat]
    dsimp only [unpadFrom]
    rw [slice_zero hi.le, ih hi.le]
    split
    · simp [Except.map]
    · split <;> rfl

theorem unpadIndexed_eq (packet : Bytes) : unpadIndexed packet = .ok (unpad packet) := by
  rw [unpadIndexed, unpadIndexedFrom_eq packet le_rfl, List.take_length, unpad]

/-- `Decrypt` with every index and every slice checked. -/
def decryptIndexed (prims : Primitives) (serverInfo : ServerInfo)
    (sharedKey encrypted nonce : Bytes) : Except Panic (Bytes × Option GoError) := do
  let serverMagicLen := serverMagic.length
  let responseHeaderLen := serverMagicLen + nonceSize
  if encrypted.length < responseHeaderLen + tagSize + minDNSPacketSize ∨
      encrypted.length > responseHeaderLen + tagSize + maxDNSPacketSize then
    return (encrypted, some (.plain "Invalid message size or prefix"))
  let magic ← slice encrypted 0 serverMagicLen
  if magic ≠ serverMagic then
    return (encrypted, some (.plain "Invalid message size or prefix"))
  let serverNonce ← slice encrypted serverMagicLen responseHeaderLen
  let expected ← slice nonce 0 halfNonceSize
  let received ← slice serverNonce 0 halfNonceSize
  if expected ≠ received then
    return (encrypted, some (.plain "Unexpected nonce"))
  let box ← slice encrypted responseHeaderLen encrypted.length
  match openBox prims serverInfo.cryptoConstruction serverNonce box sharedKey with
  | .error e => return (encrypted, some e)
  | .ok packet =>
    match ← unpadIndexed packet with
    | .error _ => return (encrypted, some (.plain "Incorrect padding"))
    | .ok packet =>
      if packet.length < minDNSPacketSize then
        return (encrypted, some (.plain "Incorrect padding"))
      else return (packet, none)

section Decrypt

variable (prims : Primitives) (serverInfo : ServerInfo) (sharedKey encrypted : Bytes)
  {nonce : Bytes}

/-- The lengths between which a response is looked at. -/
def ResponseSized (encrypted : Bytes) : Prop :=
  serverMagic.length + nonceSize + tagSize + minDNSPacketSize ≤ encrypted.length ∧
    encrypted.length ≤ serverMagic.length + nonceSize + tagSize + maxDNSPacketSize

theorem decryptIndexed_eq (hnonce : nonce.length = halfNonceSize) :
    decryptIndexed prims serverInfo sharedKey encrypted nonce =
      .ok (decrypt prims serverInfo sharedKey encrypted nonce) := by
  unfold decryptIndexed decrypt
  by_cases hsize : encrypted.length < serverMagic.length + nonceSize + tagSize + minDNSPacketSize ∨
      encrypted.length > serverMagic.length + nonceSize + tagSize + maxDNSPacketSize
  · rw [if_pos hsize, if_pos (by tauto)]
    rfl
  · have hheader : serverMagic.length + nonceSize ≤ encrypted.length := by omega
    have hnonces : ((encrypted.take (serverMagic.length + nonceSize)).drop serverMagic.length) =
        (encrypted.drop serverMagic.length).take nonceSize := by
      rw [List.drop_take, Nat.add_sub_cancel_left]
    have hserver : halfNonceSize ≤ ((encrypted.drop serverMagic.length).take nonceSize).length := by
      rw [List.length_take, List.length_drop]
      have hhalf : halfNonceSize ≤ nonceSize := by decide
      omega
    rw [if_neg hsize, slice_zero (by omega), slice_ok (by omega) hheader, slice_zero hnonce.ge,
      slice_ok hheader le_rfl, hnonces, List.take_length]
    simp only [bind, Except.bind, pure, Except.pure]
    by_cases hmagic : encrypted.take serverMagic.length = serverMagic
    · rw [if_neg (by simpa using hmagic), if_neg (by tauto), slice_zero hserver]
      dsimp only
      by_cases hfirst : nonce.take halfNonceSize =
          ((encrypted.drop serverMagic.length).take nonceSize).take halfNonceSize
      · rw [if_neg (by simpa using hfirst), if_neg (by simpa using hfirst)]
        cases openBox prims serverInfo.cryptoConstruction
            ((encrypted.drop serverMagic.length).take nonceSize)
            (encrypted.drop (serverMagic.length + nonceSize)) sharedKey with
        | error e => rfl
        | ok packet =>
          dsimp only
          rw [unpadIndexed_eq]
          cases unpad packet with
          | error e => rfl
          | ok packet =>
            dsimp only
            split <;> rfl
      · rw [if_pos hfirst, if_pos hfirst]
    · rw [if_pos hmagic, if_pos (by tauto)]

theorem take_append_header {encrypted serverNonce box : Bytes}
    (h : encrypted = serverMagic ++ serverNonce ++ box) (hlen : serverNonce.length = nonceSize) :
    encrypted.take serverMagic.length = serverMagic ∧
      (encrypted.drop serverMagic.length).take nonceSize = serverNonce ∧
      encrypted.drop (serverMagic.length + nonceSize) = box := by
  subst h
  rw [List.append_assoc]
  refine ⟨List.take_left' rfl, ?_, ?_⟩
  · rw [List.drop_left' rfl, List.take_left' hlen]
  · rw [← List.drop_drop, List.drop_left' rfl, List.drop_left' hlen]

/-- **What `Decrypt` accepts**, for every nonce of a client: a response of admissible
length that is the magic number, a nonce that begins with the client's, and a box that
opens to a packet of admissible length and its padding. It returns that packet. No
index or slice is out of range, whether the response is accepted or not. -/
theorem decrypt_accepts (hnonce : nonce.length = halfNonceSize) :
    (∀ packet, decrypt prims serverInfo sharedKey encrypted nonce = (packet, none) ↔
      ResponseSized encrypted ∧ ∃ serverNonce box zeros,
        encrypted = serverMagic ++ serverNonce ++ box ∧ serverNonce.length = nonceSize ∧
        serverNonce.take halfNonceSize = nonce ∧
        openBox prims serverInfo.cryptoConstruction serverNonce box sharedKey =
          .ok (packet ++ 0x80 :: List.replicate zeros 0) ∧
        minDNSPacketSize ≤ packet.length) ∧
      decryptIndexed prims serverInfo sharedKey encrypted nonce =
        .ok (decrypt prims serverInfo sharedKey encrypted nonce) := by
  refine ⟨fun packet => ⟨?_, ?_⟩, decryptIndexed_eq prims serverInfo sharedKey encrypted hnonce⟩
  · intro h
    unfold decrypt at h
    dsimp only at h
    split at h
    · cases h
    · next hsize =>
      simp only [not_or, not_lt, ne_eq, not_not] at hsize
      obtain ⟨hmin, hmax, hmagic⟩ := hsize
      split at h
      · cases h
      · next hfirst =>
        rw [ne_eq, not_not, List.take_of_length_le hnonce.le] at hfirst
        split at h
        · cases h
        · next padded hopen =>
          split at h
          · cases h
          · next packet' hunpad =>
            split at h
            · cases h
            · next hlen =>
              cases h
              obtain ⟨zeros, rfl⟩ := unpad_eq_ok.mp hunpad
              refine ⟨⟨hmin, hmax⟩, _, _, zeros, ?_, ?_, hfirst.symm, hopen, not_lt.mp hlen⟩
              · conv_lhs => rw [← List.take_append_drop serverMagic.length encrypted, hmagic,
                  ← List.take_append_drop nonceSize (encrypted.drop serverMagic.length),
                  List.drop_drop]
                rw [List.append_assoc]
              · rw [List.length_take, List.length_drop]
                omega
  · rintro ⟨⟨hmin, hmax⟩, serverNonce, box, zeros, hbytes, hlen, hfirst, hopen, hpacket⟩
    obtain ⟨hmagic, hserver, hbox⟩ := take_append_header hbytes hlen
    unfold decrypt
    dsimp only
    rw [hmagic, hserver, hbox, hopen, if_neg (by simp only [ne_eq, not_true, or_false]; omega),
      if_neg (by rw [ne_eq, not_not, List.take_of_length_le hnonce.le, hfirst])]
    dsimp only
    rw [unpad_eq_ok.mpr ⟨zeros, rfl⟩]
    dsimp only
    rw [if_neg (not_lt.mpr hpacket)]

end Decrypt

/-! ## Sealed boxes -/

/-- The box of a query. -/
def sealBox (prims : Primitives) (construction : CryptoConstruction)
    (nonce padded sharedKey : Bytes) : Bytes :=
  if construction = .xChacha20Poly1305 then prims.xsecretboxSeal nonce padded sharedKey
  else prims.secretboxSeal padded nonce sharedKey

/-- What is assumed of the primitives: a box opens to what was sealed in it, it is longer
by a tag, and public keys are arrays of 32 bytes. -/
structure Primitives.Lawful (prims : Primitives) : Prop where
  xsecretbox_open_seal : ∀ nonce m key, nonce.length = nonceSize →
    prims.xsecretboxOpen nonce (prims.xsecretboxSeal nonce m key) key = .ok m
  secretbox_open_seal : ∀ m nonce key, nonce.length = nonceSize →
    prims.secretboxOpen (prims.secretboxSeal m nonce key) nonce key = some m
  xsecretboxSeal_length : ∀ nonce m key,
    (prims.xsecretboxSeal nonce m key).length = m.length + tagSize
  secretboxSeal_length : ∀ m nonce key,
    (prims.secretboxSeal m nonce key).length = m.length + tagSize
  scalarBaseMult_length : ∀ key, (prims.scalarBaseMult key).length = 32

namespace Primitives.Lawful

variable {prims : Primitives} (lawful : prims.Lawful) (construction : CryptoConstruction)
  {nonce : Bytes} (m key : Bytes)

include lawful

theorem openBox_sealBox (hnonce : nonce.length = nonceSize) :
    openBox prims construction nonce (sealBox prims construction nonce m key) key = .ok m := by
  unfold openBox sealBox
  by_cases hx : construction = .xChacha20Poly1305
  · rw [if_pos hx, if_pos hx, lawful.xsecretbox_open_seal _ _ _ hnonce]
    rfl
  · rw [if_neg hx, if_neg hx, lawful.secretbox_open_seal _ _ _ hnonce]

theorem sealBox_length : (sealBox prims construction nonce m key).length = m.length + tagSize := by
  unfold sealBox
  split
  · exact lawful.xsecretboxSeal_length _ _ _
  · exact lawful.secretboxSeal_length _ _ _

end Primitives.Lawful

/-! ## The estimator -/

/-- The states of the question size estimator, whatever moving averages it computes. -/
inductive Estimated : Nat → Prop where
  | initial : Estimated initialMinQuestionSize
  | blindAdjust {n : Nat} (h : Estimated n) : Estimated (blindAdjust n)
  | adjust {n : Nat} (h : Estimated n) (movingAverage : Int) : Estimated (adjust n movingAverage)

theorem Estimated.bounds {n : Nat} (h : Estimated n) :
    initialMinQuestionSize ≤ n ∧ n ≤ maxDNSUDPPacketSize := by
  induction h with
  | initial => decide
  | @blindAdjust n h ih =>
    unfold DnscryptProxy.blindAdjust
    split <;> unfold initialMinQuestionSize maxDNSUDPPacketSize at * <;> omega
  | @adjust n h movingAverage ih =>
    unfold DnscryptProxy.adjust
    split
    · refine ⟨le_max_left _ _, max_le (by decide) ?_⟩
      omega
    · exact ih

/-! ## Padded lengths -/

/-- The multiple of 64 that follows `n`, unless the longest packet is shorter. -/
def Bucketed (n length : Nat) : Prop :=
  ∃ multiple, 64 ∣ multiple ∧ n ≤ multiple ∧ multiple < n + 64 ∧
    length = min maxDNSUDPPacketSize multiple

/-- The length that a query of `queryLen` bytes is to have on the wire. -/
def PaddedTo (estimate : Nat) (serverInfo : ServerInfo) (queryLen : Nat) (proto : NetProto)
    (xpad : UInt8) (length : Nat) : Prop :=
  match proto with
  | .udp =>
    if serverInfo.fragmentsBlocked then length = maxDNSUDPSafePacketSize
    else Bucketed (max estimate (queryOverhead + queryLen) + 1) length
  | .tcp =>
    if serverInfo.relay.isSome then length = maxDNSPacketSize
    else Bucketed (queryOverhead + queryLen + xpad.toNat + 1) length

theorem bucketed_round (n : Nat) :
    Bucketed (n + 1) (min maxDNSUDPPacketSize ((n + 1 + 63) / 64 * 64)) :=
  ⟨_, Nat.dvd_mul_left 64 _, by omega, by omega, rfl⟩

theorem paddedTo_paddedLength (estimate : Nat) (serverInfo : ServerInfo) (queryLen : Nat)
    (proto : NetProto) (xpad : UInt8) :
    PaddedTo estimate serverInfo queryLen proto xpad
      (paddedLength estimate serverInfo queryLen proto xpad) := by
  unfold PaddedTo paddedLength
  cases proto with
  | udp =>
    have hover : queryOverhead ≤ max estimate (queryOverhead + queryLen) :=
      le_max_of_le_right (Nat.le_add_right _ _)
    by_cases hblocked : serverInfo.fragmentsBlocked
    · simp [hblocked]
    · simp only [hblocked, Bool.false_eq_true, false_and, reduceCtorEq, and_false, ↓reduceIte,
        max_eq_left hover]
      exact bucketed_round _
  | tcp =>
    have hover : queryOverhead ≤ queryOverhead + queryLen + xpad.toNat := by omega
    by_cases hrelay : serverInfo.relay.isSome
    · simp [hrelay]
    · simp only [hrelay, Bool.false_eq_true, false_and, reduceCtorEq, and_false, ↓reduceIte,
        max_eq_left hover]
      exact bucketed_round _

/-- The number of the 64-byte bucket that ends at or after `n`. -/
def bucket (n : Nat) : Nat := (n + 63) / 64

theorem bucketed_iff {n length : Nat} :
    Bucketed n length ↔ length = min maxDNSUDPPacketSize (bucket n * 64) := by
  unfold Bucketed bucket
  constructor
  · rintro ⟨_, ⟨k, rfl⟩, hle, hlt, rfl⟩
    have hk : (n + 63) / 64 = k := by omega
    rw [hk, Nat.mul_comm]
  · rintro rfl
    exact ⟨_, Nat.dvd_mul_left 64 _, by omega, by omega, rfl⟩

theorem PaddedTo.le_max {estimate queryLen length : Nat} {serverInfo : ServerInfo}
    {proto : NetProto} {xpad : UInt8}
    (h : PaddedTo estimate serverInfo queryLen proto xpad length) : length ≤ maxDNSPacketSize := by
  unfold PaddedTo at h
  split at h
  · split at h
    · rw [h]
      decide
    · rw [bucketed_iff.mp h]
      exact min_le_left _ _
  · split at h
    · exact h.le
    · rw [bucketed_iff.mp h]
      exact min_le_left _ _

/-! ## Queries -/

/-- The shared key and the public key that a query is encrypted with. -/
def queryKeys (prims : Primitives) (keys : ProxyKeys) (serverInfo : ServerInfo)
    (entropy : Entropy) : Bytes × Bytes :=
  if keys.ephemeralKeys then
    let ephSk := prims.sum512_256 (entropy.clientNonce ++ keys.proxySecretKey)
    (computeSharedKey prims serverInfo.cryptoConstruction ephSk serverInfo.serverPk entropy.key,
      prims.scalarBaseMult ephSk)
  else (serverInfo.sharedKey, keys.proxyPublicKey)

section Encrypt

variable {prims : Primitives} {keys : ProxyKeys} {estimate : Nat} {serverInfo : ServerInfo}
  {packet : Bytes} {proto : NetProto} {entropy : Entropy} {out : Encrypted}

theorem encrypt_error_iff :
    (∃ e, encrypt prims keys estimate serverInfo packet proto entropy = .error e) ↔
      queryOverhead + packet.length + 1 >
        paddedLength estimate serverInfo packet.length proto entropy.xpad := by
  unfold encrypt
  dsimp only
  split
  · next h => exact ⟨fun _ => h, fun _ => ⟨_, rfl⟩⟩
  · next h => exact ⟨fun ⟨_, he⟩ => (nomatch he), fun h' => absurd h' h⟩

theorem encrypt_ok (h : encrypt prims keys estimate serverInfo packet proto entropy = .ok out) :
    queryOverhead + packet.length + 1 ≤
        paddedLength estimate serverInfo packet.length proto entropy.xpad ∧
      out.clientNonce = entropy.clientNonce ∧
      out.sharedKey = (queryKeys prims keys serverInfo entropy).1 ∧
      out.encrypted = serverInfo.magicQuery ++ (queryKeys prims keys serverInfo entropy).2 ++
        out.clientNonce ++ sealBox prims serverInfo.cryptoConstruction
          (out.clientNonce ++ List.replicate halfNonceSize 0)
          (pad packet (paddedLength estimate serverInfo packet.length proto entropy.xpad -
            queryOverhead)) out.sharedKey := by
  unfold encrypt at h
  dsimp only at h
  split at h
  · cases h
  · next hle =>
    cases h
    exact ⟨not_lt.mp hle, rfl, rfl, rfl⟩

theorem encrypt_tcp_of_udp
    (h : encrypt prims keys estimate serverInfo packet .udp entropy = .ok out)
    (entropy' : Entropy) :
    ∃ out', encrypt prims keys estimate serverInfo packet .tcp entropy' = .ok out' := by
  have hudp := (encrypt_ok h).1
  have hmax := (paddedTo_paddedLength estimate serverInfo packet.length .udp entropy.xpad).le_max
  have htcp := paddedTo_paddedLength estimate serverInfo packet.length .tcp entropy'.xpad
  cases he : encrypt prims keys estimate serverInfo packet .tcp entropy' with
  | ok out' => exact ⟨out', rfl⟩
  | error e =>
    have htoo := encrypt_error_iff.mp ⟨e, he⟩
    -- the length for TCP is that of the longest packet, or a bucket that holds the query
    unfold PaddedTo at htcp
    dsimp only at htcp
    split at htcp
    · omega
    · obtain ⟨multiple, -, hle, -, hlength⟩ := htcp
      have hsame : maxDNSUDPPacketSize = maxDNSPacketSize := rfl
      omega

variable (lawful : prims.Lawful) (hmagic : serverInfo.magicQuery.length = clientMagicLen)
  (hkey : keys.proxyPublicKey.length = 32)

include lawful hkey in
theorem queryKeys_publicKey_length :
    (queryKeys prims keys serverInfo entropy).2.length = 32 := by
  unfold queryKeys
  split
  · exact lawful.scalarBaseMult_length _
  · exact hkey

include lawful hmagic hkey in
theorem encrypt_length
    (h : encrypt prims keys estimate serverInfo packet proto entropy = .ok out) :
    out.encrypted.length = paddedLength estimate serverInfo packet.length proto entropy.xpad := by
  obtain ⟨hle, hnonce, -, hout⟩ := encrypt_ok h
  rw [hout]
  simp only [List.length_append, hmagic, queryKeys_publicKey_length lawful hkey, hnonce,
    entropy.clientNonce_length, lawful.sealBox_length, pad_eq, List.length_cons,
    List.length_replicate]
  have hover : queryOverhead = clientMagicLen + 32 + halfNonceSize + tagSize := rfl
  omega

include lawful hmagic hkey in
/-- **What `Encrypt` returns**, for every state of the estimator: it fails exactly when
the packet does not fit the padded length; otherwise the query is that long, and made of
the magic number, a public key, the client's nonce and a box that holds the packet. Over
UDP, without the bug flag, only the bucket of the estimate or of the packet shows in the
length. -/
theorem encrypt_output (hest : Estimated estimate) :
    (initialMinQuestionSize ≤ estimate ∧ estimate ≤ maxDNSUDPPacketSize) ∧
    (∃ length, PaddedTo estimate serverInfo packet.length proto entropy.xpad length ∧
      ((∃ e, encrypt prims keys estimate serverInfo packet proto entropy = .error e) ↔
        queryOverhead + packet.length + 1 > length) ∧
      ∀ out, encrypt prims keys estimate serverInfo packet proto entropy = .ok out →
        out.encrypted.length = length ∧ ∃ publicKey box padded,
          out.encrypted = serverInfo.magicQuery ++ publicKey ++ out.clientNonce ++ box ∧
          publicKey = (queryKeys prims keys serverInfo entropy).2 ∧ publicKey.length = 32 ∧
          out.clientNonce.length = halfNonceSize ∧
          openBox prims serverInfo.cryptoConstruction
            (out.clientNonce ++ List.replicate halfNonceSize 0) box out.sharedKey = .ok padded ∧
          unpad padded = .ok packet) ∧
    (serverInfo.fragmentsBlocked = false → ∀ estimate' packet' entropy' out out',
      bucket (max estimate (queryOverhead + packet.length) + 1) =
        bucket (max estimate' (queryOverhead + packet'.length) + 1) →
      encrypt prims keys estimate serverInfo packet .udp entropy = .ok out →
      encrypt prims keys estimate' serverInfo packet' .udp entropy' = .ok out' →
      out.encrypted.length = out'.encrypted.length) := by
  refine ⟨hest.bounds, ⟨_, paddedTo_paddedLength estimate serverInfo packet.length proto
    entropy.xpad, encrypt_error_iff, ?_⟩, ?_⟩
  · intro out h
    obtain ⟨-, hnonce, -, hout⟩ := encrypt_ok h
    have hlen : out.clientNonce.length = halfNonceSize := by
      rw [hnonce, entropy.clientNonce_length]
    have hnonceSize : (out.clientNonce ++ List.replicate halfNonceSize (0 : UInt8)).length =
        nonceSize := by
      rw [List.length_append, hlen, List.length_replicate]
      rfl
    exact ⟨encrypt_length lawful hmagic hkey h, _, _, _, hout, rfl,
      queryKeys_publicKey_length lawful hkey, hlen,
      lawful.openBox_sealBox _ _ _ hnonceSize, unpad_pad packet _⟩
  · intro hblocked estimate' packet' entropy' out out' hbucket h h'
    rw [encrypt_length lawful hmagic hkey h, encrypt_length lawful hmagic hkey h']
    have hlength : ∀ estimate queryLen xpad,
        paddedLength estimate serverInfo queryLen .udp xpad =
          min maxDNSUDPPacketSize (bucket (max estimate (queryOverhead + queryLen) + 1) * 64) := by
      intro estimate queryLen xpad
      have hpadded := paddedTo_paddedLength estimate serverInfo queryLen .udp xpad
      simp only [PaddedTo, hblocked, Bool.false_eq_true, ↓reduceIte] at hpadded
      exact bucketed_iff.mp hpadded
    rw [hlength, hlength, hbucket]

end Encrypt

/-! ## A query and its answer, evaluated

The primitives here only frame what they seal. -/

namespace Sample

def lawfulPrims : Primitives :=
  { Sender.samplePrims with
    scalarBaseMult := fun _ => List.replicate 32 0
    xsecretboxSeal := fun _ m _ => List.replicate 16 0 ++ m
    secretboxSeal := fun m _ _ => List.replicate 16 0 ++ m
    xsecretboxOpen := fun _ box _ => .ok (box.drop 16)
    secretboxOpen := fun box _ _ => some (box.drop 16) }

theorem lawfulPrims_lawful : lawfulPrims.Lawful where
  xsecretbox_open_seal _ _ _ _ := congrArg Except.ok (List.drop_left' rfl)
  secretbox_open_seal _ _ _ _ := congrArg some (List.drop_left' rfl)
  xsecretboxSeal_length _ _ _ := List.length_append.trans (Nat.add_comm _ _)
  secretboxSeal_length _ _ _ := List.length_append.trans (Nat.add_comm _ _)
  scalarBaseMult_length _ := List.length_replicate

def keys : ProxyKeys := ⟨false, List.replicate 32 1, List.replicate 32 2⟩

def entropy : Entropy := (answering 0).entropy

/-- Padded for UDP by the first estimate, a query takes nine buckets. -/
theorem encrypt_output_sample : Estimated initialMinQuestionSize ∧
    ∃ out, encrypt lawfulPrims keys initialMinQuestionSize (server .dnscrypt) queryPacket .udp
      entropy = .ok out ∧ out.encrypted.length = 9 * 64 := by
  obtain ⟨-, ⟨length, hpadded, -, hout⟩, -⟩ := @encrypt_output lawfulPrims keys
    initialMinQuestionSize (server .dnscrypt) queryPacket .udp entropy lawfulPrims_lawful rfl rfl
    .initial
  refine ⟨.initial, _, rfl, ?_⟩
  rw [(hout _ rfl).1]
  exact bucketed_iff.mp hpadded

/-- A response that holds a packet of the least length. -/
theorem decrypt_accepts_sample : entropy.clientNonce.length = halfNonceSize ∧
    decrypt lawfulPrims (server .dnscrypt) []
      (serverMagic ++ List.replicate 24 6 ++
        (List.replicate 16 0 ++ (List.replicate 17 1 ++ [0x80, 0])))
      entropy.clientNonce = (List.replicate 17 1, none) :=
  ⟨rfl, ((decrypt_accepts lawfulPrims (server .dnscrypt) [] _ rfl).1 _).mpr
    ⟨⟨by decide, by decide⟩, List.replicate 24 6, _, 1, rfl, rfl, rfl, rfl, by decide⟩⟩

end Sample

end DnscryptProxy
