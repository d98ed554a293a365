import DnscryptProxy.Crypto

/-! `oblivious_doh.go`: the encryption of a query for an ODoH target and of its
answer. HPKE is a parameter. Slices are taken as Go takes them, so a length that
does not fit is a panic. -/

namespace DnscryptProxy

/-- The client's side of an HPKE context, by whatever identifies it. -/
abbrev ClientContext := Bytes

abbrev RawCipher := Bytes

/-- The HPKE functions the proxy calls. Their errors are texts, never network
errors. -/
structure HPKE where
  newClientContext : Suite → Bytes → Bytes → Except String (ClientContext × Bytes)
  encryptToServer : ClientContext → Bytes → Bytes → Except String Bytes
  exportSecret : ClientContext → Bytes → Nat → Except String Bytes
  extract : Suite → Bytes → Bytes → Bytes
  expand : Suite → Bytes → Bytes → Nat → Except String Bytes
  keyBytes : Suite → Nat
  nonceBytes : Suite → Nat
  newRawCipher : Suite → Bytes → Except String RawCipher
  openRaw : RawCipher → Bytes → Bytes → Bytes → Except String Bytes

def asciiBytes (s : String) : Bytes := s.toList.map fun c => UInt8.ofNat c.toNat

def encodeLengthValue (b : Bytes) : Bytes := putUint16 b.length ++ b

structure ODoHQuery where
  suite : Suite
  ctx : ClientContext
  odohPlaintext : Bytes
  odohMessage : Bytes
  deriving DecidableEq, Repr

def encryptQuery (hpke : HPKE) (t : ODoHTargetConfig) (query : Bytes) : Except String ODoHQuery := do
  let (clientCtx, encryptedSharedSecret) ←
    hpke.newClientContext t.suite t.publicKey (asciiBytes "odoh query")
  let odohPlaintext := putUint16 query.length ++ query ++ [0, 0]
  let aad := 0x01 :: t.keyID
  let ciphertext ← hpke.encryptToServer clientCtx odohPlaintext aad
  let encryptedMessage := encodeLengthValue (encryptedSharedSecret ++ ciphertext)
  return ⟨t.suite, clientCtx, odohPlaintext, 0x01 :: t.keyID ++ encryptedMessage⟩

/-- `b[lo:hi]`. The slices here have no spare capacity. -/
def slice (b : Bytes) (lo hi : Nat) : Except Panic Bytes :=
  if lo ≤ hi ∧ hi ≤ b.length then .ok ((b.take hi).drop lo) else .error .indexOutOfRange

theorem slice_ok {b : Bytes} {lo hi : Nat} (hlo : lo ≤ hi) (hhi : hi ≤ b.length) :
    slice b lo hi = .ok ((b.take hi).drop lo) := if_pos ⟨hlo, hhi⟩

theorem slice_error {b : Bytes} {lo hi : Nat} (h : ¬ (lo ≤ hi ∧ hi ≤ b.length)) :
    slice b lo hi = .error .indexOutOfRange := if_neg h

/-- The loop that compares the bytes from `i` to `n` with zero, in the encrypted
response. -/
def zeroFrom (response : Bytes) (i : Nat) : Nat → Except Panic Bool
  | 0 => .ok true
  | n + 1 =>
    match response[i]? with
    | none => .error .indexOutOfRange
    | some b => do
      let valid ← zeroFrom response (i + 1) n
      return b = 0x00 && valid

/-- The end of `decryptResponse`: the message inside an opened plaintext. -/
def responseMessage (response responsePlaintext : Bytes) : Except Panic (Except GoError Bytes) := do
  let length ← slice responsePlaintext 0 2
  let responseLength := uint16 (length.getD 0 0) (length.getD 1 0)
  let valid ← zeroFrom response (4 + responseLength) (responsePlaintext.length - (4 + responseLength))
  if !valid then return .error (.plain "Malformed response")
  let message ← slice responsePlaintext 2 (2 + responseLength)
  return .ok message

/-- The key schedule and the opening of the ciphertext. -/
def openResponse (hpke : HPKE) (q : ODoHQuery) (responseNonceEnc ct aad : Bytes) (ctFits : Bool) :
    Except GoError Bytes := do
  let secret ← (hpke.exportSecret q.ctx (asciiBytes "odoh response")
    (hpke.keyBytes q.suite)).mapError .plain
  let prk := hpke.extract q.suite secret (q.odohPlaintext ++ responseNonceEnc)
  let key ← (hpke.expand q.suite prk (asciiBytes "odoh key") (hpke.keyBytes q.suite)).mapError .plain
  let nonce ← (hpke.expand q.suite prk (asciiBytes "odoh nonce")
    (hpke.nonceBytes q.suite)).mapError .plain
  let cipher ← (hpke.newRawCipher q.suite key).mapError .plain
  if !ctFits then .error (.plain "Malformed response")
  else (hpke.openRaw cipher nonce ct aad).mapError .plain

def decryptResponse (hpke : HPKE) (q : ODoHQuery) (response : Bytes) :
    Except Panic (Except GoError Bytes) :=
  match response with
  | messageType :: hi :: lo :: _ =>
    if messageType ≠ 0x02 then .ok (.error (.plain "Malformed response"))
    else
      let responseNonceLength := uint16 hi lo
      if response.length < 5 + responseNonceLength then
        .ok (.error (.plain "Malformed response"))
      else do
        -- the bound of this slice is computed in 16 bits
        let responseNonceEnc ← slice response 1 ((3 + responseNonceLength) % 65536)
        let ct := response.drop (5 + responseNonceLength)
        let ctLength := uint16 (response.getD (3 + responseNonceLength) 0)
          (response.getD (4 + responseNonceLength) 0)
        let aad := response.take (3 + responseNonceLength)
        match openResponse hpke q responseNonceEnc ct aad (ctLength = ct.length) with
        | .error e => return .error e
        | .ok responsePlaintext => responseMessage response responsePlaintext
  | _ => .ok (.error (.plain "Malformed response"))

end DnscryptProxy
