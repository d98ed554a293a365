import DnscryptProxy.State

/-! The servers as `serversInfo.go` describes them, and `crypto.go`: the padding and
the encryption of a DNSCrypt query and of its answer. The primitives themselves
are parameters; so is every random byte. -/

namespace DnscryptProxy

/-! ## Servers -/

/-- A `*net.UDPAddr` or `*net.TCPAddr` of a server or relay. Their addresses are
parsed from stamps, so they are IPv4 or IPv6 addresses. -/
structure Endpoint where
  ip : IP
  port : UInt16
  ip_length : ip.length = 4 ∨ ip.length = 16
  deriving DecidableEq

/-- The 16-byte form, `ip.To16()`. -/
def Endpoint.ip16 (e : Endpoint) : Bytes := ((IP.to16 e.ip).getD [])

theorem Endpoint.ip16_length (e : Endpoint) : e.ip16.length = 16 := by
  unfold ip16 IP.to16
  rcases e.ip_length with h | h
  · simp [h, IP.v4InV6Prefix]
  · simp [h]

inductive StampProto where
  | dnscrypt
  | doh
  | tls
  | odohTarget
  | other
  deriving DecidableEq, Repr

inductive CryptoConstruction where
  | undefined
  | xSalsa20Poly1305
  | xChacha20Poly1305
  deriving DecidableEq, Repr

structure DNSCryptRelay where
  relayUDPAddr : Endpoint
  relayTCPAddr : Endpoint
  deriving DecidableEq

/-- A relay for either protocol; the URL of an ODoH relay is kept as its text. -/
structure Relay where
  dnscrypt : Option DNSCryptRelay
  odoh : Option Text
  deriving DecidableEq

/-- An HPKE suite, by its three numbers. -/
structure Suite where
  kemID : UInt16
  kdfID : UInt16
  aeadID : UInt16
  deriving DecidableEq, Repr

structure ODoHTargetConfig where
  suite : Suite
  keyID : Bytes
  publicKey : Bytes
  deriving DecidableEq, Repr

/-- The parts of a `ServerInfo` that an exchange reads. -/
structure ServerInfo where
  name : Text
  proto : StampProto
  udpAddr : Endpoint
  tcpAddr : Endpoint
  relay : Option Relay
  url : Text
  useGet : Bool
  cryptoConstruction : CryptoConstruction
  serverPk : Bytes
  sharedKey : Bytes
  magicQuery : Bytes
  fragmentsBlocked : Bool
  odohTargetConfigs : List ODoHTargetConfig
  deriving DecidableEq

/-- `serverInfo.Relay != nil && serverInfo.Relay.Dnscrypt != nil` -/
def ServerInfo.dnscryptRelay (serverInfo : ServerInfo) : Option DNSCryptRelay :=
  serverInfo.relay.bind (·.dnscrypt)

/-! ## Padding -/

def pad (packet : Bytes) (minSize : Nat) : Bytes :=
  let packet := packet ++ [0x80]
  packet ++ List.replicate (minSize - packet.length) 0

/-- The loop of `unpad`, over the packet from its end. -/
def unpadFrom : Bytes → Except GoError Bytes
  | [] => .error (.plain "Invalid padding (short packet)")
  | b :: rest =>
    if b = 0x80 then .ok rest.reverse
    else if b ≠ 0x00 then .error (.plain "Invalid padding (delimiter not found)")
    else unpadFrom rest

def unpad (packet : Bytes) : Except GoError Bytes := unpadFrom packet.reverse

/-! ## Queries and responses -/

def nonceSize : Nat := 24
def halfNonceSize : Nat := nonceSize / 2
def tagSize : Nat := 16

/-- The primitives. `secretbox.Open` only tells whether it succeeded; the error of
`xsecretbox.Open` is a text, never a network error. -/
structure Primitives where
  sum512_256 : Bytes → Bytes
  scalarBaseMult : Bytes → Bytes
  xsecretboxSharedKey : Bytes → Bytes → Bytes
  boxPrecompute : Bytes → Bytes → Bytes
  xsecretboxSeal : Bytes → Bytes → Bytes → Bytes
  secretboxSeal : Bytes → Bytes → Bytes → Bytes
  xsecretboxOpen : Bytes → Bytes → Bytes → Except String Bytes
  secretboxOpen : Bytes → Bytes → Bytes → Option Bytes

structure ProxyKeys where
  ephemeralKeys : Bool
  proxySecretKey : Bytes
  proxyPublicKey : Bytes
  deriving DecidableEq, Repr

/-- The random bytes one `Encrypt` draws; the key replaces a weak one. -/
structure Entropy where
  clientNonce : Bytes
  xpad : UInt8
  key : Bytes
  clientNonce_length : clientNonce.length = halfNonceSize
  deriving DecidableEq

def computeSharedKey (prims : Primitives) (construction : CryptoConstruction)
    (secretKey serverPk fresh : Bytes) : Bytes :=
  if construction = .xChacha20Poly1305 then prims.xsecretboxSharedKey secretKey serverPk
  else
    let sharedKey := prims.boxPrecompute serverPk secretKey
    if sharedKey.all (· = 0) then fresh else sharedKey

structure Encrypted where
  sharedKey : Bytes
  encrypted : Bytes
  clientNonce : Bytes
  deriving DecidableEq, Repr

/-- The length a query of `queryLen` bytes is padded to, for the given transport. -/
def paddedLength (minQuestionSize : Nat) (serverInfo : ServerInfo) (queryLen : Nat)
    (proto : NetProto) (xpad : UInt8) : Nat :=
  let least := queryOverhead + queryLen
  let least := match proto with
    | .udp => max minQuestionSize least
    | .tcp => least + xpad.toNat
  if serverInfo.fragmentsBlocked ∧ proto = .udp then maxDNSUDPSafePacketSize
  else if serverInfo.relay.isSome ∧ proto = .tcp then maxDNSPacketSize
  else min maxDNSUDPPacketSize ((max least queryOverhead + 1 + 63) / 64 * 64)

def encrypt (prims : Primitives) (keys : ProxyKeys) (minQuestionSize : Nat)
    (serverInfo : ServerInfo) (packet : Bytes) (proto : NetProto) (entropy : Entropy) :
    Except GoError Encrypted :=
  let clientNonce := entropy.clientNonce
  let nonce := clientNonce ++ List.replicate halfNonceSize 0
  let (sharedKey, publicKey) :=
    if keys.ephemeralKeys then
      let ephSk := prims.sum512_256 (clientNonce ++ keys.proxySecretKey)
      (computeSharedKey prims serverInfo.cryptoConstruction ephSk serverInfo.serverPk entropy.key,
        prims.scalarBaseMult ephSk)
    else (serverInfo.sharedKey, keys.proxyPublicKey)
  let paddedLength := paddedLength minQuestionSize serverInfo packet.length proto entropy.xpad
  if queryOverhead + packet.length + 1 > paddedLength then
    .error (.plain "Question too large; cannot be padded")
  else
    let padded := pad packet (paddedLength - queryOverhead)
    let box := if serverInfo.cryptoConstruction = .xChacha20Poly1305
      then prims.xsecretboxSeal nonce padded sharedKey
      else prims.secretboxSeal padded nonce sharedKey
    .ok ⟨sharedKey, serverInfo.magicQuery ++ publicKey ++ clientNonce ++ box, clientNonce⟩

/-- The box of a response, opened. -/
def openBox (prims : Primitives) (construction : CryptoConstruction)
    (nonce box sharedKey : Bytes) : Except GoError Bytes :=
  if construction = .xChacha20Poly1305 then
    (prims.xsecretboxOpen nonce box sharedKey).mapError .plain
  else match prims.secretboxOpen box nonce sharedKey with
    | some packet => .ok packet
    | none => .error (.plain "Incorrect tag")

/-- `Decrypt`. With an error it still returns bytes: those that it was given. -/
def decrypt (prims : Primitives) (serverInfo : ServerInfo) (sharedKey encrypted nonce : Bytes) :
    Bytes × Option GoError :=
  let serverMagicLen := serverMagic.length
  let responseHeaderLen := serverMagicLen + nonceSize
  if encrypted.length < responseHeaderLen + tagSize + minDNSPacketSize ∨
      encrypted.length > responseHeaderLen + tagSize + maxDNSPacketSize ∨
      encrypted.take serverMagicLen ≠ serverMagic then
    (encrypted, some (.plain "Invalid message size or prefix"))
  else
    let serverNonce := (encrypted.drop serverMagicLen).take nonceSize
    if nonce.take halfNonceSize ≠ serverNonce.take halfNonceSize then
      (encrypted, some (.plain "Unexpected nonce"))
    else
      match openBox prims serverInfo.cryptoConstruction serverNonce
          (encrypted.drop responseHeaderLen) sharedKey with
      | .error e => (encrypted, some e)
      | .ok packet =>
        match unpad packet with
        | .error _ => (encrypted, some (.plain "Incorrect padding"))
        | .ok packet =>
          if packet.length < minDNSPacketSize then
            (encrypted, some (.plain "Incorrect padding"))
          else (packet, none)

theorem decrypt_rejects {prims : Primitives} {serverInfo : ServerInfo}
    {sharedKey encrypted nonce data : Bytes} {e : GoError}
    (h : decrypt prims serverInfo sharedKey encrypted nonce = (data, some e)) :
    data = encrypted ∧ e.isTimeout = false := by
  have hopen : ∀ n b k e, openBox prims serverInfo.cryptoConstruction n b k = .error e →
      e.isTimeout = false := by
    intro n b k e he
    unfold openBox at he
    split at he
    · cases hx : prims.xsecretboxOpen n b k <;> rw [hx] at he <;> cases he
      rfl
    · split at he <;> cases he
      rfl
  unfold decrypt at h
  dsimp only at h
  split at h
  · cases h
    exact ⟨rfl, rfl⟩
  · split at h
    · cases h
      exact ⟨rfl, rfl⟩
    · split at h
      · next e' he =>
        cases h
        exact ⟨rfl, hopen _ _ _ _ he⟩
      · split at h
        · cases h
          exact ⟨rfl, rfl⟩
        · split at h <;> cases h
          exact ⟨rfl, rfl⟩

end DnscryptProxy
