import DnscryptProxy.Sealing

/-! DNSCrypt queries over a network that somebody else controls. Any number of goroutines
encrypt queries; the server opens boxes and seals answers to them; and whoever controls the
network delivers any bytes at any time. The only limit is that a box that opens under the key of
a session holds what the proxy or the server has sealed with that key and nonce.

`accepted_agrees`: over every interleaving, what `Decrypt` accepts for a query is an answer of the
server to that very query, or the query itself.

The server is not a part of this repository: `Answer` is the little that is assumed of it. -/

namespace DnscryptProxy

namespace Sessions

def zeroHalf : Bytes := List.replicate halfNonceSize 0

/-- What the proxy or the server has put into a box. -/
structure Sealed where
  construction : CryptoConstruction
  key : Bytes
  nonce : Bytes
  padded : Bytes
  deriving DecidableEq

/-- A query that `Encrypt` has sealed, with all that went into it. -/
structure Session (prims : Primitives) where
  keys : ProxyKeys
  minQuestionSize : Nat
  serverInfo : ServerInfo
  packet : Bytes
  proto : NetProto
  entropy : Entropy
  sent : Encrypted
  encrypts : encrypt prims keys minQuestionSize serverInfo packet proto entropy = .ok sent

/-- An answer that the server has sealed. Its half of the nonce is not that of a query. -/
structure Answer where
  construction : CryptoConstruction
  key : Bytes
  clientNonce : Bytes
  serverNonce : Bytes
  query : Bytes
  response : Bytes
  minSize : Nat
  clientNonce_length : clientNonce.length = halfNonceSize
  serverNonce_length : serverNonce.length = halfNonceSize
  serverNonce_ne : serverNonce ≠ zeroHalf

def Answer.sealed (a : Answer) : Sealed :=
  ⟨a.construction, a.key, a.clientNonce ++ a.serverNonce, pad a.response a.minSize⟩

variable {prims : Primitives}

namespace Session

/-- The length that the packet of a query is padded to. -/
def minSize (s : Session prims) : Nat :=
  paddedLength s.minQuestionSize s.serverInfo s.packet.length s.proto s.entropy.xpad - queryOverhead

def sealed (s : Session prims) : Sealed :=
  ⟨s.serverInfo.cryptoConstruction, s.sent.sharedKey, s.sent.clientNonce ++ zeroHalf,
    pad s.packet s.minSize⟩

theorem clientNonce_length (s : Session prims) : s.sent.clientNonce.length = halfNonceSize := by
  rw [(encrypt_ok s.encrypts).2.1, s.entropy.clientNonce_length]

/-- The exchanges of `proxy.go`, for this query. -/
def overUDP (s : Session prims) (dialer : Dialer) (conn : UDPConn) : Exchanged :=
  exchangeWithUDPServer prims dialer s.serverInfo s.sent.sharedKey s.sent.encrypted
    s.sent.clientNonce conn

def overTCP (s : Session prims) (dialer : Dialer) (conn : TCPConn) : Exchanged :=
  exchangeWithTCPServer prims dialer s.serverInfo s.sent.sharedKey s.sent.encrypted
    s.sent.clientNonce conn

end Session

/-- An answer of the server to the query of a session. -/
structure Answer.To (a : Answer) (s : Session prims) : Prop where
  construction : a.construction = s.serverInfo.cryptoConstruction
  key : a.key = s.sent.sharedKey
  clientNonce : a.clientNonce = s.sent.clientNonce
  query : a.query = s.packet

/-! ## Datagrams -/

def nonceOf (datagram : Bytes) : Bytes := (datagram.drop serverMagic.length).take nonceSize

def boxOf (datagram : Bytes) : Bytes := datagram.drop (serverMagic.length + nonceSize)

theorem decrypt_eq_none {serverInfo : ServerInfo} {sharedKey datagram nonce packet : Bytes}
    (h : decrypt prims serverInfo sharedKey datagram nonce = (packet, none)) :
    nonce.take halfNonceSize = (nonceOf datagram).take halfNonceSize ∧
      ∃ padded, openBox prims serverInfo.cryptoConstruction (nonceOf datagram) (boxOf datagram)
          sharedKey = .ok padded ∧ unpad padded = .ok packet := by
  unfold decrypt at h
  dsimp only at h
  split at h
  · cases h
  · split at h
    · cases h
    · next hnonce =>
      refine ⟨not_not.mp hnonce, ?_⟩
      split at h
      · cases h
      · next padded hopen =>
        refine ⟨padded, hopen, ?_⟩
        split at h
        · cases h
        · next packet' hunpad =>
          split at h
          · cases h
          · cases h
            exact hunpad

/-- The bytes that a read of the socket may hand to `Decrypt`. -/
def UDPConn.Delivers (conn : UDPConn) (datagram : Bytes) : Prop :=
  ∃ reply, (conn.first.read = .ok reply ∨ conn.second.read = .ok reply) ∧
    datagram = reply.take maxDNSPacketSize

def TCPConn.Delivers (conn : TCPConn) (datagram : Bytes) : Prop :=
  readPrefixed conn.reads = .ok datagram

theorem udpTries_ok {addr : Endpoint} {query bytes : Bytes} {attempts : List Attempt}
    (h : (udpTries addr query attempts).1 = .ok bytes) :
    bytes = List.replicate maxDNSPacketSize 0 ∨
      ∃ attempt ∈ attempts, ∃ reply, attempt.read = .ok reply ∧
        bytes = reply.take maxDNSPacketSize := by
  induction attempts with
  | nil =>
    simp only [udpTries, Except.ok.injEq] at h
    exact .inl h.symm
  | cons attempt attempts ih =>
    simp only [udpTries] at h
    cases hwrite : attempt.write with
    | some e => simp [hwrite] at h
    | none =>
      cases hread : attempt.read with
      | ok reply =>
        simp only [hwrite, hread, Except.ok.injEq] at h
        exact .inr ⟨attempt, by simp, reply, hread, h.symm⟩
      | error e =>
        simp only [hwrite, hread] at h
        rcases ih h with hbuffer | ⟨attempt', hmem, reply, hreply⟩
        · exact .inl hbuffer
        · exact .inr ⟨attempt', by simp [hmem], reply, hreply⟩

theorem decrypt_buffer (serverInfo : ServerInfo) (sharedKey nonce : Bytes) :
    (decrypt prims serverInfo sharedKey (List.replicate maxDNSPacketSize 0) nonce).2 ≠ none := by
  have hmagic : (List.replicate maxDNSPacketSize (0 : UInt8)).take serverMagic.length ≠
      serverMagic := by
    rw [List.take_replicate]
    decide
  rw [decrypt, if_pos (.inr (.inr hmagic))]
  simp

namespace Session

variable {s : Session prims} {dialer : Dialer} {packet : Bytes} {ops : List NetOp}

theorem overUDP_accepts {conn : UDPConn} (h : s.overUDP dialer conn = ⟨packet, none, ops⟩) :
    ∃ datagram, UDPConn.Delivers conn datagram ∧
      decrypt prims s.serverInfo s.sent.sharedKey datagram s.sent.clientNonce = (packet, none) := by
  unfold overUDP exchangeWithUDPServer at h
  cases hdial : conn.dial with
  | some e => simp [hdial] at h
  | none =>
    cases hdeadline : conn.setDeadline with
    | some e => simp [hdial, hdeadline] at h
    | none =>
      simp only [hdial, hdeadline] at h
      split at h
      · cases h
      · next datagram tried htries =>
        obtain ⟨hdata, herr, -⟩ := Exchanged.mk.injEq .. ▸ h
        have hdec : decrypt prims s.serverInfo s.sent.sharedKey datagram s.sent.clientNonce =
            (packet, none) := Prod.ext hdata herr
        rcases udpTries_ok (congrArg Prod.fst htries) with rfl | ⟨attempt, hmem, reply, hread, hcut⟩
        · exact absurd herr (decrypt_buffer _ _ _)
        · refine ⟨datagram, ⟨reply, ?_, hcut⟩, hdec⟩
          simp only [List.mem_cons, List.not_mem_nil, or_false] at hmem
          rcases hmem with rfl | rfl
          · exact .inl hread
          · exact .inr hread

theorem overTCP_accepts {conn : TCPConn} (h : s.overTCP dialer conn = ⟨packet, none, ops⟩) :
    ∃ datagram, TCPConn.Delivers conn datagram ∧
      decrypt prims s.serverInfo s.sent.sharedKey datagram s.sent.clientNonce = (packet, none) := by
  unfold overTCP exchangeWithTCPServer at h
  cases hdial : conn.dial with
  | some e => simp [hdial] at h
  | none =>
    cases hdeadline : conn.setDeadline with
    | some e => simp [hdial, hdeadline] at h
    | none =>
      simp only [hdial, hdeadline] at h
      split at h
      · cases h
      · cases hwrite : conn.write with
        | some e => simp [hwrite] at h
        | none =>
          simp only [hwrite] at h
          split at h
          · cases h
          · next datagram hread =>
            obtain ⟨hdata, herr, -⟩ := Exchanged.mk.injEq .. ▸ h
            exact ⟨datagram, hread, Prod.ext hdata herr⟩

end Session

/-! ## The network -/

structure Wire (prims : Primitives) where
  sessions : List (Session prims)
  answers : List Answer
  accepted : List (Session prims × Bytes)

namespace Wire

/-- Everything that was sealed so far. -/
def sealed (w : Wire prims) : List Sealed :=
  w.sessions.map Session.sealed ++ w.answers.map Answer.sealed

/-- The limit of whoever controls the network: a box is not forged. -/
def Unforged (w : Wire prims) (construction : CryptoConstruction) (key nonce box : Bytes) : Prop :=
  ∀ padded, openBox prims construction nonce box key = .ok padded →
    ⟨construction, key, nonce, padded⟩ ∈ w.sealed

/-- Bytes that may be delivered to a session. -/
def Admits (w : Wire prims) (s : Session prims) (datagram : Bytes) : Prop :=
  w.Unforged s.serverInfo.cryptoConstruction s.sent.sharedKey (nonceOf datagram) (boxOf datagram)

def accept (w : Wire prims) (s : Session prims) (packet : Bytes) : Wire prims :=
  { w with accepted := (s, packet) :: w.accepted }

end Wire

inductive Step (dialer : Dialer) : Wire prims → Wire prims → Prop where
  /-- A goroutine encrypts a query. The client's half of the nonce is random; no two queries
  draw the same one. -/
  | query {w : Wire prims} (s : Session prims)
      (fresh : ∀ t ∈ w.sessions, t.sent.clientNonce ≠ s.sent.clientNonce) :
      Step dialer w { w with sessions := s :: w.sessions }
  /-- The server opens a box that came with the nonce of a query, and seals an answer. -/
  | answer {w : Wire prims} (a : Answer) (box padded : Bytes)
      (unforged : w.Unforged a.construction a.key (a.clientNonce ++ zeroHalf) box)
      (opens : openBox prims a.construction (a.clientNonce ++ zeroHalf) box a.key = .ok padded)
      (query : unpad padded = .ok a.query) :
      Step dialer w { w with answers := a :: w.answers }
  /-- An exchange returns. What its socket delivers is up to whoever controls the network. -/
  | udp {w : Wire prims} (s : Session prims) (conn : UDPConn) (packet : Bytes) (ops : List NetOp)
      (mem : s ∈ w.sessions) (admits : ∀ datagram, UDPConn.Delivers conn datagram → w.Admits s datagram)
      (returns : s.overUDP dialer conn = ⟨packet, none, ops⟩) : Step dialer w (w.accept s packet)
  | tcp {w : Wire prims} (s : Session prims) (conn : TCPConn) (packet : Bytes) (ops : List NetOp)
      (mem : s ∈ w.sessions) (admits : ∀ datagram, TCPConn.Delivers conn datagram → w.Admits s datagram)
      (returns : s.overTCP dialer conn = ⟨packet, none, ops⟩) : Step dialer w (w.accept s packet)

/-- The states that are reached before anything, and by steps in any order. -/
inductive Reachable (dialer : Dialer) : Wire prims → Prop where
  | start : Reachable dialer ⟨[], [], []⟩
  | step {w w' : Wire prims} (h : Reachable dialer w) (hstep : Step dialer w w') :
      Reachable dialer w'

/-! ## Agreement -/

theorem Wire.sealed_query {w : Wire prims} {construction : CryptoConstruction}
    {key clientNonce padded : Bytes} (hlen : clientNonce.length = halfNonceSize)
    (hmem : ⟨construction, key, clientNonce ++ zeroHalf, padded⟩ ∈ w.sealed) :
    ∃ s ∈ w.sessions, s.sealed = ⟨construction, key, clientNonce ++ zeroHalf, padded⟩ ∧
      s.sent.clientNonce = clientNonce := by
  simp only [Wire.sealed, List.mem_append, List.mem_map] at hmem
  rcases hmem with ⟨s, hs, hsealed⟩ | ⟨a, ha, hsealed⟩
  · refine ⟨s, hs, hsealed, ?_⟩
    have hnonce : s.sent.clientNonce ++ zeroHalf = clientNonce ++ zeroHalf :=
      congrArg Sealed.nonce hsealed
    exact List.append_cancel_right hnonce
  · -- the server's half of the nonce is another
    have hnonce : a.clientNonce ++ a.serverNonce = clientNonce ++ zeroHalf :=
      congrArg Sealed.nonce hsealed
    exact absurd (List.append_inj_right hnonce (by rw [a.clientNonce_length, hlen])) a.serverNonce_ne

/-- What an accepted packet may be. -/
def Wire.Agrees (w : Wire prims) (s : Session prims) (packet : Bytes) : Prop :=
  packet = s.packet ∨ ∃ a ∈ w.answers, a.To s ∧ a.response = packet

structure Sound (w : Wire prims) : Prop where
  /-- The client's nonce tells the sessions apart. -/
  fresh : ∀ s ∈ w.sessions, ∀ t ∈ w.sessions, s.sent.clientNonce = t.sent.clientNonce → s = t
  answered : ∀ a ∈ w.answers, ∃ s ∈ w.sessions, a.To s
  agrees : ∀ e ∈ w.accepted, w.Agrees e.1 e.2

namespace Sound

variable {w w' : Wire prims} {s : Session prims} {dialer : Dialer}

theorem query (h : Sound w) (hfresh : ∀ t ∈ w.sessions, t.sent.clientNonce ≠ s.sent.clientNonce) :
    Sound { w with sessions := s :: w.sessions } where
  fresh := by
    intro t ht u hu hnonce
    rcases List.mem_cons.mp ht with rfl | ht'
    · rcases List.mem_cons.mp hu with rfl | hu'
      · rfl
      · exact absurd hnonce.symm (hfresh u hu')
    · rcases List.mem_cons.mp hu with rfl | hu'
      · exact absurd hnonce (hfresh t ht')
      · exact h.fresh t ht' u hu' hnonce
  answered a ha := by
    obtain ⟨t, ht, hto⟩ := h.answered a ha
    exact ⟨t, List.mem_cons_of_mem s ht, hto⟩
  agrees := h.agrees

/-- The box that the server answers was sealed for a session. -/
theorem answer (h : Sound w) {a : Answer} {box padded : Bytes}
    (hunforged : w.Unforged a.construction a.key (a.clientNonce ++ zeroHalf) box)
    (hopens : openBox prims a.construction (a.clientNonce ++ zeroHalf) box a.key = .ok padded)
    (hquery : unpad padded = .ok a.query) : Sound { w with answers := a :: w.answers } where
  fresh := h.fresh
  answered := by
    intro b hb
    rcases List.mem_cons.mp hb with rfl | hb
    · obtain ⟨s, hs, hsealed, hnonce⟩ :=
        Wire.sealed_query b.clientNonce_length (hunforged padded hopens)
      have hpadded : pad s.packet s.minSize = padded := congrArg Sealed.padded hsealed
      rw [← hpadded, unpad_pad] at hquery
      refine ⟨s, hs, (congrArg Sealed.construction hsealed).symm,
        (congrArg Sealed.key hsealed).symm, hnonce.symm, ?_⟩
      exact (Except.ok.inj hquery).symm
    · exact h.answered b hb
  agrees := by
    intro e he
    rcases h.agrees e he with hself | ⟨b, hb, hto⟩
    · exact .inl hself
    · exact .inr ⟨b, List.mem_cons_of_mem a hb, hto⟩

theorem decrypted (h : Sound w) (hs : s ∈ w.sessions) {datagram packet : Bytes}
    (hadmits : w.Admits s datagram)
    (hdec : decrypt prims s.serverInfo s.sent.sharedKey datagram s.sent.clientNonce =
      (packet, none)) : w.Agrees s packet := by
  obtain ⟨hhalf, padded, hopen, hunpad⟩ := decrypt_eq_none hdec
  rw [List.take_of_length_le s.clientNonce_length.le] at hhalf
  have hmem := hadmits padded hopen
  simp only [Wire.sealed, List.mem_append, List.mem_map] at hmem
  rcases hmem with ⟨t, ht, hsealed⟩ | ⟨a, ha, hsealed⟩
  · have hnonce : t.sent.clientNonce ++ zeroHalf = nonceOf datagram := congrArg Sealed.nonce hsealed
    rw [← hnonce, List.take_left' t.clientNonce_length] at hhalf
    cases h.fresh s hs t ht hhalf
    have hpadded : pad s.packet s.minSize = padded := congrArg Sealed.padded hsealed
    rw [← hpadded, unpad_pad] at hunpad
    exact .inl (Except.ok.inj hunpad).symm
  · have hnonce : a.clientNonce ++ a.serverNonce = nonceOf datagram := congrArg Sealed.nonce hsealed
    rw [← hnonce, List.take_left' a.clientNonce_length] at hhalf
    obtain ⟨t, ht, hto⟩ := h.answered a ha
    cases h.fresh s hs t ht (hhalf.trans hto.clientNonce)
    have hpadded : pad a.response a.minSize = padded := congrArg Sealed.padded hsealed
    rw [← hpadded, unpad_pad] at hunpad
    exact .inr ⟨a, ha, hto, Except.ok.inj hunpad⟩

theorem accept (h : Sound w) {packet : Bytes} (hagrees : w.Agrees s packet) :
    Sound (w.accept s packet) where
  fresh := h.fresh
  answered := h.answered
  agrees := by
    intro e he
    rcases List.mem_cons.mp he with rfl | he
    · exact hagrees
    · exact h.agrees e he

theorem step (h : Sound w) (hstep : Step dialer w w') : Sound w' := by
  cases hstep with
  | query s fresh => exact h.query fresh
  | answer a box padded unforged opens query => exact h.answer unforged opens query
  | udp s conn packet ops mem admits returns =>
    obtain ⟨datagram, hdelivers, hdec⟩ := Session.overUDP_accepts returns
    exact h.accept (h.decrypted mem (admits datagram hdelivers) hdec)
  | tcp s conn packet ops mem admits returns =>
    obtain ⟨datagram, hdelivers, hdec⟩ := Session.overTCP_accepts returns
    exact h.accept (h.decrypted mem (admits datagram hdelivers) hdec)

end Sound

theorem Reachable.sound {dialer : Dialer} {w : Wire prims} (h : Reachable dialer w) : Sound w := by
  induction h with
  | start => constructor <;> simp
  | step _ hstep ih => exact ih.step hstep

/-- **Agreement**: in every run, a packet that was accepted for a query is an answer that the
server gave to that very query, or the query itself. -/
theorem accepted_agrees (dialer : Dialer) (w : Wire prims) (h : Reachable dialer w)
    (s : Session prims) (packet : Bytes) (haccepted : (s, packet) ∈ w.accepted) :
    packet = s.packet ∨ ∃ a ∈ w.answers, a.To s ∧ a.response = packet :=
  h.sound.agrees _ haccepted

/-! ## What is accepted -/

/-- The response that carries a box. -/
def Sealed.datagram (prims : Primitives) (b : Sealed) : Bytes :=
  serverMagic ++ b.nonce ++ sealBox prims b.construction b.nonce b.padded b.key

/-- A network that replies with the same bytes to every query. -/
def replying (datagram : Bytes) : UDPConn :=
  ⟨none, none, ⟨none, .ok datagram⟩, ⟨none, .ok datagram⟩⟩

section Accepting

variable (lawful : prims.Lawful) {w : Wire prims} {s : Session prims} {b : Sealed}
  {packet : Bytes} (hnonce : b.nonce.length = nonceSize)

include lawful in
theorem datagram_length : (b.datagram prims).length =
    serverMagic.length + b.nonce.length + (b.padded.length + tagSize) := by
  simp only [Sealed.datagram, List.length_append, lawful.sealBox_length]

include hnonce in
theorem datagram_parts : (b.datagram prims).take serverMagic.length = serverMagic ∧
    nonceOf (b.datagram prims) = b.nonce ∧
    boxOf (b.datagram prims) = sealBox prims b.construction b.nonce b.padded b.key :=
  take_append_header rfl hnonce

variable (hconstruction : b.construction = s.serverInfo.cryptoConstruction)
  (hkey : b.key = s.sent.sharedKey)

include lawful hnonce hconstruction hkey in
theorem openBox_datagram :
    openBox prims s.serverInfo.cryptoConstruction (nonceOf (b.datagram prims))
      (boxOf (b.datagram prims)) s.sent.sharedKey = .ok b.padded := by
  have hn : nonceOf (b.datagram prims) = b.nonce := (datagram_parts hnonce).2.1
  have hb : boxOf (b.datagram prims) = sealBox prims b.construction b.nonce b.padded b.key :=
    (datagram_parts hnonce).2.2
  rw [hn, hb, ← hconstruction, ← hkey, lawful.openBox_sealBox _ _ _ hnonce]

include lawful hnonce hconstruction hkey in
theorem admits_datagram (hmem : b ∈ w.sealed) : w.Admits s (b.datagram prims) := by
  intro padded hopen
  rw [openBox_datagram lawful hnonce hconstruction hkey] at hopen
  cases hopen
  rw [(datagram_parts hnonce).2.1, ← hconstruction, ← hkey]
  exact hmem

variable (hhalf : b.nonce.take halfNonceSize = s.sent.clientNonce)
  (hunpad : unpad b.padded = .ok packet) (hmin : minDNSPacketSize ≤ packet.length)
  (hmax : b.padded.length + responseOverhead ≤ maxDNSPacketSize)

include lawful hnonce hconstruction hkey hhalf hunpad hmin hmax in
theorem decrypt_datagram :
    decrypt prims s.serverInfo s.sent.sharedKey (b.datagram prims) s.sent.clientNonce =
      (packet, none) := by
  have hmagic : (b.datagram prims).take serverMagic.length = serverMagic := (datagram_parts hnonce).1
  have hn : nonceOf (b.datagram prims) = b.nonce := (datagram_parts hnonce).2.1
  have hopen := openBox_datagram lawful hnonce hconstruction hkey
  have hlen := datagram_length (b := b) lawful
  obtain ⟨zeros, hpadded⟩ := unpad_eq_ok.mp hunpad
  have hlonger : packet.length ≤ b.padded.length := by
    rw [hpadded, List.length_append]
    exact Nat.le_add_right _ _
  have hover : responseOverhead = serverMagic.length + nonceSize + tagSize := rfl
  have hsize : ¬((b.datagram prims).length <
        serverMagic.length + nonceSize + tagSize + minDNSPacketSize ∨
      (b.datagram prims).length > serverMagic.length + nonceSize + tagSize + maxDNSPacketSize ∨
      (b.datagram prims).take serverMagic.length ≠ serverMagic) := by
    rw [hmagic, hlen, hnonce]
    simp only [ne_eq, not_true_eq_false, or_false]
    omega
  have hfirst : ¬s.sent.clientNonce.take halfNonceSize ≠
      ((List.drop serverMagic.length (b.datagram prims)).take nonceSize).take halfNonceSize := by
    rw [← nonceOf, hn, hhalf, List.take_of_length_le s.clientNonce_length.le]
    simp
  unfold nonceOf boxOf at hopen
  unfold decrypt
  rw [if_neg hsize, if_neg hfirst, hopen]
  simp only [hunpad]
  rw [if_neg (not_lt.mpr hmin)]

include lawful hnonce hmax in
theorem take_datagram : (b.datagram prims).take maxDNSPacketSize = b.datagram prims := by
  have hlen := datagram_length (b := b) lawful
  have hover : responseOverhead = serverMagic.length + nonceSize + tagSize := rfl
  exact List.take_of_length_le (by omega)

include lawful hnonce hconstruction hkey hhalf hunpad hmin hmax in
theorem overUDP_datagram (dialer : Dialer) :
    ∃ ops, s.overUDP dialer (replying (b.datagram prims)) = ⟨packet, none, ops⟩ := by
  simp only [Session.overUDP, exchangeWithUDPServer, replying, udpTries,
    take_datagram lawful hnonce hmax,
    decrypt_datagram lawful hnonce hconstruction hkey hhalf hunpad hmin hmax]
  exact ⟨_, rfl⟩

include lawful hnonce hconstruction hkey hhalf hunpad hmin hmax in
theorem step_datagram (dialer : Dialer) (hs : s ∈ w.sessions) (hmem : b ∈ w.sealed) :
    Step dialer w (w.accept s packet) := by
  obtain ⟨ops, hreturns⟩ :=
    overUDP_datagram lawful hnonce hconstruction hkey hhalf hunpad hmin hmax dialer
  refine .udp s _ packet ops hs ?_ hreturns
  rintro datagram ⟨reply, hread, rfl⟩
  have hreply : reply = b.datagram prims := by
    rcases hread with h | h
    · exact (Except.ok.inj h).symm
    · exact (Except.ok.inj h).symm
  rw [hreply, take_datagram lawful hnonce hmax]
  exact admits_datagram lawful hnonce hconstruction hkey hmem

end Accepting

theorem answered_accepted (lawful : prims.Lawful) {w : Wire prims} {s : Session prims} {a : Answer}
    (dialer : Dialer) (hs : s ∈ w.sessions) (ha : a ∈ w.answers) (hto : a.To s)
    (hmin : minDNSPacketSize ≤ a.response.length)
    (hmax : (pad a.response a.minSize).length + responseOverhead ≤ maxDNSPacketSize) :
    Step dialer w (w.accept s a.response) := by
  refine step_datagram (b := a.sealed) lawful ?_ hto.construction hto.key ?_
    (unpad_pad a.response a.minSize) hmin hmax dialer hs ?_
  · simp only [Answer.sealed, List.length_append, a.clientNonce_length, a.serverNonce_length]
    rfl
  · rw [← hto.clientNonce]
    exact List.take_left' a.clientNonce_length
  · exact List.mem_append_right _ (List.mem_map_of_mem ha)

end Sessions

namespace Sample

open Sessions

def session : Session lawfulPrims where
  keys := keys
  minQuestionSize := initialMinQuestionSize
  serverInfo := server .dnscrypt
  packet := queryPacket
  proto := .udp
  entropy := entropy
  sent :=
    { sharedKey := (server .dnscrypt).sharedKey
      encrypted := (server .dnscrypt).magicQuery ++ keys.proxyPublicKey ++ entropy.clientNonce ++
        sealBox lawfulPrims (server .dnscrypt).cryptoConstruction (entropy.clientNonce ++ zeroHalf)
          (pad queryPacket (9 * 64 - queryOverhead)) (server .dnscrypt).sharedKey
      clientNonce := entropy.clientNonce }
  encrypts := rfl

def sessionAnswer : Answer where
  construction := session.serverInfo.cryptoConstruction
  key := session.sent.sharedKey
  clientNonce := session.sent.clientNonce
  serverNonce := List.replicate 12 9
  query := queryPacket
  response := replyPacket 60
  minSize := 64
  clientNonce_length := session.clientNonce_length
  serverNonce_length := rfl
  serverNonce_ne := by decide

/-- One query, and its answer from the server. -/
def answeredNetwork : Wire lawfulPrims := ⟨[session], [sessionAnswer], [(session, replyPacket 60)]⟩

theorem answeredNetwork_reachable : Sessions.Reachable .direct answeredNetwork := by
  have hnonce : session.sealed.nonce.length = nonceSize := by decide
  have hquery : Sessions.Step .direct (⟨[], [], []⟩ : Wire lawfulPrims) ⟨[session], [], []⟩ :=
    .query session (by simp)
  have hanswer : Sessions.Step .direct (⟨[session], [], []⟩ : Wire lawfulPrims)
      ⟨[session], [sessionAnswer], []⟩ := by
    refine .answer sessionAnswer _ _ ?_
      (openBox_datagram (s := session) lawfulPrims_lawful hnonce rfl rfl) (unpad_pad _ _)
    exact admits_datagram (s := session) lawfulPrims_lawful hnonce rfl rfl (by simp [Wire.sealed])
  have haccept : Sessions.Step .direct (⟨[session], [sessionAnswer], []⟩ : Wire lawfulPrims)
      answeredNetwork :=
    answered_accepted (a := sessionAnswer) lawfulPrims_lawful .direct (List.mem_singleton.mpr rfl)
      (List.mem_singleton.mpr rfl) ⟨rfl, rfl, rfl, rfl⟩ (by decide) (by decide)
  exact ((Sessions.Reachable.start.step hquery).step hanswer).step haccept

theorem answeredNetwork_agrees : (session, replyPacket 60) ∈ answeredNetwork.accepted ∧
    replyPacket 60 ≠ session.packet ∧ ∃ a ∈ answeredNetwork.answers,
      a.To session ∧ a.response = replyPacket 60 := by
  have hmem : (session, replyPacket 60) ∈ answeredNetwork.accepted := List.mem_singleton.mpr rfl
  have hne : replyPacket 60 ≠ session.packet := by decide
  refine ⟨hmem, hne, ?_⟩
  exact (accepted_agrees .direct answeredNetwork answeredNetwork_reachable _ _ hmem).resolve_left hne

end Sample

end DnscryptProxy
