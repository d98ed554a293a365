import DnscryptProxy.Library.Selection
import DnscryptProxy.CertRounds
import DnscryptProxy.ServersInfo
import Mathlib.Data.Prod.Lex

/-! The second half of `FetchCurrentDNSCryptCert`: the certificates in an answer, and the one
that is used. The loop holds one certificate at a time and gives it up for a later one that is
not less, by serial number and then by construction; with the certificates that are passed over
left out that is `Library.keepLast`. `certificate_chosen` says which one is left in the end. -/

namespace DnscryptProxy

open Library

/-! ## Certificates -/

def isDigit (b : UInt8) : Bool := 0x30 ≤ b && b ≤ 0x39

def dddToByte (s₀ s₁ s₂ : UInt8) : UInt8 := (s₀ - 0x30) * 100 + (s₁ - 0x30) * 10 + (s₂ - 0x30)

/-- The byte for `\t`, `\r` or `\n`, or else the byte after the backslash itself. -/
def unescape (b : UInt8) : UInt8 :=
  if b = 0x74 then 0x09 else if b = 0x72 then 0x0d else if b = 0x6e then 0x0a else b

/-- `PackTXTRR` -/
def packTXTRR : Bytes → Bytes
  | [] => []
  | [b] => if b = 0x5c then [] else [b]
  | b :: c :: rest =>
    if b ≠ 0x5c then b :: packTXTRR (c :: rest)
    else match rest with
      | d :: e :: rest =>
        if isDigit c && isDigit d && isDigit e then dddToByte c d e :: packTXTRR rest
        else unescape c :: packTXTRR (d :: e :: rest)
      | rest => unescape c :: packTXTRR rest

example : packTXTRR (asciiBytes "a\\068\\n\\") = [0x61, 68, 0x0a] := by decide +kernel

/-- The certificate in a record, `PackTXTRR(strings.Join(t.Txt, ""))`. -/
def binCert (rr : RR) : Option Bytes :=
  match rr.data with
  | .txt strings => some (packTXTRR (strings.flatten.flatMap String.utf8EncodeChar))
  | _ => none

def certMagic : Bytes := [0x44, 0x4e, 0x53, 0x43]

/-- `binary.BigEndian.Uint32` of the four bytes at `i`. -/
def uint32At (b : Bytes) (i : Nat) : Nat :=
  ((b.drop i).take 4).foldl (fun n b => n * 256 + b.toNat) 0

namespace Cert

variable (cert : Bytes)

def esVersion : Nat := uint16 (cert.getD 4 0) (cert.getD 5 0)
def serial : Nat := uint32At cert 112
def tsBegin : Nat := uint32At cert 116
def tsEnd : Nat := uint32At cert 120

/-- The construction of a version. -/
def versionConstruction : Nat → Option CryptoConstruction
  | 0x0001 => some .xSalsa20Poly1305
  | 0x0002 => some .xChacha20Poly1305
  | _ => none

end Cert

open Cert

/-- The constructions are numbers in the source. -/
def CryptoConstruction.number : CryptoConstruction → Nat
  | .undefined => 0
  | .xSalsa20Poly1305 => 1
  | .xChacha20Poly1305 => 2

/-- What the loop reads besides the records. The random bytes are those that replace a shared
key which is all zero. -/
structure CertEnv where
  prims : Primitives
  verify : Bytes → Bytes → Bytes → Bool
  pk : Bytes
  proxySecretKey : Bytes
  now : UInt32
  certIgnoreTimestamp : Bool
  fresh : Nat → Bytes

def CertEnv.forServer (env : CertEnv) (pk : Bytes) : CertEnv := { env with pk := pk }

/-! ## The loop -/

/-- `certInfo` and `highestSerial` -/
structure CertState where
  certInfo : CertInfo
  highestSerial : Nat

def CertState.start : CertState :=
  ⟨⟨List.replicate 32 0, List.replicate 32 0, List.replicate 8 0, .undefined⟩, 0⟩

section Loop

variable (env : CertEnv)

/-- What is used of a certificate. -/
def certInfoOf (cert : Bytes) (construction : CryptoConstruction) (i : Nat) : CertInfo :=
  let serverPk := (cert.drop 72).take 32
  ⟨serverPk, computeSharedKey env.prims construction env.proxySecretKey serverPk (env.fresh i),
    (cert.drop 104).take 8, construction⟩

/-- One turn of the loop, for the record with number `i`. -/
def certTurn (state : CertState) (answer : RR × Nat) : CertState :=
  match binCert answer.1 with
  | none => state
  | some cert =>
    if cert.length < 124 then state
    else if cert.take 4 ≠ certMagic then state
    else match versionConstruction (esVersion cert) with
      | none => state
      | some construction =>
        let signature := (cert.drop 8).take 64
        let signed := cert.drop 72
        if !env.verify env.pk signed signature then state
        else if tsBegin cert ≥ tsEnd cert then state
        else if !env.certIgnoreTimestamp &&
            (env.now.toNat > tsEnd cert || env.now.toNat < tsBegin cert) then state
        else if serial cert < state.highestSerial then state
        else if serial cert = state.highestSerial &&
            construction.number < state.certInfo.cryptoConstruction.number then state
        else if construction ≠ .xChacha20Poly1305 && construction ≠ .xSalsa20Poly1305 then state
        else ⟨certInfoOf env cert construction answer.2, serial cert⟩

def certLoop (answers : List RR) : CertState := answers.zipIdx.foldl (certTurn env) .start

/-- What `FetchCurrentDNSCryptCert` makes of what `DNSExchange` returns. -/
def certReply (fetched : CertFetched) : CertReply :=
  match fetched.result with
  | .error e => ⟨CertState.start.certInfo, 0, false, some e⟩
  | .ok (msg, rtt, fragmentsBlocked) =>
    let certInfo := (certLoop env msg.answer).certInfo
    if certInfo.cryptoConstruction = .undefined then
      ⟨certInfo, 0, fragmentsBlocked, some (.plain "No useable certificate found")⟩
    else ⟨certInfo, milliseconds rtt, fragmentsBlocked, none⟩

/-- `FetchCurrentDNSCryptCert` -/
def fetchCurrentDNSCryptCertInfo (lib : DNSLibrary) (net : NetLibrary) (dialer : Dialer)
    (proto : NetProto) (request : CertRequest) : Except Panic CertReply :=
  (fetchCurrentDNSCryptCert lib net dialer proto request).map
    (certReply (env.forServer request.serverPk))

end Loop

/-! ## Acceptable records -/

/-- A certificate that can be used. -/
structure Valid (env : CertEnv) (cert : Bytes) : Prop where
  length : 124 ≤ cert.length
  magic : cert.take 4 = certMagic
  version : esVersion cert = 0x0001 ∨ esVersion cert = 0x0002
  signature : env.verify env.pk (cert.drop 72) ((cert.drop 8).take 64) = true
  period : tsBegin cert < tsEnd cert
  current : env.certIgnoreTimestamp = false →
    tsBegin cert ≤ env.now.toNat ∧ env.now.toNat ≤ tsEnd cert

def Acceptable (env : CertEnv) (rr : RR) : Prop := ∃ cert, binCert rr = some cert ∧ Valid env cert

def certOf (rr : RR) : Bytes := (binCert rr).getD []

def constructionOf (cert : Bytes) : CryptoConstruction :=
  (versionConstruction (esVersion cert)).getD .undefined

/-- The serial number of a record, and then its construction. -/
def certKey (rr : RR) : ℕ ×ₗ ℕ :=
  toLex (serial (certOf rr), (constructionOf (certOf rr)).number)

section Chosen

variable {env : CertEnv} {rr : RR} {cert : Bytes} {i : Nat} {state : CertState}

theorem Acceptable.valid (h : Acceptable env rr) : Valid env (certOf rr) := by
  obtain ⟨cert, hcert, hvalid⟩ := h
  rw [certOf, hcert]
  exact hvalid

theorem Acceptable.binCert_eq (h : Acceptable env rr) : binCert rr = some (certOf rr) := by
  obtain ⟨cert, hcert, -⟩ := h
  rw [certOf, hcert]
  rfl

theorem Valid.construction (h : Valid env cert) :
    versionConstruction (esVersion cert) = some (constructionOf cert) ∧
      (constructionOf cert = .xSalsa20Poly1305 ∨ constructionOf cert = .xChacha20Poly1305) := by
  unfold constructionOf
  rcases h.version with hv | hv
  · rw [hv]
    exact ⟨rfl, .inl rfl⟩
  · rw [hv]
    exact ⟨rfl, .inr rfl⟩

theorem version_of_construction {version : Nat} {construction : CryptoConstruction}
    (h : versionConstruction version = some construction) : version = 0x0001 ∨ version = 0x0002 := by
  unfold versionConstruction at h
  split at h
  · exact .inl rfl
  · exact .inr rfl
  · cases h

theorem certTurn_other (h : ¬ Acceptable env rr) : certTurn env state (rr, i) = state := by
  unfold certTurn
  split
  · rfl
  · next cert hcert =>
    have hinvalid : ¬ Valid env cert := fun hvalid => h ⟨cert, hcert, hvalid⟩
    split
    · rfl
    · next hlength =>
      split
      · rfl
      · next hmagic =>
        split
        · rfl
        · next construction hversion =>
          dsimp only
          split
          · rfl
          · next hsignature =>
            split
            · rfl
            · next hperiod =>
              split
              · rfl
              · next hcurrent =>
                refine absurd ⟨by omega, not_not.mp hmagic, version_of_construction hversion,
                  by simpa using hsignature, by omega, fun hignore => ?_⟩ hinvalid
                simp only [hignore, Bool.not_false, Bool.true_and, Bool.or_eq_true,
                  decide_eq_true_eq, not_or] at hcurrent
                omega

/-- The state in which a record is held. -/
def held (env : CertEnv) : Option (RR × Nat) → CertState
  | none => .start
  | some (rr, i) =>
    ⟨certInfoOf env (certOf rr) (constructionOf (certOf rr)) i, serial (certOf rr)⟩

theorem certKey_lt_iff (rr rr' : RR) :
    certKey rr < certKey rr' ↔ serial (certOf rr) < serial (certOf rr') ∨
      serial (certOf rr) = serial (certOf rr') ∧
        (constructionOf (certOf rr)).number < (constructionOf (certOf rr')).number :=
  Prod.Lex.toLex_lt_toLex

theorem certTurn_acceptable (h : Acceptable env rr) :
    certTurn env state (rr, i) =
      if serial (certOf rr) < state.highestSerial ∨ serial (certOf rr) = state.highestSerial ∧
          (constructionOf (certOf rr)).number < state.certInfo.cryptoConstruction.number
      then state else held env (some (rr, i)) := by
  have hvalid := h.valid
  obtain ⟨hversion, hconstruction⟩ := hvalid.construction
  have hlength := hvalid.length
  have hperiod := hvalid.period
  have hcurrent : ¬ (!env.certIgnoreTimestamp && (decide (env.now.toNat > tsEnd (certOf rr)) ||
      decide (env.now.toNat < tsBegin (certOf rr)))) = true := by
    cases hignore : env.certIgnoreTimestamp with
    | true => simp
    | false =>
      have hnow := hvalid.current hignore
      simp only [Bool.not_false, Bool.true_and, Bool.or_eq_true, decide_eq_true_eq, not_or]
      omega
  have hsupported : ¬ (decide (constructionOf (certOf rr) ≠ .xChacha20Poly1305) &&
      decide (constructionOf (certOf rr) ≠ .xSalsa20Poly1305)) = true := by
    rcases hconstruction with hc | hc <;> simp [hc]
  unfold certTurn
  rw [h.binCert_eq]
  dsimp only
  rw [if_neg (by omega), if_neg (not_not.mpr hvalid.magic), hversion]
  dsimp only
  rw [if_neg (by simp [hvalid.signature]), if_neg (by omega), if_neg hcurrent, if_neg hsupported]
  simp only [Bool.and_eq_true, decide_eq_true_eq, ite_or]
  rfl

theorem certTurn_held (h : Acceptable env rr) (best : Option (RR × Nat)) :
    certTurn env (held env best) (rr, i) =
      held env (keepLast (fun answer => certKey answer.1) best (rr, i)) := by
  rw [certTurn_acceptable h]
  cases best with
  | none =>
    -- the first serial number is compared with zero, and the construction with none
    refine if_neg ?_
    rintro (hserial | ⟨-, hnumber⟩)
    · exact Nat.not_lt_zero _ hserial
    · exact Nat.not_lt_zero _ hnumber
  | some other =>
    obtain ⟨rr', j⟩ := other
    have hless : (serial (certOf rr) < (held env (some (rr', j))).highestSerial ∨
        serial (certOf rr) = (held env (some (rr', j))).highestSerial ∧
          (constructionOf (certOf rr)).number <
            (held env (some (rr', j))).certInfo.cryptoConstruction.number) ↔
        certKey rr < certKey rr' := (certKey_lt_iff rr rr').symm
    by_cases hkey : certKey rr < certKey rr'
    · rw [if_pos (hless.mpr hkey)]
      exact congrArg (held env) (if_pos hkey).symm
    · rw [if_neg (mt hless.mp hkey)]
      exact congrArg (held env) (if_neg hkey).symm

open scoped Classical in
theorem foldl_certTurn (answers : List (RR × Nat)) (best : Option (RR × Nat)) :
    answers.foldl (certTurn env) (held env best) =
      held env ((answers.filter fun answer => Acceptable env answer.1).foldl
        (keepLast fun answer => certKey answer.1) best) := by
  induction answers generalizing best with
  | nil => rfl
  | cons answer answers ih =>
    obtain ⟨rr, i⟩ := answer
    by_cases h : Acceptable env rr
    · rw [List.foldl_cons, certTurn_held h, List.filter_cons_of_pos (by simpa using h)]
      exact ih _
    · rw [List.foldl_cons, certTurn_other h, List.filter_cons_of_neg (by simpa using h)]
      exact ih _

/-- The record is the last of the greatest among the acceptable ones. -/
structure Chosen (env : CertEnv) (answers : List RR) (rr : RR) (before after : List RR) : Prop where
  split : answers = before ++ rr :: after
  acceptable : Acceptable env rr
  before_le : ∀ r ∈ before, Acceptable env r → certKey r ≤ certKey rr
  after_lt : ∀ r ∈ after, Acceptable env r → certKey r < certKey rr

theorem certLoop_cases (env : CertEnv) (answers : List RR) :
    (∀ rr ∈ answers, ¬ Acceptable env rr) ∧ certLoop env answers = .start ∨
      ∃ before rr after i, Chosen env answers rr before after ∧
        certLoop env answers = held env (some (rr, i)) := by
  classical
  have hloop : certLoop env answers = _ := foldl_certTurn answers.zipIdx none
  cases hbest : (answers.zipIdx.filter fun answer => Acceptable env answer.1).foldl
      (keepLast fun answer => certKey answer.1) none with
  | none =>
    rw [hbest] at hloop
    refine .inl ⟨fun rr hrr hacceptable => ?_, hloop⟩
    have hnil := foldl_keepLast_eq_none.mp hbest
    obtain ⟨i, hi⟩ := List.getElem?_of_mem hrr
    have hi : (rr, i) ∈ answers.zipIdx := List.mem_zipIdx_iff_getElem?.mpr hi
    exact absurd (by simpa using hacceptable) (List.filter_eq_nil_iff.mp hnil (rr, i) hi)
  | some answer =>
    rw [hbest] at hloop
    obtain ⟨rr, i⟩ := answer
    obtain ⟨before, after, hsplit, hbefore, hafter⟩ := keepLast_split hbest
    -- the split of the acceptable records is one of all records
    obtain ⟨l₁, l₂, hl, rfl, htail⟩ := List.filter_eq_append_iff.mp hsplit
    obtain ⟨m₁, m₂, rfl, hbetween, hacceptable, rfl⟩ := List.filter_eq_cons_iff.mp htail
    refine .inr ⟨(l₁ ++ m₁).map Prod.fst, rr, m₂.map Prod.fst, i, ⟨?_, ?_, ?_, ?_⟩, hloop⟩
    · have hmap := congrArg (List.map Prod.fst) hl
      rw [List.zipIdx_map_fst] at hmap
      simpa using hmap
    · simpa using hacceptable
    · intro r hr hok
      obtain ⟨answer, hanswer, rfl⟩ := List.mem_map.mp hr
      rcases List.mem_append.mp hanswer with hmem | hmem
      · exact hbefore answer (List.mem_filter.mpr ⟨hmem, by simpa using hok⟩)
      · exact absurd (by simpa using hok) (hbetween answer hmem)
    · intro r hr hok
      obtain ⟨answer, hanswer, rfl⟩ := List.mem_map.mp hr
      exact hafter answer (List.mem_filter.mpr ⟨hanswer, by simpa using hok⟩)

theorem certReply_of_start {msg : Msg} {rtt : Time} {blocked : Bool} {ops : List NetOp}
    (h : certLoop env msg.answer = .start) :
    (certReply env ⟨.ok (msg, rtt, blocked), ops⟩).err =
      some (.plain "No useable certificate found") := by
  unfold certReply
  dsimp only
  rw [h]
  rfl

theorem certReply_of_held {msg : Msg} {rtt : Time} {blocked : Bool} {ops : List NetOp}
    (hacceptable : Acceptable env rr) (h : certLoop env msg.answer = held env (some (rr, i))) :
    certReply env ⟨.ok (msg, rtt, blocked), ops⟩ =
      ⟨certInfoOf env (certOf rr) (constructionOf (certOf rr)) i, milliseconds rtt, blocked, none⟩ := by
  have hdefined : ¬ constructionOf (certOf rr) = .undefined := by
    rcases hacceptable.valid.construction.2 with hc | hc <;> rw [hc] <;> decide
  unfold certReply
  dsimp only
  rw [h]
  exact if_neg hdefined

theorem certReply_cases (env : CertEnv) (msg : Msg) (rtt : Time) (blocked : Bool)
    (ops : List NetOp) :
    ((certReply env ⟨.ok (msg, rtt, blocked), ops⟩).err ≠ none ↔
        ∀ rr ∈ msg.answer, ¬ Acceptable env rr) ∧
      ((certReply env ⟨.ok (msg, rtt, blocked), ops⟩).err = none →
        ∃ before rr after i, Chosen env msg.answer rr before after ∧
          certReply env ⟨.ok (msg, rtt, blocked), ops⟩ =
            ⟨certInfoOf env (certOf rr) (constructionOf (certOf rr)) i, milliseconds rtt, blocked,
              none⟩) := by
  rcases certLoop_cases env msg.answer with ⟨hnone, hloop⟩ | ⟨before, rr, after, i, hchosen, hloop⟩
  · rw [certReply_of_start hloop]
    exact ⟨iff_of_true (by simp) hnone, by simp⟩
  · rw [certReply_of_held hchosen.acceptable hloop]
    refine ⟨iff_of_false (by simp) fun hnone => ?_, fun _ => ⟨before, rr, after, i, hchosen, rfl⟩⟩
    refine hnone rr ?_ hchosen.acceptable
    rw [hchosen.split]
    simp

end Chosen

/-- **The certificate that is used** is the last one of the greatest serial number, and of the
greatest construction among those, of all the acceptable ones in the answer; without any there
is an error. -/
theorem certificate_chosen (env : CertEnv) {lib : DNSLibrary} {net : NetLibrary} {dialer : Dialer}
    {proto : NetProto} {request : CertRequest} {msg : Msg} {rtt : Time} {blocked : Bool}
    (h : (fetchCurrentDNSCryptCert lib net dialer proto request).map CertFetched.result =
      .ok (.ok (msg, rtt, blocked))) :
    ∃ reply, fetchCurrentDNSCryptCertInfo env lib net dialer proto request = .ok reply ∧
      (reply.err ≠ none ↔
        ∀ rr ∈ msg.answer, ¬ Acceptable (env.forServer request.serverPk) rr) ∧
      (reply.err = none → ∃ before rr after i,
        Chosen (env.forServer request.serverPk) msg.answer rr before after ∧
          reply = ⟨certInfoOf (env.forServer request.serverPk) (certOf rr)
            (constructionOf (certOf rr)) i, milliseconds rtt, blocked, none⟩) := by
  obtain ⟨⟨result, ops⟩, hfetched, hresult⟩ := ok_of_map h
  cases hresult
  refine ⟨_, by rw [fetchCurrentDNSCryptCertInfo, hfetched]; rfl, ?_⟩
  exact certReply_cases (env.forServer request.serverPk) msg rtt blocked ops

/-! Two certificates in the answer over TCP. -/

namespace Sample

/-- The public key of the provider, and its Ed25519 signatures of two certificates. -/
def providerKey : Bytes :=
  [234, 74, 108, 99, 226, 156, 82, 10, 190, 245, 80, 123, 19, 46, 197, 249, 149, 71, 118, 174, 190,
    190, 123, 146, 66, 30, 234, 105, 20, 70, 210, 44]

def signature7 : Bytes :=
  [220, 223, 69, 116, 140, 15, 149, 140, 95, 18, 241, 82, 253, 52, 223, 19, 22, 218, 81, 215, 53,
    117, 117, 104, 182, 99, 254, 57, 211, 234, 189, 78, 164, 97, 46, 50, 233, 77, 234, 130, 105,
    241, 24, 3, 130, 243, 226, 88, 17, 96, 54, 151, 252, 97, 34, 61, 40, 207, 220, 167, 104, 166,
    169, 6]

def signature8 : Bytes :=
  [133, 105, 145, 200, 185, 135, 71, 166, 57, 198, 151, 138, 15, 125, 109, 193, 119, 137, 12, 129,
    1, 230, 66, 163, 20, 58, 14, 145, 53, 209, 135, 101, 78, 249, 217, 103, 199, 162, 107, 186,
    160, 242, 208, 171, 250, 95, 51, 76, 122, 221, 216, 192, 49, 17, 115, 239, 252, 60, 192, 14,
    85, 6, 85, 0]

/-- The signed part of a certificate: a key, the magic, the serial number, and one day. -/
def certSigned (serial : UInt8) : Bytes :=
  List.replicate 32 1 ++ List.replicate 8 serial ++ [0, 0, 0, serial] ++ [0x65, 0, 0, 0] ++
    [0x65, 1, 0x51, 0x80]

def certBytes (serial : UInt8) (signature : Bytes) : Bytes :=
  certMagic ++ [0, 2, 0, 0] ++ signature ++ certSigned serial

def certs : List Bytes := [certBytes 7 signature7, certBytes 8 signature8, certBytes 9 signature8]

/-- What `ed25519.Verify` says of these. -/
def verifyProvider (pk signed signature : Bytes) : Bool :=
  pk = providerKey &&
    (signed, signature) ∈ [(certSigned 7, signature7), (certSigned 8, signature8)]

/-- The text of a certificate, as the library hands it out. -/
def certText (cert : Bytes) : Text :=
  cert.flatMap fun b =>
    if b = 0x22 || b = 0x5c then ['\\', Char.ofNat b.toNat]
    else if b < 0x20 || 0x7e < b then
      '\\' :: [b.toNat / 100, b.toNat / 10 % 10, b.toNat % 10].map Nat.digitChar
    else [Char.ofNat b.toNat]

def certAnswer (id : UInt8) : Msg :=
  { certQuery (0x1200 + id.toUInt16) certName with
    response := true
    answer := certs.map fun cert => ⟨certName, classINET, 60, .txt [certText cert]⟩ }

/-- The message on the wire: header, question, and three records with one string each. -/
def certAnswerPacket (id : UInt8) : Bytes :=
  [0x12, id, 0x81, 0, 0, 1, 0, 3, 0, 0, 0, 0] ++ Sender.certificatePacket.drop 12 ++
    certs.flatMap fun cert => (Sender.certificatePacket.drop 12).take 25 ++
      [0, 16, 0, 1, 0, 0, 0, 60, 0, 125, 124] ++ cert

def certAnswerDNS : DNSLibrary :=
  .ofTable (certEntries 0x34 ++ certEntries 0x35 ++ certEntries 0x36 ++
    [0x34, 0x35, 0x36].map fun id => (certAnswerPacket id, certAnswer id)) (by decide +kernel)

/-- Each of the three queries is answered under its own identifier. -/
def answeredRound : CertRound :=
  { silentRound with
    tries i :=
      let packet := certAnswerPacket (0x34 + UInt8.ofNat i)
      ⟨false, Sender.unusedConn, ⟨none, none, none, [.ok (putUint16 packet.length ++ packet)]⟩,
        5000⟩ }

def certEnv : CertEnv :=
  ⟨Sender.samplePrims, verifyProvider, [], List.replicate 32 3, 0x65008000, false, fun _ => []⟩

def answeredRequest : CertRequest :=
  { certRequest with serverPk := providerKey, first := answeredRound, second := answeredRound }

/-- The second certificate is the one that is used. -/
theorem answered_certificate_chosen :
    ∃ reply, fetchCurrentDNSCryptCertInfo certEnv certAnswerDNS socksNet .direct .tcp
        answeredRequest = .ok reply ∧
      reply.certInfo.magicQuery = List.replicate 8 8 ∧ ∃ before rr after i,
        Chosen (certEnv.forServer providerKey) (certAnswer 0x34).answer rr before after ∧
          reply = ⟨certInfoOf (certEnv.forServer providerKey) (certOf rr)
            (constructionOf (certOf rr)) i, milliseconds 5000, true, none⟩ := by
  have hused : (fetchCurrentDNSCryptCertInfo certEnv certAnswerDNS socksNet .direct .tcp
      answeredRequest).map (fun reply => (reply.err, reply.certInfo.magicQuery)) =
        .ok (none, List.replicate 8 8) := by decide +kernel
  obtain ⟨reply, hreply, hused⟩ := ok_of_map hused
  obtain ⟨herr, hmagic⟩ := Prod.mk.inj hused
  obtain ⟨reply', hreply', -, hchosen⟩ := @certificate_chosen certEnv certAnswerDNS socksNet .direct
    .tcp answeredRequest (certAnswer 0x34) 5000 true (by decide +kernel)
  obtain rfl : reply' = reply := Except.ok.inj (hreply'.symm.trans hreply)
  exact ⟨reply', hreply, hmagic, hchosen herr⟩

end Sample

end DnscryptProxy
