import DnscryptProxy.Fetching
import DnscryptProxy.Proxy
import DnscryptProxy.ServersInfo
import DnscryptProxy.TargetConfigs

/-! How a server is probed before it is used: `fetchDoHServerInfo`, and `_fetchODoHTargetInfo`, which
reaches the target through a relay. Both compare the certificates of the connection with the hashes
of a stamp. For a target, the connection is to the relay and the stamp that of the target.

* `hashes_checked_iff`: whose hashes a chain of certificates has to match. -/

namespace DnscryptProxy

open Library

/-! ## Probes -/

/-- SHA-256 -/
structure SHA256 where
  sum : Bytes → Bytes
  sum_length : ∀ bytes, (sum bytes).length = 32

/-- Why a probe does not return. -/
inductive ProbeHalt where
  | panic (panic : Panic)
  | abort (abort : Abort)
  deriving DecidableEq, Repr

/-- The query that finds out the method, and the one whose answer is examined. -/
inductive ProbeStep where
  | test
  | nxTest
  deriving DecidableEq, Repr

/-- The random bytes in the two queries, and what a query returns. -/
structure ProbeEnv where
  padding : Bytes
  nxName : Text
  nxPadding : Bytes
  query : ProbeStep → Bool → Text → Bytes → FetchResult

/-- What the two functions set in a `ServerInfo`. -/
structure WebServerInfo where
  proto : StampProtoType
  name : Text
  url : Text
  hostName : Text
  initialRtt : Int
  useGet : Bool
  relay : Option Relay
  odohTargetConfigs : List ODoHTargetConfig
  deriving DecidableEq

def typeNS : UInt16 := 2

def testMsg (msgID : UInt16) (qName : Text) (padding : Bytes) : Msg :=
  ⟨msgID, false, 0, false, false, true, false, false, false, false, 0, false,
    [⟨qName, typeNS, classINET⟩], [], [],
    [⟨['.'], UInt16.ofNat maxDNSPacketSize, 0, .opt [⟨edns0Padding, padding⟩]⟩]⟩

def packTest (lib : DNSLibrary) (msg : Msg) : Except ProbeHalt Bytes :=
  (lib.pack msg).mapError fun e => .abort (.fatal e.text)

def dohTestPacket (lib : DNSLibrary) (env : ProbeEnv) (msgID : UInt16) : Except ProbeHalt Bytes :=
  packTest lib (testMsg msgID ['.'] env.padding)

def dohNXTestPacket (lib : DNSLibrary) (env : ProbeEnv) (msgID : UInt16) : Except ProbeHalt Bytes :=
  packTest lib (testMsg msgID (env.nxName ++ ".test.dnscrypt.".toList) env.nxPadding)

/-- Whether to use GET, which is tried where POST fails. -/
def probeMethod (env : ProbeEnv) (url : Text) (body : Bytes) : Except GoError Bool :=
  match (env.query .test false url body).err with
  | none => .ok false
  | some _ =>
    match (env.query .test true url body).err with
    | none => .ok true
    | some e => .error e

/-- The two nested loops. A hash of another length is passed over. -/
def certificateFound (sha256 : SHA256) (hashes peerCertificates : List Bytes) : Bool :=
  peerCertificates.any fun cert =>
    hashes.any fun hash => hash.length = 32 && sha256.sum cert = hash

def expectedResponse (response : Bytes) : Bool :=
  fits response && response.take 2 = [0xca, 0xfe] && (response.drop 4).take 2 = [0x00, 0x01]

/-- The last two checks of either function. -/
def checkProbe (sha256 : SHA256) (hashes peerCertificates : List Bytes) (response : Bytes) :
    Except GoError Unit :=
  if !certificateFound sha256 hashes peerCertificates && hashes ≠ [] then
    .error (.plain "Certificate hash not found")
  else if !expectedResponse response then
    .error (.plain "Webserver returned an unexpected response")
  else .ok ()

/-- The packages and the settings that the two functions use. -/
structure Prober where
  dns : DNSLibrary
  sha256 : SHA256
  hpke : HPKE
  suites : SuiteLibrary
  routing : Routing

namespace Prober

variable (p : Prober)

def webURL (stamp : ServerStamp) : Text :=
  p.routing.net.urlString ⟨"https".toList, stamp.providerName, stamp.path, []⟩

/-- The address in the stamp is saved for its host besides. -/
def fetchDoHServerInfo (env : ProbeEnv) (name : Text) (stamp : ServerStamp) :
    Except ProbeHalt (Except GoError WebServerInfo) := do
  let body ← dohTestPacket p.dns env 0xcafe
  match probeMethod env (p.webURL stamp) body with
  | .error e => return .error e
  | .ok useGet =>
    let body ← dohNXTestPacket p.dns env 0xcafe
    let result := env.query .nxTest useGet (p.webURL stamp) body
    match result.err, result.tls with
    | some e, _ => return .error e
    | none, none => return .error (.plain "TLS handshake failed")
    | none, some tls =>
      if !tls.handshakeComplete then return .error (.plain "TLS handshake failed")
      else match p.dns.unpack result.bin with
        | .error e => return .error e
        | .ok _ =>
          let info : WebServerInfo :=
            { proto := .doh, name := name, url := p.webURL stamp, hostName := stamp.providerName
              initialRtt := milliseconds result.rtt, useGet := useGet, relay := none
              odohTargetConfigs := [] }
          return (checkProbe p.sha256 stamp.hashes tls.peerCertificates result.bin).map fun _ => info

/-! ## Targets behind relays -/

def fetchTargetConfigsFromWellKnown (result : FetchResult) (spare : Bytes) :
    Except Panic (Except GoError (List ODoHTargetConfig)) :=
  match result.err with
  | some e => .ok (.error e)
  | none =>
    if result.statusCode < 200 ∨ 300 ≤ result.statusCode then
      .ok (.error (.plain ("HTTP status code was " ++ toString result.statusCode)))
    else (parseODoHTargetConfigs p.suites result.bin spare).map (·.mapError .plain)

/-- What happens during a call: the answer with the configurations and the bytes behind it in
memory, the draw of a relay, the order in which the configurations are tried, and the probe of each
of them. -/
structure TargetEnv where
  configs : FetchResult
  spare : Bytes
  draw : Nat
  shuffle : List ODoHTargetConfig → List ODoHTargetConfig
  shuffle_perm : ∀ configs, (shuffle configs).Perm configs
  probe : Nat → ProbeEnv

/-- The target that is probed through a relay. -/
structure Target where
  name : Text
  stamp : ServerStamp
  relay : Relay
  relayURL : Text

/-- A probe that was sent: how, in which form, and what came of it. -/
structure SentProbe where
  useGet : Bool
  odohQuery : ODoHQuery
  result : FetchResult

/-- The first half of a round of the loop over the configurations; `none` is `continue`. -/
def sendProbe (relayURL : Text) (env : ProbeEnv) (config : ODoHTargetConfig) :
    Except ProbeHalt (Option SentProbe) := do
  let query ← dohTestPacket p.dns env 0xcafe
  match encryptQuery p.hpke config query with
  | .error _ => return none
  | .ok odohQuery =>
    match probeMethod env relayURL odohQuery.odohMessage with
    | .error _ => return none
    | .ok useGet =>
      let query ← dohNXTestPacket p.dns env 0xcafe
      match encryptQuery p.hpke config query with
      | .error _ => return none
      | .ok odohQuery =>
        return some ⟨useGet, odohQuery, env.query .nxTest useGet relayURL odohQuery.odohMessage⟩

def examineResponse (target : Target) (config : ODoHTargetConfig) (sent : SentProbe)
    (serverResponse : Bytes) : Except ProbeHalt (Except GoError WebServerInfo) :=
  match p.dns.unpack serverResponse, sent.result.tls with
  | .error e, _ => .ok (.error e)
  | .ok _, none => .error (.panic .nilDereference)
  | .ok _, some tls =>
    let info : WebServerInfo :=
      { proto := .odohTarget, name := target.name, url := p.webURL target.stamp
        hostName := target.stamp.providerName, initialRtt := milliseconds sent.result.rtt
        useGet := sent.useGet, relay := some target.relay, odohTargetConfigs := [config] }
    .ok ((checkProbe p.sha256 target.stamp.hashes tls.peerCertificates serverResponse).map fun _ => info)

/-- The second half of a round. -/
def examineProbe (target : Target) (config : ODoHTargetConfig) (sent : SentProbe) :
    Except ProbeHalt (Option (Except GoError WebServerInfo)) :=
  if sent.result.err.isSome then .ok none
  else if sent.result.statusCode = 401 then
    .ok (some (.error (.plain "Configuration changed during a probe")))
  else match decryptResponse p.hpke sent.odohQuery sent.result.bin with
    | .error panic => .error (.panic panic)
    | .ok (.error _) => .ok none
    | .ok (.ok serverResponse) => (p.examineResponse target config sent serverResponse).map some

def probeConfig (target : Target) (env : ProbeEnv) (config : ODoHTargetConfig) :
    Except ProbeHalt (Option (Except GoError WebServerInfo)) := do
  match ← p.sendProbe target.relayURL env config with
  | none => return none
  | some sent => p.examineProbe target config sent

def probeConfigs (target : Target) (probe : Nat → ProbeEnv) :
    Nat → List ODoHTargetConfig → Except ProbeHalt (Except GoError WebServerInfo)
  | _, [] => .ok (.error (.plain
      ("No valid network configuration for [" ++ String.ofList target.name ++ "]")))
  | i, config :: configs => do
    match ← p.probeConfig target (probe i) config with
    | none => probeConfigs target probe (i + 1) configs
    | some result => return result

/-- `_fetchODoHTargetInfo` -/
def fetchODoHTargetInfoOnce (env : TargetEnv) (name : Text) (stamp : ServerStamp) :
    Except ProbeHalt (Except GoError WebServerInfo) := do
  match ← (p.fetchTargetConfigsFromWellKnown env.configs env.spare).mapError .panic with
  | .error e => return .error (.plain ("[" ++ String.ofList name ++
      "] didn't return an ODoH configuration - [" ++ e.text ++ "]"))
  | .ok [] => return .error (.plain ("[" ++ String.ofList name ++
      "] has an empty ODoH configuration"))
  | .ok configs =>
    match ← (p.routing.route name stamp.proto env.draw).mapError .abort with
    | .error e => return .error e
    | .ok none => return .error (.plain "No ODoH relay")
    | .ok (some relay) =>
      match relay.odoh with
      | none => return .error (.plain "Wrong ODoH relay type")
      | some relayURL => p.probeConfigs ⟨name, stamp, relay, relayURL⟩ env.probe 0 (env.shuffle configs)

end Prober

/-! ## Certificates -/

/-- The chain is acceptable for a stamp with the hashes. -/
def ChainMatches (sha256 : SHA256) (hashes chain : List Bytes) : Prop :=
  hashes = [] ∨ ∃ cert ∈ chain, sha256.sum cert ∈ hashes

/-- There are hashes, but none that SHA-256 could have. -/
def WrongLength (hashes : List Bytes) : Prop := hashes ≠ [] ∧ ∀ hash ∈ hashes, hash.length ≠ 32

variable {sha256 : SHA256} {hashes chain : List Bytes}

theorem WrongLength.not_matches (h : WrongLength hashes) : ¬ ChainMatches sha256 hashes chain := by
  rintro (hnil | ⟨cert, -, hmem⟩)
  · exact h.1 hnil
  · exact h.2 _ hmem (sha256.sum_length cert)

theorem certificateFound_iff :
    certificateFound sha256 hashes chain = true ↔ ∃ cert ∈ chain, sha256.sum cert ∈ hashes := by
  simp only [certificateFound, List.any_eq_true, Bool.and_eq_true, decide_eq_true_eq]
  refine exists_congr fun cert => and_congr_right fun _ => ?_
  constructor
  · rintro ⟨hash, hmem, -, heq⟩
    exact heq ▸ hmem
  · intro hmem
    exact ⟨_, hmem, sha256.sum_length cert, rfl⟩

theorem checkProbe_ok_iff {response : Bytes} {α : Type} {info info' : α} :
    (checkProbe sha256 hashes chain response).map (fun _ => info) = .ok info' ↔
      ChainMatches sha256 hashes chain ∧ expectedResponse response = true ∧ info = info' := by
  unfold checkProbe ChainMatches
  rw [← certificateFound_iff]
  by_cases hfound : certificateFound sha256 hashes chain = true
  · cases hresponse : expectedResponse response <;> simp [hfound, Except.map]
  · by_cases hnil : hashes = []
    · cases hresponse : expectedResponse response <;> simp [hnil, Except.map]
    · simp [hfound, hnil, Except.map]

/-- The peer presents the chain on every connection. -/
def FetchResult.presenting (chain : List Bytes) (result : FetchResult) : FetchResult :=
  { result with tls := result.tls.map fun tls => { tls with peerCertificates := chain } }

def ProbeEnv.presenting (chain : List Bytes) (env : ProbeEnv) : ProbeEnv :=
  { env with query := fun step useGet url body => (env.query step useGet url body).presenting chain }

def Prober.TargetEnv.presenting (chain : List Bytes) (env : Prober.TargetEnv) : Prober.TargetEnv :=
  { env with probe := fun i => (env.probe i).presenting chain }

def Prober.SentProbe.presenting (chain : List Bytes) (sent : Prober.SentProbe) : Prober.SentProbe :=
  { sent with result := sent.result.presenting chain }

namespace Prober

variable {p : Prober}

theorem fetchDoHServerInfo_matches {env : ProbeEnv} {name : Text} {stamp : ServerStamp}
    {info : WebServerInfo} (h : p.fetchDoHServerInfo env name stamp = .ok (.ok info)) :
    ∃ body tls, dohNXTestPacket p.dns env 0xcafe = .ok body ∧
      (env.query .nxTest info.useGet info.url body).tls = some tls ∧
      ChainMatches p.sha256 stamp.hashes tls.peerCertificates := by
  obtain ⟨body, -, h⟩ := ok_of_bind h
  cases hmethod : probeMethod env (p.webURL stamp) body with
  | error e =>
    rw [hmethod] at h
    cases h
  | ok useGet =>
    rw [hmethod] at h
    obtain ⟨body, hbody, h⟩ := ok_of_bind h
    dsimp only at h
    split at h
    · cases h
    · cases h
    · next tls herr htls =>
      split at h
      · cases h
      · split at h
        · cases h
        · obtain ⟨hmatches, -, rfl⟩ := checkProbe_ok_iff.mp (Except.ok.inj h)
          exact ⟨body, tls, hbody, htls, hmatches⟩

/-! ### What becomes of a probe -/

/-- The answer is passed over: there is none, or it cannot be decrypted. -/
def SentProbe.Skipped (hpke : HPKE) (sent : SentProbe) : Prop :=
  sent.result.err.isSome = true ∨
    sent.result.statusCode ≠ 401 ∧
      ∃ e, decryptResponse hpke sent.odohQuery sent.result.bin = .ok (.error e)

/-- The answer is that of a resolver, whoever presented it. -/
def SentProbe.Answered (p : Prober) (sent : SentProbe) : Prop :=
  sent.result.err = none ∧ sent.result.statusCode ≠ 401 ∧ sent.result.tls ≠ none ∧
    ∃ response msg, decryptResponse p.hpke sent.odohQuery sent.result.bin = .ok (.ok response) ∧
      p.dns.unpack response = .ok msg ∧ expectedResponse response = true

/-- The first configuration that is not passed over, from the `i`-th on, has an answer. -/
def Reached (p : Prober) (relayURL : Text) (probe : Nat → ProbeEnv) :
    Nat → List ODoHTargetConfig → Prop
  | _, [] => False
  | i, config :: configs =>
    (∃ sent, p.sendProbe relayURL (probe i) config = .ok (some sent) ∧
        (sent.Answered p ∨ sent.Skipped p.hpke ∧ Reached p relayURL probe (i + 1) configs)) ∨
      p.sendProbe relayURL (probe i) config = .ok none ∧ Reached p relayURL probe (i + 1) configs

/-- The target has configurations and an ODoH relay, through which it answers. -/
def TargetEnv.Answered (p : Prober) (env : TargetEnv) (name : Text) (stamp : ServerStamp) : Prop :=
  ∃ configs relay relayURL,
    p.fetchTargetConfigsFromWellKnown env.configs env.spare = .ok (.ok configs) ∧
    p.routing.route name stamp.proto env.draw = .ok (.ok (some relay)) ∧
    relay.odoh = some relayURL ∧ Reached p relayURL env.probe 0 (env.shuffle configs)

inductive Decided (sha256 : SHA256) (hashes : List Bytes) (relay : Relay) (reached : Prop)
    (probed : List Bytes → Except ProbeHalt (Except GoError WebServerInfo)) : Prop where
  | never (missed : ¬reached) (useless : ∀ chain info, probed chain ≠ .ok (.ok info))
  | usable (hit : reached) (info : WebServerInfo) (through : info.relay = some relay)
      (checked : ∀ chain info',
        probed chain = .ok (.ok info') ↔ ChainMatches sha256 hashes chain ∧ info = info')

theorem Decided.congr {relay : Relay} {reached reached' : Prop}
    {probed probed' : List Bytes → Except ProbeHalt (Except GoError WebServerInfo)}
    (h : Decided sha256 hashes relay reached probed) (hreached : reached' ↔ reached)
    (heq : ∀ chain, probed' chain = probed chain) :
    Decided sha256 hashes relay reached' probed' := by
  rwa [propext hreached, funext heq]

variable (p)

theorem sendProbe_presenting (relayURL : Text) (env : ProbeEnv) (config : ODoHTargetConfig)
    (chain : List Bytes) : p.sendProbe relayURL (env.presenting chain) config =
      (p.sendProbe relayURL env config).map fun sent => sent.map (·.presenting chain) := by
  have htest : dohTestPacket p.dns (env.presenting chain) 0xcafe =
      dohTestPacket p.dns env 0xcafe := rfl
  have hmethod (url : Text) (body : Bytes) :
      probeMethod (env.presenting chain) url body = probeMethod env url body := rfl
  have hnx : dohNXTestPacket p.dns (env.presenting chain) 0xcafe =
      dohNXTestPacket p.dns env 0xcafe := rfl
  simp only [sendProbe, htest, hmethod, hnx]
  cases dohTestPacket p.dns env 0xcafe with
  | error halt => rfl
  | ok query =>
    dsimp only [bind, Except.bind]
    cases encryptQuery p.hpke config query with
    | error text => rfl
    | ok odohQuery =>
      dsimp only
      cases probeMethod env relayURL odohQuery.odohMessage with
      | error e => rfl
      | ok useGet =>
        cases dohNXTestPacket p.dns env 0xcafe with
        | error halt => rfl
        | ok query =>
          dsimp only
          cases encryptQuery p.hpke config query with
          | error text => rfl
          | ok odohQuery => rfl

theorem examineResponse_decided (target : Target) (config : ODoHTargetConfig) (sent : SentProbe)
    (response : Bytes) : Decided p.sha256 target.stamp.hashes target.relay
      (sent.result.tls ≠ none ∧ ∃ msg, p.dns.unpack response = .ok msg ∧
        expectedResponse response = true) fun chain =>
      p.examineResponse target config (sent.presenting chain) response := by
  obtain ⟨useGet, odohQuery, ⟨bin, statusCode, tls, rtt, err⟩⟩ := sent
  simp only [examineResponse, SentProbe.presenting, FetchResult.presenting]
  cases hunpack : p.dns.unpack response with
  | error e => exact .never (by simp) (by simp)
  | ok msg =>
    cases tls with
    | none => exact .never (by simp) (by simp)
    | some tls =>
      by_cases hresponse : expectedResponse response = true
      · refine .usable (by simp [hresponse])
          ⟨.odohTarget, target.name, p.webURL target.stamp, target.stamp.providerName,
            milliseconds rtt, useGet, some target.relay, [config]⟩ rfl fun chain info' => ?_
        refine (Except.ok.injEq _ _).to_iff.trans (checkProbe_ok_iff.trans ?_)
        rw [and_iff_right hresponse]
      · refine .never (by simp [hresponse]) fun chain info' h => ?_
        exact hresponse (checkProbe_ok_iff.mp (Except.ok.inj h)).2.1

theorem examineProbe_decided (target : Target) (config : ODoHTargetConfig) (sent : SentProbe) :
    (sent.Skipped p.hpke ∧ ¬sent.Answered p ∧
        ∀ chain, p.examineProbe target config (sent.presenting chain) = .ok none) ∨
      ¬sent.Skipped p.hpke ∧ ∃ probed,
        Decided p.sha256 target.stamp.hashes target.relay (sent.Answered p) probed ∧
        ∀ chain, p.examineProbe target config (sent.presenting chain) = (probed chain).map some := by
  have hresponse (response : Bytes) := p.examineResponse_decided target config sent response
  obtain ⟨useGet, odohQuery, ⟨bin, statusCode, tls, rtt, err⟩⟩ := sent
  simp only [examineProbe, SentProbe.presenting, FetchResult.presenting, SentProbe.Skipped,
    SentProbe.Answered] at hresponse ⊢
  cases err with
  | some e => exact .inl (by simp)
  | none =>
    by_cases hcode : statusCode = 401
    · refine .inr ⟨by simp [hcode], fun _ => .ok (.error _), .never (by simp [hcode]) (by simp),
        fun _ => if_pos hcode⟩
    · cases hdecrypt : decryptResponse p.hpke odohQuery bin with
      | error panic =>
        refine .inr ⟨by simp, fun _ => .error (.panic panic), .never (by simp) (by simp), ?_⟩
        exact fun _ => if_neg hcode
      | ok decrypted =>
        cases decrypted with
        | error e => exact .inl (by simp [hcode])
        | ok response =>
          refine .inr ⟨by simp, _, (hresponse response).congr (by simp [hcode]) fun _ => rfl, ?_⟩
          exact fun _ => if_neg hcode

theorem probeConfigs_decided (target : Target) (probe : Nat → ProbeEnv) (i : Nat)
    (configs : List ODoHTargetConfig) :
    Decided p.sha256 target.stamp.hashes target.relay (Reached p target.relayURL probe i configs)
      fun chain => p.probeConfigs target (fun i => (probe i).presenting chain) i configs := by
  induction configs generalizing i with
  | nil => exact .never nofun (by simp [probeConfigs])
  | cons config configs ih =>
    have hround (chain : List Bytes) :
        p.probeConfigs target (fun i => (probe i).presenting chain) i (config :: configs) = do
          match ← p.probeConfig target ((probe i).presenting chain) config with
          | none => p.probeConfigs target (fun i => (probe i).presenting chain) (i + 1) configs
          | some result => return result := rfl
    simp only [hround, probeConfig, sendProbe_presenting, Reached]
    cases hsend : p.sendProbe target.relayURL (probe i) config with
    | error halt => exact .never (by simp) (by simp [Except.map, bind, Except.bind])
    | ok sent =>
      cases sent with
      | none => exact (ih (i + 1)).congr (by simp) fun _ => rfl
      | some sent =>
        rcases p.examineProbe_decided target config sent with
          ⟨hskipped, hanswered, hnone⟩ | ⟨hskipped, probed, hdecided, hprobed⟩
        · refine (ih (i + 1)).congr (by simp [hskipped, hanswered]) fun chain => ?_
          simp only [Except.map, Option.map_some, bind, Except.bind, hnone]
        · refine hdecided.congr (by simp [hskipped]) fun chain => ?_
          simp only [Except.map, Option.map_some, bind, Except.bind, hprobed]
          cases probed chain <;> rfl

theorem fetchODoHTargetInfoOnce_usable (env : TargetEnv) (name : Text) (stamp : ServerStamp) :
    (¬env.Answered p name stamp ∧
      ∀ chain info, p.fetchODoHTargetInfoOnce (env.presenting chain) name stamp ≠ .ok (.ok info)) ∨
    env.Answered p name stamp ∧
      ∃ relay info, p.routing.route name stamp.proto env.draw = .ok (.ok (some relay)) ∧
        info.relay = some relay ∧
        ∀ chain info', p.fetchODoHTargetInfoOnce (env.presenting chain) name stamp = .ok (.ok info') ↔
          ChainMatches p.sha256 stamp.hashes chain ∧ info = info' := by
  simp only [fetchODoHTargetInfoOnce, TargetEnv.presenting, TargetEnv.Answered]
  cases p.fetchTargetConfigsFromWellKnown env.configs env.spare with
  | error panic => exact .inl ⟨by simp, fun _ _ => nofun⟩
  | ok fetched =>
    rcases fetched with e | _ | ⟨config, configs⟩
    · exact .inl ⟨by simp, fun _ _ => nofun⟩
    · have hnone : env.shuffle [] = [] := (env.shuffle_perm []).eq_nil
      refine .inl ⟨?_, fun _ _ => nofun⟩
      rintro ⟨_, _, _, ⟨⟩, -, -, hreached⟩
      rw [hnone] at hreached
      cases hreached
    · dsimp only [bind, Except.bind, Except.mapError]
      cases p.routing.route name stamp.proto env.draw with
      | error abort => exact .inl ⟨by simp, fun _ _ => nofun⟩
      | ok routed =>
        rcases routed with e | _ | relay
        · exact .inl ⟨by simp, fun _ _ => nofun⟩
        · exact .inl ⟨by simp, fun _ _ => nofun⟩
        · dsimp only
          cases hurl : relay.odoh with
          | none =>
            refine .inl ⟨?_, fun _ _ => nofun⟩
            rintro ⟨_, _, _, -, ⟨⟩, hsome, -⟩
            cases hurl.symm.trans hsome
          | some relayURL =>
            cases p.probeConfigs_decided ⟨name, stamp, relay, relayURL⟩ env.probe 0
                (env.shuffle (config :: configs)) with
            | never missed useless =>
              refine .inl ⟨?_, useless⟩
              rintro ⟨_, _, _, ⟨⟩, ⟨⟩, hsome, hreached⟩
              cases hurl.symm.trans hsome
              exact missed hreached
            | usable hit info through checked =>
              exact .inr ⟨⟨_, relay, relayURL, rfl, rfl, hurl, hit⟩, relay, info, rfl, through,
                checked⟩

end Prober

/-! ## The stamp of the relay -/

theorem chainMatches_imp_iff {others : List Bytes} :
    (∀ chain, ChainMatches sha256 hashes chain → ChainMatches sha256 others chain) ↔
      others = [] ∨ (hashes ≠ [] ∧ ∀ cert, sha256.sum cert ∈ hashes → sha256.sum cert ∈ others) := by
  constructor
  · intro himp
    by_cases hnil : others = []
    · exact .inl hnil
    · have hmem (chain : List Bytes) (hchain : ChainMatches sha256 hashes chain) :
          ∃ cert ∈ chain, sha256.sum cert ∈ others := (himp chain hchain).resolve_left hnil
      refine .inr ⟨fun hhashes => ?_, fun cert hcert => ?_⟩
      · -- without hashes, no certificate at all is needed
        obtain ⟨cert, hcert, -⟩ := hmem [] (.inl hhashes)
        cases hcert
      · obtain ⟨cert', hcert', hothers⟩ := hmem [cert]
          (.inr ⟨cert, List.mem_singleton_self cert, hcert⟩)
        rwa [List.mem_singleton.mp hcert'] at hothers
  · rintro (hnil | ⟨hhashes, hothers⟩) chain hchain
    · exact .inl hnil
    · obtain ⟨cert, hcert, hmem⟩ := hchain.resolve_left hhashes
      exact .inr ⟨cert, hcert, hothers cert hmem⟩

/-- The stamp of the relay that `route` takes. -/
def Routing.Chooses (r : Routing) (name : Text) (serverProto : StampProtoType) (draw : Nat)
    (stamp : ServerStamp) : Prop :=
  ∃ relayNames wildcard relayProto, r.via name = some (relayNames, wildcard) ∧
    relayProtoForServerProto serverProto = some relayProto ∧
    (r.relayStamps relayProto relayNames).1 ≠ [] ∧
    r.candidate name ((r.relayStamps relayProto relayNames).1.map Prod.fst)
      (wildcard || (r.relayStamps relayProto relayNames).2) draw = .ok (some stamp)

theorem Routing.Chooses.route_eq {r : Routing} {name : Text} {serverProto : StampProtoType}
    {draw : Nat} {stamp : ServerStamp} (h : r.Chooses name serverProto draw stamp) :
    ∃ relayName, r.route name serverProto draw =
      .ok ((r.relayBehind name relayName stamp).map some) := by
  obtain ⟨relayNames, wildcard, relayProto, hvia, hproto, hstamps, hcandidate⟩ := h
  rw [Routing.route_of_stamps hvia hproto draw hstamps, hcandidate]
  exact ⟨_, rfl⟩

namespace Prober

variable {p : Prober} {name : Text} {stamp relayStamp : ServerStamp} {env : TargetEnv}

theorem fetchODoHTargetInfoOnce_relay
    (hrelay : p.routing.Chooses name stamp.proto env.draw relayStamp) {info : WebServerInfo}
    {chain : List Bytes}
    (h : p.fetchODoHTargetInfoOnce (env.presenting chain) name stamp = .ok (.ok info)) :
    ∃ relayName relay, p.routing.relayBehind name relayName relayStamp = .ok relay ∧
      info.relay = some relay := by
  obtain ⟨relayName, hroute⟩ := hrelay.route_eq
  rcases p.fetchODoHTargetInfoOnce_usable env name stamp with
    ⟨-, hnever⟩ | ⟨-, relay, info, hrouted, hinfo, husable⟩
  · exact absurd h (hnever chain _)
  · obtain ⟨-, rfl⟩ := (husable chain _).mp h
    refine ⟨relayName, relay, ?_, hinfo⟩
    rw [hroute] at hrouted
    cases hbehind : p.routing.relayBehind name relayName relayStamp with
    | error e =>
      rw [hbehind] at hrouted
      cases hrouted
    | ok relay' =>
      rw [hbehind] at hrouted
      cases hrouted
      rfl

/-- A DoH server is used only with a chain that goes with the hashes of its stamp, and a target with
any chain from its relay that goes with the hashes of the target's own stamp. These vouch for the
relay only where the relay's stamp has no hashes, or has all that the target's stamp has. -/
theorem hashes_checked_iff (hrelay : p.routing.Chooses name stamp.proto env.draw relayStamp) :
    (∀ (env : ProbeEnv) (name : Text) (stamp : ServerStamp) (info : WebServerInfo),
      p.fetchDoHServerInfo env name stamp = .ok (.ok info) → ¬ WrongLength stamp.hashes ∧
        ∃ body tls, dohNXTestPacket p.dns env 0xcafe = .ok body ∧
          (env.query .nxTest info.useGet info.url body).tls = some tls ∧
          ChainMatches p.sha256 stamp.hashes tls.peerCertificates) ∧
    (∀ chain info, p.fetchODoHTargetInfoOnce (env.presenting chain) name stamp = .ok (.ok info) →
      ¬ WrongLength stamp.hashes ∧ ∃ relayName relay,
        p.routing.relayBehind name relayName relayStamp = .ok relay ∧ info.relay = some relay) ∧
    ((∀ chain info, p.fetchODoHTargetInfoOnce (env.presenting chain) name stamp = .ok (.ok info) →
        ChainMatches p.sha256 relayStamp.hashes chain) ↔
      (env.Answered p name stamp →
        relayStamp.hashes = [] ∨ (stamp.hashes ≠ [] ∧
          ∀ cert, p.sha256.sum cert ∈ stamp.hashes → p.sha256.sum cert ∈ relayStamp.hashes))) := by
  refine ⟨fun env name stamp info h => ?_, fun chain info h => ?_, ?_⟩
  · obtain ⟨body, tls, hbody, htls, hmatches⟩ := fetchDoHServerInfo_matches h
    exact ⟨fun hwrong => hwrong.not_matches hmatches, body, tls, hbody, htls, hmatches⟩
  · rcases p.fetchODoHTargetInfoOnce_usable env name stamp with
      ⟨-, hnever⟩ | ⟨-, _, _, -, -, husable⟩
    · exact absurd h (hnever chain info)
    · exact ⟨fun hwrong => hwrong.not_matches ((husable chain info).mp h).1,
        fetchODoHTargetInfoOnce_relay hrelay h⟩
  · rw [← chainMatches_imp_iff]
    rcases p.fetchODoHTargetInfoOnce_usable env name stamp with
      ⟨hmissed, hnever⟩ | ⟨hanswered, _, info, -, -, husable⟩
    · exact iff_of_true (fun chain info h => absurd h (hnever chain info)) fun h => absurd h hmissed
    · constructor
      · intro hrelay _ chain hchain
        exact hrelay chain info ((husable chain info).mpr ⟨hchain, rfl⟩)
      · intro himp chain info' h
        exact himp hanswered chain ((husable chain info').mp h).1

end Prober

namespace Sample

def targetStamp : ServerStamp :=
  ⟨[], [], [], "target.example".toList, "/dns-query".toList, 0, .odohTarget⟩

def odohRelayStamp (hashes : List Bytes) : ServerStamp :=
  ⟨[], [], hashes, "relay.example".toList, "/proxy".toList, 0, .odohRelay⟩

/-- The server `target` is to be reached through the relay `via`. -/
def odohRouting (hashes : List Bytes) : Routing where
  routes := some [("target".toList, ["via".toList])]
  registry := ⟨⟨[⟨"target".toList, targetStamp⟩], .of_nodup (List.nodup_singleton _)⟩,
    ⟨[⟨"via".toList, odohRelayStamp hashes⟩], .of_nodup (List.nodup_singleton _)⟩⟩
  info := ⟨⟨[⟨"target".toList, targetStamp⟩], List.nodup_singleton _⟩,
    ⟨[⟨"via".toList, odohRelayStamp hashes⟩], List.nodup_singleton _⟩⟩
  stamps := stamps
  net :=
    { net with parseURL := fun text => .ok ⟨"https".toList, "relay.example".toList, text, []⟩ }

def padded32 : SHA256 := ⟨fun bytes => (bytes ++ List.replicate 32 0).take 32, by simp⟩

def nxQuestion : Bytes :=
  [1, 97, 4, 116, 101, 115, 116, 8, 100, 110, 115, 99, 114, 121, 112, 116, 0, 0, 2, 0, 1]

def emptyPadding : Bytes := [0, 0, 41, 16, 0, 0, 0, 0, 0, 0, 4, 0, 12, 0, 0]

def nxMsg : Msg := testMsg 0xcafe "a.test.dnscrypt.".toList []

def nxAnswer : Bytes := [0xca, 0xfe, 0x81, 0x83, 0, 1, 0, 0, 0, 0, 0, 0] ++ nxQuestion

def probeTable : List (Bytes × Msg) :=
  [([0xca, 0xfe, 1, 0, 0, 1, 0, 0, 0, 0, 0, 1] ++ [0, 0, 2, 0, 1] ++ emptyPadding,
      testMsg 0xcafe ['.'] []),
    ([0xca, 0xfe, 1, 0, 0, 1, 0, 0, 0, 0, 0, 1] ++ nxQuestion ++ emptyPadding, nxMsg),
    (nxAnswer, { nxMsg with response := true, rcode := 3, extra := [] })]

def prober (hashes : List Bytes) : Prober where
  dns := .ofTable probeTable (by decide)
  sha256 := padded32
  hpke := suites.hpke
  suites := suites
  routing := odohRouting hashes

def targetConfig : ODoHTargetConfig := ⟨⟨32, 1, 1⟩, [0, 1, 1], []⟩

def configsBody : Bytes := [0, 12, 0, 1, 0, 8, 0, 32, 0, 1, 0, 1, 0, 0]

theorem configsBody_parsed : parseODoHTargetConfigs suites configsBody [] = .ok (.ok [targetConfig]) := by
  have hdrop : List.drop 2 configsBody = [0, 1, 0, 8, 0, 32, 0, 1, 0, 1, 0, 0] := rfl
  have hslice : slice (configsBody ++ []) 6 (6 + uint16 0 8) = .ok [0, 32, 0, 1, 0, 1, 0, 0] := by
    rw [slice_ok (by decide) (by decide)]
    rfl
  have hconfig : parseODoHTargetConfig suites [0, 32, 0, 1, 0, 1, 0, 0] = .ok targetConfig := by decide
  have hdeclared : Declared configsBody := ⟨by decide, by decide⟩
  rw [parse_of_declared hdeclared, parseFrom_turn hdrop (by decide), if_pos (by decide), hslice]
  simp only [bind, Except.bind, hconfig]
  rw [parseFrom_ends (.inl (by decide))]
  rfl

/-- A target that answers, through a relay that presents no certificate. -/
def answeringTarget : Prober.TargetEnv where
  configs := ⟨configsBody, 200, some ⟨true, []⟩, 0, none⟩
  spare := []
  draw := 0
  shuffle := id
  shuffle_perm _ := .refl _
  probe _ :=
    { padding := [], nxName := ['a'], nxPadding := []
      query := fun _ _ _ _ =>
        ⟨[2, 0, 0] ++ encodeLengthValue (encodeLengthValue nxAnswer), 200, some ⟨true, []⟩, 0, none⟩ }

theorem via_chosen (hashes : List Bytes) :
    (prober hashes).routing.Chooses "target".toList .odohTarget 0 (odohRelayStamp hashes) :=
  ⟨["via".toList], false, .odohRelay, rfl, rfl, List.cons_ne_nil _ _, rfl⟩

def pinned : Bytes := List.replicate 32 9

theorem target_usable {hashes : List Bytes} (h : hashes = [] ∨ hashes = [pinned]) :
    ∃ info, (prober hashes).fetchODoHTargetInfoOnce (answeringTarget.presenting [[1, 2, 3]])
      "target".toList targetStamp = .ok (.ok info) := by
  have hconfigs : (prober hashes).fetchTargetConfigsFromWellKnown answeringTarget.configs [] =
      .ok (.ok [targetConfig]) :=
    congrArg (Except.map (Except.mapError GoError.plain)) configsBody_parsed
  unfold Prober.fetchODoHTargetInfoOnce
  dsimp only [Prober.TargetEnv.presenting]
  rw [show answeringTarget.spare = [] from rfl, hconfigs]
  rcases h with rfl | rfl
  · exact ⟨_, rfl⟩
  · exact ⟨_, rfl⟩

theorem relay_without_hashes :
    ∃ info, (prober []).fetchODoHTargetInfoOnce (answeringTarget.presenting [[1, 2, 3]])
        "target".toList targetStamp = .ok (.ok info) ∧
      ChainMatches padded32 (odohRelayStamp []).hashes [[1, 2, 3]] := by
  obtain ⟨info, h⟩ := target_usable (.inl rfl)
  exact ⟨info, h, (Prober.hashes_checked_iff (via_chosen [])).2.2.mpr (fun _ => .inl rfl) _ info h⟩

/-- The stamp of the relay has a hash, which the certificate of the relay does not have. The target
is used, since its own stamp has none. -/
theorem unknown_certificate_accepted :
    (prober [pinned]).routing.Chooses "target".toList .odohTarget 0 (odohRelayStamp [pinned]) ∧
      (∃ info, (prober [pinned]).fetchODoHTargetInfoOnce (answeringTarget.presenting [[1, 2, 3]])
        "target".toList targetStamp = .ok (.ok info)) ∧
      ¬ ChainMatches padded32 (odohRelayStamp [pinned]).hashes [[1, 2, 3]] := by
  have hsum : ∀ cert ∈ ([[1, 2, 3]] : List Bytes), padded32.sum cert ∉ [pinned] := by decide
  refine ⟨via_chosen [pinned], target_usable (.inr rfl), ?_⟩
  rintro (hnil | ⟨cert, hcert, hmem⟩)
  · cases hnil
  · exact hsum cert hcert hmem

end Sample

end DnscryptProxy
