import DnscryptProxy.Basic
import Mathlib.Data.List.MinMax

/-! DNS messages as the `miekg/dns` package represents them, and the functions of
`dnsutils.go` that work on one message. Packing and unpacking belong to that
package and are parameters, collected in `DNSLibrary`. -/

namespace DnscryptProxy

/-! ## Addresses -/

/-- A `net.IP`: a byte slice, empty for `nil`. -/
abbrev IP := Bytes

def IP.v4InV6Prefix : Bytes := [0, 0, 0, 0, 0, 0, 0, 0, 0, 0, 0xff, 0xff]

def IP.to4 (ip : IP) : Option IP :=
  if ip.length = 4 then some ip
  else if ip.length = 16 ∧ ip.take 12 = IP.v4InV6Prefix then some (ip.drop 12)
  else none

def IP.to16 (ip : IP) : Option IP :=
  if ip.length = 4 then some (IP.v4InV6Prefix ++ ip)
  else if ip.length = 16 then some ip
  else none

/-- The 16-bit groups of an IPv6 address. -/
def IP.groups : Bytes → List Nat
  | hi :: lo :: rest => uint16 hi lo :: IP.groups rest
  | _ => []

/-- The first of the longest runs of zero groups, as a start and a length. -/
def IP.zeroRun (groups : List Nat) : Option (Nat × Nat) :=
  let runs := (List.range groups.length).map fun i =>
    (i, ((groups.drop i).takeWhile (· = 0)).length)
  runs.argmax (·.2)

def IP.joinHex (groups : List Nat) : Text :=
  List.intercalate [':'] (groups.map (Nat.toDigits 16))

/-- `IP.String`: dotted decimal for IPv4 and IPv4-mapped addresses, else RFC 5952. -/
def IP.string (ip : IP) : Text :=
  if ip = [] then "<nil>".toList
  else match IP.to4 ip with
    | some v4 => List.intercalate ['.'] (v4.map fun b => Nat.toDigits 10 b.toNat)
    | none =>
      if ip.length ≠ 16 then '?' :: ip.flatMap fun b =>
        [Nat.digitChar (b.toNat / 16), Nat.digitChar (b.toNat % 16)]
      else
        let groups := IP.groups ip
        match IP.zeroRun groups with
        | some (start, len) =>
          if len < 2 then IP.joinHex groups
          else IP.joinHex (groups.take start) ++ [':', ':'] ++ IP.joinHex (groups.drop (start + len))
        | none => IP.joinHex groups

example : IP.string [0x20, 1, 0xd, 0xb8, 0, 0, 0, 0, 0, 1, 0, 0, 0, 0, 0, 1] =
    "2001:db8::1:0:0:1".toList := by decide

/-! ## Messages -/

def typeA : UInt16 := 1
def typeCNAME : UInt16 := 5
def typeSOA : UInt16 := 6
def typePTR : UInt16 := 12
def typeHINFO : UInt16 := 13
def typeTXT : UInt16 := 16
def typeAAAA : UInt16 := 28
def typeOPT : UInt16 := 41
def typeSVCB : UInt16 := 64
def typeHTTPS : UInt16 := 65
def classINET : UInt16 := 1

def rcodeSuccess : Nat := 0
def rcodeServerFailure : Nat := 2
def rcodeNameError : Nat := 3
def rcodeRefused : Nat := 5
def rcodeNotAuth : Nat := 9

def edns0Subnet : UInt16 := 8
def edns0Padding : UInt16 := 12

structure Question where
  name : Text
  qtype : UInt16
  qclass : UInt16
  deriving DecidableEq, Repr

structure EDNS0Option where
  code : UInt16
  data : Bytes
  deriving DecidableEq, Repr

/-- The record types that have a constructor of their own below. -/
def namedTypes : List UInt16 :=
  [typeA, typeCNAME, typeSOA, typePTR, typeHINFO, typeTXT, typeAAAA, typeOPT, typeSVCB, typeHTTPS]

inductive RData where
  | a (ip : IP)
  | aaaa (ip : IP)
  | cname (target : Text)
  | svcb (priority : UInt16) (target : Text)
  | https (priority : UInt16) (target : Text)
  | opt (options : List EDNS0Option)
  | ptr (name : Text)
  | txt (strings : List Text)
  | hinfo (cpu os : String)
  | soa (ns mbox : Text) (serial refresh retry expire minttl : UInt32)
  | other (rrtype : UInt16) (unnamed : rrtype ∉ namedTypes) (rdata : Bytes)
  deriving DecidableEq

structure RR where
  name : Text
  cls : UInt16
  ttl : UInt32
  data : RData
  deriving DecidableEq

def RR.rrtype (rr : RR) : UInt16 :=
  match rr.data with
  | .a _ => typeA
  | .aaaa _ => typeAAAA
  | .cname _ => typeCNAME
  | .svcb _ _ => typeSVCB
  | .https _ _ => typeHTTPS
  | .opt _ => typeOPT
  | .ptr _ => typePTR
  | .txt _ => typeTXT
  | .hinfo _ _ => typeHINFO
  | .soa .. => typeSOA
  | .other rrtype _ _ => rrtype

structure Msg where
  id : UInt16
  response : Bool
  opcode : Nat
  authoritative : Bool
  truncated : Bool
  recursionDesired : Bool
  recursionAvailable : Bool
  zero : Bool
  authenticatedData : Bool
  checkingDisabled : Bool
  rcode : Nat
  compress : Bool
  question : List Question
  answer : List RR
  ns : List RR
  extra : List RR
  deriving DecidableEq

/-- `Unpack`, `Pack`, what a failed `PackBuffer` leaves in the buffer it was given,
and the names of the record types. `Pack` and `PackBuffer` return `nil` with an
error, and on success they return at least the twelve bytes of the header. -/
structure DNSLibrary where
  unpack : Bytes → Except GoError Msg
  pack : Msg → Except GoError Bytes
  packFailure : Msg → Bytes → Bytes
  typeToString : UInt16 → Option Text
  pack_length : ∀ m b, pack m = .ok b → 12 ≤ b.length

/-- A library that knows the given packets only. -/
def DNSLibrary.ofTable (table : List (Bytes × Msg)) (h : ∀ e ∈ table, 12 ≤ e.1.length) :
    DNSLibrary where
  unpack b := match table.find? fun e => e.1 = b with
    | some e => .ok e.2
    | none => .error (.plain "dns: bad rdata")
  pack m := match table.find? fun e => e.2 = m with
    | some e => .ok e.1
    | none => .error (.plain "dns: bad rdata")
  packFailure _ b := b
  typeToString t := if t = typeA then some ['A'] else none
  pack_length m b hb := by
    split at hb
    · next e he =>
      cases hb
      exact h e (List.mem_of_find?_eq_some he)
    · cases hb

/-! ## Packets

The callers have checked that the header is there. -/

def hasTCFlag (packet : Bytes) : Bool := packet.getD 2 0 &&& 2 = 2

def packetRcode (packet : Bytes) : Nat := (packet.getD 3 0 &&& 0xf).toNat

def transactionID (packet : Bytes) : Bytes := packet.take 2

def setTransactionID (packet tid : Bytes) : Bytes := tid ++ packet.drop 2

/-! ## EDNS0 -/

/-- The last OPT record of the additional section. -/
def Msg.isEdns0 (msg : Msg) : Option RR := msg.extra.reverse.find? fun rr => rr.rrtype = typeOPT

def RR.udpSize (rr : RR) : UInt16 := rr.cls

/-- The DNSSEC OK bit of an OPT record, which sits in its TTL field. -/
def RR.edns0Do (rr : RR) : Bool := rr.ttl &&& 0x8000 = 0x8000

def RR.options (rr : RR) : List EDNS0Option :=
  match rr.data with
  | .opt options => options
  | _ => []

def RR.setOptions (rr : RR) (options : List EDNS0Option) : RR :=
  match rr.data with
  | .opt _ => { rr with data := .opt options }
  | _ => rr

def Msg.setEdns0 (msg : Msg) (udpSize : UInt16) (edns0Do : Bool) : Msg :=
  { msg with extra := msg.extra ++
      [⟨['.'], udpSize, if edns0Do then 0x8000 else 0, .opt []⟩] }

/-- Apply `f` to the first record that satisfies `p`. -/
def modifyFirst (p : RR → Bool) (f : RR → RR) : List RR → List RR
  | [] => []
  | rr :: rrs => if p rr then f rr :: rrs else rr :: modifyFirst p f rrs

/-- Change the record that `isEdns0` points to. -/
def Msg.modifyEdns0 (msg : Msg) (f : RR → RR) : Msg :=
  { msg with extra :=
      (modifyFirst (fun rr => rr.rrtype = typeOPT) f msg.extra.reverse).reverse }

def removeEDNS0Options (msg : Msg) : Msg := msg.modifyEdns0 fun rr => rr.setOptions []

def addEDNS0PaddingIfNoneFound (lib : DNSLibrary) (msg : Msg) (unpaddedPacket : Bytes)
    (paddingLen : Nat) : Except GoError Bytes × Msg :=
  let msg := if msg.isEdns0.isNone then msg.setEdns0 (UInt16.ofNat maxDNSPacketSize) false else msg
  match msg.isEdns0 with
  | none => (.ok unpaddedPacket, msg)
  | some edns0 =>
    if edns0.options.any fun option => option.code = edns0Padding then (.ok unpaddedPacket, msg)
    else
      let ext : EDNS0Option := ⟨edns0Padding, List.replicate paddingLen 0x58⟩
      let msg := msg.modifyEdns0 fun rr => rr.setOptions (rr.options ++ [ext])
      (lib.pack msg, msg)

/-! ## Responses made here -/

def emptyResponseFromMessage (srcMsg : Msg) : Msg :=
  let dstMsg : Msg := { srcMsg with
    compress := true, answer := [], ns := [], extra := []
    response := true
    recursionAvailable := srcMsg.recursionDesired || srcMsg.recursionAvailable
    recursionDesired := false, checkingDisabled := false, authenticatedData := false }
  match srcMsg.isEdns0 with
  | some edns0 => dstMsg.setEdns0 edns0.udpSize edns0.edns0Do
  | none => dstMsg

def truncatedResponse (lib : DNSLibrary) (packet : Bytes) : Except GoError Bytes := do
  let srcMsg ← lib.unpack packet
  lib.pack { emptyResponseFromMessage srcMsg with truncated := true }

def blockedAnswer (question : Question) (ipv4 ipv6 : IP) : Option RData :=
  if ipv4 ≠ [] ∧ question.qtype = typeA then (IP.to4 ipv4).map .a
  else if ipv6 ≠ [] ∧ question.qtype = typeAAAA then (IP.to16 ipv6).map .aaaa
  else none

def refusedResponseFromMessage (srcMsg : Msg) (refusedCode : Bool) (ipv4 ipv6 : IP)
    (ttl : UInt32) : Msg :=
  let dstMsg := emptyResponseFromMessage srcMsg
  if refusedCode then { dstMsg with rcode := rcodeRefused }
  else
    let dstMsg := { dstMsg with rcode := rcodeSuccess }
    match srcMsg.question with
    | [] => dstMsg
    | question :: _ =>
      let data := (blockedAnswer question ipv4 ipv6).getD
        (.hinfo "This query has been locally blocked" "by dnscrypt-proxy")
      { dstMsg with answer := [⟨question.name, classINET, ttl, data⟩] }

/-! ## Names -/

/-- `NormalizeRawQName`: the ASCII capitals of a name in lower case. -/
def normalizeRawQName (name : Text) : Text :=
  name.map fun c => if 'A' ≤ c ∧ c ≤ 'Z' then Char.ofNat (c.toNat + 32) else c

def normalizeQName (str : Text) : Except GoError Text :=
  if str = [] ∨ str = ['.'] then .ok ['.']
  else
    let str := if str.getLast? = some '.' then str.dropLast else str
    if str.any fun c => c.toNat ≥ 0x80 then .error (.plain "Query name is not an ASCII string")
    else .ok (normalizeRawQName str)

/-! ## Times to live -/

/-- Instants and durations, in nanoseconds. -/
abbrev Time := Int

def second : Int := 1000000000
def minute : Time := 60 * second

structure TTLSettings where
  cacheMinTTL : UInt32
  cacheMaxTTL : UInt32
  cacheNegMinTTL : UInt32
  cacheNegMaxTTL : UInt32
  deriving DecidableEq, Repr

/-- The smallest TTL of the records, starting from `ttl`. -/
def minTTLFrom (ttl : UInt32) (rrs : List RR) : UInt32 :=
  rrs.foldl (fun ttl rr => if rr.ttl < ttl then rr.ttl else ttl) ttl

def getMinTTL (msg : Msg) (settings : TTLSettings) : Time :=
  if (msg.rcode ≠ rcodeSuccess ∧ msg.rcode ≠ rcodeNameError) ∨ (msg.answer = [] ∧ msg.ns = []) then
    settings.cacheNegMinTTL.toNat * second
  else
    let ttl := if msg.rcode = rcodeSuccess then settings.cacheMaxTTL else settings.cacheNegMaxTTL
    let ttl := minTTLFrom ttl (if msg.answer ≠ [] then msg.answer else msg.ns)
    let least := if msg.rcode = rcodeSuccess then settings.cacheMinTTL else settings.cacheNegMinTTL
    (if ttl < least then least else ttl).toNat * second

/-- `setMaxTTL`: no record other than an OPT record lives longer than `ttl`. -/
def setMaxTTL (msg : Msg) (ttl : UInt32) : Msg :=
  let cap := fun rr : RR => if ttl < rr.ttl then { rr with ttl := ttl } else rr
  { msg with
    answer := msg.answer.map cap
    ns := msg.ns.map cap
    extra := msg.extra.map fun rr => if rr.rrtype = typeOPT then rr else cap rr }

/-- The TTL that `updateTTL` writes: the time left, rounded to seconds. -/
def remainingTTL (expiration now : Time) : UInt32 :=
  let untilExpiration := expiration - now
  if untilExpiration > 0 then
    let ttl := UInt32.ofNat (untilExpiration / second).toNat
    if untilExpiration - ttl.toNat * second ≥ second / 2 then ttl + 1 else ttl
  else 0

def RR.withTTL (ttl : UInt32) (rr : RR) : RR := { rr with ttl := ttl }

def Msg.withTTL (msg : Msg) (ttl : UInt32) : Msg :=
  { msg with
    answer := msg.answer.map (RR.withTTL ttl)
    ns := msg.ns.map (RR.withTTL ttl)
    extra := msg.extra.map fun rr => if rr.rrtype ≠ typeOPT then rr.withTTL ttl else rr }

def updateTTL (msg : Msg) (expiration now : Time) : Msg := msg.withTTL (remainingTTL expiration now)

end DnscryptProxy
