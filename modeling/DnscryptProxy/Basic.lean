import Mathlib.Data.List.Basic
import Mathlib.Tactic.Common

/-! Go values and the helpers of `common.go`. Byte slices are lists of `UInt8`,
strings that hold text are lists of characters, and a fallible call returns an
`Except GoError`. -/

namespace DnscryptProxy

abbrev Bytes := List UInt8
abbrev Text := List Char

/-- `[]byte(s)` -/
def byteString (s : String) : Bytes := s.toByteArray.data.toList

/-- An `error`. The query path asks of an error only whether it is a `net.Error`
that timed out. -/
inductive GoError where
  | plain (text : String)
  | net (text : String) (timeout : Bool)
  deriving DecidableEq, Repr

/-- `neterr, ok := err.(net.Error); ok && neterr.Timeout()` -/
def GoError.isTimeout : GoError → Bool
  | .plain _ => false
  | .net _ timeout => timeout

def clientMagicLen : Nat := 8
def serverMagic : Bytes := [0x72, 0x36, 0x66, 0x6e, 0x76, 0x57, 0x6a, 0x38]
def minDNSPacketSize : Nat := 12 + 5
def maxDNSPacketSize : Nat := 4096
def maxDNSUDPPacketSize : Nat := 4096
def maxDNSUDPSafePacketSize : Nat := 1252
def initialMinQuestionSize : Nat := 512

/-- `binary.BigEndian.PutUint16` of `uint16(n)`. -/
def putUint16 (n : Nat) : Bytes := [UInt8.ofNat (n / 256), UInt8.ofNat n]

/-- `binary.BigEndian.Uint16` of two bytes. -/
def uint16 (hi lo : UInt8) : Nat := hi.toNat * 256 + lo.toNat

theorem uint16_putUint16 (n : Nat) (h : n < 65536) :
    uint16 (UInt8.ofNat (n / 256)) (UInt8.ofNat n) = n := by
  simp only [uint16, UInt8.toNat_ofNat']
  omega

def prefixWithSize (packet : Bytes) : Except GoError Bytes :=
  if packet.length > 0xffff then .error (.plain "Packet too large")
  else .ok (putUint16 packet.length ++ packet)

def readPrefixedFrom (buf : Bytes) : List (Except GoError Bytes) → Except GoError Bytes
  | [] => .error (.net "i/o timeout" true)
  | .error e :: _ => .error e
  | .ok chunk :: reads =>
    let buf := buf ++ chunk.take (2 + maxDNSPacketSize - buf.length)
    match buf with
    | hi :: lo :: body =>
      let packetLength := uint16 hi lo
      if packetLength > maxDNSPacketSize - 1 then .error (.plain "Packet too large")
      else if packetLength < minDNSPacketSize then .error (.plain "Packet too short")
      else if packetLength ≤ body.length then .ok (body.take packetLength)
      else readPrefixedFrom buf reads
    | _ => readPrefixedFrom buf reads

def readPrefixed (reads : List (Except GoError Bytes)) : Except GoError Bytes :=
  readPrefixedFrom [] reads

def readAllLimited (limit : Nat) (body : Bytes) (err : Option GoError) : Except GoError Bytes :=
  match err with
  | some e => if body.length < limit then .error e else .ok (body.take limit)
  | none => .ok (body.take limit)

end DnscryptProxy
