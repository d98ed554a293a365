import DnscryptProxy.Library.Chain
import DnscryptProxy.Message
import DnscryptProxy.RecordFields
import Mathlib.Data.Nat.Bitwise

/-! Whole messages, as `Pack` writes and `Unpack` reads them.

The records are of any types whose fields are as in `RecordFields`. Their lengths are filled in after
their data, and names may point to names of earlier records.

* `unpack_pack`: a message is unpacked as it was packed, also when bytes follow it.
* `setTransactionID_pack`: the proxy may change the ID of a packed message in place, whatever it is.
* `packet_header`: what the proxy reads in a packet itself is in the unpacked message. -/

namespace DnscryptProxy

open Library WireNames

namespace DNSWire

def headerSize : Nat := 12

def errRcode : GoError := .plain "dns: bad rcode"
def errExtendedRcode : GoError := .plain "dns: bad extended rcode"

structure MsgHdr where
  id : UInt16
  response : Bool
  opcode : Nat
  authoritative : Bool
  truncated : Bool
  recursionDesired : Bool
  recursionAvailable : Bool
  zero : Bool
  authenticatedData : Bool
  checkingDisabled : Bool
  rcode : Nat
  deriving DecidableEq

structure WireQuestion where
  name : Bytes
  qtype : UInt16
  qclass : UInt16
  deriving DecidableEq

section Records

variable (types : UInt16 → RecordType)

/-- A record, with the data of its type. -/
structure WireRR where
  name : Bytes
  rrtype : UInt16
  cls : UInt16
  ttl : UInt32
  data : Data (types rrtype).fields

structure WireMsg where
  hdr : MsgHdr
  compress : Bool
  question : List WireQuestion
  answer : List (WireRR types)
  ns : List (WireRR types)
  extra : List (WireRR types)

end Records

/-! ## Record types -/

section Types

variable (unpackOption : UInt16 → Bytes → Option GoError) (others : UInt16 → RecordType)

/-- The types and their fields, as `zmsg.go` packs them. -/
def recordFields : List (List UInt16 × List Field) :=
  -- NS, MD, MF, CNAME, MB, MG, MR, PTR
  [([2, 3, 4, 5, 7, 8, 9, 12], [domainName true]),
    -- NSAPPTR, DNAME
    ([23, 39], [domainName false]),
    -- MINFO
    ([14], [domainName true, domainName true]),
    -- RP, TALINK
    ([17, 58], [domainName false, domainName false]),
    -- SOA
    ([6], [domainName true, domainName true, uint32, uint32, uint32, uint32, uint32]),
    -- MX
    ([15], [uint16Field, domainName true]),
    -- AFSDB, RT, KX, LP
    ([18, 21, 36, 107], [uint16Field, domainName false]),
    -- PX
    ([26], [uint16Field, domainName false, domainName false]),
    -- SRV
    ([33], [uint16Field, uint16Field, uint16Field, domainName false]),
    -- NAPTR
    ([35], [uint16Field, uint16Field, string, string, string, domainName false]),
    -- A, AAAA, L32
    ([1], [dataA]), ([28], [dataAAAA]), ([105], [uint16Field, dataA]),
    -- TXT, NINFO, SPF, AVC
    ([16, 56, 99, 258], [txt]),
    -- X25, UINFO
    ([19, 100], [string]),
    -- HINFO, GPOS
    ([13], [string, string]), ([27], [string, string, string]),
    -- CAA, URI
    ([257], [uint8, string, octet]), ([256], [uint16Field, uint16Field, octet]),
    -- KEY, DNSKEY, RKEY, CDNSKEY
    ([25, 48, 57, 60], [uint16Field, uint8, uint8, rest .base64]),
    -- DS, CDS, TA, DLV
    ([43, 59, 32768, 32769], [uint16Field, uint8, uint8, rest .hex]),
    -- CERT
    ([37], [uint16Field, uint16Field, uint8, rest .base64]),
    -- DHCID, OPENPGPKEY
    ([49, 61], [rest .base64]),
    -- EID, NIMLOC
    ([31, 32], [rest .hex]),
    -- NULL
    ([10], [rest .anything]),
    -- TLSA, SMIMEA
    ([52, 53], [uint8, uint8, uint8, rest .hex]),
    -- SSHFP, ZONEMD
    ([44], [uint8, uint8, rest .hex]), ([63], [uint32, uint8, uint8, rest .hex]),
    -- SIG, RRSIG
    ([24, 46], [uint16Field, uint8, uint8, uint32, uint32, uint32, uint16Field, domainName false,
      rest .base64]),
    -- LOC
    ([29], [uint8, uint8, uint8, uint8, uint32, uint32, uint32]),
    -- UID, GID
    ([101, 102], [uint32]),
    -- NID, L64
    ([104, 106], [uint16Field, uint64]),
    -- EUI48, EUI64
    ([108], [uint48]), ([109], [uint64]),
    -- OPT, ANY
    ([41], [opt unpackOption]), ([255], [])]

def otherTypes : List UInt16 := [42, 47, 50, 51, 55, 62, 64, 65, 249, 250]

theorem recordFields_lawful : ∀ entry ∈ recordFields unpackOption, ∀ f ∈ entry.2, f.Lawful := by
  simp only [recordFields, List.forall_mem_cons, domainName_lawful, uint8, uint16Field, uint32, uint48,
    uint64, uint_lawful, dataA_lawful, dataAAAA_lawful, string_lawful, txt_lawful, octet_lawful, rest_lawful,
    opt_lawful, List.not_mem_nil, false_implies, implies_true, and_self]

theorem recordFields_restLast : ∀ entry ∈ recordFields unpackOption, RestLast entry.2 := by
  simp only [recordFields, List.forall_mem_cons, RestLast, domainName, uint8, uint16Field, uint32, uint48,
    uint64, uint, dataA, dataAAAA, address, string, ne_eq, not_true_eq_false, false_implies, implies_true,
    and_self, List.not_mem_nil]

def rfc3597 : RecordType where
  fields := [rest .hex]
  lawful := by simp [rest_lawful]
  restLast := by simp [RestLast]

def typeFields (rrtype : UInt16) : List Field :=
  if rrtype ∈ otherTypes then (others rrtype).fields
  else match (recordFields unpackOption).find? (rrtype ∈ ·.1) with
    | some entry => entry.2
    | none => rfc3597.fields

theorem typeFields_lawful (rrtype : UInt16) :
    (∀ f ∈ typeFields unpackOption others rrtype, f.Lawful) ∧
      RestLast (typeFields unpackOption others rrtype) := by
  unfold typeFields
  split
  · exact ⟨(others rrtype).lawful, (others rrtype).restLast⟩
  split
  next entry hentry =>
    have hmem := List.mem_of_find?_eq_some hentry
    exact ⟨recordFields_lawful unpackOption entry hmem, recordFields_restLast unpackOption entry hmem⟩
  next => exact ⟨rfc3597.lawful, rfc3597.restLast⟩

/-- `TypeToRR` -/
def typeToRR (rrtype : UInt16) : RecordType where
  fields := typeFields unpackOption others rrtype
  lawful := (typeFields_lawful unpackOption others rrtype).1
  restLast := (typeFields_lawful unpackOption others rrtype).2

end Types

/-! ## Numbers in a row -/

theorem at_append {msg a b : Bytes} {off : Nat} :
    At msg off (a ++ b) ↔ At msg off a ∧ At msg (off + a.length) b := by
  induction a generalizing off with
  | nil => simp [At]
  | cons c a ih =>
    rw [List.cons_append, at_cons, at_cons, ih, List.length_cons, and_assoc,
      show off + 1 + a.length = off + (a.length + 1) by omega]

theorem unpackUint_of_at {what : String} {n i off : Nat} {msg : Bytes} (h : At msg off (putUint n i))
    (hn : 0 < n) (hi : i < 256 ^ n) : unpackUint what n msg off = .ok (i, off + n) := by
  have hne : putUint n i ≠ [] := by
    intro hnil
    have hlen := length_putUint n i
    rw [hnil] at hlen
    exact absurd hlen (by simp; omega)
  have hle := h.le hne
  have htake := h.take
  rw [length_putUint] at hle htake
  rw [unpackUint, unpackBytes, if_neg (by omega), htake]
  exact congrArg (fun i => Except.ok (i, off + n)) (getUint_putUint hi)

theorem packUint_appends (what : String) {n size : Nat} (i : Nat) {st : Packing}
    (h : st.msg.length + n < size) :
    Buffer.Appends (packUint what n size i) st (putUint n i) st.table := by
  intro before hlen
  refine packBytes_ok ?_
  rw [length_putUint]
  change before.length + n < size
  rw [hlen]
  exact h

theorem at_after (before out words more : Bytes) :
    At (before ++ (out ++ words) ++ more) (before ++ out).length words := by
  have hat := at_length (before ++ out) words more
  simpa using hat

/-! ## Questions -/

def packQuestion (size : Nat) (compress : Bool) (q : WireQuestion) (st : Packing) :
    Except GoError Packing := do
  let st ← packDomainName size compress q.name st
  let st ← packUint16 size q.qtype.toNat st
  packUint16 size q.qclass.toNat st

def unpackQuestion (msg : Bytes) (off : Nat) : Except GoError (WireQuestion × Nat) := do
  let (name, off) ← unpackDomainName msg off
  if off = msg.length then return (⟨name, 0, 0⟩, off)
  else
    let (qtype, off) ← unpackUint16 msg off
    if off = msg.length then return (⟨name, UInt16.ofNat qtype, 0⟩, off)
    else
      -- a class of one byte ends at the end of the message, and its error is dropped
      match unpackUint16 msg off with
      | .error _ => return (⟨name, UInt16.ofNat qtype, 0⟩, msg.length)
      | .ok (qclass, off) => return (⟨name, UInt16.ofNat qtype, UInt16.ofNat qclass⟩, off)

def WireQuestion.len (q : WireQuestion) : Nat := domainNameLen q.name + 4

def WireQuestion.Good (q : WireQuestion) : Prop := ∃ labels, IsName q.name labels

theorem packQuestion_codes (size : Nat) (compress : Bool) {q : WireQuestion} (h : q.Good) :
    Buffer.Codes Packing.Sound size (packQuestion size compress q) unpackQuestion q 1 q.len := by
  obtain ⟨labels, hname⟩ := h
  intro st hsound hroom
  rw [WireQuestion.len] at hroom ⊢
  have hroomName : st.msg.length + domainNameLen q.name < size := by omega
  obtain ⟨out, t, hpack, hsoundMid, -, hlen, hread⟩ :=
    packDomainName_codes compress hname st hsound hroomName
  let words := putUint 2 q.qtype.toNat ++ putUint 2 q.qclass.toNat
  have hwords : words.length = 4 := by simp [words]
  have happends : Buffer.Appends (packQuestion size compress q) st (out ++ words) t := by
    refine hpack.bind ((packUint_appends _ _ ?_).bind (packUint_appends _ _ ?_))
    · simp only [List.length_append]
      omega
    · simp only [List.length_append, length_putUint]
      omega
  have hlength : (out ++ words).length = out.length + 4 := by rw [List.length_append, hwords]
  refine ⟨out ++ words, t, happends, ?_, by omega, by omega, fun more => ?_⟩
  · rw [← List.append_assoc]
    exact hsoundMid.write words
  obtain ⟨htype, hclass⟩ := at_append.mp (at_after st.msg out words more)
  rw [length_putUint] at hclass
  have hend : (st.msg ++ (out ++ words)).length = (st.msg ++ out).length + 4 := by
    rw [← List.append_assoc, List.length_append, hwords]
  have hfirst : unpackDomainName (st.msg ++ (out ++ words) ++ more) st.msg.length =
      .ok (q.name, (st.msg ++ out).length) := by
    have hname := hread (words ++ more)
    simpa using hname
  generalize hmsg : st.msg ++ (out ++ words) ++ more = msg at htype hclass hfirst ⊢
  -- neither the type nor the class is cut off
  have hshort : (st.msg ++ out).length + 4 ≤ msg.length := by
    rw [← hend, ← hmsg]
    exact (List.prefix_append _ _).length_le
  generalize (st.msg ++ out).length = off at *
  unfold unpackQuestion
  rw [hfirst]
  change (if off = msg.length then _ else _) = _
  rw [if_neg (by omega), unpackUint16, unpackUint_of_at htype (by omega) q.qtype.toNat_lt]
  change (if off + 2 = msg.length then _ else _) = _
  rw [if_neg (by omega), unpackUint_of_at hclass (by omega) q.qclass.toNat_lt]
  change Except.ok _ = _
  rw [UInt16.ofNat_toNat, UInt16.ofNat_toNat, hend]

/-! ## Records -/

section RR

variable {types : UInt16 → RecordType} (size : Nat) (compress : Bool)

def WireRR.fields (rr : WireRR types) : List Field := (types rr.rrtype).fields

def packHeader (rr : WireRR types) (st : Packing) : Except GoError Packing :=
  if st.msg.length = size then .ok st
  else do
    let st ← packDomainName size compress rr.name st
    let st ← packUint16 size rr.rrtype.toNat st
    let st ← packUint16 size rr.cls.toNat st
    let st ← packUint32 size rr.ttl.toNat st
    packUint16 size 0 st

/-- The length of the data is the last field of the header and is set when the data is there. -/
def setRdlength (header st : Packing) : Except GoError Packing :=
  if (st.msg.length - header.msg.length) % 65536 ≠ st.msg.length - header.msg.length then .error errRdata
  else .ok (st.patch (header.msg.length - 2) (putUint 2 (st.msg.length - header.msg.length)))

def packRR (rr : WireRR types) (st : Packing) : Except GoError Packing := do
  let header ← packHeader size compress rr st
  let st ← packData size compress rr.fields rr.data header
  setRdlength header st

/-- The fields of the header of a record, with the length of its data. -/
structure RRHeader where
  name : Bytes
  rrtype : UInt16
  cls : UInt16
  ttl : UInt32
  rdlength : Nat

/-- The header, the offset of the data, and the message up to the end of the data. -/
def unpackHeader (msg : Bytes) (off : Nat) : Except GoError (RRHeader × Nat × Bytes) :=
  if off = msg.length then .ok (⟨[], 0, 0, 0, 0⟩, off, msg)
  else do
    let (name, off) ← unpackDomainName msg off
    let (rrtype, off) ← unpackUint16 msg off
    let (cls, off) ← unpackUint16 msg off
    let (ttl, off) ← unpackUint32 msg off
    let (rdlength, off) ← unpackUint16 msg off
    if off + rdlength > msg.length then .error (dnsError "overflowing header size")
    else return (⟨name, UInt16.ofNat rrtype, UInt16.ofNat cls, UInt32.ofNat ttl, rdlength⟩, off,
      msg.take (off + rdlength))

variable (types)

def unpackRRWithHeader (h : RRHeader) (msg : Bytes) (off : Nat) :
    Except GoError (WireRR types × Nat) :=
  if off > msg.length then .error (dnsError "bad off")
  else if off + h.rdlength > msg.length then .error (dnsError "bad rdlength")
  else if h.rdlength = 0 then .ok (⟨h.name, h.rrtype, h.cls, h.ttl, Data.zero _⟩, off)
  else do
    let (data, stop) ← unpackData (types h.rrtype).fields msg off
    if stop ≠ off + h.rdlength then .error (dnsError "bad rdlength")
    else return (⟨h.name, h.rrtype, h.cls, h.ttl, data⟩, stop)

def unpackRR (msg : Bytes) (off : Nat) : Except GoError (WireRR types × Nat) := do
  let (h, off, msg) ← unpackHeader msg off
  unpackRRWithHeader types h msg off

end RR

section RR

variable {types : UInt16 → RecordType} {size : Nat} {compress : Bool} {rr : WireRR types} {st : Packing}

def WireRR.len (rr : WireRR types) : Nat := domainNameLen rr.name + 10 + Data.len rr.fields rr.data

/-- A record whose name and data can be packed as they are. -/
structure WireRR.Good (rr : WireRR types) : Prop where
  name : ∃ labels, IsName rr.name labels
  data : Data.Good rr.fields rr.data
  fits : Data.len rr.fields rr.data < 65536

/-- The type, the class and the TTL of a record. -/
def WireRR.words (rr : WireRR types) : Bytes :=
  putUint 2 rr.rrtype.toNat ++ (putUint 2 rr.cls.toNat ++ putUint 4 rr.ttl.toNat)

theorem WireRR.length_words (rr : WireRR types) : rr.words.length = 8 := by simp [WireRR.words]

variable {out data : Bytes} {t : Option (List (Bytes × Nat))}

theorem packHeader_appends (hpack : Buffer.Appends (packDomainName size compress rr.name) st out t)
    (hroom : st.msg.length + out.length + 10 < size) :
    Buffer.Appends (packHeader size compress rr) st (out ++ (rr.words ++ putUint 2 0)) t := by
  have hfields : Buffer.Appends (fun st => packDomainName size compress rr.name st >>= fun st =>
      packUint16 size rr.rrtype.toNat st >>= fun st => packUint16 size rr.cls.toNat st >>= fun st =>
        packUint32 size rr.ttl.toNat st >>= packUint16 size 0) st
      (out ++ (putUint 2 rr.rrtype.toNat ++ (putUint 2 rr.cls.toNat ++
        (putUint 4 rr.ttl.toNat ++ putUint 2 0)))) t := by
    refine hpack.bind ((packUint_appends _ _ ?_).bind ((packUint_appends _ _ ?_).bind
      ((packUint_appends _ _ ?_).bind (packUint_appends _ _ ?_))))
    all_goals
      simp only [List.length_append, length_putUint]
      omega
  intro before hlen
  have happ := hfields before hlen
  rw [packHeader, if_neg (by dsimp only; omega), WireRR.words, List.append_assoc, List.append_assoc]
  exact happ

theorem packRR_appends {t' : Option (List (Bytes × Nat))}
    (hheader : Buffer.Appends (packHeader size compress rr) st (out ++ (rr.words ++ putUint 2 0)) t)
    (hdata : Buffer.Appends (packData size compress rr.fields rr.data)
      ⟨st.msg ++ (out ++ (rr.words ++ putUint 2 0)), t⟩ data t') (hlt : data.length < 65536) :
    Buffer.Appends (packRR size compress rr) st
      (out ++ (rr.words ++ (putUint 2 data.length ++ data))) t' := by
  intro before hlen
  have hmid := hdata (before ++ (out ++ (rr.words ++ putUint 2 0))) (by simp [hlen])
  have hsub : (before ++ (out ++ (rr.words ++ putUint 2 0)) ++ data).length -
      (before ++ (out ++ (rr.words ++ putUint 2 0))).length = data.length := by
    rw [List.length_append]
    omega
  have hpos : (before ++ (out ++ (rr.words ++ putUint 2 0))).length - 2 =
      (before ++ out ++ rr.words).length := by
    simp only [List.length_append, length_putUint]
    omega
  have hset : setRdlength ⟨before ++ (out ++ (rr.words ++ putUint 2 0)), t⟩
      ⟨before ++ (out ++ (rr.words ++ putUint 2 0)) ++ data, t'⟩ =
        .ok ⟨before ++ out ++ rr.words ++ putUint 2 data.length ++ data, t'⟩ := by
    have hpatch : Buffer.patch ⟨before ++ out ++ rr.words ++ putUint 2 0 ++ data, t'⟩
        (before ++ out ++ rr.words).length (putUint 2 data.length) = _ :=
      Buffer.patch_write (by rw [length_putUint, length_putUint])
    rw [← hpatch, setRdlength]
    rw [hsub, if_neg (by omega), hpos]
    simp only [List.append_assoc]
  unfold packRR
  rw [hheader before hlen]
  change packData size compress rr.fields rr.data _ >>= _ = _
  rw [hmid]
  refine hset.trans ?_
  simp only [List.append_assoc]

theorem unpackHeader_ok {msg : Bytes} {off off1 rdlength : Nat}
    (hname : unpackDomainName msg off = .ok (rr.name, off1))
    (hat : At msg off1 (rr.words ++ putUint 2 rdlength)) (hlt : rdlength < 65536)
    (hoff : off < msg.length) (hle : off1 + 10 + rdlength ≤ msg.length) :
    unpackHeader msg off = .ok (⟨rr.name, rr.rrtype, rr.cls, rr.ttl, rdlength⟩, off1 + 10,
      msg.take (off1 + 10 + rdlength)) := by
  obtain ⟨hwords, hlen⟩ := at_append.mp hat
  obtain ⟨htype, hwords⟩ := at_append.mp hwords
  obtain ⟨hcls, httl⟩ := at_append.mp hwords
  rw [WireRR.length_words] at hlen
  rw [length_putUint] at hcls httl
  rw [length_putUint] at httl
  have htype : unpackUint16 msg off1 = .ok (rr.rrtype.toNat, off1 + 2) :=
    unpackUint_of_at htype (by omega) rr.rrtype.toNat_lt
  have hcls : unpackUint16 msg (off1 + 2) = .ok (rr.cls.toNat, off1 + 4) :=
    unpackUint_of_at hcls (by omega) rr.cls.toNat_lt
  have httl : unpackUint32 msg (off1 + 4) = .ok (rr.ttl.toNat, off1 + 8) :=
    unpackUint_of_at httl (by omega) rr.ttl.toNat_lt
  have hlen : unpackUint16 msg (off1 + 8) = .ok (rdlength, off1 + 10) :=
    unpackUint_of_at hlen (by omega) hlt
  rw [unpackHeader, if_neg (by omega)]
  simp only [hname, htype, hcls, httl, hlen, bind, Except.bind]
  rw [if_neg (by omega)]
  simp [pure, Except.pure]

theorem unpackRRWithHeader_ok {before : Bytes} (hzero : data = [] → rr.data = Data.zero rr.fields)
    (hunpack : data ≠ [] → unpackData rr.fields (before ++ data) before.length =
      .ok (rr.data, (before ++ data).length)) :
    unpackRRWithHeader types ⟨rr.name, rr.rrtype, rr.cls, rr.ttl, data.length⟩ (before ++ data)
      before.length = .ok (rr, (before ++ data).length) := by
  rw [unpackRRWithHeader, if_neg (by simp), if_neg (by simp)]
  by_cases hnil : data = []
  · have hnone : rr.data = Data.zero (types rr.rrtype).fields := hzero hnil
    rw [if_pos (by rw [hnil]; rfl), ← hnone, hnil, List.append_nil]
  · have hread : unpackData (types rr.rrtype).fields (before ++ data) before.length = _ := hunpack hnil
    rw [if_neg (by simpa using hnil)]
    simp only [hread, bind, Except.bind]
    rw [if_neg (by simp)]
    rfl

theorem unpackRR_ok {before : Bytes}
    (hname : ∀ more, unpackDomainName (before ++ out ++ more) before.length =
      .ok (rr.name, (before ++ out).length)) (hlt : data.length < 65536)
    (hzero : data = [] → rr.data = Data.zero rr.fields) (hunpack : data ≠ [] → unpackData rr.fields
      (before ++ (out ++ (rr.words ++ putUint 2 data.length)) ++ data)
      (before ++ (out ++ (rr.words ++ putUint 2 data.length))).length =
        .ok (rr.data, (before ++ (out ++ (rr.words ++ putUint 2 data.length)) ++ data).length))
    (more : Bytes) :
    unpackRR types (before ++ (out ++ (rr.words ++ (putUint 2 data.length ++ data))) ++ more)
      before.length =
        .ok (rr, (before ++ (out ++ (rr.words ++ (putUint 2 data.length ++ data)))).length) := by
  have hfirst := hname (rr.words ++ (putUint 2 data.length ++ data) ++ more)
  have hat : At (before ++ out ++ (rr.words ++ (putUint 2 data.length ++ data) ++ more))
      (before ++ out).length (rr.words ++ putUint 2 data.length) := by
    have hat := at_length (before ++ out) (rr.words ++ putUint 2 data.length) (data ++ more)
    simpa only [List.append_assoc] using hat
  have hmsg : before ++ out ++ (rr.words ++ (putUint 2 data.length ++ data) ++ more) =
      before ++ (out ++ (rr.words ++ putUint 2 data.length)) ++ data ++ more := by
    simp only [List.append_assoc]
  have hassoc : before ++ (out ++ (rr.words ++ (putUint 2 data.length ++ data))) =
      before ++ (out ++ (rr.words ++ putUint 2 data.length)) ++ data := by
    simp only [List.append_assoc]
  have hheaderLen : (before ++ (out ++ (rr.words ++ putUint 2 data.length))).length =
      (before ++ out).length + 10 := by
    simp only [List.length_append, length_putUint, WireRR.length_words]
    omega
  rw [hmsg] at hfirst hat
  rw [hassoc]
  have hrecord := unpackRRWithHeader_ok hzero hunpack
  generalize before ++ (out ++ (rr.words ++ putUint 2 data.length)) = header at *
  have hlen : (header ++ data).length = (before ++ out).length + 10 + data.length := by
    rw [List.length_append, hheaderLen]
  have hle := (List.prefix_append (header ++ data) more).length_le
  have hoff := (List.prefix_append before out).length_le
  have hheader := unpackHeader_ok hfirst hat hlt (by omega) (by omega)
  rw [← hlen, List.take_left' rfl, ← hheaderLen] at hheader
  rw [unpackRR, hheader]
  exact hrecord

theorem packRR_codes (size : Nat) (compress : Bool) (h : rr.Good) :
    Buffer.Codes Packing.Sound size (packRR size compress rr) (unpackRR types) rr 1 rr.len := by
  obtain ⟨⟨labels, hname⟩, hgood, hfits⟩ := h
  intro st hsound hroom
  rw [WireRR.len] at hroom ⊢
  have hroomName : st.msg.length + domainNameLen rr.name < size := by omega
  obtain ⟨out, t, hpack, hsoundName, -, hlen, hread⟩ :=
    packDomainName_codes compress hname st hsound hroomName
  -- the header with any length in it
  let header (i : Nat) := st.msg ++ (out ++ (rr.words ++ putUint 2 i))
  have hheader (i : Nat) : (header i).length = st.msg.length + out.length + 10 := by
    simp only [header, List.length_append, length_putUint, WireRR.length_words]
    omega
  have hsoundHeader (i : Nat) : Packing.Sound ⟨header i, t⟩ := by
    have hsound := hsoundName.write (rr.words ++ putUint 2 i)
    rw [Buffer.write, List.append_assoc] at hsound
    exact hsound
  have hroomData (i : Nat) : (header i).length + Data.len rr.fields rr.data < size := by
    rw [hheader]
    omega
  have hlawful : ∀ f ∈ rr.fields, f.Lawful := (types rr.rrtype).lawful
  have hrest : RestLast rr.fields := (types rr.rrtype).restLast
  have hdata (i : Nat) := packData_appends compress hlawful hrest hgood (hsoundHeader i) (hroomData i)
  obtain ⟨data, t', happends, -, hdataLen, -, -⟩ := hdata 0
  have hlt : data.length < 65536 := lt_of_le_of_lt hdataLen hfits
  -- the data is the same when its length stands there from the start
  obtain ⟨data', t'', happends', hsoundData, -, hzero, hunpack⟩ := hdata data.length
  obtain ⟨rfl, rfl⟩ := (happends.of_length ((hheader 0).trans (hheader data.length).symm)).unique happends'
  have hroomHeader : st.msg.length + out.length + 10 < size := by omega
  refine ⟨_, t', packRR_appends (packHeader_appends hpack hroomHeader) happends hlt, ?_, ?_, ?_,
    unpackRR_ok hread hlt hzero hunpack⟩
  · simpa only [header, List.append_assoc] using hsoundData
  · simp only [List.length_append, WireRR.length_words]
    omega
  · simp only [List.length_append, length_putUint, WireRR.length_words]
    omega

theorem packHeader_local : Buffer.Local (packHeader size compress rr) :=
  Buffer.local_if (· = size) Buffer.local_ok ((packDomainName_local rr.name).bind
    ((packBytes_local _ _ _).bind ((packBytes_local _ _ _).bind
      ((packBytes_local _ _ _).bind (packBytes_local _ _ _)))))

theorem setRdlength_spares {head header : Bytes} {t' : Option (List (Bytes × Nat))} (head' : Bytes)
    (hheader : 2 ≤ header.length) (hle : header.length ≤ data.length) {st' : Packing}
    (h : setRdlength ⟨head ++ header, t⟩ ⟨head ++ data, t'⟩ = .ok st') :
    ∃ rest, 2 ≤ rest.length ∧ st' = ⟨head ++ rest, st'.table⟩ ∧
      setRdlength ⟨head' ++ header, t⟩ ⟨head' ++ data, t'⟩ = .ok ⟨head' ++ rest, st'.table⟩ := by
  have hsub (front : Bytes) :
      (front ++ data).length - (front ++ header).length = data.length - header.length := by
    simp only [List.length_append]
    omega
  have hoff (front : Bytes) : (front ++ header).length - 2 = front.length + (header.length - 2) := by
    rw [List.length_append]
    omega
  unfold setRdlength at h ⊢
  simp only [hsub, hoff, Buffer.patch_append] at h ⊢
  split at h
  · cases h
  · next hfits =>
    cases h
    refine ⟨_, ?_, rfl, if_neg hfits⟩
    rw [Buffer.length_patch]
    · exact hheader.trans hle
    · rw [length_putUint]
      dsimp only
      omega

theorem packRR_spares (size : Nat) (compress : Bool) (rr : WireRR types) :
    Buffer.Spares 2 2 (packRR size compress rr) := by
  intro head head' rest t st' hhead hhead' hrest h
  obtain ⟨header, hheader, h⟩ := ok_of_bind h
  obtain ⟨data, hdata, h⟩ := ok_of_bind h
  obtain ⟨rest₁, hrest₁, hheader₁, hother⟩ :=
    packHeader_local.spares 2 2 hhead hhead' hrest hheader
  rw [hheader₁] at hdata h
  have hlocal : Buffer.Local (packData size compress rr.fields rr.data) :=
    packData_local (types rr.rrtype).lawful rr.data
  obtain ⟨rest₂, hrest₂, hdata₂, hother'⟩ := hlocal.spares 2 2 hhead hhead' hrest₁ hdata
  have hle := hlocal.length_le hdata
  rw [hdata₂] at h hle
  simp only [List.length_append, Nat.add_le_add_iff_left] at hle
  obtain ⟨rest₃, hrest₃, hst', hset⟩ := setRdlength_spares head' hrest₁ hle h
  refine ⟨rest₃, hrest₃, hst', ?_⟩
  simp only [packRR, hother, hother', bind, Except.bind]
  exact hset

end RR

/-! ## The header of a message -/

/-- One of the bits `_QR`, `_AA`, `_TC`, `_RD`, `_RA`, `_Z`, `_AD` and `_CD`. -/
def flag (i : Nat) (b : Bool) : Nat := if b then 1 <<< i else 0

theorem and_low (n : Nat) : n &&& 0xf = n % 2 ^ 4 := Nat.and_two_pow_sub_one_eq_mod n 4

theorem testBit_flag (i j : Nat) (b : Bool) : (flag i b).testBit j = (b && decide (i = j)) := by
  cases b with
  | false => simp [flag]
  | true => simp [flag, Nat.one_shiftLeft, Nat.testBit_two_pow]

namespace MsgHdr

def bits (h : MsgHdr) : Nat :=
  ((h.opcode % 65536) <<< 11) % 65536 ||| h.rcode &&& 0xf ||| flag 15 h.response |||
    flag 10 h.authoritative ||| flag 9 h.truncated ||| flag 8 h.recursionDesired ||| flag 7 h.recursionAvailable ||| flag 6 h.zero |||
    flag 5 h.authenticatedData ||| flag 4 h.checkingDisabled

/-- `setHdr` -/
def ofBits (id bits : Nat) : MsgHdr where
  id := UInt16.ofNat id
  response := bits.testBit 15
  opcode := bits >>> 11 &&& 0xf
  authoritative := bits.testBit 10
  truncated := bits.testBit 9
  recursionDesired := bits.testBit 8
  recursionAvailable := bits.testBit 7
  zero := bits.testBit 6
  authenticatedData := bits.testBit 5
  checkingDisabled := bits.testBit 4
  rcode := bits &&& 0xf

theorem testBit_bits (h : MsgHdr) (hop : h.opcode < 16) (j : Nat) :
    h.bits.testBit j = (decide (11 ≤ j) && h.opcode.testBit (j - 11) ||
      h.rcode.testBit j && decide (j < 4) || h.response && decide (15 = j) ||
      h.authoritative && decide (10 = j) || h.truncated && decide (9 = j) ||
      h.recursionDesired && decide (8 = j) || h.recursionAvailable && decide (7 = j) ||
      h.zero && decide (6 = j) || h.authenticatedData && decide (5 = j) ||
      h.checkingDisabled && decide (4 = j)) := by
  have hshift : ((h.opcode % 65536) <<< 11) % 65536 = h.opcode <<< 11 := by
    rw [Nat.mod_eq_of_lt (by omega : h.opcode < 65536), Nat.shiftLeft_eq]
    omega
  have hlow : (h.rcode &&& 0xf).testBit j = (h.rcode.testBit j && decide (j < 4)) := by
    rw [Nat.testBit_and, show (0xf : Nat) = 2 ^ 4 - 1 from rfl, Nat.testBit_two_pow_sub_one]
  simp only [bits, hshift, Nat.testBit_or, testBit_flag, hlow, Nat.testBit_shiftLeft, ge_iff_le]

theorem testBit_opcode {h : MsgHdr} (hop : h.opcode < 16) {j : Nat} (hj : 4 ≤ j) :
    h.opcode.testBit j = false := by
  have hpow : 2 ^ 4 ≤ 2 ^ j := Nat.pow_le_pow_right (by decide) hj
  exact Nat.testBit_lt_two_pow (lt_of_lt_of_le hop hpow)

theorem bits_lt (h : MsgHdr) (hop : h.opcode < 16) : h.bits < 65536 := by
  have hbits : h.bits < 2 ^ 16 := by
    refine Nat.lt_pow_two_of_testBit _ fun j hj => ?_
    rw [testBit_bits h hop, testBit_opcode hop (by omega)]
    simp
    omega
  exact hbits

theorem below_four {j : Nat} (h : j < 4) : j = 0 ∨ j = 1 ∨ j = 2 ∨ j = 3 := by omega

theorem ofBits_bits (h : MsgHdr) (hop : h.opcode < 16) :
    ofBits h.id.toNat h.bits = { h with rcode := h.rcode &&& 0xf } := by
  have hbit := testBit_bits h hop
  have hopcode : h.bits >>> 11 &&& 0xf = h.opcode := by
    refine Nat.eq_of_testBit_eq fun j => ?_
    rw [Nat.testBit_and, Nat.testBit_shiftRight, show (0xf : Nat) = 2 ^ 4 - 1 from rfl,
      Nat.testBit_two_pow_sub_one, hbit]
    by_cases hj : j < 4
    · rcases below_four hj with rfl | rfl | rfl | rfl <;> simp
    · simp [hj, testBit_opcode hop (not_lt.mp hj)]
  have hrcode : h.bits &&& 0xf = h.rcode &&& 0xf := by
    refine Nat.eq_of_testBit_eq fun j => ?_
    rw [Nat.testBit_and, Nat.testBit_and, show (0xf : Nat) = 2 ^ 4 - 1 from rfl,
      Nat.testBit_two_pow_sub_one, hbit]
    by_cases hj : j < 4
    · rcases below_four hj with rfl | rfl | rfl | rfl <;> simp
    · simp [hj]
  simp [ofBits, hopcode, hrcode, hbit, testBit_opcode hop]

end MsgHdr

/-! ## Messages -/

/-- Change the first element that satisfies `p`. -/
def modifyFound {α : Type} (p : α → Bool) (f : α → α) : List α → List α
  | [] => []
  | a :: l => if p a then f a :: l else a :: modifyFound p f l

section Messages

variable {types : UInt16 → RecordType}

namespace WireRR

def isOpt (rr : WireRR types) : Bool := rr.rrtype = typeOPT

def extendedRcode (rr : WireRR types) : Nat := ((rr.ttl.toNat &&& 0xff000000) >>> 24) <<< 4

def setExtendedRcode (v : Nat) (rr : WireRR types) : WireRR types :=
  { rr with ttl := UInt32.ofNat (rr.ttl.toNat &&& 0x00ffffff ||| (v >>> 4) <<< 24) }

end WireRR

/-- The last OPT record. -/
def isEdns0 (extra : List (WireRR types)) : Option (WireRR types) := extra.reverse.find? WireRR.isOpt

namespace WireMsg

def setExtendedRcode (m : WireMsg types) : WireMsg types :=
  { m with extra := (modifyFound WireRR.isOpt (WireRR.setExtendedRcode m.hdr.rcode) m.extra.reverse).reverse }

def isCompressible (m : WireMsg types) : Bool :=
  m.question.length > 1 || m.answer.length > 0 || m.ns.length > 0 || m.extra.length > 0

/-- The length without compression. -/
def len (m : WireMsg types) : Nat :=
  headerSize + Buffer.total WireQuestion.len m.question + Buffer.total WireRR.len m.answer +
    Buffer.total WireRR.len m.ns + Buffer.total WireRR.len m.extra

def setId (m : WireMsg types) (id : UInt16) : WireMsg types := { m with hdr := { m.hdr with id := id } }

/-- The numbers of the header. -/
def words (m : WireMsg types) : List Nat :=
  [m.hdr.id.toNat, m.hdr.bits, m.question.length % 65536, m.answer.length % 65536,
    m.ns.length % 65536, m.extra.length % 65536]

end WireMsg

/-- The header, and then the pieces. -/
def packSections (size : Nat) (compress : Bool) (m : WireMsg types) (st : Packing) :
    Except GoError Packing := do
  let st ← m.words.foldlM (fun st i => packUint16 size i st) st
  let st ← m.question.foldlM (fun st q => packQuestion size compress q st) st
  let st ← m.answer.foldlM (fun st rr => packRR size compress rr st) st
  let st ← m.ns.foldlM (fun st rr => packRR size compress rr st) st
  m.extra.foldlM (fun st rr => packRR size compress rr st) st

/-- `PackBuffer`, for a buffer of some length. -/
def packBuffer (bufLen : Nat) (m : WireMsg types) : Except GoError Bytes :=
  if m.hdr.rcode > 0xfff then .error errRcode
  else if (isEdns0 m.extra).isNone ∧ m.hdr.rcode > 0xf then .error errExtendedRcode
  else
    let m := m.setExtendedRcode
    let compress := m.compress && m.isCompressible
    (packSections (max bufLen (m.len + 1)) compress m ⟨[], if compress then some [] else none⟩).map (·.msg)

variable (types) in
def unpackRRslice (l : Nat) (msg : Bytes) (off : Nat) : Except GoError (List (WireRR types) × Nat) :=
  Buffer.readItems (unpackRR types) msg l off

variable (types) in
/-- `Unpack`, into a new message. -/
def unpackMsg (msg : Bytes) : Except GoError (WireMsg types) := do
  let (id, off) ← unpackUint16 msg 0
  let (bits, off) ← unpackUint16 msg off
  let (qdcount, off) ← unpackUint16 msg off
  let (ancount, off) ← unpackUint16 msg off
  let (nscount, off) ← unpackUint16 msg off
  let (arcount, off) ← unpackUint16 msg off
  let hdr := MsgHdr.ofBits id bits
  if off = msg.length then return ⟨hdr, false, [], [], [], []⟩
  else
    let (question, off) ← Buffer.readItems unpackQuestion msg qdcount off
    let (answer, off) ← unpackRRslice types ancount msg off
    let (ns, off) ← unpackRRslice types nscount msg off
    let (extra, _) ← unpackRRslice types arcount msg off
    let rcode := match isEdns0 extra with
      | some opt => hdr.rcode ||| opt.extendedRcode
      | none => hdr.rcode
    return ⟨{ hdr with rcode := rcode }, false, question, answer, ns, extra⟩

/-! ### The extended RCODE -/

variable {α : Type} {size : Nat}

theorem find?_modifyFound {p : α → Bool} {f : α → α} (hf : ∀ a, p (f a) = p a) (l : List α) :
    (modifyFound p f l).find? p = (l.find? p).map f := by
  induction l with
  | nil => rfl
  | cons a l ih =>
    by_cases hp : p a = true
    · simp [modifyFound, hp, hf]
    · simp [modifyFound, hp, ih]

theorem forall_modifyFound {p : α → Bool} {f : α → α} {P : α → Prop} {l : List α}
    (hf : ∀ a, P a → P (f a)) (h : ∀ a ∈ l, P a) : ∀ a ∈ modifyFound p f l, P a := by
  induction l with
  | nil => simp [modifyFound]
  | cons a l ih =>
    obtain ⟨ha, hl⟩ := List.forall_mem_cons.mp h
    by_cases hp : p a = true
    · simpa [modifyFound, hp] using ⟨hf a ha, hl⟩
    · simpa [modifyFound, hp] using ⟨ha, ih hl⟩

theorem length_modifyFound (p : α → Bool) (f : α → α) (l : List α) :
    (modifyFound p f l).length = l.length := by
  induction l with
  | nil => rfl
  | cons a l ih =>
    by_cases hp : p a = true
    · simp [modifyFound, hp]
    · simp [modifyFound, hp, ih]

theorem isEdns0_setExtendedRcode (m : WireMsg types) :
    isEdns0 m.setExtendedRcode.extra = (isEdns0 m.extra).map (WireRR.setExtendedRcode m.hdr.rcode) := by
  unfold isEdns0 WireMsg.setExtendedRcode
  rw [List.reverse_reverse]
  have hopt (rr : WireRR types) : (rr.setExtendedRcode m.hdr.rcode).isOpt = rr.isOpt := rfl
  exact find?_modifyFound hopt _

theorem rcode_or_extended {v : Nat} (hv : v ≤ 0xfff) (rr : WireRR types) :
    v &&& 0xf ||| (rr.setExtendedRcode v).extendedRcode = v := by
  have hlow : rr.ttl.toNat &&& 0x00ffffff = rr.ttl.toNat % 2 ^ 24 := Nat.and_two_pow_sub_one_eq_mod _ 24
  have hlt : rr.ttl.toNat % 2 ^ 24 < 2 ^ 24 := Nat.mod_lt _ (by decide)
  have hor : rr.ttl.toNat &&& 0x00ffffff ||| (v >>> 4) <<< 24 =
      v / 16 * 2 ^ 24 + rr.ttl.toNat % 2 ^ 24 := by
    rw [hlow, Nat.or_comm, ← Nat.shiftLeft_add_eq_or_of_lt hlt, Nat.shiftLeft_eq,
      Nat.shiftRight_eq_div_pow]
  have httl : (rr.setExtendedRcode v).ttl.toNat = v / 16 * 2 ^ 24 + rr.ttl.toNat % 2 ^ 24 := by
    rw [WireRR.setExtendedRcode]
    rw [hor, UInt32.toNat_ofNat']
    omega
  have hhigh : (rr.setExtendedRcode v).ttl.toNat >>> 24 &&& 0xff = v / 16 := by
    have hmod : (v / 16) &&& 0xff = v / 16 % 2 ^ 8 := Nat.and_two_pow_sub_one_eq_mod _ 8
    rw [httl, Nat.shiftRight_eq_div_pow, show (v / 16 * 2 ^ 24 + rr.ttl.toNat % 2 ^ 24) / 2 ^ 24 = v / 16 by
      omega, hmod]
    omega
  have hext : (rr.setExtendedRcode v).extendedRcode = (v / 16) <<< 4 := by
    rw [WireRR.extendedRcode, Nat.shiftRight_and_distrib, show 0xff000000 >>> 24 = 0xff from rfl, hhigh]
  rw [hext, and_low, Nat.or_comm, ← Nat.shiftLeft_add_eq_or_of_lt (Nat.mod_lt _ (by decide)),
    Nat.shiftLeft_eq]
  omega

/-! ### Round trip -/

/-- A message that can be packed as it is. -/
structure WireMsg.Good (m : WireMsg types) : Prop where
  opcode : m.hdr.opcode < 16
  rcode : m.hdr.rcode ≤ 0xfff
  plain : isEdns0 m.extra = none → m.hdr.rcode ≤ 0xf
  question : ∀ q ∈ m.question, q.Good
  answer : ∀ rr ∈ m.answer, rr.Good
  ns : ∀ rr ∈ m.ns, rr.Good
  extra : ∀ rr ∈ m.extra, rr.Good
  counts : m.question.length < 65536 ∧ m.answer.length < 65536 ∧ m.ns.length < 65536 ∧
    m.extra.length < 65536

variable {m : WireMsg types}

theorem WireMsg.Good.setExtendedRcode (h : m.Good) : m.setExtendedRcode.Good := by
  refine ⟨h.opcode, h.rcode, fun hnone => h.plain ?_, h.question, h.answer, h.ns, ?_, ?_⟩
  · rw [isEdns0_setExtendedRcode] at hnone
    exact Option.map_eq_none_iff.mp hnone
  · intro rr hrr
    have hgood (rr : WireRR types) (hrr : rr.Good) : (rr.setExtendedRcode m.hdr.rcode).Good :=
      ⟨hrr.name, hrr.data, hrr.fits⟩
    refine forall_modifyFound hgood (fun rr hrr => h.extra rr ?_) rr (List.mem_reverse.mp hrr)
    exact List.mem_reverse.mp hrr
  · have hlen : m.setExtendedRcode.extra.length = m.extra.length := by
      rw [WireMsg.setExtendedRcode, List.length_reverse, length_modifyFound, List.length_reverse]
    rw [hlen]
    exact h.counts

theorem packWords_appends (l : List Nat) {st : Packing} (h : st.msg.length + 2 * l.length < size) :
    Buffer.Appends (fun st => l.foldlM (fun st i => packUint16 size i st) st) st (l.flatMap (putUint 2))
      st.table := by
  induction l generalizing st with
  | nil => exact fun before _ => by simp [pure, Except.pure]
  | cons i l ih =>
    rw [List.length_cons] at h
    have hnext : (st.msg ++ putUint 2 i).length + 2 * l.length < size := by
      rw [List.length_append, length_putUint]
      omega
    exact (packUint_appends "uint16" i (by omega)).bind (ih hnext)

theorem unpackMsg_of_reads (h : m.Good) {msg : Bytes} {off₁ off₂ off₃ off₄ : Nat}
    (hat : At msg 0 (m.words.flatMap (putUint 2)))
    (hempty : msg.length = 12 → m.question = [] ∧ m.answer = [] ∧ m.ns = [] ∧ m.extra = [])
    (hquestion : Buffer.readItems unpackQuestion msg m.question.length 12 = .ok (m.question, off₁))
    (hanswer : Buffer.readItems (unpackRR types) msg m.answer.length off₁ = .ok (m.answer, off₂))
    (hns : Buffer.readItems (unpackRR types) msg m.ns.length off₂ = .ok (m.ns, off₃))
    (hextra : Buffer.readItems (unpackRR types) msg m.extra.length off₃ = .ok (m.extra, off₄)) :
    unpackMsg types msg = .ok { m with
      hdr := { m.hdr with rcode := match isEdns0 m.extra with
        | some opt => m.hdr.rcode &&& 0xf ||| opt.extendedRcode
        | none => m.hdr.rcode &&& 0xf }
      compress := false } := by
  obtain ⟨hqd, han, hnsc, har⟩ := h.counts
  simp only [WireMsg.words, List.flatMap_cons, List.flatMap_nil, List.append_nil,
    Nat.mod_eq_of_lt hqd, Nat.mod_eq_of_lt han, Nat.mod_eq_of_lt hnsc, Nat.mod_eq_of_lt har] at hat
  obtain ⟨hid, hat⟩ := at_append.mp hat
  obtain ⟨hbits, hat⟩ := at_append.mp hat
  obtain ⟨hqdAt, hat⟩ := at_append.mp hat
  obtain ⟨hanAt, hat⟩ := at_append.mp hat
  obtain ⟨hnsAt, harAt⟩ := at_append.mp hat
  simp only [length_putUint, Nat.zero_add] at hbits hqdAt hanAt hnsAt harAt
  have hid : unpackUint16 msg 0 = .ok (m.hdr.id.toNat, 2) := unpackUint_of_at hid (by omega) m.hdr.id.toNat_lt
  have hbits : unpackUint16 msg 2 = .ok (m.hdr.bits, 4) :=
    unpackUint_of_at hbits (by omega) (m.hdr.bits_lt h.opcode)
  have hqd : unpackUint16 msg 4 = .ok (m.question.length, 6) := unpackUint_of_at hqdAt (by omega) hqd
  have han : unpackUint16 msg 6 = .ok (m.answer.length, 8) := unpackUint_of_at hanAt (by omega) han
  have hnsc : unpackUint16 msg 8 = .ok (m.ns.length, 10) := unpackUint_of_at hnsAt (by omega) hnsc
  have har : unpackUint16 msg 10 = .ok (m.extra.length, 12) := unpackUint_of_at harAt (by omega) har
  have hhdr := MsgHdr.ofBits_bits m.hdr h.opcode
  simp only [unpackMsg, unpackRRslice, hid, hbits, hqd, han, hnsc, har, hhdr, bind, Except.bind]
  by_cases hend : 12 = msg.length
  · obtain ⟨hq, ha, hn, he⟩ := hempty hend.symm
    rw [if_pos hend, hq, ha, hn, he]
    rfl
  · rw [if_neg hend]
    simp only [hquestion, hanswer, hns, hextra]
    rfl

theorem length_words (m : WireMsg types) : (m.words.flatMap (putUint 2)).length = 12 := by
  simp [WireMsg.words]

theorem packWords_ok (hroom : m.len < size) (table : Option (List (Bytes × Nat))) :
    Buffer.Appends (fun st => m.words.foldlM (fun st i => packUint16 size i st) st)
      (⟨[], table⟩ : Packing) (m.words.flatMap (putUint 2)) table := by
  refine packWords_appends m.words ?_
  rw [WireMsg.len, headerSize] at hroom
  simp only [WireMsg.words, List.length_cons, List.length_nil]
  omega

theorem packSections_reads (compress : Bool) (h : m.Good) {table : Option (List (Bytes × Nat))}
    (htable : table.getD [] = []) (hroom : m.len < size) :
    ∃ packet t, packSections size compress m ⟨[], table⟩ = .ok ⟨packet, t⟩ ∧
      ∀ more, unpackMsg types (packet ++ more) = .ok { m with
        hdr := { m.hdr with rcode := match isEdns0 m.extra with
          | some opt => m.hdr.rcode &&& 0xf ||| opt.extendedRcode
          | none => m.hdr.rcode &&& 0xf }
        compress := false } := by
  have hwords := packWords_ok hroom table
  have hlen := length_words m
  rw [WireMsg.len, headerSize] at hroom
  have hsound : Packing.Sound ⟨m.words.flatMap (putUint 2), table⟩ := by
    intro e he
    rw [Packing.entries, htable] at he
    cases he
  obtain ⟨out₁, t₁, happ₁, hsound₁, hlo₁, hhi₁, hread₁⟩ := Buffer.Codes.items
    (fun q hq => packQuestion_codes size compress (h.question q hq)) _ hsound (by dsimp only; omega)
  obtain ⟨out₂, t₂, happ₂, hsound₂, hlo₂, hhi₂, hread₂⟩ := Buffer.Codes.items
    (fun rr hrr => packRR_codes size compress (h.answer rr hrr)) _ hsound₁
    (by rw [List.length_append]; dsimp only; omega)
  obtain ⟨out₃, t₃, happ₃, hsound₃, hlo₃, hhi₃, hread₃⟩ := Buffer.Codes.items
    (fun rr hrr => packRR_codes size compress (h.ns rr hrr)) _ hsound₂
    (by rw [List.length_append, List.length_append]; dsimp only; omega)
  obtain ⟨out₄, t₄, happ₄, hsound₄, hlo₄, hhi₄, hread₄⟩ := Buffer.Codes.items
    (fun rr hrr => packRR_codes size compress (h.extra rr hrr)) _ hsound₃
    (by rw [List.length_append, List.length_append, List.length_append]; dsimp only; omega)
  have hpacked := hwords.bind (happ₁.bind (happ₂.bind (happ₃.bind happ₄)))
  refine ⟨_, t₄, hpacked.ok, fun more => ?_⟩
  have hq := hread₁ (out₂ ++ (out₃ ++ (out₄ ++ more)))
  have ha := hread₂ (out₃ ++ (out₄ ++ more))
  have hn := hread₃ (out₄ ++ more)
  have he := hread₄ more
  rw [hlen] at hq
  simp only [List.append_assoc, List.nil_append] at hq ha hn he ⊢
  refine unpackMsg_of_reads h (List.prefix_append _ _) (fun hshort => ?_) hq ha hn he
  simp only [List.length_append] at hshort
  refine ⟨?_, ?_, ?_, ?_⟩
  all_goals
    apply List.eq_nil_of_length_eq_zero
    omega

/-- **Round trip of messages.** A message is packed, with compression or without and in a buffer of any
length, and what is packed is unpacked as the message, with the extended RCODE in its last OPT record.
Bytes that follow it are ignored. -/
theorem unpack_pack (m : WireMsg types) (h : m.Good) (bufLen : Nat) :
    ∃ packet, packBuffer bufLen m = .ok packet ∧
      ∀ more, unpackMsg types (packet ++ more) = .ok { m.setExtendedRcode with compress := false } := by
  let compress := m.setExtendedRcode.compress && m.setExtendedRcode.isCompressible
  have htable : (if compress then some [] else none : Option (List (Bytes × Nat))).getD [] = [] := by
    cases compress <;> rfl
  have hroom : m.setExtendedRcode.len < max bufLen (m.setExtendedRcode.len + 1) := by omega
  obtain ⟨packet, t, hpacked, hread⟩ :=
    packSections_reads compress h.setExtendedRcode htable hroom
  have hrcode : ¬ m.hdr.rcode > 0xfff := not_lt.mpr h.rcode
  have hplain : ¬ ((isEdns0 m.extra).isNone ∧ m.hdr.rcode > 0xf) := by
    rintro ⟨hnone, hlarge⟩
    exact absurd (h.plain (Option.isNone_iff_eq_none.mp hnone)) (not_le.mpr hlarge)
  refine ⟨packet, ?_, fun more => (hread more).trans ?_⟩
  · refine (if_neg hrcode).trans ((if_neg hplain).trans ?_)
    exact congrArg (Except.map (·.msg)) hpacked
  · rw [isEdns0_setExtendedRcode]
    cases hopt : isEdns0 m.extra with
    | none =>
      have hsame : m.hdr.rcode &&& 0xf = m.hdr.rcode := by
        rw [and_low]
        exact Nat.mod_eq_of_lt (Nat.lt_succ_of_le (h.plain hopt))
      change Except.ok { m.setExtendedRcode with
        hdr := { m.hdr with rcode := m.hdr.rcode &&& 0xf }, compress := false } = _
      rw [hsame]
      rfl
    | some opt =>
      change Except.ok { m.setExtendedRcode with
        hdr := { m.hdr with
          rcode := m.hdr.rcode &&& 0xf ||| (opt.setExtendedRcode m.hdr.rcode).extendedRcode }
        compress := false } = _
      rw [rcode_or_extended h.rcode opt]
      rfl

/-- A response with the extended RCODE `BADVERS`, whose answer points to the question. -/
def badVers : WireMsg (typeToRR (fun _ _ => none) fun _ => rfc3597) where
  hdr := ⟨0x1234, true, 0, false, false, true, true, false, false, false, 16⟩
  compress := true
  question := [⟨[0x61, 0x2e], 1, 1⟩]
  answer := [⟨[0x61, 0x2e], 1, 1, 60, ([192, 0, 2, 1], ())⟩]
  ns := []
  extra := [⟨[0x2e], 41, 1232, 0, ([], ())⟩]

theorem badVers_good : badVers.Good := by
  have hname : ∃ labels, IsName [0x61, 0x2e] labels :=
    ⟨[[0x61]], by decide, by simp [ValidLabels], by decide, by decide⟩
  have hroot : ∃ labels, IsName [0x2e] labels :=
    ⟨[], by decide, by simp [ValidLabels], by decide, by decide⟩
  have hA : Data.Good [dataA] ([192, 0, 2, 1], ()) := ⟨rfl, trivial⟩
  have hOpt : Data.Good [opt fun _ _ => none] ([], ()) :=
    ⟨fun o ho => (List.not_mem_nil ho).elim, trivial⟩
  have hsome : isEdns0 badVers.extra ≠ none := by simp [isEdns0, badVers, WireRR.isOpt, typeOPT]
  refine ⟨by decide, by decide, fun hnone => (hsome hnone).elim, ?_, ?_, by simp [badVers], ?_, by decide⟩
  · simp only [badVers, List.forall_mem_singleton]
    exact hname
  · simp only [badVers, List.forall_mem_singleton]
    exact ⟨hname, hA, by decide⟩
  · simp only [badVers, List.forall_mem_singleton]
    exact ⟨hroot, hOpt, by decide⟩

theorem unpack_pack_badVers : ∃ packet, packBuffer 0 badVers = .ok packet ∧
    ∀ more, unpackMsg _ (packet ++ more) = .ok { badVers.setExtendedRcode with compress := false } :=
  unpack_pack badVers badVers_good 0

-- the answer with the certificates of a provider
example : packBuffer 0 (⟨⟨0x1234, true, 0, false, false, true, false, false, false, false, 0⟩, false,
    [⟨byteString "2.dnscrypt-cert.example.", 16, 1⟩],
    Sample.certs.map fun cert =>
      ⟨byteString "2.dnscrypt-cert.example.", 16, 1, 60, ([presentation cert], ())⟩, [], []⟩ :
    WireMsg (typeToRR (fun _ _ => none) fun _ => rfc3597)) = .ok (Sample.certAnswerPacket 0x34) := by
  decide +kernel

/-! ### The ID -/

theorem packQuestion_local (size : Nat) (compress : Bool) (q : WireQuestion) :
    Buffer.Local (packQuestion size compress q) :=
  (packDomainName_local q.name).bind ((packBytes_local _ _ _).bind (packBytes_local _ _ _))

theorem packSections_setId {compress : Bool} {table : Option (List (Bytes × Nat))}
    (hroom : m.len < size) {st' : Packing} (h : packSections size compress m ⟨[], table⟩ = .ok st')
    (id : UInt16) :
    packSections size compress (m.setId id) ⟨[], table⟩ =
      .ok ⟨setTransactionID st'.msg (putUint16 id.toNat), st'.table⟩ := by
  have hheader (id : UInt16) : (m.setId id).words.foldlM (fun st i => packUint16 size i st) ⟨[], table⟩ =
      .ok ⟨putUint16 id.toNat ++ m.words.tail.flatMap (putUint 2), table⟩ :=
    (packWords_ok (m := m.setId id) hroom table).ok
  have hcounts : 2 ≤ (m.words.tail.flatMap (putUint 2)).length := by simp [WireMsg.words]
  have hsections : Buffer.Spares 2 2 fun st =>
      m.question.foldlM (fun st q => packQuestion size compress q st) st >>= fun st =>
        m.answer.foldlM (fun st rr => packRR size compress rr st) st >>= fun st =>
          m.ns.foldlM (fun st rr => packRR size compress rr st) st >>= fun st =>
            m.extra.foldlM (fun st rr => packRR size compress rr st) st := by
    have hrrs (rrs : List (WireRR types)) := Buffer.spares_foldlM (packRR_spares size compress) rrs
    exact (Buffer.spares_foldlM (fun q => (packQuestion_local size compress q).spares 2 2) _).bind
      ((hrrs _).bind ((hrrs _).bind (hrrs _)))
  obtain ⟨st, hwords, h⟩ := ok_of_bind h
  obtain rfl := Except.ok.inj (hwords.symm.trans (hheader m.hdr.id))
  obtain ⟨rest, -, hst', hother⟩ := @hsections _ (putUint16 id.toNat) _ _ _ rfl rfl hcounts h
  rw [hst']
  have hpacked : packSections size compress (m.setId id) ⟨[], table⟩ =
      (m.setId id).words.foldlM (fun st i => packUint16 size i st) ⟨[], table⟩ >>= _ := rfl
  rw [hpacked, hheader id]
  exact hother

/-- **The ID of a packed message.** Whatever was packed, with another ID in place of its own it is what
is packed for the message with that ID. -/
theorem setTransactionID_pack (m : WireMsg types) (bufLen : Nat) (packet : Bytes)
    (h : packBuffer bufLen m = .ok packet) (id : UInt16) :
    packBuffer bufLen (m.setId id) = .ok (setTransactionID packet (putUint16 id.toNat)) := by
  unfold packBuffer at h ⊢
  change (if m.hdr.rcode > 0xfff then _ else if _ then _ else _) = _
  split at h
  · cases h
  · next hrcode =>
    split at h
    · cases h
    · next hplain =>
      obtain ⟨st', hpacked, rfl⟩ := ok_of_map h
      have hroom : m.setExtendedRcode.len < max bufLen (m.setExtendedRcode.len + 1) := by omega
      refine (if_neg hrcode).trans ((if_neg hplain).trans ?_)
      exact congrArg (Except.map (·.msg)) (packSections_setId hroom hpacked id)

/-- A question with 127 labels, one more than `WireMsg.Good` allows. -/
def manyLabels : WireMsg (typeToRR (fun _ _ => none) fun _ => rfc3597) :=
  { badVers with question := [⟨(List.replicate 127 [0x61, 0x2e]).flatten, 1, 1⟩], answer := [] }

theorem setTransactionID_pack_manyLabels : ∃ packet, packBuffer 0 manyLabels = .ok packet ∧
    packBuffer 0 (manyLabels.setId 0) = .ok (setTransactionID packet (putUint16 0)) := by
  have hpack : (packBuffer 0 manyLabels).toOption.isSome = true := by decide +kernel
  cases h : packBuffer 0 manyLabels with
  | error e =>
    rw [h] at hpack
    cases hpack
  | ok packet => exact ⟨packet, rfl, setTransactionID_pack manyLabels 0 packet h 0⟩

/-! ### The header of a packet -/

theorem unpackUint_ok {what : String} {n off i stop : Nat} {msg : Bytes}
    (h : unpackUint what n msg off = .ok (i, stop)) :
    off + n ≤ msg.length ∧ i = getUint ((msg.drop off).take n) ∧ stop = off + n := by
  rw [unpackUint, unpackBytes] at h
  by_cases hlen : off + n > msg.length
  · rw [if_pos hlen] at h
    cases h
  · rw [if_neg hlen] at h
    cases h
    exact ⟨not_lt.mp hlen, rfl, rfl⟩

theorem unpackMsg_hdr {packet : Bytes} (h : unpackMsg types packet = .ok m) :
    headerSize ≤ packet.length ∧ ∃ ext,
      m.hdr = { MsgHdr.ofBits (getUint (packet.take 2)) (getUint ((packet.drop 2).take 2)) with
        rcode := getUint ((packet.drop 2).take 2) &&& 0xf ||| ext <<< 4 } := by
  obtain ⟨⟨id, off₁⟩, hid, h⟩ := ok_of_bind h
  obtain ⟨-, rfl, rfl⟩ := unpackUint_ok hid
  obtain ⟨⟨bits, off₂⟩, hbits, h⟩ := ok_of_bind h
  obtain ⟨-, rfl, rfl⟩ := unpackUint_ok hbits
  obtain ⟨⟨qdcount, off₃⟩, hqd, h⟩ := ok_of_bind h
  obtain ⟨-, -, rfl⟩ := unpackUint_ok hqd
  obtain ⟨⟨ancount, off₄⟩, han, h⟩ := ok_of_bind h
  obtain ⟨-, -, rfl⟩ := unpackUint_ok han
  obtain ⟨⟨nscount, off₅⟩, hns, h⟩ := ok_of_bind h
  obtain ⟨-, -, rfl⟩ := unpackUint_ok hns
  obtain ⟨⟨arcount, off₆⟩, har, h⟩ := ok_of_bind h
  obtain ⟨hlen, -, rfl⟩ := unpackUint_ok har
  refine ⟨hlen, ?_⟩
  dsimp only at h
  split at h
  · cases h
    exact ⟨0, by simp [MsgHdr.ofBits]⟩
  · obtain ⟨⟨question, off⟩, -, h⟩ := ok_of_bind h
    obtain ⟨⟨answer, off⟩, -, h⟩ := ok_of_bind h
    obtain ⟨⟨ns, off⟩, -, h⟩ := ok_of_bind h
    obtain ⟨⟨extra, off⟩, -, h⟩ := ok_of_bind h
    cases hopt : isEdns0 extra with
    | none =>
      rw [hopt] at h
      cases h
      exact ⟨0, by simp [MsgHdr.ofBits]⟩
    | some opt =>
      rw [hopt] at h
      cases h
      exact ⟨_, rfl⟩

theorem getUint_pair (a b : UInt8) : getUint [a, b] = 2 ^ 8 * a.toNat + b.toNat := by
  simp only [getUint, List.foldl_cons, List.foldl_nil]
  omega

theorem putUint16_getUint (a b : UInt8) : putUint16 (UInt16.ofNat (getUint [a, b])).toNat = [a, b] := by
  have ha := a.toNat_lt
  have hb := b.toNat_lt
  have hid : (UInt16.ofNat (getUint [a, b])).toNat = 2 ^ 8 * a.toNat + b.toNat := by
    rw [getUint_pair, UInt16.toNat_ofNat']
    omega
  have hhigh : (2 ^ 8 * a.toNat + b.toNat) / 256 = a.toNat := by omega
  have hlow : UInt8.ofNat (2 ^ 8 * a.toNat + b.toNat) = b := by
    refine UInt8.toNat_inj.mp ?_
    rw [UInt8.toNat_ofNat']
    omega
  rw [hid, putUint16, hhigh, hlow, UInt8.ofNat_toNat]

theorem testBit_tc (a b : UInt8) : (getUint [a, b]).testBit 9 = decide (a &&& 2 = 2) := by
  have hbit : a &&& 2 = 2 ↔ (a.toNat.testBit 1).toNat * 2 ^ 1 = 2 := by
    rw [← Nat.and_two_pow, ← UInt8.toNat_inj, UInt8.toNat_and]
    rfl
  rw [getUint_pair, Nat.testBit_two_pow_mul_add _ b.toNat_lt, if_neg (by decide), Bool.eq_iff_iff,
    decide_eq_true_iff, hbit]
  cases a.toNat.testBit 1 <;> simp

theorem and_low_pair (a b : UInt8) : getUint [a, b] &&& 0xf = (b &&& 0xf).toNat := by
  rw [UInt8.toNat_and, show (0xf : UInt8).toNat = 0xf from rfl, and_low, and_low, getUint_pair]
  omega

/-- What the proxy reads in the header of a packet is what the message has that is unpacked from it. -/
theorem packet_header {packet : Bytes} {m : WireMsg types} (h : unpackMsg types packet = .ok m) :
    transactionID packet = putUint16 m.hdr.id.toNat ∧ hasTCFlag packet = m.hdr.truncated ∧
      packetRcode packet = m.hdr.rcode % 16 := by
  obtain ⟨hlen, ext, hhdr⟩ := unpackMsg_hdr h
  rw [headerSize] at hlen
  obtain _ | ⟨a, _ | ⟨b, _ | ⟨c, _ | ⟨d, rest⟩⟩⟩⟩ := packet
  case cons.cons.cons.cons =>
    rw [hhdr]
    refine ⟨(putUint16_getUint a b).symm, (testBit_tc c d).symm, ?_⟩
    -- the extended RCODE is above the four bits
    change (d &&& 0xf).toNat = (getUint [c, d] &&& 0xf ||| ext <<< 4) % 16
    have hlt : getUint [c, d] &&& 0xf < 2 ^ 4 := by
      rw [and_low]
      exact Nat.mod_lt _ (by decide)
    rw [Nat.or_comm, ← Nat.shiftLeft_add_eq_or_of_lt hlt, Nat.shiftLeft_eq, ← and_low_pair c d]
    omega
  all_goals
    simp only [List.length_cons, List.length_nil] at hlen
    omega

/-- A truncated refusal that ends after the header. -/
def refused : Bytes := [0x12, 0x34, 0x83, 5, 0, 0, 0, 0, 0, 0, 0, 0]

theorem unpack_refused : unpackMsg (fun _ => rfc3597) refused =
    .ok ⟨⟨0x1234, true, 0, false, true, true, false, false, false, false, 5⟩, false, [], [], [], []⟩ := by
  have hhdr : MsgHdr.ofBits 0x1234 0x8305 =
      ⟨0x1234, true, 0, false, true, true, false, false, false, false, 5⟩ := by decide
  rw [← hhdr]
  simp [unpackMsg, refused, unpackUint16, unpackUint, unpackBytes, getUint, bind, Except.bind, Except.map,
    pure, Except.pure]

theorem packet_header_refused : transactionID refused = putUint16 0x1234 ∧ hasTCFlag refused = true ∧
    packetRcode refused = 5 :=
  packet_header unpack_refused

end Messages

end DNSWire

end DnscryptProxy
