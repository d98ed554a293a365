import DnscryptProxy.AddressText
import DnscryptProxy.Library.Chain
import DnscryptProxy.Library.Selection
import DnscryptProxy.Plugins.Response
import Mathlib.Tactic.IntervalCases

/-! `PluginDNS64`: where its prefixes come from, and the embedding of IPv4 addresses in them.

* `embedding_iff`: the embedding is sound for the prefixes that `Init` accepts exactly when they
  have fewer than 104 bits, and end with a byte or inside octet 8.
* `discovery_inverts_embedding`: the prefixes that a resolver gives away by embedding the
  well-known addresses are found, each of them once. -/

namespace DnscryptProxy

open Library

/-! ## Discovery -/

def rfc7050WKA1 : IP := [192, 0, 0, 170]
def rfc7050WKA2 : IP := [192, 0, 0, 171]

/-- `wka.Equal(rfc7050WKA1) || wka.Equal(rfc7050WKA2)` for `wka := net.IPv4(a, b, c, d)` -/
def isWKA (a b c d : UInt8) : Bool := [a, b, c, d] = rfc7050WKA1 || [a, b, c, d] = rfc7050WKA2

def prefEnd (ipv6 : IP) : Nat :=
  let b := fun i => ipv6.getD i 0
  if isWKA (b 12) (b 13) (b 14) (b 15) then 12
  else if isWKA (b 9) (b 10) (b 11) (b 12) then 8
  else if isWKA (b 7) (b 9) (b 10) (b 11) then 7
  else if isWKA (b 6) (b 7) (b 9) (b 10) then 6
  else if isWKA (b 5) (b 6) (b 7) (b 9) then 5
  else if isWKA (b 4) (b 5) (b 6) (b 7) then 4
  else 0

/-- `IPNet.String`. The mask of an IPv4-mapped address is cut to its last four bytes. -/
def IPNet.string (n : IPNet) : Text :=
  let text := fun (ip : IP) (ones : Nat) => IP.string ip ++ '/' :: Nat.toDigits 10 ones
  match IP.to4 n.ip with
  | some ipv4 =>
    if n.bits = 32 then text ipv4 n.ones
    else if n.bits = 128 then text ipv4 (n.ones - 96)
    else "<nil>".toList
  | none => if n.ip.length = 16 ∧ n.bits = 128 then text n.ip n.ones else "<nil>".toList

/-- The prefix that an answer gives away. -/
def RR.pref64 (answer : RR) : Option IPNet :=
  match answer.data with
  | .aaaa ipv6 =>
    if ipv6.length = 16 ∧ prefEnd ipv6 > 0 then
      some ⟨ipv6.take (prefEnd ipv6) ++ List.replicate (16 - prefEnd ipv6) 0, prefEnd ipv6 * 8, 128⟩
    else none
  | _ => none

/-- One turn of the loop of `fetchPref64`, with the prefixes and the map of their texts. -/
def addPref64 (found : List IPNet × List Text) (answer : RR) : List IPNet × List Text :=
  match answer.pref64 with
  | none => found
  | some pref =>
    if found.2.any (· = pref.string) then found else (found.1 ++ [pref], pref.string :: found.2)

/-- `fetchPref64`, with what `Exchange` returns. The prefixes stay as they are on an error. -/
def fetchPref64 (exchange : Except GoError (Option Msg)) (pref64 : List IPNet) :
    List IPNet × Option GoError :=
  match exchange with
  | .error e => (pref64, some e)
  | .ok none => (pref64, some (.plain "Unable to fetch Pref64"))
  | .ok (some resp) =>
    if resp.rcode ≠ rcodeSuccess then (pref64, some (.plain "Unable to fetch Pref64"))
    else
      let prefixes := (resp.answer.foldl addPref64 ([], [])).1
      if prefixes = [] then (pref64, some (.plain "Empty Pref64 list")) else (prefixes, none)

/-- The resolvers are asked in turn until one has prefixes. -/
def refreshPref64 (exchange : Text → Except GoError (Option Msg)) :
    List Text → List IPNet → Except GoError (List IPNet)
  | [], pref64 => if pref64 = [] then .error (.plain "Empty Pref64 list") else .ok pref64
  | resolver :: resolvers, pref64 =>
    match fetchPref64 (exchange resolver) pref64 with
    | (pref64, none) => if pref64 = [] then .error (.plain "Empty Pref64 list") else .ok pref64
    | (pref64, some _) => refreshPref64 exchange resolvers pref64

/-! ## `Init` -/

/-- The two families, with addresses and masks of their lengths. -/
def IPNet.Valid (n : IPNet) : Prop :=
  (n.ip.length = 4 ∧ n.bits = 32 ∨ n.ip.length = 16 ∧ n.bits = 128) ∧ n.ones ≤ n.bits

/-- `net.ParseCIDR` -/
structure CIDRLibrary where
  parseCIDR : Text → Except GoError IPNet
  parseCIDR_valid : ∀ text n, parseCIDR text = .ok n → n.Valid

structure DNS64Config where
  listenAddresses : List Text
  dns64Prefixes : List Text
  dns64Resolvers : List Text
  deriving DecidableEq, Repr

structure PluginDNS64 where
  pref64 : List IPNet
  dns64Resolvers : List Text
  ipv4Resolver : Text
  deriving DecidableEq, Repr

def dns64Init (lib : CIDRLibrary) (exchange : Text → Except GoError (Option Msg))
    (config : DNS64Config) : Except GoError PluginDNS64 :=
  match config.listenAddresses with
  | [] => .error
      (.plain "At least one listening IP address must be configured for the DNS64 plugin to work")
  | ipv4Resolver :: _ =>
    if config.dns64Prefixes ≠ [] then do
      let pref64 ← config.dns64Prefixes.mapM lib.parseCIDR
      return ⟨pref64, [], ipv4Resolver⟩
    else if config.dns64Resolvers ≠ [] then do
      let pref64 ← refreshPref64 exchange config.dns64Resolvers []
      return ⟨pref64, config.dns64Resolvers, ipv4Resolver⟩
    else .ok ⟨[], [], ipv4Resolver⟩

/-! ## Embedding -/

/-- Where byte `i` of an IPv4 address goes; octet 8 is skipped. -/
def slot (shift i : Nat) : Nat := if shift ≤ 8 ∧ 8 ≤ shift + i then shift + i + 1 else shift + i

def embedded (base : Bytes) (shift : Nat) (a b c d : UInt8) : Bytes :=
  (((base.set (slot shift 0) a).set (slot shift 1) b).set (slot shift 2) c).set (slot shift 3) d

/-- The bit of a prefix, counted from the most significant one of the first byte. -/
def bitAt (bytes : Bytes) (k : Nat) : Bool := (bytes.getD (k / 8) 0).toNat.testBit (7 - k % 8)

/-- What is asked of the embedding of all the IPv4 addresses in a prefix. -/
structure IPNet.Embeds (pref : IPNet) : Prop where
  keeps : ∀ ipv4 : IP, ipv4.length = 4 → ∃ ipv6, translateToIPv6 ipv4 pref = .ok ipv6 ∧
    ipv6.length = 16 ∧ ipv6.getD 8 0 = pref.ip.getD 8 0 ∧ ∀ k < pref.ones, bitAt ipv6 k = bitAt pref.ip k
  distinct : ∀ ipv4 ipv4' : IP, ipv4.length = 4 → ipv4'.length = 4 →
    translateToIPv6 ipv4 pref = translateToIPv6 ipv4' pref → ipv4 = ipv4'

/-- The lengths that leave room for an address and end where its first byte may begin. -/
def IPNet.Fits (pref : IPNet) : Prop := pref.ones < 104 ∧ (pref.ones % 8 = 0 ∨ pref.ones / 8 = 8)

section Embedding

variable {base : Bytes} {shift i j : Nat} {a b c d : UInt8}

theorem slot_ne_eight : slot shift i ≠ 8 := by
  unfold slot
  split <;> omega

theorem le_slot : shift ≤ slot shift i := by
  unfold slot
  split <;> omega

theorem slot_lt (h : i < j) : slot shift i < slot shift j := by
  unfold slot
  split <;> split <;> omega

theorem slot_zero (h : shift ≠ 8) : slot shift 0 = shift := by
  unfold slot
  split <;> omega

theorem embedFrom_eq (hlen : base.length = 16) (hshift : shift ≤ 12) :
    embedFrom base shift 0 [a, b, c, d] = .ok (embedded base shift a b c d) := by
  interval_cases shift <;> simp [embedFrom, embedded, slot, hlen]

theorem embedFrom_panics (hlen : base.length = 16) (hshift : 13 ≤ shift) (htop : shift ≤ 16) :
    embedFrom base shift 0 [a, b, c, d] = .error .indexOutOfRange := by
  interval_cases shift <;> simp [embedFrom, hlen]

theorem length_embedded : (embedded base shift a b c d).length = base.length := by
  simp [embedded]

theorem getD_embedded_other (h : ∀ i, j ≠ slot shift i) :
    (embedded base shift a b c d).getD j 0 = base.getD j 0 := by
  have hne (i : Nat) : slot shift i ≠ j := (h i).symm
  simp [embedded, hne]

theorem slot_three_lt (h : shift ≤ 12) : slot shift 3 < 16 := by
  unfold slot
  split <;> omega

theorem getElem?_embedded (hlen : base.length = 16) (hshift : shift ≤ 12) :
    (embedded base shift a b c d)[slot shift 0]? = some a ∧
      (embedded base shift a b c d)[slot shift 1]? = some b ∧
      (embedded base shift a b c d)[slot shift 2]? = some c ∧
      (embedded base shift a b c d)[slot shift 3]? = some d := by
  have h01 : slot shift 0 < slot shift 1 := slot_lt (by decide)
  have h12 : slot shift 1 < slot shift 2 := slot_lt (by decide)
  have h23 : slot shift 2 < slot shift 3 := slot_lt (by decide)
  have h3 := slot_three_lt hshift
  unfold embedded
  refine ⟨?_, ?_, ?_, ?_⟩
  · rw [List.getElem?_set_ne (by omega), List.getElem?_set_ne (by omega),
      List.getElem?_set_ne (by omega), List.getElem?_set_self (by omega)]
  · rw [List.getElem?_set_ne (by omega), List.getElem?_set_ne (by omega),
      List.getElem?_set_self (by simp; omega)]
  · rw [List.getElem?_set_ne (by omega), List.getElem?_set_self (by simp; omega)]
  · rw [List.getElem?_set_self (by simp; omega)]

theorem embedded_inj (hlen : base.length = 16) (hshift : shift ≤ 12) {a' b' c' d' : UInt8}
    (h : embedded base shift a b c d = embedded base shift a' b' c' d') :
    [a, b, c, d] = [a', b', c', d'] := by
  have hread := @getElem?_embedded base shift a b c d hlen hshift
  have hread' := @getElem?_embedded base shift a' b' c' d' hlen hshift
  rw [h] at hread
  simp_all

end Embedding

section Prefixes

variable {pref : IPNet}

/-- What `copy` makes of the address of a prefix. -/
def IPNet.padded (pref : IPNet) : Bytes := (pref.ip ++ List.replicate 16 0).take 16

theorem IPNet.length_padded (pref : IPNet) : pref.padded.length = 16 := by
  simp [padded]

theorem IPNet.Valid.length_le (hv : pref.Valid) : pref.ip.length ≤ 16 := by
  rcases hv.1 with ⟨h, -⟩ | ⟨h, -⟩ <;> omega

theorem IPNet.Valid.ones_le (hv : pref.Valid) : pref.ones ≤ 128 := by
  obtain ⟨⟨-, hbits⟩ | ⟨-, hbits⟩, hones⟩ := hv <;> omega

theorem IPNet.Valid.getD_padded (hv : pref.Valid) {j : Nat} (hj : j < 16) :
    pref.padded.getD j 0 = pref.ip.getD j 0 := by
  have hlen := hv.length_le
  unfold padded
  by_cases hin : j < pref.ip.length
  · rw [List.getD_eq_getElem?_getD, List.getElem?_take_of_lt hj, List.getElem?_append_left hin,
      List.getD_eq_getElem?_getD]
  · have hin := Nat.not_lt.mp hin
    rw [List.getD_eq_getElem?_getD, List.getElem?_take_of_lt hj, List.getElem?_append_right hin,
      List.getElem?_replicate, List.getD_eq_getElem?_getD, List.getElem?_eq_none hin]
    split <;> rfl

theorem four_bytes {ipv4 : IP} (h : ipv4.length = 4) : ∃ a b c d, ipv4 = [a, b, c, d] := by
  obtain _ | ⟨a, _ | ⟨b, _ | ⟨c, _ | ⟨d, _ | ⟨e, rest⟩⟩⟩⟩⟩ := ipv4 <;> simp at h
  exact ⟨a, b, c, d, rfl⟩

theorem translateToIPv6_ok (h : pref.ones < 104) (a b c d : UInt8) :
    translateToIPv6 [a, b, c, d] pref = .ok (embedded pref.padded (pref.ones / 8) a b c d) :=
  embedFrom_eq pref.length_padded (by omega)

theorem IPNet.Fits.slot_ne (hfits : pref.Fits) {k : Nat} (hk : k < pref.ones) (i : Nat) :
    k / 8 ≠ slot (pref.ones / 8) i := by
  have hle := @le_slot (pref.ones / 8) i
  have height := @slot_ne_eight (pref.ones / 8) i
  rcases hfits.2 with h | h <;> omega

theorem IPNet.Fits.embeds (hv : pref.Valid) (hfits : pref.Fits) : pref.Embeds := by
  have hones := hfits.1
  constructor
  · intro ipv4 hipv4
    obtain ⟨a, b, c, d, rfl⟩ := four_bytes hipv4
    refine ⟨_, translateToIPv6_ok hones a b c d, ?_, ?_, ?_⟩
    · rw [length_embedded, pref.length_padded]
    · rw [getD_embedded_other fun i => slot_ne_eight.symm, hv.getD_padded (by decide)]
    · intro k hk
      have hbyte : k / 8 < 16 := by omega
      unfold bitAt
      rw [getD_embedded_other (hfits.slot_ne hk), hv.getD_padded hbyte]
  · intro ipv4 ipv4' hipv4 hipv4' heq
    obtain ⟨a, b, c, d, rfl⟩ := four_bytes hipv4
    obtain ⟨a', b', c', d', rfl⟩ := four_bytes hipv4'
    rw [translateToIPv6_ok hones, translateToIPv6_ok hones] at heq
    exact embedded_inj pref.length_padded (by omega) (Except.ok.inj heq)

theorem IPNet.Embeds.fits (hv : pref.Valid) (hembeds : pref.Embeds) : pref.Fits := by
  have htop := hv.ones_le
  have hones : pref.ones < 104 := by
    by_contra hlong
    obtain ⟨ipv6, hok, -⟩ := hembeds.keeps [0, 0, 0, 0] rfl
    have hpanic : translateToIPv6 [0, 0, 0, 0] pref = .error .indexOutOfRange :=
      embedFrom_panics pref.length_padded (by omega) (by omega)
    rw [hpanic] at hok
    cases hok
  refine ⟨hones, ?_⟩
  by_contra hover
  rw [not_or] at hover
  -- the first bit of the byte in which the prefix ends, for two addresses
  have hbit (a : UInt8) : a.toNat.testBit 7 = bitAt pref.ip (8 * (pref.ones / 8)) := by
    obtain ⟨ipv6, hok, -, -, hbits⟩ := hembeds.keeps [a, 0, 0, 0] rfl
    rw [translateToIPv6_ok hones] at hok
    have hread := (@getElem?_embedded pref.padded (pref.ones / 8) a 0 0 0 pref.length_padded
      (by omega)).1
    rw [slot_zero hover.2] at hread
    rw [← hbits (8 * (pref.ones / 8)) (by omega), ← Except.ok.inj hok, bitAt,
      Nat.mul_div_cancel_left _ (by decide), Nat.mul_mod_right, List.getD_eq_getElem?_getD, hread]
    rfl
  exact absurd ((hbit 0).trans (hbit 128).symm) (by decide)

theorem prefEnd_le (ipv6 : IP) : prefEnd ipv6 ≤ 12 := by
  have hite {c : Bool} {m n : Nat} (hm : m ≤ 12) (hn : n ≤ 12) : (if c then m else n) ≤ 12 := by
    split <;> assumption
  refine hite ?_ (hite ?_ (hite ?_ (hite ?_ (hite ?_ (hite ?_ ?_))))) <;> decide

theorem RR.pref64_valid {answer : RR} (h : answer.pref64 = some pref) : pref.Valid := by
  unfold RR.pref64 at h
  split at h
  · next ipv6 _ =>
    split at h
    · next hend =>
      cases h
      have hle := prefEnd_le ipv6
      refine ⟨.inr ⟨?_, rfl⟩, by dsimp only; omega⟩
      rw [List.length_append, List.length_take, List.length_replicate]
      omega
    · cases h
  · cases h

theorem foldl_addPref64 (answers : List RR) :
    answers.foldl addPref64 ([], []) =
      (answers.filterMap RR.pref64).foldl (keepNew IPNet.string) ([], []) := by
  rw [List.foldl_filterMap]
  congr
  funext found answer
  unfold addPref64
  cases answer.pref64 <;> rfl

theorem fetchPref64_valid {exchange : Except GoError (Option Msg)} {pref64 : List IPNet}
    (hv : ∀ pref ∈ pref64, pref.Valid) : ∀ pref ∈ (fetchPref64 exchange pref64).1, pref.Valid := by
  unfold fetchPref64
  split
  · exact hv
  · exact hv
  · next resp =>
    split
    · exact hv
    · dsimp only
      split
      · exact hv
      · intro pref hpref
        rw [foldl_addPref64] at hpref
        obtain ⟨answer, -, h⟩ := List.mem_filterMap.mp (mem_of_mem_foldl_keepNew hpref)
        exact RR.pref64_valid h

theorem refreshPref64_valid {exchange : Text → Except GoError (Option Msg)} {resolvers : List Text}
    {pref64 pref64' : List IPNet} (hv : ∀ pref ∈ pref64, pref.Valid)
    (h : refreshPref64 exchange resolvers pref64 = .ok pref64') : ∀ pref ∈ pref64', pref.Valid := by
  induction resolvers generalizing pref64 with
  | nil =>
    unfold refreshPref64 at h
    split at h
    · cases h
    · cases h
      exact hv
  | cons resolver resolvers ih =>
    have hfetched := @fetchPref64_valid (exchange resolver) pref64 hv
    unfold refreshPref64 at h
    split at h
    · next fetched heq =>
      rw [heq] at hfetched
      split at h
      · cases h
      · cases h
        exact hfetched
    · next fetched e heq =>
      rw [heq] at hfetched
      exact ih hfetched h

theorem dns64Init_valid {lib : CIDRLibrary} {exchange : Text → Except GoError (Option Msg)}
    {config : DNS64Config} {plugin : PluginDNS64} (h : dns64Init lib exchange config = .ok plugin) :
    ∀ pref ∈ plugin.pref64, pref.Valid := by
  unfold dns64Init at h
  split at h
  · cases h
  · split at h
    · obtain ⟨pref64, hmap, h⟩ := ok_of_bind h
      cases h
      intro pref hpref
      obtain ⟨text, -, hparse⟩ := mapM_mem hmap hpref
      exact lib.parseCIDR_valid text pref hparse
    · split at h
      · obtain ⟨pref64, hrefresh, h⟩ := ok_of_bind h
        cases h
        exact refreshPref64_valid (fun _ h => absurd h List.not_mem_nil) hrefresh
      · cases h
        exact nofun

/-- **The embedding** stays in the 16 bytes, out of octet 8 and out of the bits of the prefix, and
tells all addresses apart, for all the prefixes of the plugin, exactly when each of them fits. -/
theorem embedding_iff {lib : CIDRLibrary} {exchange : Text → Except GoError (Option Msg)}
    {config : DNS64Config} {plugin : PluginDNS64} (h : dns64Init lib exchange config = .ok plugin) :
    (∀ pref ∈ plugin.pref64, pref.Embeds) ↔ ∀ pref ∈ plugin.pref64, pref.Fits := by
  have hv := dns64Init_valid h
  constructor
  · exact fun hembeds pref hpref => (hembeds pref hpref).fits (hv pref hpref)
  · exact fun hfits pref hpref => (hfits pref hpref).embeds (hv pref hpref)

end Prefixes

/-! ## Prefixes and well-known addresses -/

/-- A prefix of one of the lengths that have a place for an IPv4 address, by its bytes. -/
structure Pref64 where
  bytes : Bytes
  length_mem : bytes.length ∈ [4, 5, 6, 7, 8, 12]

def Pref64.net (p : Pref64) : IPNet :=
  ⟨p.bytes ++ List.replicate (16 - p.bytes.length) 0, p.bytes.length * 8, 128⟩

/-- What stands behind a prefix of `n` bytes in which `192.0.0.x` is embedded. -/
def behind (n : Nat) (x : UInt8) : Bytes :=
  ((((List.replicate (16 - n) 0).set (slot n 0 - n) 192).set (slot n 1 - n) 0).set
    (slot n 2 - n) 0).set (slot n 3 - n) x

theorem embedded_behind {bytes : Bytes} {n : Nat} (hlen : bytes.length = n) (x : UInt8) :
    embedded (bytes ++ List.replicate (16 - n) 0) n 192 0 0 x = bytes ++ behind n x := by
  have hle (i : Nat) : bytes.length ≤ slot n i := hlen ▸ le_slot
  unfold embedded behind
  rw [List.set_append_right _ _ (hle 0), List.set_append_right _ _ (hle 1),
    List.set_append_right _ _ (hle 2), List.set_append_right _ _ (hle 3), hlen]

theorem prefEnd_behind {bytes : Bytes} (hmem : bytes.length ∈ [4, 5, 6, 7, 8, 12]) {x : UInt8}
    (hx : x = 170 ∨ x = 171) : prefEnd (bytes ++ behind bytes.length x) = bytes.length := by
  simp only [List.mem_cons, List.not_mem_nil, or_false] at hmem
  have hget {j : Nat} (hj : bytes.length ≤ j) : (bytes ++ behind bytes.length x).getD j 0 =
      (behind bytes.length x).getD (j - bytes.length) 0 := by
    rw [List.getD_eq_getElem?_getD, List.getElem?_append_right hj, List.getD_eq_getElem?_getD]
  unfold prefEnd
  rcases hmem with hlen | hlen | hlen | hlen | hlen | hlen <;> rw [hlen] at hget ⊢ <;>
    simp (disch := decide) only [hget] <;> rcases hx with rfl | rfl <;> rfl

theorem IPNet.string_eq {n : IPNet} (hlen : n.ip.length = 16) (hbits : n.bits = 128) :
    n.string = IP.string n.ip ++
      '/' :: Nat.toDigits 10 (if (IP.to4 n.ip).isSome then n.ones - 96 else n.ones) := by
  unfold IPNet.string
  cases h4 : IP.to4 n.ip with
  | none => simp [hlen, hbits]
  | some v4 => simp [hbits, IP.string_to4 hlen h4]

/-- An IPv6 prefix that has at least the bits of the mapping where it is IPv4-mapped. -/
structure IPNet.Canonical (n : IPNet) : Prop where
  length : n.ip.length = 16
  bits : n.bits = 128
  mapped : (IP.to4 n.ip).isSome → 96 ≤ n.ones

theorem IPNet.string_inj {n n' : IPNet} (h : n.Canonical) (h' : n'.Canonical)
    (heq : n.string = n'.string) : n = n' := by
  have hslash {ip : IP} (hlen : ip.length = 16) : '/' ∉ IP.string ip := by
    intro hmem
    have hdigit : ∀ d : Fin 16, '/' ≠ Nat.digitChar d := by decide
    rcases IP.mem_string hlen hmem with ⟨d, hd, hc⟩ | hc
    · exact hdigit ⟨d, hd⟩ hc
    · split at hc <;> cases hc
  have hnumeral (m : Nat) : '/' ∉ Nat.toDigits 10 m :=
    not_mem_toDigits (by decide) (by decide) (by decide)
  rw [string_eq h.length h.bits, string_eq h'.length h'.bits,
    List.append_cons_inj_of_notMem (hslash h.length) (hnumeral _)] at heq
  obtain ⟨hip, -, hones⟩ := heq
  have hip := IP.string_inj h.length h'.length hip
  have hones := toDigits_injective (by decide) (by decide) hones
  have hones : n.ones = n'.ones := by
    have hmapped := h.mapped
    have hmapped' := h'.mapped
    rw [hip] at hmapped hones
    split at hones
    · next h4 =>
      have := hmapped h4
      have := hmapped' h4
      omega
    · exact hones
  have hbits := h.bits.trans h'.bits.symm
  obtain ⟨ip, ones, bits⟩ := n
  obtain ⟨ip', ones', bits'⟩ := n'
  exact (IPNet.mk.injEq ..).mpr ⟨hip, hones, hbits⟩

theorem Pref64.canonical (p : Pref64) : p.net.Canonical := by
  have hmem := p.length_mem
  simp only [List.mem_cons, List.not_mem_nil, or_false] at hmem
  have hlen : p.net.ip.length = 16 := by
    simp only [Pref64.net, List.length_append, List.length_replicate]
    omega
  refine ⟨hlen, rfl, fun h4 => ?_⟩
  obtain ⟨v4, h4⟩ := Option.isSome_iff_exists.mp h4
  have hip := (IP.to4_eq_some hlen h4).1
  -- octet 11 is no zero in a mapped address
  by_contra hshort
  have hshort : p.bytes.length ≤ 11 := by
    simp only [Pref64.net] at hshort
    omega
  have hoctet := congrArg (fun ip : IP => ip[11]?) hip
  simp only [Pref64.net] at hoctet
  rw [List.getElem?_append_right hshort, List.getElem?_replicate, if_pos (by omega)] at hoctet
  cases hoctet

theorem Pref64.pref64_of_embedded (p : Pref64) {wka ipv6 : IP}
    (hwka : wka ∈ [rfc7050WKA1, rfc7050WKA2]) (h : translateToIPv6 wka p.net = .ok ipv6) {rr : RR}
    (hrr : rr.data = .aaaa ipv6) : rr.pref64 = some p.net := by
  have hmem := p.length_mem
  have hle : p.bytes.length ≤ 12 := by
    simp only [List.mem_cons, List.not_mem_nil, or_false] at hmem
    omega
  have hpadded : p.net.padded = p.bytes ++ List.replicate (16 - p.bytes.length) 0 :=
    List.take_left' p.canonical.length
  have hembed (x : UInt8) (hx : translateToIPv6 [192, 0, 0, x] p.net = .ok ipv6) :
      ipv6 = p.bytes ++ behind p.bytes.length x := by
    rw [translateToIPv6_ok (by simp only [Pref64.net]; omega), hpadded] at hx
    rw [← embedded_behind rfl x, ← Except.ok.inj hx]
    simp only [Pref64.net, Nat.mul_div_left _ (by decide : 0 < 8)]
  obtain ⟨x, hx, rfl⟩ : ∃ x : UInt8, (x = 170 ∨ x = 171) ∧ ipv6 = p.bytes ++ behind p.bytes.length x := by
    rcases List.mem_pair.mp hwka with rfl | rfl
    · exact ⟨170, .inl rfl, hembed 170 h⟩
    · exact ⟨171, .inr rfl, hembed 171 h⟩
  have hlen : (p.bytes ++ behind p.bytes.length x).length = 16 := by
    simp only [List.length_append, behind, List.length_set, List.length_replicate]
    omega
  have hend := prefEnd_behind hmem hx
  have hpos : 0 < p.bytes.length := by
    simp only [List.mem_cons, List.not_mem_nil, or_false] at hmem
    omega
  unfold RR.pref64
  rw [hrr]
  dsimp only
  rw [hend, if_pos ⟨hlen, hpos⟩, List.take_left' rfl]
  rfl

/-! ### The list of prefixes -/

/-- A well-known address that a resolver embeds in one of its prefixes. -/
structure Embedding64 where
  pref : Pref64
  wka : IP
  known : wka ∈ [rfc7050WKA1, rfc7050WKA2]

/-- The record has the address that the embedding gives. -/
def Embedding64.Answers (e : Embedding64) (rr : RR) : Prop :=
  ∃ ipv6, translateToIPv6 e.wka e.pref.net = .ok ipv6 ∧ rr.data = .aaaa ipv6

theorem filterMap_pref64_filter (answers : List RR) :
    (answers.filter fun rr => rr.rrtype = typeAAAA).filterMap RR.pref64 =
      answers.filterMap RR.pref64 := by
  induction answers with
  | nil => rfl
  | cons rr answers ih =>
    by_cases hrr : rr.rrtype = typeAAAA
    · rw [List.filter_cons_of_pos (by simpa using hrr), List.filterMap_cons, List.filterMap_cons, ih]
    · have hnone : rr.pref64 = none := by
        unfold RR.pref64
        split
        · next ipv6 hdata => exact absurd (by rw [RR.rrtype, hdata]) hrr
        · rfl
      rw [List.filter_cons_of_neg (by simpa using hrr), List.filterMap_cons_none hnone, ih]

theorem filterMap_pref64 {embeddings : List Embedding64} {answers : List RR}
    (h : List.Forall₂ Embedding64.Answers embeddings answers) :
    answers.filterMap RR.pref64 = embeddings.map (·.pref.net) := by
  induction h with
  | nil => rfl
  | cons hrr _ ih =>
    obtain ⟨ipv6, hipv6, hdata⟩ := hrr
    rw [List.filterMap_cons_some (Pref64.pref64_of_embedded _ (Embedding64.known _) hipv6 hdata), ih]
    rfl

/-- **Discovery inverts embedding.** From the AAAA records of a response, each of which embeds a
well-known address in a prefix, the prefixes are found, each once and where it appears first. -/
theorem discovery_inverts_embedding {embeddings : List Embedding64} {resp : Msg}
    (hrcode : resp.rcode = rcodeSuccess)
    (h : List.Forall₂ Embedding64.Answers embeddings
      (resp.answer.filter fun rr => rr.rrtype = typeAAAA)) (pref64 : List IPNet) :
    fetchPref64 (.ok (some resp)) pref64 =
      if embeddings = [] then (pref64, some (.plain "Empty Pref64 list"))
      else ((embeddings.map (·.pref.net)).eraseDups, none) := by
  have hprefs : (resp.answer.foldl addPref64 ([], [])).1 =
      (embeddings.map (·.pref.net)).eraseDups := by
    rw [foldl_addPref64, ← filterMap_pref64_filter, filterMap_pref64 h]
    refine foldl_keepNew fun n hn n' hn' => ?_
    obtain ⟨e, -, rfl⟩ := List.mem_map.mp hn
    obtain ⟨e', -, rfl⟩ := List.mem_map.mp hn'
    exact IPNet.string_inj e.pref.canonical e'.pref.canonical
  unfold fetchPref64
  dsimp only
  rw [if_neg (not_not.mpr hrcode), hprefs]
  cases embeddings with
  | nil => rfl
  | cons e embeddings =>
    rw [List.map_cons, List.eraseDups_cons, if_neg (List.cons_ne_nil _ _),
      if_neg (List.cons_ne_nil _ _)]

/-! ## Samples -/

namespace Sample

def longPrefix : IPNet := ⟨[0x20, 1, 0xd, 0xb8, 0, 0, 0, 0, 0, 0, 0, 0, 0, 0, 0, 0], 104, 128⟩

def oddPrefix : IPNet := ⟨[0x20, 1, 0xd, 0xb8, 0, 0, 0, 0, 0, 0, 0, 0, 0xa0, 0, 0, 0], 100, 128⟩

def cidrs : CIDRLibrary where
  parseCIDR text :=
    if text = "2001:db8::/104".toList then .ok longPrefix
    else if text = "2001:db8::a000:0/100".toList then .ok oddPrefix
    else if text = "2001:db8::/32".toList then .ok { longPrefix with ones := 32 }
    else .error (.plain "invalid CIDR address")
  parseCIDR_valid := by
    intro text n h
    split at h
    · cases h
      exact ⟨.inr ⟨rfl, rfl⟩, by decide⟩
    split at h
    · cases h
      exact ⟨.inr ⟨rfl, rfl⟩, by decide⟩
    split at h
    · cases h
      exact ⟨.inr ⟨rfl, rfl⟩, by decide⟩
    · cases h

def dns64Config (prefixes : List String) : DNS64Config :=
  ⟨["127.0.0.1:53".toList], prefixes.map String.toList, []⟩

def noResolver (_ : Text) : Except GoError (Option Msg) := .error (.net "i/o timeout" true)

theorem short_prefix_embeds :
    ∃ plugin, dns64Init cidrs noResolver (dns64Config ["2001:db8::/32"]) = .ok plugin ∧
      plugin.pref64 ≠ [] ∧ ∀ pref ∈ plugin.pref64, pref.Embeds := by
  have hinit : dns64Init cidrs noResolver (dns64Config ["2001:db8::/32"]) =
      .ok ⟨[{ longPrefix with ones := 32 }], [], "127.0.0.1:53".toList⟩ := rfl
  refine ⟨_, hinit, List.cons_ne_nil _ _, (embedding_iff hinit).mpr fun pref hpref => ?_⟩
  cases List.mem_singleton.mp hpref
  exact ⟨by decide, by decide⟩

/-- Both prefixes are accepted. The first one has no room for an address, and the last four bits
of the second one are overwritten. -/
theorem accepted_prefixes_do_not_embed :
    ∃ plugin, dns64Init cidrs noResolver
        (dns64Config ["2001:db8::/104", "2001:db8::a000:0/100"]) = .ok plugin ∧
      plugin.pref64 = [longPrefix, oddPrefix] ∧
      translateToIPv6 [192, 0, 2, 1] longPrefix = .error .indexOutOfRange ∧
      translateToIPv6 [192, 0, 2, 1] oddPrefix =
        .ok [0x20, 1, 0xd, 0xb8, 0, 0, 0, 0, 0, 0, 0, 0, 192, 0, 2, 1] ∧
      ¬ longPrefix.Embeds ∧ ¬ oddPrefix.Embeds := by
  refine ⟨_, rfl, rfl, rfl, rfl, fun h => ?_, fun h => ?_⟩
  · exact absurd (h.fits ⟨.inr ⟨rfl, rfl⟩, by decide⟩).1 (by decide)
  · exact absurd (h.fits ⟨.inr ⟨rfl, rfl⟩, by decide⟩).2 (by decide)

def wellKnownPrefix : Pref64 := ⟨[0, 0x64, 0xff, 0x9b, 0, 0, 0, 0, 0, 0, 0, 0], by decide⟩

def shortPrefix : Pref64 := ⟨[0x20, 1, 0xd, 0xb8], by decide⟩

def discovered : List Embedding64 :=
  [⟨wellKnownPrefix, rfc7050WKA1, by decide⟩, ⟨shortPrefix, rfc7050WKA1, by decide⟩,
    ⟨wellKnownPrefix, rfc7050WKA2, by decide⟩]

def discovery : Msg :=
  { id := 7, response := true, opcode := 0, authoritative := false, truncated := false
    recursionDesired := true, recursionAvailable := true, zero := false
    authenticatedData := false, checkingDisabled := false, rcode := 0, compress := false
    question := []
    answer := [
      ⟨"ipv4only.arpa.".toList, classINET, 60,
        .aaaa [0, 0x64, 0xff, 0x9b, 0, 0, 0, 0, 0, 0, 0, 0, 192, 0, 0, 170]⟩,
      ⟨"ipv4only.arpa.".toList, classINET, 60,
        .aaaa [0x20, 1, 0xd, 0xb8, 192, 0, 0, 170, 0, 0, 0, 0, 0, 0, 0, 0]⟩,
      ⟨"ipv4only.arpa.".toList, classINET, 60,
        .aaaa [0, 0x64, 0xff, 0x9b, 0, 0, 0, 0, 0, 0, 0, 0, 192, 0, 0, 171]⟩]
    ns := [], extra := [] }

/-- Two prefixes, one of them with both addresses. -/
theorem two_prefixes_discovered :
    discovery.rcode = rcodeSuccess ∧
      fetchPref64 (.ok (some discovery)) [] = ([wellKnownPrefix.net, shortPrefix.net], none) := by
  refine ⟨rfl, (@discovery_inverts_embedding discovered discovery rfl ?_ []).trans (by decide)⟩
  exact .cons ⟨_, rfl, rfl⟩ (.cons ⟨_, rfl, rfl⟩ (.cons ⟨_, rfl, rfl⟩ .nil))

end Sample

end DnscryptProxy
