import DnscryptProxy.Library.Words
import DnscryptProxy.Message
import Mathlib.Data.List.TakeWhile

/-! The texts of addresses. `IP.string` writes four numbers for an IPv4 address and eight groups
for an IPv6 address, of which the longest run of zeros is left out. `IP.string_inj`: an address
can be told from its text. -/

namespace DnscryptProxy.IP

open Library

/-! ## Groups -/

def hexWords (groups : List Nat) : List Text := groups.map (Nat.toDigits 16)

theorem words_hexWords (groups : List Nat) : Words ':' (hexWords groups) := by
  intro w hw
  obtain ⟨g, -, rfl⟩ := List.mem_map.mp hw
  exact ⟨Nat.toDigits_ne_nil, not_mem_toDigits (by decide) (by decide) (by decide)⟩

theorem hexWords_inj {groups groups' : List Nat} (h : hexWords groups = hexWords groups') :
    groups = groups' :=
  List.map_injective_iff.mpr (toDigits_injective (by decide) (by decide)) h

theorem uint16_inj {a b c d : UInt8} (h : uint16 a b = uint16 c d) : a = c ∧ b = d := by
  unfold uint16 at h
  have hb := b.toNat_lt
  have hd := d.toNat_lt
  exact ⟨UInt8.toNat_inj.mp (by omega), UInt8.toNat_inj.mp (by omega)⟩

variable {ip ip' v4 : IP}

theorem length_groups {n : Nat} (h : ip.length = 2 * n) : (groups ip).length = n := by
  induction n generalizing ip with
  | zero =>
    rw [List.length_eq_zero_iff.mp h]
    rfl
  | succ n ih =>
    obtain _ | ⟨a, _ | ⟨b, rest⟩⟩ := ip
    · simp at h
    · simp at h; omega
    · rw [groups, List.length_cons, ih (by simp at h; omega)]

theorem groups_inj {n : Nat} (h : ip.length = 2 * n) (h' : ip'.length = 2 * n)
    (hgroups : groups ip = groups ip') : ip = ip' := by
  induction n generalizing ip ip' with
  | zero => rw [List.length_eq_zero_iff.mp h, List.length_eq_zero_iff.mp h']
  | succ n ih =>
    obtain _ | ⟨a, _ | ⟨b, rest⟩⟩ := ip
    · simp at h
    · simp at h; omega
    obtain _ | ⟨c, _ | ⟨d, rest'⟩⟩ := ip'
    · simp at h'
    · simp at h'; omega
    rw [groups, groups] at hgroups
    obtain ⟨hhead, htail⟩ := List.cons.inj hgroups
    obtain ⟨rfl, rfl⟩ := uint16_inj hhead
    rw [ih (by simp at h; omega) (by simp at h'; omega) htail]

theorem zeroRun_spec {gs : List Nat} {start len : Nat} (h : zeroRun gs = some (start, len)) :
    gs = gs.take start ++ (List.replicate len 0 ++ gs.drop (start + len)) := by
  obtain ⟨i, -, heq⟩ := List.mem_map.mp (List.argmax_mem h)
  cases heq
  have hzeros : (gs.drop start).takeWhile (· = 0) =
      List.replicate ((gs.drop start).takeWhile (· = 0)).length 0 := by
    refine List.eq_replicate_iff.mpr ⟨rfl, fun g hg => ?_⟩
    have hzero := List.mem_takeWhile_imp hg
    exact of_decide_eq_true hzero
  have hrest : gs.drop (start + ((gs.drop start).takeWhile (· = 0)).length) =
      (gs.drop start).dropWhile (· = 0) := by
    rw [← List.drop_drop, drop_length_takeWhile]
  rw [← hzeros, hrest, List.takeWhile_append_dropWhile, List.take_append_drop]

/-! ## Texts -/

theorem to4_eq_some (hlen : ip.length = 16) (h : to4 ip = some v4) :
    ip = v4InV6Prefix ++ v4 ∧ v4.length = 4 := by
  unfold to4 at h
  rw [if_neg (by omega)] at h
  split at h
  · next hmapped =>
    cases h
    refine ⟨?_, by rw [List.length_drop]; omega⟩
    rw [← hmapped.2, List.take_append_drop]
  · cases h

def decWords (v4 : IP) : List Text := v4.map fun b => Nat.toDigits 10 b.toNat

theorem words_decWords (v4 : IP) : Words '.' (decWords v4) := by
  intro w hw
  obtain ⟨b, -, rfl⟩ := List.mem_map.mp hw
  exact ⟨Nat.toDigits_ne_nil, not_mem_toDigits (by decide) (by decide) (by decide)⟩

theorem decWords_inj {v4' : IP} (h : decWords v4 = decWords v4') : v4 = v4' := by
  refine List.map_injective_iff.mpr (fun b c hbc => ?_) h
  exact UInt8.toNat_inj.mp (toDigits_injective (by decide) (by decide) hbc)

theorem string_v4 (hlen : ip.length = 16) (h : to4 ip = some v4) :
    string ip = ['.'].intercalate (decWords v4) := by
  have hne : ip ≠ [] := by
    rintro rfl
    cases hlen
  unfold string
  rw [if_neg hne, h]
  rfl

theorem string_to4 (hlen : ip.length = 16) (h : to4 ip = some v4) : string v4 = string ip := by
  have hv4 := (to4_eq_some hlen h).2
  have hne : v4 ≠ [] := by
    rintro rfl
    cases hv4
  have hself : to4 v4 = some v4 := if_pos hv4
  rw [string_v4 hlen h]
  unfold string
  rw [if_neg hne, hself]
  rfl

theorem string_v6 (hlen : ip.length = 16) (h : to4 ip = none) :
    string ip = [':'].intercalate (hexWords (groups ip)) ∨
      ∃ left right, groups ip = left ++ (List.replicate (8 - (left.length + right.length)) 0 ++ right) ∧
        string ip = gapped ':' (hexWords left) (hexWords right) := by
  have hne : ip ≠ [] := by
    rintro rfl
    cases hlen
  unfold string
  rw [if_neg hne, h]
  dsimp only
  rw [if_neg (not_not.mpr hlen)]
  split
  · next start len hrun =>
    split
    · exact .inl rfl
    · refine .inr ⟨(groups ip).take start, (groups ip).drop (start + len), ?_, ?_⟩
      · have hspec := zeroRun_spec hrun
        have htotal := congrArg List.length hspec
        rw [length_groups (n := 8) hlen, List.length_append, List.length_append,
          List.length_replicate] at htotal
        have hgap : 8 - (((groups ip).take start).length + ((groups ip).drop (start + len)).length) =
            len := by omega
        rw [hgap]
        exact hspec
      · unfold gapped joinHex hexWords
        simp
  · exact .inl rfl

theorem digit_of_mem_hexWords {gs : List Nat} {w : Text} (hw : w ∈ hexWords gs) {c : Char}
    (hc : c ∈ w) : ∃ d < 16, c = Nat.digitChar d := by
  obtain ⟨g, -, rfl⟩ := List.mem_map.mp hw
  exact mem_toDigits (by decide) hc

theorem mem_string (hlen : ip.length = 16) {c : Char} (h : c ∈ string ip) :
    (∃ d < 16, c = Nat.digitChar d) ∨ c = if (to4 ip).isSome then '.' else ':' := by
  cases h4 : to4 ip with
  | some v4 =>
    rw [string_v4 hlen h4] at h
    rcases mem_intercalate h with rfl | ⟨w, hw, hc⟩
    · exact .inr rfl
    · obtain ⟨b, -, rfl⟩ := List.mem_map.mp hw
      obtain ⟨d, hd, rfl⟩ := mem_toDigits (by decide) hc
      exact .inl ⟨d, by omega, rfl⟩
  | none =>
    rcases string_v6 hlen h4 with hs | ⟨left, right, -, hs⟩
    · rw [hs] at h
      rcases mem_intercalate h with rfl | ⟨w, hw, hc⟩
      · exact .inr rfl
      · exact .inl (digit_of_mem_hexWords hw hc)
    · rw [hs] at h
      rcases mem_gapped h with rfl | ⟨w, hw, hc⟩
      · exact .inr rfl
      · have hw : w ∈ hexWords (left ++ right) := by simpa [hexWords] using hw
        exact .inl (digit_of_mem_hexWords hw hc)

theorem dot_mem_string_iff (hlen : ip.length = 16) : '.' ∈ string ip ↔ (to4 ip).isSome := by
  have hdigit : ∀ d : Fin 16, '.' ≠ Nat.digitChar d := by decide
  constructor
  · intro h
    by_contra h4
    rcases mem_string hlen h with ⟨d, hd, hc⟩ | hc
    · exact hdigit ⟨d, hd⟩ hc
    · rw [if_neg h4] at hc
      cases hc
  · intro h4
    obtain ⟨v4, h4⟩ := Option.isSome_iff_exists.mp h4
    rw [string_v4 hlen h4]
    refine sep_mem_intercalate ?_
    rw [decWords, List.length_map, (to4_eq_some hlen h4).2]
    decide

theorem string_v6_inj (hlen : ip.length = 16) (hlen' : ip'.length = 16) (h4 : to4 ip = none)
    (h4' : to4 ip' = none) (h : string ip = string ip') : ip = ip' := by
  have hgroups : (groups ip).length = 8 := length_groups hlen
  have hgroups' : (groups ip').length = 8 := length_groups hlen'
  have hne {gs : List Nat} (h8 : gs.length = 8) : hexWords gs ≠ [] := by
    rw [hexWords, ne_eq, List.map_eq_nil_iff, ← List.length_eq_zero_iff, h8]
    decide
  refine groups_inj (n := 8) hlen hlen' ?_
  rcases string_v6 hlen h4 with hs | ⟨left, right, hall, hs⟩ <;>
    rcases string_v6 hlen' h4' with hs' | ⟨left', right', hall', hs'⟩ <;> rw [hs, hs'] at h
  · exact hexWords_inj (intercalate_inj (words_hexWords _) (words_hexWords _) h)
  · exact absurd h.symm (gapped_ne_intercalate (words_hexWords _) (words_hexWords _)
      (words_hexWords _) (hne hgroups))
  · exact absurd h (gapped_ne_intercalate (words_hexWords _) (words_hexWords _)
      (words_hexWords _) (hne hgroups'))
  · obtain ⟨hleft, hright⟩ := gapped_inj (words_hexWords _) (words_hexWords _)
      (words_hexWords _) (words_hexWords _) h
    rw [hall, hall', hexWords_inj hleft, hexWords_inj hright]

theorem string_inj (hlen : ip.length = 16) (hlen' : ip'.length = 16) (h : string ip = string ip') :
    ip = ip' := by
  have hdot : (to4 ip).isSome = (to4 ip').isSome := by
    rw [Bool.eq_iff_iff, ← dot_mem_string_iff hlen, ← dot_mem_string_iff hlen', h]
  cases h4 : to4 ip with
  | none =>
    rw [h4, Option.isSome_none, eq_comm, Option.isSome_eq_false_iff, Option.isNone_iff_eq_none] at hdot
    exact string_v6_inj hlen hlen' h4 hdot h
  | some v4 =>
    rw [h4, Option.isSome_some, eq_comm, Option.isSome_iff_exists] at hdot
    obtain ⟨v4', h4'⟩ := hdot
    rw [string_v4 hlen h4, string_v4 hlen' h4'] at h
    have hwords := intercalate_inj (words_decWords v4) (words_decWords v4') h
    rw [(to4_eq_some hlen h4).1, (to4_eq_some hlen' h4').1, decWords_inj hwords]

end DnscryptProxy.IP
