import Mathlib.Data.List.Infix

/-! Shell patterns as the module `fnmatch` of Python matches them: `*` and `?` match every
character, and a bracket that is not closed stands for itself. What a set in brackets means
is left open, since it differs between the versions of Python; it may also be refused.

`suffix_of_fnmatch`: what a pattern ends with, in characters that are not special, every name
that it matches ends with. -/

namespace DnscryptProxy.Library.Fnmatch

inductive Token where
  | star
  | any
  | set (stuff : List Char)
  | lit (c : Char)
  deriving DecidableEq, Repr

/-- What is between brackets, as a set of characters; `none` is an error. -/
abbrev Brackets := List Char → Option (Char → Bool)

def bracketed (rest : List Char) : Option (List Char) :=
  let start := match rest with
    | '!' :: ']' :: _ => 2
    | '!' :: _ => 1
    | ']' :: _ => 1
    | _ => 0
  let stuff := rest.take (start + ((rest.drop start).takeWhile (· ≠ ']')).length)
  if stuff.length < rest.length then some stuff else none

/-- The tokens of a pattern of which the first characters are to be skipped. -/
def tokensFrom : Nat → List Char → List Token
  | _, [] => []
  | skip + 1, _ :: cs => tokensFrom skip cs
  | 0, c :: cs =>
    if c = '*' then .star :: tokensFrom 0 cs
    else if c = '?' then .any :: tokensFrom 0 cs
    else if c = '[' then
      match bracketed cs with
      | some stuff => .set stuff :: tokensFrom (stuff.length + 1) cs
      | none => .lit '[' :: tokensFrom 0 cs
    else .lit c :: tokensFrom 0 cs

section Match

variable (brackets : Brackets)

def matchTokens : List Token → List Char → Bool
  | [], name => name.isEmpty
  | .star :: tokens, name => name.tails.any (matchTokens tokens)
  | .any :: tokens, _ :: name => matchTokens tokens name
  | .set stuff :: tokens, c :: name => (brackets stuff).any (fun has => has c) && matchTokens tokens name
  | .lit a :: tokens, c :: name => a = c && matchTokens tokens name
  | _ :: _, [] => false

def Token.valid : Token → Bool
  | .set stuff => (brackets stuff).isSome
  | _ => true

/-- `none` is an exception. -/
def fnmatch (name pat : List Char) : Option Bool :=
  let tokens := tokensFrom 0 pat
  if tokens.all (Token.valid brackets) then some (matchTokens brackets tokens name) else none

end Match

example : fnmatch (fun _ => none) "example.com".toList "ex*.c?m".toList = some true := by decide
example : fnmatch (fun _ => none) "a[b".toList "a[b".toList = some true := by decide

/-! ## Plain endings -/

/-- A character that stands for itself everywhere. -/
def Plain (c : Char) : Prop := c ≠ '*' ∧ c ≠ '?' ∧ c ≠ '[' ∧ c ≠ ']'

instance (c : Char) : Decidable (Plain c) :=
  inferInstanceAs (Decidable (c ≠ '*' ∧ c ≠ '?' ∧ c ≠ '[' ∧ c ≠ ']'))

theorem getElem?_length_takeWhile {l : List Char}
    (h : (l.takeWhile (· ≠ ']')).length < l.length) :
    l[(l.takeWhile (· ≠ ']')).length]? = some ']' := by
  induction l with
  | nil => cases h
  | cons c l ih =>
    by_cases hc : c = ']'
    · simp [hc]
    · have htake : (c :: l).takeWhile (· ≠ ']') = c :: l.takeWhile (· ≠ ']') := by simp [hc]
      rw [htake] at h ⊢
      exact ih (Nat.lt_of_succ_lt_succ h)

theorem bracketed_length_lt {x q stuff : List Char} (h : bracketed (x ++ q) = some stuff)
    (hq : ']' ∉ q) : stuff.length < x.length := by
  unfold bracketed at h
  dsimp only at h
  generalize (match x ++ q with
    | '!' :: ']' :: _ => 2
    | '!' :: _ => 1
    | ']' :: _ => 1
    | _ => 0) = start at h
  split at h
  · next hlt =>
    cases h
    rw [List.length_take] at hlt ⊢
    have hj : start + (((x ++ q).drop start).takeWhile (· ≠ ']')).length < (x ++ q).length := by
      omega
    have hclose : (x ++ q)[start + (((x ++ q).drop start).takeWhile (· ≠ ']')).length]? =
        some ']' := by
      rw [← List.getElem?_drop]
      refine getElem?_length_takeWhile ?_
      rw [List.length_drop]
      omega
    rw [Nat.min_eq_left hj.le]
    by_contra hge
    rw [List.getElem?_append_right (Nat.le_of_not_lt hge)] at hclose
    exact hq (List.mem_of_getElem? hclose)
  · cases h

theorem tokensFrom_plain {q : List Char} (hq : ∀ c ∈ q, Plain c) :
    tokensFrom 0 q = q.map .lit := by
  induction q with
  | nil => rfl
  | cons c q ih =>
    obtain ⟨hstar, hany, hopen, -⟩ := hq c List.mem_cons_self
    rw [tokensFrom, if_neg hstar, if_neg hany, if_neg hopen,
      ih fun c' hc' => hq c' (List.mem_cons_of_mem c hc'), List.map_cons]

theorem tokensFrom_append {q : List Char} (hq : ∀ c ∈ q, Plain c) (x : List Char) (skip : Nat)
    (hskip : skip ≤ x.length) : ∃ tokens, tokensFrom skip (x ++ q) = tokens ++ q.map .lit := by
  induction x generalizing skip with
  | nil =>
    rw [List.length_nil, Nat.le_zero] at hskip
    exact ⟨[], by rw [hskip, List.nil_append, tokensFrom_plain hq, List.nil_append]⟩
  | cons c x ih =>
    cases skip with
    | succ skip => exact ih skip (Nat.le_of_succ_le_succ hskip)
    | zero =>
      obtain ⟨tokens, htokens⟩ := ih 0 (Nat.zero_le _)
      rw [List.cons_append, tokensFrom]
      split
      · exact ⟨.star :: tokens, by rw [htokens, List.cons_append]⟩
      · split
        · exact ⟨.any :: tokens, by rw [htokens, List.cons_append]⟩
        · split
          · split
            · next stuff hstuff =>
              have hlt := bracketed_length_lt hstuff fun hmem => (hq _ hmem).2.2.2 rfl
              obtain ⟨tokens', htokens'⟩ := ih (stuff.length + 1) hlt
              exact ⟨.set stuff :: tokens', by rw [htokens', List.cons_append]⟩
            · exact ⟨.lit '[' :: tokens, by rw [htokens, List.cons_append]⟩
          · exact ⟨.lit c :: tokens, by rw [htokens, List.cons_append]⟩

variable {brackets : Brackets}

theorem matchTokens_append {tokens tokens' : List Token} {name : List Char}
    (h : matchTokens brackets (tokens ++ tokens') name = true) :
    ∃ rest, rest <:+ name ∧ matchTokens brackets tokens' rest = true := by
  induction tokens generalizing name with
  | nil => exact ⟨name, List.suffix_rfl, h⟩
  | cons token tokens ih =>
    -- a token for one character
    have hnext {c : Char} {name : List Char}
        (h : matchTokens brackets (tokens ++ tokens') name = true) :
        ∃ rest, rest <:+ c :: name ∧ matchTokens brackets tokens' rest = true := by
      obtain ⟨rest, hrest, hmatch⟩ := ih h
      exact ⟨rest, hrest.trans (List.suffix_cons c name), hmatch⟩
    cases token with
    | star =>
      obtain ⟨rest, hrest, hmatch⟩ := List.any_eq_true.mp h
      obtain ⟨rest', hrest', hmatch'⟩ := ih hmatch
      exact ⟨rest', hrest'.trans ((List.mem_tails _ _).mp hrest), hmatch'⟩
    | any =>
      cases name with
      | nil => cases h
      | cons c name => exact hnext h
    | set stuff =>
      cases name with
      | nil => cases h
      | cons c name => exact hnext (Bool.and_eq_true_iff.mp h).2
    | lit a =>
      cases name with
      | nil => cases h
      | cons c name => exact hnext (Bool.and_eq_true_iff.mp h).2

theorem matchTokens_lit {q name : List Char}
    (h : matchTokens brackets (q.map .lit) name = true) : name = q := by
  induction q generalizing name with
  | nil => exact List.isEmpty_iff.mp h
  | cons a q ih =>
    cases name with
    | nil => cases h
    | cons c name =>
      obtain ⟨hc, hrest⟩ := Bool.and_eq_true_iff.mp h
      rw [of_decide_eq_true hc, ih hrest]

theorem suffix_of_fnmatch {x q name : List Char} (hq : ∀ c ∈ q, Plain c)
    (h : fnmatch brackets name (x ++ q) = some true) : q <:+ name := by
  obtain ⟨tokens, htokens⟩ := tokensFrom_append hq x 0 (Nat.zero_le _)
  unfold fnmatch at h
  rw [htokens] at h
  dsimp only at h
  split at h
  · obtain ⟨rest, hrest, hmatch⟩ := matchTokens_append (Option.some.inj h)
    exact matchTokens_lit hmatch ▸ hrest
  · cases h

end DnscryptProxy.Library.Fnmatch
