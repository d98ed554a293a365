import Mathlib.Data.List.Basic

/-! Shell file name patterns, as the `path/filepath` package of Go documents
them on a system whose separator is `/`: `*` and `?` do not match the
separator, a class is a non-empty list of ranges, and a backslash takes the
next character literally. A pattern is read once, by a machine with one state
for each position inside a class, and then run against a name. -/

namespace DnscryptProxy.Library.Glob

inductive Token where
  | star
  | any
  | cls (negated : Bool) (ranges : List (Char × Char))
  | lit (c : Char)
  deriving DecidableEq, Repr

inductive Mode where
  | plain
  | escape
  | clsOpen
  | cls (negated : Bool) (ranges : List (Char × Char))
  | clsEscape (negated : Bool) (ranges : List (Char × Char))
  | clsLo (negated : Bool) (ranges : List (Char × Char)) (lo : Char)
  | clsHi (negated : Bool) (ranges : List (Char × Char)) (lo : Char)
  | clsHiEscape (negated : Bool) (ranges : List (Char × Char)) (lo : Char)
  deriving DecidableEq, Repr

def clsStep (negated : Bool) (ranges : List (Char × Char)) (c : Char) :
    Option (Option Token × Mode) :=
  if c = ']' then
    if ranges = [] then none else some (some (.cls negated ranges), .plain)
  else if c = '-' then none
  else if c = '\\' then some (none, .clsEscape negated ranges)
  else some (none, .clsLo negated ranges c)

def step : Mode → Char → Option (Option Token × Mode)
  | .plain, c =>
    if c = '*' then some (some .star, .plain)
    else if c = '?' then some (some .any, .plain)
    else if c = '[' then some (none, .clsOpen)
    else if c = '\\' then some (none, .escape)
    else some (some (.lit c), .plain)
  | .escape, c => some (some (.lit c), .plain)
  | .clsOpen, c => if c = '^' then some (none, .cls true []) else clsStep false [] c
  | .cls negated ranges, c => clsStep negated ranges c
  | .clsEscape negated ranges, c => some (none, .clsLo negated ranges c)
  | .clsLo negated ranges lo, c =>
    if c = '-' then some (none, .clsHi negated ranges lo)
    else clsStep negated (ranges ++ [(lo, lo)]) c
  | .clsHi negated ranges lo, c =>
    if c = ']' ∨ c = '-' then none
    else if c = '\\' then some (none, .clsHiEscape negated ranges lo)
    else some (none, .cls negated (ranges ++ [(lo, c)]))
  | .clsHiEscape negated ranges lo, c => some (none, .cls negated (ranges ++ [(lo, c)]))

def parseFrom : Mode → List Char → Option (List Token)
  | .plain, [] => some []
  | _, [] => none
  | mode, c :: cs => do
    let (token, mode) ← step mode c
    let tokens ← parseFrom mode cs
    return token.toList ++ tokens

/-- The tokens of a pattern; `none` when the pattern is malformed. -/
def parse (pattern : List Char) : Option (List Token) := parseFrom .plain pattern

/-- Skip any number of characters other than the separator, then continue. -/
def skip (rest : List Char → Bool) : List Char → Bool
  | [] => rest []
  | c :: name => rest (c :: name) || (c ≠ '/' && skip rest name)

def matchTokens : List Token → List Char → Bool
  | [], name => name.isEmpty
  | .star :: tokens, name => skip (matchTokens tokens) name
  | .any :: tokens, c :: name => c ≠ '/' && matchTokens tokens name
  | .cls negated ranges :: tokens, c :: name =>
    (ranges.any (fun r => r.1 ≤ c && c ≤ r.2) != negated) && matchTokens tokens name
  | .lit a :: tokens, c :: name => a = c && matchTokens tokens name
  | _ :: _, [] => false

/-- `none` on a malformed pattern, else whether the whole name matches. -/
def globMatch (pattern name : List Char) : Option Bool :=
  (parse pattern).map fun tokens => matchTokens tokens name

example : globMatch "ads[0-9]*".toList "ads7x.com".toList = some true := by decide
example : globMatch "a[^b-]".toList "ac".toList = none := by decide

end DnscryptProxy.Library.Glob
