/-!
# Glob patterns

Patterns of characters and wildcards: `?` stands for one character, `*` for any
run of them, `**` as a whole component for any run of components, and brackets
for one character in (or, behind an exclamation mark, outside) a set. Wildcards
match slashes and leading dots as well. A run of more than two stars, two stars
beside anything but slashes, and a bracket that is not closed are no patterns.

* `Glob.ofChars?`: the pattern that a text writes;
* `Glob.matchesText`: whether a pattern matches a whole text.
-/

namespace Mediatheque

namespace Glob

/-- A part of a bracketed set. -/
inductive CharSet where
  | single (c : Char)
  | range (first last : Char)
deriving DecidableEq

/-- A part of a pattern. -/
inductive Token where
  | char (c : Char)
  | anyChar
  | anySequence
  | anyComponents
  | within (sets : List CharSet)
  | except (sets : List CharSet)
deriving DecidableEq

/-! ## Reading patterns -/

/-- The parts of a bracketed set. -/
def charSets : List Char → List CharSet
  | a :: '-' :: b :: rest => .range a b :: charSets rest
  | a :: rest => .single a :: charSets rest
  | [] => []

/-- The text up to the next closing bracket, and the text behind it. -/
def splitAtBracket? : List Char → Option (List Char × List Char)
  | [] => none
  | ']' :: rest => some ([], rest)
  | c :: rest => (splitAtBracket? rest).map fun (set, r) => (c :: set, r)

/-- Two stars match like one such token when another has just been read, unless that
is the first token of all. -/
def pushComponents (read : List Token) : List Token :=
  match read with
  | .anyComponents :: _ :: _ => read
  | _ => .anyComponents :: read

/-- Reads a pattern behind the tokens `read`, which stand in reverse, and behind the
character `previous`. -/
def readTokens : Nat → List Token → Option Char → List Char → Option (List Token)
  | _, read, _, [] => some read.reverse
  | 0, _, _, _ :: _ => none
  | fuel + 1, read, previous, c :: rest =>
    match c, rest with
    | '?', rest => readTokens fuel (.anyChar :: read) (some '?') rest
    | '*', '*' :: '*' :: _ => none
    | '*', '*' :: rest =>
      if previous = none ∨ previous = some '/' then
        match rest with
        | [] => some (pushComponents read).reverse
        | '/' :: rest => readTokens fuel (pushComponents read) (some '/') rest
        | _ => none
      else none
    | '*', rest => readTokens fuel (.anySequence :: read) (some '*') rest
    | '[', '!' :: a :: rest =>
      match splitAtBracket? rest with
      | some (set, rest) =>
        readTokens fuel (.except (charSets (a :: set)) :: read) (some ']') rest
      | none => none
    | '[', ['!'] => none
    | '[', a :: rest =>
      match splitAtBracket? rest with
      | some (set, rest) =>
        readTokens fuel (.within (charSets (a :: set)) :: read) (some ']') rest
      | none => none
    | '[', [] => none
    | c, rest => readTokens fuel (.char c :: read) (some c) rest

/-- The pattern that a text writes. Each token takes at least one character. -/
def ofChars? (pattern : List Char) : Option (List Token) :=
  readTokens pattern.length [] none pattern

/-! ## Matching -/

/-- How the rest of a pattern fares with the rest of a text. A text that ends too
early will not do for a wildcard before it either, whatever that takes. -/
inductive Outcome where
  | matched
  | mismatched
  | exhausted
deriving DecidableEq

def CharSet.contains (c : Char) : CharSet → Bool
  | single a => a = c
  | range first last => first ≤ c ∧ c ≤ last

/-- One character that passes a test, then the rest of the pattern. -/
def matchOne (test : Char → Bool) (next : List Char → Outcome) : List Char → Outcome
  | [] => .exhausted
  | c :: rest => if test c then next rest else .mismatched

/-- A run of characters, then the rest of the pattern: the shortest run with which
that does not merely mismatch decides. -/
def matchRun (next : List Char → Outcome) : List Char → Outcome
  | [] => next []
  | c :: rest =>
    match next (c :: rest) with
    | .mismatched => matchRun next rest
    | decided => decided

/-- A run of whole components, or all the text, then the rest of the pattern. -/
def matchAfterSeparators (next : List Char → Outcome) : List Char → Outcome
  | [] => next []
  | c :: rest =>
    if c = '/' then
      match next rest with
      | .mismatched => matchAfterSeparators next rest
      | decided => decided
    else matchAfterSeparators next rest

/-- One token, then the rest of the pattern. -/
def Token.matchThen (next : List Char → Outcome) : Token → List Char → Outcome
  | char c => matchOne (· = c) next
  | anyChar => matchOne (fun _ => true) next
  | within sets => matchOne (fun c => sets.any (·.contains c)) next
  | except sets => matchOne (fun c => !sets.any (·.contains c)) next
  | anySequence => matchRun next
  | anyComponents => fun text =>
    match next text with
    | .mismatched => matchAfterSeparators next text
    | decided => decided

/-- How a pattern fares with a text. -/
def outcome : List Token → List Char → Outcome
  | [], text => if text.isEmpty then .matched else .mismatched
  | token :: rest, text => token.matchThen (outcome rest) text

/-- Whether a pattern matches a whole text. -/
def matchesText (pattern : List Token) (text : List Char) : Bool := outcome pattern text = .matched

end Glob

end Mediatheque
