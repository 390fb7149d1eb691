/-!
# Classes of characters

A class is a list of ranges of code points, each given by its first and last one, in ascending
order and with a gap between neighbours.
-/

namespace WholeMatch.Text

/-- Ranges of code points, by first and last one. -/
abbrev CharClass := List (Nat × Nat)

namespace CharClass

/-- Tells whether a character lies in one of the ranges. -/
def contains (ranges : CharClass) (c : Char) : Bool :=
  ranges.any fun range => range.1 ≤ c.toNat && c.toNat ≤ range.2

/-- Each range is not empty, and a gap parts it from the next one. -/
def isOrdered : CharClass → Bool
  | [] => true
  | [(first, last)] => first ≤ last
  | (first, last) :: (next, final) :: rest =>
    first ≤ last && last + 1 < next && isOrdered ((next, final) :: rest)

end CharClass

end WholeMatch.Text
