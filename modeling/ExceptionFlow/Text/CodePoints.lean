/-!
Sets of characters given by sorted blocks of code points.
-/
namespace ExceptionFlow.Text

/-- Blocks of consecutive code points, both ends included, in increasing order. -/
abbrev CodePoints := List (Nat × Nat)

/-- Membership in sorted blocks; the search ends at the first block beyond the code point. -/
def CodePoints.contains : CodePoints → Char → Bool
  | [], _ => false
  | (first, last) :: blocks, char =>
    if char.toNat < first then false
    else char.toNat ≤ last || CodePoints.contains blocks char

end ExceptionFlow.Text
