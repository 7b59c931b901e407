/-!
# Sets of characters given by boundaries

A set of numbers is written as the increasing list of the places where membership changes.
-/

namespace SpeechService.Text

/-- Membership in the set with the given boundaries: a number is inside when an odd number of
boundaries is not above it. -/
def within (bounds : List Nat) (n : Nat) : Bool :=
  bounds.foldl (fun inside b => if b ≤ n then !inside else inside) false

end SpeechService.Text
