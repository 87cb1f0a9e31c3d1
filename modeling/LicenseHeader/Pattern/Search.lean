import LicenseHeader.Pattern.Basic
import LicenseHeader.Pattern.Places

/-!
# Searching

The search follows all stretches at once. It starts with every place of the haystack, and
each part of the pattern turns a set of places, kept from left to right, into the set of
places that stretches beginning there can end at. A repetition only goes on from places
that it has not reached before, so it comes to an end even where its body describes the
empty stretch.

## Main definitions

* `Pattern.advance`: the ends of the stretches that begin in a set of places.
* `Pattern.isIn`: whether a pattern is found in a haystack.
-/

namespace LicenseHeader

variable {α : Type} [Symbol α]

/-- The ends of the stretches that a pattern describes and that begin in a set of
places. -/
def Pattern.advance : Pattern → Places α → Places α
  | .empty, places => places
  | .one cls, places => places.filterMap (Cursor.take? cls)
  | .look assertion, places => places.filter fun c => assertion.holds c
  | .seq p q, places => q.advance (p.advance places)
  | .alt p q, places => Places.union (p.advance places) (q.advance places)
  | .repeated p least none, places =>
    Places.closure p.advance (Places.times p.advance least places)
  | .repeated p least (some more), places =>
    let reached := Places.times p.advance least places
    Places.atMost p.advance reached more reached

/-- Whether a pattern is found in a haystack. -/
def Pattern.isIn (p : Pattern) (haystack : List α) : Bool :=
  !(p.advance (Cursor.start haystack).positions).isEmpty

end LicenseHeader
