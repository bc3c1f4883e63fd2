import DualStore.Decimal.Layout

/-!
# Fixed places and elapsed times

A quotient written with a fixed number of places, and the text of an elapsed time.

* `roundHalfEven`: the whole number nearest to a quotient, a half goes to the even neighbour;
* `fixedPlaces`: a double with so many places;
* `elapsedText`: milliseconds, from one second on as seconds with two places.
-/

namespace DualStore.Decimal

/-- The whole number nearest to `num / den`; a half goes to the even neighbour. -/
def roundHalfEven (num den : Nat) : Nat :=
  let q := num / den
  match compare (2 * (num % den)) den with
  | .lt => q
  | .gt => q + 1
  | .eq => if q % 2 = 0 then q else q + 1

def fixedPlaces (places : Nat) (b : Binary) : String :=
  let n := roundHalfEven (b.ratio.1 * Nat.pow 10 places) b.ratio.2
  let ds := digits n
  let padded := zeros (places + 1 - ds.length) ++ ds
  let whole := padded.length - places
  String.ofList (padded.take whole ++ '.' :: padded.drop whole)

/-- An elapsed time: milliseconds below one second, else seconds with two places. -/
def elapsedText (ms : Nat) : String :=
  if ms < 1000 then intText ms ++ "ms"
  else fixedPlaces 2 (.ofFloat (Float.ofNat ms / 1000.0)) ++ "s"

example : elapsedText 12 = "12ms" ∧ elapsedText 1500 = "1.50s" := by decide +kernel

end DualStore.Decimal
