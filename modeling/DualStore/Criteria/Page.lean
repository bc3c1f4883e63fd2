import DualStore.Decimal.Integer

/-!
# Pages

The window of a read, given by a page number or by an offset, and the totals that a read writes
back.

* `Page`: the window and the totals;
* `Page.byNumber`, `Page.byOffset`: windows with their arguments brought into range;
* `Page.skip`: how many rows stand before the window, at most 2^63 - 1;
* `Page.applyTotal`: the total, and the number of pages that hold it.
-/

namespace DualStore

/-- A window on a result. In offset mode the number is the offset. -/
structure Page where
  number : Int := 0
  size : Int := 0
  total : Int := 0
  count : Int := 0
  spilled : Bool := false
  isOffset : Bool := false
  deriving DecidableEq, Repr

namespace Page

def maxSize : Int := 5000

/-- The size of a page when none is given. -/
def defaultSize : Int := 10

/-- A size in range; the default stands for any other. -/
def clampSize (size : Int) : Int := if size ≤ 0 ∨ maxSize < size then defaultSize else size

/-- The page of a number, counted from one. -/
def byNumber (number size : Int) : Page :=
  { number := if number ≤ 0 then 1 else number, size := clampSize size }

def byOffset (offset limit : Int) : Page :=
  { number := max offset 0, size := clampSize limit, isOffset := true }

def isSet (p : Page) : Bool := p.number ≠ 0 || p.size ≠ 0

/-- The number of rows before the window; it stops at the ends of the 64-bit integers. -/
def skip (p : Page) : Int :=
  if p.isOffset then p.number
  else Decimal.clampInt64 (max (Decimal.clampInt64 (p.number - 1)) 0 * p.size)

/-- Writes back the total and the least number of pages that hold it. -/
def applyTotal (p : Page) (total : Int) : Page :=
  { p with
    total := total
    count := if 0 < total ∧ 0 < p.size then (total - 1) / p.size + 1 else 0 }

theorem clampSize_range (size : Int) : 1 ≤ clampSize size ∧ clampSize size ≤ maxSize := by
  unfold clampSize maxSize defaultSize
  split <;> omega

example : (byNumber 0 0).size = 10 ∧ (byNumber 3 10).skip = 20 ∧ (byOffset (-5) 7).number = 0 :=
  by decide

end Page

end DualStore
