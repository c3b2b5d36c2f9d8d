import Mathlib.Algebra.Group.Int.Defs
import Mathlib.Tactic.Common

/-! # Wall clocks

An instant is a number of nanoseconds. A place adds an offset to it, which may change over time, and
the sum is what its clocks show; a date is a number of days shown. When the offset grows, clocks
leave out wall times, and when it shrinks they show some twice. **`Location.date`** is the instant a
wall time is read as: one at which it is shown, when there is one. -/

namespace Foundation

def dayLength : Int := 86400 * 10 ^ 9

/-- A place: its offset over time, and how a wall time is read there. -/
structure Location where
  offset : Int → Int
  date : Int → Int
  /-- A wall time that is shown is read as an instant that shows it. -/
  date_shown : ∀ wall, (∃ t, t + offset t = wall) → date wall + offset (date wall) = wall
  /-- One that is not is read with an offset of the place, so it is shifted. -/
  date_skipped : ∀ wall, (∀ t, t + offset t ≠ wall) → ∃ t, date wall = wall - offset t

namespace Location

variable (loc : Location)

def shows (t : Int) : Int := t + loc.offset t

variable {loc}

end Location

end Foundation
