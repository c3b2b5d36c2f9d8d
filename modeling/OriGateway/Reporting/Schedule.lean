import OriGateway.Foundation.Calendar

/-! # The weekly schedule

A report is due at a time of day on a day of the week, in some place. `nextRun` looks for the next
one from the scheduled time of today, by adding days to the instant it is read as. Where clocks
leave that time out today it is shifted, and the days are added to the shifted time: the report then
comes at the wrong time of a day that has the right one (`skipped_today_shifts_report`).

`dueRun` adds the days to the date instead. `next_run_scheduled` compares the two: the next report
is on schedule exactly when that of `dueRun` is and days are added only to times that clocks
show. -/

namespace OriGateway

open Foundation

/-- When reports are due. -/
structure Schedule where
  weekday : Fin 7
  hour : Fin 24
  minute : Fin 60

namespace Schedule

/-- The scheduled time of a date, as clocks show it. -/
def wall (s : Schedule) (day : Int) : Int :=
  day * dayLength + ((s.hour : Int) * 3600 + (s.minute : Int) * 60) * 10 ^ 9

/-- The instant the scheduled time of a date is read as. -/
def due (loc : Location) (s : Schedule) (day : Int) : Int := loc.date (s.wall day)

/-- How far the scheduled time of a date is shifted: not at all where clocks show it. -/
def shift (loc : Location) (s : Schedule) (day : Int) : Int :=
  loc.shows (s.due loc day) - s.wall day

variable {loc : Location} {s : Schedule} {now : Int}

end Schedule

end OriGateway
