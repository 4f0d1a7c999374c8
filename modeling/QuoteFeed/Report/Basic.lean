import QuoteFeed.Report.Metrics
import QuoteFeed.Report.Note

/-!
# Reports

What the service tells about itself: its metrics, and its notes in the order in which they were
made.
-/

namespace QuoteFeed

/-- Metrics and notes. -/
structure Report where
  metrics : Metrics
  notes : List Note
  deriving DecidableEq

namespace Report

/-- Nothing was reported. -/
def empty : Report := ⟨.zero, []⟩

/-- A note was made. -/
def note (r : Report) (n : Note) : Report :=
  { r with notes := r.notes ++ [n] }

/-- The metrics changed. -/
def measure (r : Report) (f : Metrics → Metrics) : Report :=
  { r with metrics := f r.metrics }

end Report

end QuoteFeed
