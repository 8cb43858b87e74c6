import Phrasebook.Pipeline

/-!
# Timing the phases

The commands run the analysis under a stopwatch. It is called before and after each phase,
and these calls are all there is to it: it never changes the state and never fails.
-/

namespace Phrasebook

/-- Marks the beginning and the end of every phase. -/
def Plugin.stopwatch : Plugin where
  name := "timing"

/-- The pipeline that the commands run. -/
def Pipeline.timed : Pipeline where
  plugins := [Plugin.stopwatch]

/-- The schema of a list of documents, as the commands find it. -/
def analyzeTimed (documents : List (Named Document)) : Except Failure Schema :=
  (Pipeline.timed.compile documents).result

end Phrasebook
