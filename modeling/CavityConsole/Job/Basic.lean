import CavityConsole.Binary.Rounding
import CavityConsole.Job.CavityList

/-!
# Phasing jobs

A job says which cavities are phased, in which order and with which limits. Its two limits are
32-bit values, so two jobs are equal as terms exactly when their limits agree bit for bit.
-/

namespace CavityConsole

/-- The parameters of a job. -/
structure Job where
  /-- Corrections are applied rather than only measured. -/
  correct : Bool
  /-- The job starts over after its last cavity until it is stopped. -/
  continuous : Bool
  /-- The initial maximum phase error. -/
  maxPhaseError : Single
  /-- The initial maximum momentum error, as a fraction. -/
  maxMomentumError : Single
  /-- The samples taken per kick. -/
  kickSamples : Int32
  /-- The cavities in the order in which they are phased. -/
  cavities : CavityList
deriving DecidableEq

namespace Job

/-- Both limits are finite. -/
def hasFiniteLimits (job : Job) : Bool :=
  job.maxPhaseError.isFinite && job.maxMomentumError.isFinite

/-- Equality of jobs by the numbers they hold: a limit that is no number makes a job differ from
every job, and the sign of a zero limit does not matter. -/
def sameParameters (a b : Job) : Bool :=
  a.correct == b.correct && a.continuous == b.continuous &&
  a.maxPhaseError.sameNumber b.maxPhaseError &&
  a.maxMomentumError.sameNumber b.maxMomentumError &&
  a.kickSamples == b.kickSamples && a.cavities == b.cavities

end Job

end CavityConsole
