import Peephole.Datum.Basic

/-!
Settings: what holds where a call does not say otherwise. They are taken as they come, and what
uses a setting judges it.
-/

namespace Peephole

structure Settings where
  /-- The error rate of gates that a calibration does not list. -/
  fallbackErrorRate : Datum
  /-- Below this magnitude an angle counts as none. -/
  cancellationTolerance : Datum
  optimizationLevel : Datum
  maxFixedPointIterations : Datum
  /-- How many circuits of a batch may be compiled at a time. -/
  batchWorkers : Datum
  /-- Whether passes are reported as they run. -/
  logPasses : Datum

namespace Settings

def standard : Settings where
  fallbackErrorRate := .float 0.01
  cancellationTolerance := .float 1e-10
  optimizationLevel := .int 1
  maxFixedPointIterations := .int 10
  batchWorkers := .null
  logPasses := .bool false

/-- The settings with the names under which they can be given. -/
def entries (settings : Settings) : List (String × Datum) :=
  [("fallback_error_rate", settings.fallbackErrorRate),
    ("cancellation_tolerance", settings.cancellationTolerance),
    ("optimization_level", settings.optimizationLevel),
    ("max_fixed_point_iterations", settings.maxFixedPointIterations),
    ("batch_workers", settings.batchWorkers),
    ("log_passes", settings.logPasses)]

/-- The settings with one of them changed, or `none` if there is none of that name. -/
def assign? (settings : Settings) (name : String) (value : Datum) : Option Settings :=
  match name with
  | "fallback_error_rate" => some { settings with fallbackErrorRate := value }
  | "cancellation_tolerance" => some { settings with cancellationTolerance := value }
  | "optimization_level" => some { settings with optimizationLevel := value }
  | "max_fixed_point_iterations" => some { settings with maxFixedPointIterations := value }
  | "batch_workers" => some { settings with batchWorkers := value }
  | "log_passes" => some { settings with logPasses := value }
  | _ => none

/-- The value of an argument, or the setting that stands in for it when it says nothing. -/
def orElse (given setting : Datum) : Datum :=
  match given with
  | .null => setting
  | value => value

end Settings

end Peephole
