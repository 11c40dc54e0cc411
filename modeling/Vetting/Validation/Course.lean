/-! The course that a validation took, and the counts that follow from it. Every validation takes
exactly one course, so the counts are sums over courses. -/

namespace Vetting

/-- Why a heuristic gave the verdict. -/
inductive HeuristicCause where
  /-- There is no tool for the artifact. -/
  | noTool
  /-- There was no room for the source or the results of the tool. -/
  | noScratch
  /-- The tool could not be started, or its output could not be collected. -/
  | notStarted
  deriving DecidableEq, Repr

/-- How a validation came to its verdict. -/
inductive Course where
  | blank
  | prechecked
  | completed
  | timedOut
  | heuristic (cause : HeuristicCause)
  deriving DecidableEq, Repr

/-- Counts of what has been done. -/
structure Counters where
  validations : Nat
  nativeRuns : Nat
  fallbacks : Nat
  timeouts : Nat
  accepted : Nat
  rejected : Nat
  deriving DecidableEq, Repr

namespace Counters

/-- Nothing has been done. -/
def zero : Counters := ⟨0, 0, 0, 0, 0, 0⟩

/-- Adds up two counts. -/
def add (a b : Counters) : Counters :=
  ⟨a.validations + b.validations, a.nativeRuns + b.nativeRuns, a.fallbacks + b.fallbacks,
    a.timeouts + b.timeouts, a.accepted + b.accepted, a.rejected + b.rejected⟩

instance : Add Counters := ⟨add⟩

/-- One validation. -/
def validation : Counters := { zero with validations := 1 }

/-- One run of a tool. -/
def nativeRun : Counters := { zero with nativeRuns := 1 }

/-- One use of a heuristic. -/
def fallback : Counters := { zero with fallbacks := 1 }

/-- One run that took too long. -/
def timeout : Counters := { zero with timeouts := 1 }

/-- One promotion. -/
def promotion (ok : Bool) : Counters :=
  if ok then { zero with accepted := 1 } else { zero with rejected := 1 }

end Counters

/-- What a validation counts for. -/
def Course.counters : Course → Counters
  | blank => .validation
  | prechecked => .validation
  | completed => .validation + .nativeRun
  | timedOut => .validation + .nativeRun + .timeout
  | heuristic .noTool => .validation + .fallback
  | heuristic .noScratch => .validation + .fallback
  | heuristic .notStarted => .validation + .nativeRun + .fallback

end Vetting
