import Octoglyph.Harness.Check

/-! # Reports of checks -/

namespace Octoglyph

/-- The name of the case and its strategy. -/
def CaseResult.label (r : CaseResult) : String :=
  String.ofList r.name ++ " [" ++ r.strategy.name ++ "]"

/-- The line of a result; a verbose one has lengths and time. -/
def CaseResult.line (verbose : Bool) (r : CaseResult) : String :=
  let status := if r.passed then "ok" else "FAILED"
  let detail :=
    if verbose then
      " (" ++ toString r.inputLength ++ " -> " ++ toString r.encodedLength ++ " chars, " ++
        toString r.milliseconds ++ "ms)"
    else ""
  "  " ++ r.label ++ " ... " ++ status ++ detail ++ "\n"

/-- What went wrong, line by line. -/
def CaseResult.details (r : CaseResult) : String :=
  let error := match r.error with
    | some message => "  " ++ message ++ "\n"
    | none => ""
  let runs := r.runs.map fun run =>
    match run.failure with
    | some message => "  " ++ run.kind.label ++ ": " ++ message ++ "\n"
    | none => ""
  r.label ++ "\n" ++ error ++ String.join runs ++ "\n"

/-- The report of a whole check. -/
def Summary.report (verbose : Bool) (s : Summary) : String :=
  let failures := s.results.filter fun r => !r.passed
  String.join (s.results.map (CaseResult.line verbose)) ++
    "\n========================================\n" ++
    "Results: " ++ toString s.passed ++ " passed, " ++ toString s.failed ++ " failed\n" ++
    if failures.isEmpty then ""
    else "\nFAILURES:\n\n" ++ String.join (failures.map CaseResult.details)

end Octoglyph
