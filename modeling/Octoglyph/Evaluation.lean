import Octoglyph.Chain.Eval
import Octoglyph.Chain.Reader

/-! # Evaluating texts

A text is evaluated from left to right while it is read, so a fault of what stands before is
reported rather than the place where the text stops being a chain.
-/

namespace Octoglyph

/-- Evaluates what has been read of a chain. -/
def Reading.evalRead (r : Reading) : Except Fault Unit := do
  let outcome ← Chain.evalCalls {} [] r.closedCalls
  r.openExprs.forM fun e => do discard (e.eval outcome.bindings)

/-- Runs the chain that the text is. -/
def evaluate (text : Text) : Except Diagnosis Outcome :=
  match Chain.read text with
  | .ok chain => chain.eval.mapError Fault.diagnosis
  | .error stop =>
    match stop.reading.evalRead with
    | .error fault => .error fault.diagnosis
    | .ok () => .error (.syntaxError stop.position stop.fault.message)

/-- The program that the text runs in the end. -/
def decode (text : Text) : Except Diagnosis Text :=
  (evaluate text).map fun outcome => outcome.payload?.getD []

end Octoglyph
