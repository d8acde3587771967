import Octoglyph.Binding
import Octoglyph.Format

/-! # Evaluating chains

Calls run from left to right. The first fault stops everything.
-/

namespace Octoglyph

mutual

def Atom.eval (b : Bindings) : Atom → Except Fault Value
  | .literal body => .ok (.str body.text)
  | .unit => .ok .unit
  | .ident name =>
    match b.get? name.text with
    | some v => .ok v
    | none => .error (.unbound name.text)
  | .group inner => inner.eval b
  | .equal left right => do
    let v ← left.eval b
    let w ← right.eval b
    return .bool (v.same w)

def Expr.eval (b : Bindings) : Expr → Except Fault Value
  | .atom a => a.eval b
  | .format left right => do
    let v ← left.eval b
    let w ← right.eval b
    Format.apply v w

end

/-- The text that a call of the expression executes. -/
def Expr.source (b : Bindings) (e : Expr) : Except Fault Text := do
  match ← e.eval b with
  | .str text => .ok text
  | v => .error (.notSource v.kind)

/-- What has been executed, in order, and the variables after it. -/
structure Outcome where
  executed : List Text := []
  bindings : Bindings := {}
deriving DecidableEq, Repr

/-- The text executed last, which is the program that the whole chain runs. -/
def Outcome.payload? (o : Outcome) : Option Text := o.executed.getLast?

namespace Chain

/-- Runs the calls behind those that executed `done`, which is reversed. -/
def evalCalls (b : Bindings) (done : List Text) : List Expr → Except Fault Outcome
  | [] => .ok ⟨done.reverse, b⟩
  | e :: rest =>
    match e.source b with
    | .error fault => .error fault
    | .ok source => evalCalls (b.execute source) (source :: done) rest

def eval (chain : Chain) : Except Fault Outcome := evalCalls {} [] chain.calls

end Chain

end Octoglyph
