import Mathlib.Data.Stream.Init
import Octoglyph.Proofs.Encoding

/-! # What the harness counts

The harness takes its cases one after another, each under every strategy. A case that is refused by
the encoder takes no answer of the executor. Any other takes four, whatever they are, so which
answers a case gets is told by the cases before it alone. Only an encoder that stops without an
answer stops the harness, and then nothing is accounted for.
-/

namespace Octoglyph

open Encoder

/-! ## Answers -/

/-- What the executor says to a text. -/
abbrev Answer := Except String Execution

namespace Harness

/-- The texts that are run for a case under a strategy. -/
def texts (config : Config) : Case × Strategy → List Text
  | (c, strategy) =>
    match encode { config with strategy } c.program with
    | .error _ => []
    | .ok encoded =>
      [c.program, c.program ++ '\n' :: ['\n'].intercalate c.postChecks,
        encoded.text, encoded.text ++ '\n' :: ['\n'].intercalate c.postChecks]

variable {config : Config} {c : Case} {strategy : Strategy} {answers : Stream' Answer}
  {r : CaseResult}

end Harness

/-! ## Answers that are given in advance -/

/-- The state of a bench that has its answers and the readings of its clock in advance, and notes
down what it runs. -/
structure Tape where
  answers : Stream' Answer
  ticks : Stream' Nat
  ran : List Text := []

namespace Tape

def bench : Bench (StateM Tape) where
  run text := modifyGet fun tape =>
    (tape.answers.head, { tape with answers := tape.answers.tail, ran := tape.ran ++ [text] })
  now := modifyGet fun tape => (tape.ticks.head, { tape with ticks := tape.ticks.tail })

/-- Between the two states the texts were run, with an answer for each. The clock may have been read
any number of times. -/
structure Runs (tape : Tape) (texts : List Text) (tape' : Tape) : Prop where
  answers_eq : tape'.answers = tape.answers.drop texts.length
  ran_eq : tape'.ran = tape.ran ++ texts

namespace Runs

variable {tape tape' tape'' : Tape} {front rest : List Text}

theorem nil (tape : Tape) : tape.Runs [] tape := ⟨rfl, (List.append_nil _).symm⟩

theorem append (hfront : tape.Runs front tape') (hrest : tape'.Runs rest tape'') :
    tape.Runs (front ++ rest) tape'' where
  answers_eq := by
    rw [hrest.answers_eq, hfront.answers_eq, Stream'.drop_drop, List.length_append]
  ran_eq := by rw [hrest.ran_eq, hfront.ran_eq, List.append_assoc]

end Runs

open Harness

variable (config : Config) (c : Case) (strategy : Strategy) (tape : Tape)

theorem run_bind {α β : Type} {x : StateM Tape α} {a : α} {tape tape' : Tape}
    (h : x.run tape = (a, tape')) (f : α → StateM Tape β) :
    (x >>= f).run tape = (f a).run tape' := by
  rw [StateT.run_bind, h]
  rfl

section Stopping

variable {α β : Type} {x : OptionT (StateM Tape) α} {tape tape' : Tape}

theorem run_lift {a : α} {y : StateM Tape α} (h : y.run tape = (a, tape')) :
    (OptionT.lift y).run.run tape = (some a, tape') := by
  have hlift : (OptionT.lift y).run.run tape = (some (y.run tape).1, (y.run tape).2) := rfl
  rw [hlift, h]

end Stopping

variable {config c strategy}

end Tape

open Harness

end Octoglyph
