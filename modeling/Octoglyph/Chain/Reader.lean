import Octoglyph.Chain.Tree
import Octoglyph.Fault

/-! # Reading chains

A chain is read one character at a time. What has been read is a tree with one place open, so that
a text that stops being a chain still tells what stands before the place where it stops.
-/

namespace Octoglyph

/-- A bracket around the open place. `left` is what stands before the bracket, if `%` joins it. -/
inductive Frame where
  | bracket (left : Option Expr)
  | comparison (left : Option Expr) (side : Expr)

/-- The open place. -/
inductive Focus where
  /-- A call is to come, of whose opening `seen` characters are there. -/
  | call (seen : Nat)
  /-- An operand is to come. -/
  | operand (left : Option Expr)
  /-- Inside a literal; `body` is reversed. -/
  | literal (left : Option Expr) (body : Literal)
  /-- Inside a name; all but its first letter is reversed. -/
  | ident (left : Option Expr) (name : Ident)
  /-- Behind an expression. -/
  | operator (expr : Expr)
  /-- Behind an expression in a bracket and the first half of `==`. -/
  | equals (left : Option Expr) (expr : Expr)
  /-- Behind a call. -/
  | close (last : Expr)
  /-- Behind a call and the first half of `==`. -/
  | closeEquals (last : Expr)

/-- The expressions before the bracket and inside it. -/
def Frame.exprs : Frame → List Expr
  | .bracket left => left.toList
  | .comparison left side => left.toList ++ [side]

/-- The expression at the open place. -/
def Focus.exprs : Focus → List Expr
  | .operand left | .literal left _ | .ident left _ => left.toList
  | .operator e => [e]
  | .equals left e => left.toList ++ [e]
  | .call _ | .close _ | .closeEquals _ => []

/-- A chain read up to its open place. The calls and the brackets stand innermost, or last,
first. -/
structure Reading where
  calls : List Expr
  frames : List Frame
  focus : Focus

/-- Where and why a text stops being a chain, with what could be read before. -/
structure Stop where
  position : Nat
  fault : SyntaxFault
  reading : Reading

namespace Reading

/-- Nothing has been read. -/
def start : Reading := ⟨[], [], .call 0⟩

/-- What opens a call. -/
def opening : Text := ['e', 'x', 'e', 'c', '(']

/-- What is missing behind an expression. -/
def closing : SyntaxFault := .expected ")"

/-- Reads a character behind an expression. -/
def stepOperator (r : Reading) (e : Expr) (position : Nat) (c : Char) : Except Stop Reading :=
  if c = '%' then .ok { r with focus := .operand (some e) }
  else if c = ')' then
    match r.frames with
    | [] => .ok { r with focus := .close e }
    | .bracket left :: frames =>
      .ok { r with frames, focus := .operator (.join left (.group e)) }
    | .comparison left side :: frames =>
      .ok { r with frames, focus := .operator (.join left (.equal side e)) }
  else
    match c, r.frames with
    | '=', .bracket left :: frames => .ok { r with frames, focus := .equals left e }
    | _, _ => .error ⟨position, closing, { r with focus := .operator e }⟩

/-- Reads a character where an operand is to come. -/
def stepOperand (r : Reading) (left : Option Expr) (position : Nat) (c : Char) :
    Except Stop Reading :=
  if c = '\'' then .ok { r with focus := .literal left .empty }
  else if c = '(' then .ok { r with frames := .bracket left :: r.frames, focus := .operand none }
  else if h : c.isAlpha = true then
    .ok { r with focus := .ident left ⟨c, [], h, List.all_nil⟩ }
  else
    match c, left, r.frames with
    | ')', none, .bracket outer :: frames =>
      .ok { r with frames, focus := .operator (.join outer .unit) }
    | _, _, _ => .error ⟨position, .unexpected c, r⟩

/-- Reads the character at the given position. -/
def step (r : Reading) (position : Nat) (c : Char) : Except Stop Reading :=
  match r.focus with
  | .call seen =>
    if opening[seen]? = some c then
      if seen + 1 = opening.length then .ok { r with focus := .operand none }
      else .ok { r with focus := .call (seen + 1) }
    else .error ⟨position - seen, .expected "exec(", r⟩
  | .operand left => r.stepOperand left position c
  | .literal left body =>
    if h : c = '\'' then .ok { r with focus := .operator (.join left (.literal body.reverse)) }
    else .ok { r with focus := .literal left (body.cons c h) }
  | .ident left name =>
    if h : isWordChar c = true then .ok { r with focus := .ident left (name.insertSecond c h) }
    else r.stepOperator (.join left (.ident name.reverseRest)) position c
  | .operator e => r.stepOperator e position c
  | .equals left e =>
    if c = '=' then .ok { r with frames := .comparison left e :: r.frames, focus := .operand none }
    else .error ⟨position - 1, closing,
      { r with frames := .bracket left :: r.frames, focus := .operator e }⟩
  | .close last =>
    if c = '=' then .ok { r with focus := .closeEquals last }
    else .error ⟨position, .trailingText, r⟩
  | .closeEquals last =>
    if c = '=' then .ok { r with calls := last :: r.calls, focus := .call 0 }
    else .error ⟨position - 1, .trailingText, { r with focus := .close last }⟩

/-- The chain, if the text may end here, where `position` characters have been read. -/
def finish (r : Reading) (position : Nat) : Except Stop Chain :=
  match r.focus with
  | .call seen =>
    if position = 0 then .error ⟨0, .emptyProgram, r⟩
    else .error ⟨position - seen, .expected "exec(", r⟩
  | .operand _ => .error ⟨position, .unexpectedEnd, r⟩
  | .literal left body =>
    .error ⟨position - (body.text.length + 1), .unterminatedLiteral,
      { r with focus := .operand left }⟩
  | .ident left name =>
    .error ⟨position, closing, { r with focus := .operator (.join left (.ident name.reverseRest)) }⟩
  | .operator _ => .error ⟨position, closing, r⟩
  | .equals left e => .error ⟨position - 1, closing,
      { r with frames := .bracket left :: r.frames, focus := .operator e }⟩
  | .close last => .ok ⟨(last :: r.calls).reverse, by simp⟩
  | .closeEquals last => .error ⟨position - 1, .trailingText, { r with focus := .close last }⟩

/-- Reads the text behind the first `position` characters. -/
def scan (r : Reading) (position : Nat) : Text → Except Stop Chain
  | [] => r.finish position
  | c :: rest =>
    match r.step position c with
    | .error stop => .error stop
    | .ok r => r.scan (position + 1) rest

/-- The calls that have been read, in order. -/
def closedCalls (r : Reading) : List Expr :=
  match r.focus with
  | .close last | .closeEquals last => (last :: r.calls).reverse
  | _ => r.calls.reverse

/-- The expressions of the open call that have been read, in order. -/
def openExprs (r : Reading) : List Expr :=
  r.frames.reverse.flatMap Frame.exprs ++ r.focus.exprs

end Reading

/-- The chain whose text this is. -/
def Chain.read (text : Text) : Except Stop Chain := Reading.start.scan 0 text

end Octoglyph
