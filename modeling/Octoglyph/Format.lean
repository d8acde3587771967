import Octoglyph.Fault

/-! # Applying a template to a value

Of the template, `%%` becomes `%` and the conversion behind a lone `%` takes the argument. Every
other character is kept, so one application halves the runs of percents it does not use up.
-/

namespace Octoglyph.Format

/-- The argument as `%x` writes it. -/
def hexText (v : Value) : Except Fault Text :=
  match v.number? with
  | some n => .ok (Numeral.signed 16 n)
  | none => .error (.integerRequired v.kind)

/-- The argument as `%c` writes it. -/
def charText : Value → Except Fault Text
  | .str [c] => .ok [c]
  | .str _ => .error .singleCharacterRequired
  | v =>
    match v.number? with
    | none => .error (.characterRequired v.kind)
    | some n =>
      match n with
      | .ofNat code =>
        match scalar? code with
        | some c => .ok [c]
        | none => .error .codeOutOfRange
      | .negSucc _ => .error .codeOutOfRange

/-- The argument as the conversion writes it. -/
def convert (letter : Char) (v : Value) : Except Fault Text :=
  if letter = 'x' then hexText v
  else if letter = 'c' then charText v
  else .error (.unknownConversion letter)

/-- Fills the template behind `front`, which is reversed. -/
def fill (front : Text) : (argument? : Option Value) → (template : Text) → Except Fault Text
  | none, [] => .ok front.reverse
  | some _, [] => .error .surplusArgument
  | argument?, c :: rest =>
    if c ≠ '%' then fill (c :: front) argument? rest
    else
      match rest with
      | [] => .error .incompleteFormat
      | letter :: rest =>
        if letter = '%' then fill ('%' :: front) argument? rest
        else
          match argument? with
          | none => .error .missingArgument
          | some v =>
            match convert letter v with
            | .error fault => .error fault
            | .ok text => fill (text.reverse ++ front) none rest

/-- The argument that a value passes to a template: the empty tuple passes none. -/
def argument? : Value → Option Value
  | .unit => none
  | v => some v

/-- The value of `left % right`. -/
def apply (left right : Value) : Except Fault Value :=
  match left with
  | .str template => (fill [] (argument? right) template).map .str
  | v => .error (.unformattable v.kind right.kind)

end Octoglyph.Format
