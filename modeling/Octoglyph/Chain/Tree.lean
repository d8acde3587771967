import Octoglyph.Text

/-! # Syntax trees of chains

A chain is a non-empty list of calls `exec(expr)` joined by `==`:

```
expr := atom | expr '%' atom
atom := ''' text ''' | '()' | '(' expr ')' | '(' expr '==' expr ')' | ident
```

A tree holds only what can be written down, so every tree has a text.
-/

namespace Octoglyph

/-- A text without quotes, which is what can stand between two of them. -/
structure Literal where
  text : Text
  quoteless : '\'' ∉ text

namespace Literal

def empty : Literal := ⟨[], by simp⟩

def cons (c : Char) (l : Literal) (h : c ≠ '\'') : Literal :=
  ⟨c :: l.text, by simp [l.quoteless, h.symm]⟩

def reverse (l : Literal) : Literal :=
  ⟨l.text.reverse, by simp [l.quoteless]⟩

end Literal

/-- A character that may continue a name. -/
def isWordChar (c : Char) : Bool := c.isAlphanum || c == '_'

/-- A name of a variable: a letter, then letters, digits and underscores, all of them ASCII. -/
structure Ident where
  first : Char
  rest : Text
  first_isAlpha : first.isAlpha = true
  rest_isWord : rest.all isWordChar = true

namespace Ident

def text (i : Ident) : Text := i.first :: i.rest

theorem isWordChar_of_mem_text {i : Ident} {c : Char} (h : c ∈ i.text) : isWordChar c = true := by
  rcases List.mem_cons.1 h with rfl | h
  · simp [isWordChar, Char.isAlphanum, i.first_isAlpha]
  · exact List.all_eq_true.1 i.rest_isWord c h

theorem quote_not_mem_text (i : Ident) : '\'' ∉ i.text := fun h =>
  absurd (isWordChar_of_mem_text h) (by decide)

/-- The name with a character behind its first one. -/
def insertSecond (c : Char) (i : Ident) (h : isWordChar c = true) : Ident :=
  ⟨i.first, c :: i.rest, i.first_isAlpha, by simpa [h] using i.rest_isWord⟩

/-- The name with the characters behind its first one reversed. -/
def reverseRest (i : Ident) : Ident :=
  ⟨i.first, i.rest.reverse, i.first_isAlpha, by simpa using i.rest_isWord⟩

end Ident

mutual

/-- An operand of `%`. -/
inductive Atom where
  | literal (body : Literal)
  | unit
  | ident (name : Ident)
  | group (inner : Expr)
  | equal (left right : Expr)

/-- A string or an expression that `%` applies to an operand. -/
inductive Expr where
  | atom (a : Atom)
  | format (left : Expr) (right : Atom)

end

mutual

/-- The text of the atom, followed by `rest`. -/
def Atom.onto : Atom → Text → Text
  | .literal body, rest => '\'' :: (body.text ++ '\'' :: rest)
  | .unit, rest => '(' :: ')' :: rest
  | .ident name, rest => name.text ++ rest
  | .group inner, rest => '(' :: inner.onto (')' :: rest)
  | .equal left right, rest => '(' :: left.onto ('=' :: '=' :: right.onto (')' :: rest))

/-- The text of the expression, followed by `rest`. -/
def Expr.onto : Expr → Text → Text
  | .atom a, rest => a.onto rest
  | .format left right, rest => left.onto ('%' :: right.onto rest)

end

def Atom.text (a : Atom) : Text := a.onto []

def Expr.text (e : Expr) : Text := e.onto []

namespace Expr

/-- The expression that applies a string to the arguments, one after the other. -/
def applied (e : Expr) (args : List Atom) : Expr := args.foldl .format e

/-- The expression with `left %` in front of an operand, if there is one. -/
def join (left : Option Expr) (a : Atom) : Expr :=
  match left with
  | none => .atom a
  | some e => .format e a

end Expr

/-- The text of a call. -/
def callText (argument : Text) : Text :=
  ['e', 'x', 'e', 'c', '('] ++ argument ++ [')']

/-- The calls, joined into one expression that runs them in order. -/
def joinCalls (arguments : List Text) : Text :=
  ['=', '='].intercalate (arguments.map callText)

structure Chain where
  calls : List Expr
  nonempty : calls ≠ []

namespace Chain

/-- The texts that the calls evaluate, in order. -/
def arguments (chain : Chain) : List Text := chain.calls.map Expr.text

def text (chain : Chain) : Text := joinCalls chain.arguments

end Chain

end Octoglyph
