/-!
# Locations and spans

A location is a line and a column of a text, both counted from one, and a span is the half-open
stretch between two of them. Both are ordered by what comes first in the text: locations by line and
then column, spans by start and then stop. `Location.past` says how far one character moves a
location, and `Location.through` how far a text does.
-/

namespace PinsSyntax

/-- A line and a column, both counted from one. -/
structure Location where
  line : Nat
  column : Nat
  deriving DecidableEq, Repr, Inhabited

namespace Location

/-- The place of the first character of a text. -/
def origin : Location := ⟨1, 1⟩

/-- The columns that a tab takes. -/
def tabWidth : Nat := 4

/-- The first column of the line below. -/
def nextLine (l : Location) : Location := ⟨l.line + 1, 1⟩

/-- The same line, `n` columns to the right. -/
def right (l : Location) (n : Nat) : Location := ⟨l.line, l.column + n⟩

/-- The location after the character `c` at `l`: a line break starts the next line, a tab takes
`tabWidth` columns, and any other character takes one. -/
def past (l : Location) (c : Char) : Location :=
  if c = '\n' ∨ c = '\r' then l.nextLine
  else if c = '\t' then l.right tabWidth
  else l.right 1

/-- The location after a text that starts at `l`; a carriage return and the line feed behind it are
one line break. -/
def through (l : Location) : List Char → Location
  | [] => l
  | '\r' :: '\n' :: text => l.nextLine.through text
  | c :: text => (l.past c).through text

example : origin.through ['a', '\t', 'b'] = ⟨1, 7⟩ := rfl

example : origin.through ['a', '\r', '\n', 'b', '\r', 'c'] = ⟨3, 2⟩ := rfl

/-- Text order: by line, then by column. -/
instance : Ord Location where
  compare a b := (compare a.line b.line).then (compare a.column b.column)

/-- `a ≤ b`: the location `a` is `b` or comes before it in the text. -/
instance : LE Location where
  le a b := a.line < b.line ∨ a.line = b.line ∧ a.column ≤ b.column

/-- `a < b`: the location `a` comes before `b` in the text. -/
instance : LT Location where
  lt a b := a.line < b.line ∨ a.line = b.line ∧ a.column < b.column

instance (a b : Location) : Decidable (a ≤ b) :=
  inferInstanceAs (Decidable (a.line < b.line ∨ a.line = b.line ∧ a.column ≤ b.column))

instance (a b : Location) : Decidable (a < b) :=
  inferInstanceAs (Decidable (a.line < b.line ∨ a.line = b.line ∧ a.column < b.column))

/-- The written form `line:column`. -/
def render (l : Location) : String := l.line.repr ++ ":" ++ l.column.repr

end Location

/-- The half-open stretch of text from `start` to `stop`. -/
structure Span where
  start : Location
  stop : Location
  deriving DecidableEq, Repr, Inhabited

namespace Span

/-- The empty span at one location. -/
def point (l : Location) : Span := ⟨l, l⟩

/-- The empty span at the first character of a text. -/
def origin : Span := point .origin

/-- Text order: by start, then by stop. -/
instance : Ord Span where
  compare a b := (compare a.start b.start).then (compare a.stop b.stop)

/-- The written form `line:column-line:column`. -/
def render (s : Span) : String := s.start.render ++ "-" ++ s.stop.render

end Span

end PinsSyntax
