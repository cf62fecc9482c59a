import PinsSyntax.Text.Unicode.Invisible
import PinsSyntax.Text.Unicode.Marks
import PinsSyntax.Text.Unicode.Unassigned

/-!
# Quoted characters

A character in a diagnostic stands between single quotes. A few control characters, the quote and
the backslash have escapes of two characters; a character that would not show as itself is written
by its code point.
-/

namespace PinsSyntax.Quoted

/-- The tables of characters that would not show as themselves between quotes. -/
def invisibleTables : List (List (Nat × Nat)) :=
  [Unicode.controls, Unicode.formats, Unicode.privateUse, Unicode.lineSeparators,
    Unicode.paragraphSeparators, Unicode.wideSpaces, Unicode.fillers, Unicode.nonspacingMarks,
    Unicode.enclosingMarks, Unicode.extendingSpacingMarks, Unicode.unassigned]

/-- Whether a character would not show as itself between quotes. -/
def isInvisible (c : Char) : Bool :=
  invisibleTables.any fun table => table.any fun (first, last) =>
    first ≤ c.toNat && c.toNat ≤ last

/-- The code point of a character in lower case hexadecimal digits. -/
def hex (c : Char) : String := String.ofList (Nat.toDigits 16 c.toNat)

/-- What stands for a character between single quotes. -/
def escape (c : Char) : String :=
  match c with
  | '\x00' => "\\0"
  | '\t' => "\\t"
  | '\n' => "\\n"
  | '\r' => "\\r"
  | '\'' => "\\'"
  | '\\' => "\\\\"
  | c => if isInvisible c then "\\u\x7b" ++ hex c ++ "\x7d" else String.singleton c

/-- A character between single quotes. -/
def quote (c : Char) : String := "'" ++ escape c ++ "'"

end PinsSyntax.Quoted
