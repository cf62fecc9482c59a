import PinsSyntax.Text.Location
import PinsSyntax.Text.Quoted

/-!
# Lexical errors

What can be wrong with a text before its tokens are known, and where.
-/

namespace PinsSyntax

/-- Why a text cannot be split into tokens. -/
inductive LexicalFault where
  | unexpectedCharacter (c : Char)
  | unterminatedString
  deriving DecidableEq, Repr

/-- The text of a fault in a diagnostic. -/
def LexicalFault.message : LexicalFault → String
  | unexpectedCharacter c => "unexpected character " ++ Quoted.quote c
  | unterminatedString => "unterminated string literal"

/-- A fault at a span of the text. -/
structure LexicalError where
  span : Span
  fault : LexicalFault
  deriving DecidableEq, Repr

/-- The text of a lexical error with its span. -/
def LexicalError.render (e : LexicalError) : String :=
  e.fault.message ++ " (at " ++ e.span.render ++ ")"

end PinsSyntax
