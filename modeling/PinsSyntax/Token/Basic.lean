import PinsSyntax.Text.Location
import PinsSyntax.Token.Kind

/-!
# Tokens

A token is a kind with the text it stands for and the span it was read from. The text of a string
constant is its value, without the quotes; that of the end of input is `Token.endText`.
-/

namespace PinsSyntax

/-- A kind, the span it was read from and the text it stands for. -/
structure Token where
  span : Span
  kind : Kind
  lexeme : String
  deriving DecidableEq, Repr, Inhabited

namespace Token

/-- The text that stands for the end of input. -/
def endText : String := "$"

/-- The token that closes every sequence, at the place where the text ends. -/
def endAt (l : Location) : Token := ⟨.point l, .endOfInput, endText⟩

/-- Whether a token is an end of input. -/
def isEnd (t : Token) : Bool := t.kind == .endOfInput

/-- The line of a token in a listing: its span in brackets, the name of its kind and its text. -/
def render (t : Token) : String :=
  "[" ++ t.span.render ++ "] " ++ t.kind.name ++ " " ++ t.lexeme

/-- Names a token that a diagnostic is about. -/
def describe (t : Token) : String :=
  match t.kind with
  | .endOfInput => Kind.endOfInput.describe
  | .stringConstant => "string constant '" ++ t.lexeme ++ "'"
  | _ => "`" ++ t.lexeme ++ "`"

end Token

end PinsSyntax
