import PinsSyntax.Grammar.Expectation
import PinsSyntax.Token.Basic

/-!
# Syntax errors

What can be wrong with a sequence of tokens, and where: a token that does not fit, a token behind a
complete phrase, or a sequence that is not closed by its only end of input.
-/

namespace PinsSyntax

/-- Why a sequence of tokens is not a phrase. What was found and what was expected are kept as they
read in a diagnostic. -/
inductive SyntaxFault where
  | unexpectedToken (found expected : String)
  | trailingInput (found : String)
  | missingEndOfInput
  deriving DecidableEq, Repr

/-- The text of a fault in a diagnostic. -/
def SyntaxFault.message : SyntaxFault → String
  | unexpectedToken found expected => "unexpected " ++ found ++ ", expected " ++ expected
  | trailingInput found => "unexpected " ++ found ++ " after the last definition"
  | missingEndOfInput => "token sequence does not end with a single end of input"

/-- A fault at the span of a token. -/
structure SyntaxError where
  span : Span
  fault : SyntaxFault
  deriving DecidableEq, Repr

namespace SyntaxError

/-- The token `t` stands where something else is expected. -/
def unexpected (t : Token) (e : Expectation) : SyntaxError :=
  ⟨t.span, .unexpectedToken t.describe e.describe⟩

/-- The token `t` stands behind a complete phrase. -/
def trailing (t : Token) : SyntaxError := ⟨t.span, .trailingInput t.describe⟩

/-- The text of a syntax error with its span. -/
def render (e : SyntaxError) : String := e.fault.message ++ " (at " ++ e.span.render ++ ")"

end SyntaxError

end PinsSyntax
