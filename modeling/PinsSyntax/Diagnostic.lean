import PinsSyntax.Recognizer.SyntaxError
import PinsSyntax.Token.LexicalError

/-!
# Diagnostics

A diagnostic is what a check of a text reports: a lexical or a syntax error.
-/

namespace PinsSyntax

/-- An error of either phase. -/
inductive Diagnostic where
  | lexical (e : LexicalError)
  | syntactic (e : SyntaxError)
  deriving DecidableEq, Repr

namespace Diagnostic

/-- The name of the phase that an error belongs to. -/
def phaseName : Diagnostic → String
  | lexical _ => "lexical"
  | syntactic _ => "syntax"

/-- The span that a diagnostic is about. -/
def span : Diagnostic → Span
  | lexical e => e.span
  | syntactic e => e.span

/-- What is wrong there. -/
def message : Diagnostic → String
  | lexical e => e.fault.message
  | syntactic e => e.fault.message

/-- The text of the error itself, which has its span at the end. -/
def detail : Diagnostic → String
  | lexical e => e.render
  | syntactic e => e.render

/-- The text of a diagnostic: the phase, and then the error. -/
def render (d : Diagnostic) : String := d.phaseName ++ " error: " ++ d.detail

/-- The line that reports a diagnostic: the phase, the span, and then the message. -/
def report (d : Diagnostic) : String :=
  d.phaseName ++ " error at " ++ d.span.render ++ ": " ++ d.message

/-- The texts that explain a diagnostic, from the error to its fault. -/
def causes (d : Diagnostic) : List String := [d.detail, d.message]

end Diagnostic

end PinsSyntax
