import PinsSyntax.Diagnostic
import PinsSyntax.Recognizer.Run
import PinsSyntax.Token.Scanner

/-!
# Checking a text

A text is checked by scanning it and recognizing its tokens, and the check ends at the first error.
-/

namespace PinsSyntax

/-- Checks a text as a program and hands the productions on to a sink. -/
def check {σ : Type} (sink : TraceSink σ) (source : String) (init : σ) :
    Except Diagnostic Unit × σ :=
  match scan source with
  | .error e => (.error (.lexical e), init)
  | .ok tokens =>
    let (verdict, state) := recognizeInto sink .program tokens init
    (verdict.mapError .syntactic, state)

/-- Checks a text as a program without a trace. -/
def checkUntraced (source : String) : Except Diagnostic Unit :=
  match scan source with
  | .error e => .error (.lexical e)
  | .ok tokens => (recognize .program tokens).mapError .syntactic

end PinsSyntax
