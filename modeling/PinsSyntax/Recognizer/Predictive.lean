import PinsSyntax.Grammar.Choice
import PinsSyntax.Recognizer.Run

/-!
# The plain predictive parser

The grammar read as a recognizer without any repetition: a nonterminal chooses a production by the
token at the cursor, applies it, and then goes through the symbols that replace it, from left to
right. `predict` recognizes a whole sequence of tokens in this way.
-/

namespace PinsSyntax

namespace Recognizer

variable {σ : Type}

/-- A symbol of a form: a token is expected, and a nonterminal is recognized in the given way. -/
def symbol (rule : Nonterminal → Recognizer σ Unit) : GrammarSymbol → Recognizer σ Unit
  | .token k => expect k
  | .rule n => rule n

/-- A nonterminal, replaced to the given depth. -/
def predictive : Nat → Nonterminal → Recognizer σ Unit
  | 0, _ => pure ()
  | depth + 1, n => do
    match n.choose (← peek).kind with
    | .error e => unexpected e
    | .ok p =>
      apply p
      p.rhs.forM (symbol (predictive depth))

end Recognizer

/-- How deeply nonterminals replace each other at most in front of one token. -/
def levelsPerToken : Nat := 16

/-- Recognizes tokens with the plain predictive parser and hands the productions on to a sink. The
depth is enough if there are `levelsPerToken` for each token. -/
def predict {σ : Type} (depth : Nat) (sink : TraceSink σ) (entry : Entry) (tokens : List Token)
    (init : σ) : Except SyntaxError Unit × σ :=
  match Cursor.ofTokens tokens with
  | .error e => (.error e, init)
  | .ok cursor =>
    let parser := do
      Recognizer.predictive depth entry.start
      Recognizer.expectEnd
    match parser ⟨sink.observe, tokens.length⟩ ⟨cursor, init⟩ with
    | .ok () s => (.ok (), s.observed)
    | .error e s => (.error e, s.observed)

end PinsSyntax
