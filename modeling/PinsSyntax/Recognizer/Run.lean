import PinsSyntax.Recognizer.Expressions

/-!
# Running the recognizer

A sequence of tokens is recognized as a program or as an expression. `run` does it under an
observer; `recognizeInto` tells a sink of the productions only, `recognize` tells nobody, and
`productions` and `events` record what there is to be told.
-/

namespace PinsSyntax

/-- What a sequence of tokens is recognized as. -/
inductive Entry where
  | program
  | expression
  deriving DecidableEq, Repr

/-- The nonterminal that an entry starts from. -/
def Entry.start : Entry → Nonterminal
  | program => .definitions
  | expression => .expression

namespace Recognizer

variable {σ : Type}

/-- Fails unless the cursor stands at the end of input. -/
def expectEnd : Recognizer σ Unit := do
  let t ← peek
  unless t.isEnd do throw (.trailing t)

/-- A whole sequence of tokens. -/
def whole (entry : Entry) : Recognizer σ Unit := do
  let depth := (← read).bound
  match entry with
  | .program => definitions (expression depth)
  | .expression => expression depth
  expectEnd

end Recognizer

/-- How a run of the recognizer ended: its verdict, the last state of the observer, and the number
of tokens taken. -/
structure Outcome (σ : Type) where
  verdict : Except SyntaxError Unit
  observed : σ
  taken : Nat

/-- Recognizes tokens under an observer that starts from the state `init`. -/
def run {σ : Type} (observe : Event → σ → σ) (entry : Entry) (tokens : List Token) (init : σ) :
    Outcome σ :=
  match Cursor.ofTokens tokens with
  | .error e => ⟨.error e, init, 0⟩
  | .ok cursor =>
    match Recognizer.whole entry ⟨observe, tokens.length⟩ ⟨cursor, init⟩ with
    | .ok () s => ⟨.ok (), s.observed, s.cursor.position⟩
    | .error e s => ⟨.error e, s.observed, s.cursor.position⟩

/-- A sink for the trace of a run: it takes productions one after another. -/
abbrev TraceSink (σ : Type) := Production → σ → σ

/-- The observer that hands productions on to a sink. -/
def TraceSink.observe {σ : Type} (sink : TraceSink σ) : Event → σ → σ
  | .applied p => sink p
  | _ => id

/-- Recognizes tokens and hands the productions on to a sink in the order they are applied. -/
def recognizeInto {σ : Type} (sink : TraceSink σ) (entry : Entry) (tokens : List Token)
    (init : σ) : Except SyntaxError Unit × σ :=
  let outcome := run sink.observe entry tokens init
  (outcome.verdict, outcome.observed)

/-- Recognizes tokens without a trace. -/
def recognize (entry : Entry) (tokens : List Token) : Except SyntaxError Unit :=
  (run (fun _ => id) entry tokens ()).verdict

/-- The sink that records productions. -/
def TraceSink.record : TraceSink (Array Production) := fun p trace => trace.push p

/-- The productions that the recognizer applies up to the end or the error, in order. -/
def productions (entry : Entry) (tokens : List Token) : List Production :=
  (recognizeInto .record entry tokens #[]).2.toList

/-- All that an observer is told of, in order. -/
def events (entry : Entry) (tokens : List Token) : List Event :=
  (run (fun e (log : Array Event) => log.push e) entry tokens #[]).observed.toList

end PinsSyntax
