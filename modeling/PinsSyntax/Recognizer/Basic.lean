import PinsSyntax.Grammar.Production
import PinsSyntax.Recognizer.Cursor

/-!
# Recognizers

A recognizer moves a cursor over tokens and tells an observer what it does: which production it
applies, which token it takes, and where a round of a repetition or a new expression begins. It ends
with a syntax error or without a result. The observer keeps a state of its own and cannot influence
the recognizer.

Repetitions are bounded: no loop goes more rounds than the recognizer's bound, which is at least the
number of tokens, and a round that asks for another one has taken a token.
-/

namespace PinsSyntax

/-- The places of a run that are passed again and again: the rounds of the repetitions, each named
for the phrase that it reads the parts of, and the start of an expression. -/
inductive Stage where
  | definitions
  | types
  | parameters
  | disjunction
  | conjunction
  | sum
  | product
  | signs
  | indexes
  | expressions
  | expression
  deriving DecidableEq, Repr

/-- What an observer of a recognizer is told. -/
inductive Event where
  | applied (p : Production)
  | taken (t : Token)
  | began (s : Stage)
  deriving DecidableEq, Repr

/-- What a recognizer works with throughout: its observer, and a bound on repetitions. -/
structure Surroundings (σ : Type) where
  observe : Event → σ → σ
  bound : Nat

/-- What a recognizer changes: the cursor, and the state of the observer. -/
structure Progress (σ : Type) where
  cursor : Cursor
  observed : σ

/-- A recognizer of a phrase, for observers with states of type `σ`. -/
abbrev Recognizer (σ α : Type) := ReaderT (Surroundings σ) (EStateM SyntaxError (Progress σ)) α

namespace Recognizer

variable {σ : Type}

/-- Tells the observer of an event. -/
def tell (e : Event) : Recognizer σ Unit := do
  let surroundings ← read
  modify fun s => { s with observed := surroundings.observe e s.observed }

/-- Tells the observer of a production that is applied. -/
def apply (p : Production) : Recognizer σ Unit := tell (.applied p)

/-- The token at the cursor. -/
def peek : Recognizer σ Token := do return (← get).cursor.peek

/-- Takes the token at the cursor. -/
def take : Recognizer σ Unit := do
  tell (.taken (← peek))
  modify fun s => { s with cursor := s.cursor.advance }

/-- Fails at the token at the cursor, where something else is expected. -/
def unexpected {α : Type} (e : Expectation) : Recognizer σ α := do
  throw (.unexpected (← peek) e)

/-- Takes a token of kind `k`, or fails and takes nothing. -/
def expect (k : Kind) : Recognizer σ Unit := do
  if (← peek).kind = k then take else unexpected (.token k)

/-- Goes rounds of a repetition until one answers `false`, and at most the given number. -/
def rounds (stage : Stage) (round : Recognizer σ Bool) : Nat → Recognizer σ Unit
  | 0 => pure ()
  | bound + 1 => do
    tell (.began stage)
    if ← round then rounds stage round bound

/-- Goes rounds of a repetition until one answers `false`. -/
def loop (stage : Stage) (round : Recognizer σ Bool) : Recognizer σ Unit := do
  rounds stage round (← read).bound

/-- Recognizes one or more operands with separators between them. Each operand applies `operandRule`
before it, and a separator applies the production that `separator` gives for its kind; where no
separator follows, `lastRule` ends the chain. -/
def chain (stage : Stage) (operandRule : Production) (operand : Recognizer σ Unit)
    (separator : Kind → Option Production) (lastRule : Production) : Recognizer σ Unit :=
  loop stage do
    apply operandRule
    operand
    match separator (← peek).kind with
    | some p => do
      apply p
      take
      return true
    | none => do
      apply lastRule
      return false

/-- The separator of a chain that has one separator only. -/
def only (k : Kind) (p : Production) (found : Kind) : Option Production :=
  if found = k then some p else none

end Recognizer

end PinsSyntax
