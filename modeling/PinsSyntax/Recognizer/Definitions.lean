import PinsSyntax.Recognizer.Types

/-!
# Recognizing definitions

The body of a function is an expression, and an expression can hold definitions. Here the recognizer
of expressions is an argument, so that neither has to come first.
-/

namespace PinsSyntax.Recognizer

variable {σ : Type}

/-- The definition of a type. -/
def typeDefinition : Recognizer σ Unit := do
  apply .typeDefinition
  expect .typWord
  expect .identifier
  expect .colon
  type

/-- The definition of a variable. -/
def variableDefinition : Recognizer σ Unit := do
  apply .variableDefinition
  expect .varWord
  expect .identifier
  expect .colon
  type

/-- The definition of a function, whose body is an `expression`. -/
def functionDefinition (expression : Recognizer σ Unit) : Recognizer σ Unit := do
  apply .functionDefinition
  expect .funWord
  expect .identifier
  expect .leftParen
  parameters
  expect .rightParen
  expect .colon
  type
  expect .equal
  expression

/-- A definition; its keyword tells what it defines. -/
def definition (expression : Recognizer σ Unit) : Recognizer σ Unit := do
  match DefinitionSort.ofKind? (← peek).kind with
  | some sort =>
    apply (.definition sort)
    match sort with
    | .ofType => typeDefinition
    | .ofVariable => variableDefinition
    | .ofFunction => functionDefinition expression
  | none => unexpected .definition

/-- One or more definitions with semicolons between them. A semicolon may also follow the last one,
so there is another definition only if one starts behind the semicolon. -/
def definitions (expression : Recognizer σ Unit) : Recognizer σ Unit :=
  loop .definitions do
    apply .definitions
    definition expression
    if (← peek).kind = .semicolon then
      apply .semicolon
      take
      if (DefinitionSort.ofKind? (← peek).kind).isSome then
        apply .moreDefinitions
        return true
      else
        apply .lastDefinition
        return false
    else
      apply .noSemicolon
      return false

end PinsSyntax.Recognizer
