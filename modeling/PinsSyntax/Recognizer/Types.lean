import PinsSyntax.Recognizer.Basic

/-!
# Recognizing types and parameters
-/

namespace PinsSyntax.Recognizer

variable {σ : Type}

/-- A type: any number of array lengths, and then a type of one token. -/
def type : Recognizer σ Unit := do
  loop .types do
    if (← peek).kind = .arrWord then
      apply .arrayType
      take
      expect .leftBracket
      expect .integerConstant
      expect .rightBracket
      return true
    else return false
  match SimpleType.ofKind? (← peek).kind with
  | some t =>
    apply (.simpleType t)
    take
  | none => unexpected .type

/-- A parameter: its name and its type. -/
def parameter : Recognizer σ Unit := do
  apply .parameter
  expect .identifier
  expect .colon
  type

/-- One or more parameters with commas between them. -/
def parameters : Recognizer σ Unit :=
  chain .parameters .parameters parameter (only .comma .moreParameters) .lastParameter

end PinsSyntax.Recognizer
