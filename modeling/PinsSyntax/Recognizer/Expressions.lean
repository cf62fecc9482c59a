import PinsSyntax.Recognizer.Definitions

/-!
# Recognizing expressions

Expressions are recognized level by level, from the loosest operator to the atoms. Where an
expression holds another one, between brackets or behind a keyword, the recognizer of the inner one
is the argument `nested`. `expression` ties the knot: its depth bounds how deeply expressions are
nested, and each of them is at least one token further on than the one around it, so a depth of the
number of tokens is never used up.
-/

namespace PinsSyntax.Recognizer

variable {σ : Type}

/-- One or more expressions with commas between them. -/
def expressions (nested : Recognizer σ Unit) : Recognizer σ Unit :=
  chain .expressions .expressions nested (only .comma .moreExpressions) .lastExpression

/-- The arguments of a call, if the name before is called. -/
def callTail (nested : Recognizer σ Unit) : Recognizer σ Unit := do
  if (← peek).kind = .leftParen then
    apply .arguments
    take
    expressions nested
    expect .rightParen
  else apply .noArguments

/-- What follows the second part of a conditional: the third part or the closing brace. -/
def conditionalTail (nested : Recognizer σ Unit) : Recognizer σ Unit := do
  match (← peek).kind with
  | .elseWord =>
    apply .elseBranch
    take
    nested
    expect .rightBrace
  | .rightBrace =>
    apply .noElse
    take
  | _ => unexpected .conditionalTail

/-- What follows an expression that comes first between braces: a value for it, definitions for it,
or the closing brace. -/
def bracedTail (nested : Recognizer σ Unit) : Recognizer σ Unit := do
  match (← peek).kind with
  | .equal =>
    apply .assignment
    take
    nested
    expect .rightBrace
  | .whereWord =>
    apply .whereBlock
    take
    definitions nested
    expect .rightBrace
  | .rightBrace =>
    apply .closingBrace
    take
  | _ => unexpected .bracedTail

/-- What stands between braces: a loop, a conditional, or an expression with what belongs to it. -/
def braced (nested : Recognizer σ Unit) : Recognizer σ Unit := do
  match (← peek).kind with
  | .whileWord =>
    apply .whileLoop
    take
    nested
    expect .colon
    nested
    expect .rightBrace
  | .forWord =>
    apply .forLoop
    take
    expect .identifier
    expect .equal
    nested
    expect .comma
    nested
    expect .comma
    nested
    expect .colon
    nested
    expect .rightBrace
  | .ifWord =>
    apply .conditional
    take
    nested
    expect .thenWord
    nested
    conditionalTail nested
  | _ =>
    apply .bracedExpression
    nested
    bracedTail nested

/-- A constant, a name or a call, or what stands between parentheses or braces. -/
def atom (nested : Recognizer σ Unit) : Recognizer σ Unit := do
  let kind := (← peek).kind
  match Constant.ofKind? kind, kind with
  | some c, _ =>
    apply (.constant c)
    take
  | none, .identifier =>
    apply .name
    take
    callTail nested
  | none, .leftParen =>
    apply .group
    take
    expressions nested
    expect .rightParen
  | none, .leftBrace =>
    apply .brace
    take
    braced nested
  | none, _ => unexpected .expression

/-- An atom with any number of indexes behind it. -/
def indexed (nested : Recognizer σ Unit) : Recognizer σ Unit := do
  apply .indexed
  atom nested
  loop .indexes do
    if (← peek).kind = .leftBracket then
      apply .index
      take
      nested
      expect .rightBracket
      return true
    else return false
  apply .lastIndex

/-- An operand with any number of signs before it. -/
def signed (nested : Recognizer σ Unit) : Recognizer σ Unit :=
  loop .signs do
    match Sign.ofKind? (← peek).kind with
    | some sign =>
      apply (.signed sign)
      take
      return true
    | none =>
      apply .unsigned
      indexed nested
      return false

/-- One or more factors. -/
def product (nested : Recognizer σ Unit) : Recognizer σ Unit :=
  chain .product .product (signed nested)
    (fun k => (ProductOperator.ofKind? k).map .moreFactors) .lastFactor

/-- One or more terms. -/
def sum (nested : Recognizer σ Unit) : Recognizer σ Unit :=
  chain .sum .sum (product nested) (fun k => (SumOperator.ofKind? k).map .moreTerms) .lastTerm

/-- A sum, or two of them that are compared. A second comparison is left to what follows. -/
def comparison (nested : Recognizer σ Unit) : Recognizer σ Unit := do
  apply .comparison
  sum nested
  match Comparison.ofKind? (← peek).kind with
  | some op =>
    apply (.compared op)
    take
    sum nested
  | none => apply .notCompared

/-- One or more comparisons that are joined by `&`. -/
def conjunction (nested : Recognizer σ Unit) : Recognizer σ Unit :=
  chain .conjunction .conjunction (comparison nested) (only .ampersand .moreConjuncts) .lastConjunct

/-- One or more conjunctions that are joined by `|`. -/
def disjunction (nested : Recognizer σ Unit) : Recognizer σ Unit :=
  chain .disjunction .disjunction (conjunction nested) (only .bar .moreDisjuncts) .lastDisjunct

/-- An expression that holds expressions to a depth of less than the one given. -/
def expression : Nat → Recognizer σ Unit
  | 0 => unexpected .expression
  | depth + 1 => do
    tell (.began .expression)
    apply .expression
    disjunction (expression depth)

end PinsSyntax.Recognizer
