import PinsSyntax.Grammar.Expectation
import PinsSyntax.Grammar.Production

/-!
# Choosing a production

One token is enough to choose among the productions of a nonterminal. An alternative that starts
with the token, or with a nonterminal that can start with it, is taken; otherwise the default
alternative is, which may be the empty one; and where there is none the token is not expected.
-/

namespace PinsSyntax.Nonterminal

/-- The production that replaces a nonterminal in front of a token of kind `k`, or what is expected
instead of the token. -/
def choose : Nonterminal → Kind → Except Expectation Production
  | definitions, _ => .ok .definitions
  | definitionsTail, k => .ok (if k = .semicolon then .semicolon else .noSemicolon)
  | definitionsRest, k =>
    .ok (if (DefinitionSort.ofKind? k).isSome then .moreDefinitions else .lastDefinition)
  | definition, k =>
    match DefinitionSort.ofKind? k with
    | some sort => .ok (.definition sort)
    | none => .error .definition
  | typeDefinition, _ => .ok .typeDefinition
  | variableDefinition, _ => .ok .variableDefinition
  | functionDefinition, _ => .ok .functionDefinition
  | type, k =>
    if k = .arrWord then .ok .arrayType
    else
      match SimpleType.ofKind? k with
      | some t => .ok (.simpleType t)
      | none => .error .type
  | parameters, _ => .ok .parameters
  | parametersTail, k => .ok (if k = .comma then .moreParameters else .lastParameter)
  | parameter, _ => .ok .parameter
  | expression, _ => .ok .expression
  | disjunction, _ => .ok .disjunction
  | disjunctionTail, k => .ok (if k = .bar then .moreDisjuncts else .lastDisjunct)
  | conjunction, _ => .ok .conjunction
  | conjunctionTail, k => .ok (if k = .ampersand then .moreConjuncts else .lastConjunct)
  | comparison, _ => .ok .comparison
  | comparisonTail, k => .ok (((Comparison.ofKind? k).map .compared).getD .notCompared)
  | sum, _ => .ok .sum
  | sumTail, k => .ok (((SumOperator.ofKind? k).map .moreTerms).getD .lastTerm)
  | product, _ => .ok .product
  | productTail, k => .ok (((ProductOperator.ofKind? k).map .moreFactors).getD .lastFactor)
  | signed, k => .ok (((Sign.ofKind? k).map .signed).getD .unsigned)
  | indexed, _ => .ok .indexed
  | indexedTail, k => .ok (if k = .leftBracket then .index else .lastIndex)
  | atom, k =>
    match Constant.ofKind? k, k with
    | some c, _ => .ok (.constant c)
    | none, .identifier => .ok .name
    | none, .leftParen => .ok .group
    | none, .leftBrace => .ok .brace
    | none, _ => .error .expression
  | callTail, k => .ok (if k = .leftParen then .arguments else .noArguments)
  | braced, .whileWord => .ok .whileLoop
  | braced, .forWord => .ok .forLoop
  | braced, .ifWord => .ok .conditional
  | braced, _ => .ok .bracedExpression
  | conditionalTail, .elseWord => .ok .elseBranch
  | conditionalTail, .rightBrace => .ok .noElse
  | conditionalTail, _ => .error .conditionalTail
  | bracedTail, .equal => .ok .assignment
  | bracedTail, .whereWord => .ok .whereBlock
  | bracedTail, .rightBrace => .ok .closingBrace
  | bracedTail, _ => .error .bracedTail
  | expressions, _ => .ok .expressions
  | expressionsTail, k => .ok (if k = .comma then .moreExpressions else .lastExpression)

theorem lhs_of_choose {n : Nonterminal} {k : Kind} {p : Production} (h : n.choose k = .ok p) :
    p.lhs = n := by
  cases n with
  | definitions | typeDefinition | variableDefinition | functionDefinition | parameters
  | parameter | expression | disjunction | conjunction | comparison | sum | product | indexed
  | expressions =>
    cases h
    rfl
  | definitionsTail | definitionsRest | parametersTail | disjunctionTail | conjunctionTail
  | indexedTail | callTail | expressionsTail =>
    cases h
    split <;> rfl
  | comparisonTail =>
    cases h
    cases Comparison.ofKind? k <;> rfl
  | sumTail =>
    cases h
    cases SumOperator.ofKind? k <;> rfl
  | productTail =>
    cases h
    cases ProductOperator.ofKind? k <;> rfl
  | signed =>
    cases h
    cases Sign.ofKind? k <;> rfl
  | _ => cases k <;> cases h <;> rfl

end PinsSyntax.Nonterminal
