import PinsSyntax.Token.Kind

/-!
# Expectations

What a text may go on with at some place, as far as a diagnostic tells: a kind of token, or one of
the phrases that start in several ways.
-/

namespace PinsSyntax

/-- What is expected at a place of a text. -/
inductive Expectation where
  | token (k : Kind)
  | definition
  | type
  | expression
  | conditionalTail
  | bracedTail
  deriving DecidableEq, Repr

namespace Expectation

/-- The text of an expectation in a diagnostic. -/
def describe : Expectation → String
  | token k => k.describe
  | definition => "a definition (`typ`, `var` or `fun`)"
  | type => "a type"
  | expression => "an expression"
  | conditionalTail => "`else` or `\x7d`"
  | bracedTail => "`=`, `where` or `\x7d`"

/-- The kinds of tokens that meet an expectation. -/
def kinds : Expectation → List Kind
  | token k => [k]
  | definition => [.typWord, .varWord, .funWord]
  | type => [.arrWord, .logicalWord, .integerWord, .stringWord, .identifier]
  | expression =>
    [.logicalConstant, .integerConstant, .stringConstant, .identifier, .leftParen, .leftBrace,
      .plus, .minus, .bang]
  | conditionalTail => [.elseWord, .rightBrace]
  | bracedTail => [.equal, .whereWord, .rightBrace]

end Expectation

end PinsSyntax
