import PinsSyntax.Grammar.Alternative

/-!
# The grammar of the language

A production replaces a nonterminal by a sequence of symbols. The type `Production` has one member
for each production of the grammar; `lhs` and `rhs` are its two sides, and `text` is its written
form. A program is derived from `definitions` and an expression from `expression`.
-/

namespace PinsSyntax

/-- The nonterminals of the grammar. The tail of a rule is what may follow its first part. -/
inductive Nonterminal where
  | definitions
  | definitionsTail
  | definitionsRest
  | definition
  | typeDefinition
  | variableDefinition
  | functionDefinition
  | type
  | parameters
  | parametersTail
  | parameter
  | expression
  | disjunction
  | disjunctionTail
  | conjunction
  | conjunctionTail
  | comparison
  | comparisonTail
  | sum
  | sumTail
  | product
  | productTail
  | signed
  | indexed
  | indexedTail
  | atom
  | callTail
  | braced
  | conditionalTail
  | bracedTail
  | expressions
  | expressionsTail
  deriving DecidableEq, Repr

/-- The name of a nonterminal in a written production. -/
def Nonterminal.name : Nonterminal → String
  | definitions => "definitions"
  | definitionsTail => "definitions2"
  | definitionsRest => "definitions3"
  | definition => "definition"
  | typeDefinition => "type_definition"
  | variableDefinition => "variable_definition"
  | functionDefinition => "function_definition"
  | type => "type"
  | parameters => "parameters"
  | parametersTail => "parameters2"
  | parameter => "parameter"
  | expression => "expression"
  | disjunction => "logical_or_expression"
  | disjunctionTail => "logical_or_expression2"
  | conjunction => "logical_and_expression"
  | conjunctionTail => "logical_and_expression2"
  | comparison => "compare_expression"
  | comparisonTail => "compare_expression2"
  | sum => "additive_expression"
  | sumTail => "additive_expression2"
  | product => "multiplicative_expression"
  | productTail => "multiplicative_expression2"
  | signed => "prefix_expression"
  | indexed => "postfix_expression"
  | indexedTail => "postfix_expression2"
  | atom => "atom_expression"
  | callTail => "atom_expression2"
  | braced => "braced_expression"
  | conditionalTail => "if_expression2"
  | bracedTail => "braced_expression2"
  | expressions => "expressions"
  | expressionsTail => "expressions2"

namespace Nonterminal

/-- All nonterminals: definitions, types, parameters, expressions from the loosest to the atoms, what
stands between braces, and lists of expressions. -/
def all : List Nonterminal :=
  [definitions, definitionsTail, definitionsRest, definition, typeDefinition, variableDefinition,
    functionDefinition, type, parameters, parametersTail, parameter,
    expression, disjunction, disjunctionTail, conjunction, conjunctionTail, comparison,
    comparisonTail, sum, sumTail, product, productTail, signed, indexed, indexedTail, atom, callTail,
    braced, conditionalTail, bracedTail, expressions, expressionsTail]

theorem mem_all (n : Nonterminal) : n ∈ all := by
  cases n <;> decide

instance {P : Nonterminal → Prop} [DecidablePred P] : Decidable (∀ n, P n) :=
  decidable_of_iff (∀ n ∈ all, P n) ⟨fun h n => h n (mem_all n), fun h n _ => h n⟩

end Nonterminal

/-- A symbol of the grammar: a kind of token, or a nonterminal. -/
inductive GrammarSymbol where
  | token (k : Kind)
  | rule (n : Nonterminal)
  deriving DecidableEq, Repr

/-- The name of a kind of token in a written production of the nonterminal `owner`: its spelling if
it has one. An integer constant has a name of its own where it is the length of an array type. The
end of input stands in no production. -/
def Kind.grammarName (owner : Nonterminal) (k : Kind) : String :=
  match k.spelling?, k with
  | some text, _ => text
  | none, .identifier => "identifier"
  | none, .integerConstant => if owner = .type then "int_const" else "int_constant"
  | none, .stringConstant => "str_constant"
  | none, .logicalConstant => "log_constant"
  | none, _ => "$"

/-- The name of a symbol in a written production of the nonterminal `owner`. -/
def GrammarSymbol.name (owner : Nonterminal) : GrammarSymbol → String
  | token k => k.grammarName owner
  | rule n => n.name

/-- The productions of the grammar; each member of a family of alternatives makes one. -/
inductive Production where
  | definitions
  | semicolon
  | noSemicolon
  | moreDefinitions
  | lastDefinition
  | definition (s : DefinitionSort)
  | typeDefinition
  | variableDefinition
  | functionDefinition
  | arrayType
  | simpleType (t : SimpleType)
  | parameters
  | moreParameters
  | lastParameter
  | parameter
  | expression
  | disjunction
  | moreDisjuncts
  | lastDisjunct
  | conjunction
  | moreConjuncts
  | lastConjunct
  | comparison
  | compared (op : Comparison)
  | notCompared
  | sum
  | moreTerms (op : SumOperator)
  | lastTerm
  | product
  | moreFactors (op : ProductOperator)
  | lastFactor
  | signed (op : Sign)
  | unsigned
  | indexed
  | index
  | lastIndex
  | constant (c : Constant)
  | name
  | group
  | brace
  | arguments
  | noArguments
  | whileLoop
  | forLoop
  | conditional
  | bracedExpression
  | elseBranch
  | noElse
  | assignment
  | whereBlock
  | closingBrace
  | expressions
  | moreExpressions
  | lastExpression
  deriving DecidableEq, Repr

namespace Production

/-- All productions, in the order of their nonterminals; those of a family stand together. -/
def all : List Production :=
  [definitions, semicolon, noSemicolon, moreDefinitions, lastDefinition] ++
  [.ofType, .ofVariable, .ofFunction].map definition ++
  [typeDefinition, variableDefinition, functionDefinition, arrayType] ++
  [.logical, .integer, .string, .named].map simpleType ++
  [parameters, moreParameters, lastParameter, parameter, expression, disjunction, moreDisjuncts,
    lastDisjunct, conjunction, moreConjuncts, lastConjunct, comparison] ++
  [.equal, .notEqual, .atMost, .atLeast, .less, .greater].map compared ++
  [notCompared, sum] ++
  [.plus, .minus].map moreTerms ++
  [lastTerm, product] ++
  [.times, .divide, .remainder].map moreFactors ++
  [lastFactor] ++
  [.plus, .minus, .negation].map signed ++
  [unsigned, indexed, index, lastIndex] ++
  [.logical, .integer, .string].map constant ++
  [name, group, brace, arguments, noArguments, whileLoop, forLoop, conditional, bracedExpression,
    elseBranch, noElse, assignment, whereBlock, closingBrace, expressions, moreExpressions,
    lastExpression]

theorem mem_all (p : Production) : p ∈ all := by
  cases p with
  | definition s => cases s <;> decide
  | simpleType t => cases t <;> decide
  | compared op => cases op <;> decide
  | moreTerms op => cases op <;> decide
  | moreFactors op => cases op <;> decide
  | signed op => cases op <;> decide
  | constant c => cases c <;> decide
  | _ => decide

instance {P : Production → Prop} [DecidablePred P] : Decidable (∀ p, P p) :=
  decidable_of_iff (∀ p ∈ all, P p) ⟨fun h p => h p (mem_all p), fun h p _ => h p⟩

/-- The nonterminal that a production replaces. -/
def lhs : Production → Nonterminal
  | definitions => .definitions
  | semicolon | noSemicolon => .definitionsTail
  | moreDefinitions | lastDefinition => .definitionsRest
  | definition _ => .definition
  | typeDefinition => .typeDefinition
  | variableDefinition => .variableDefinition
  | functionDefinition => .functionDefinition
  | arrayType | simpleType _ => .type
  | parameters => .parameters
  | moreParameters | lastParameter => .parametersTail
  | parameter => .parameter
  | expression => .expression
  | disjunction => .disjunction
  | moreDisjuncts | lastDisjunct => .disjunctionTail
  | conjunction => .conjunction
  | moreConjuncts | lastConjunct => .conjunctionTail
  | comparison => .comparison
  | compared _ | notCompared => .comparisonTail
  | sum => .sum
  | moreTerms _ | lastTerm => .sumTail
  | product => .product
  | moreFactors _ | lastFactor => .productTail
  | signed _ | unsigned => .signed
  | indexed => .indexed
  | index | lastIndex => .indexedTail
  | constant _ | name | group | brace => .atom
  | arguments | noArguments => .callTail
  | whileLoop | forLoop | conditional | bracedExpression => .braced
  | elseBranch | noElse => .conditionalTail
  | assignment | whereBlock | closingBrace => .bracedTail
  | expressions => .expressions
  | moreExpressions | lastExpression => .expressionsTail

/-- What a production puts in the place of its nonterminal. -/
def rhs : Production → List GrammarSymbol
  | definitions => [.rule .definition, .rule .definitionsTail]
  | semicolon => [.token .semicolon, .rule .definitionsRest]
  | noSemicolon => []
  | moreDefinitions => [.rule .definitions]
  | lastDefinition => []
  | definition .ofType => [.rule .typeDefinition]
  | definition .ofVariable => [.rule .variableDefinition]
  | definition .ofFunction => [.rule .functionDefinition]
  | typeDefinition => [.token .typWord, .token .identifier, .token .colon, .rule .type]
  | variableDefinition => [.token .varWord, .token .identifier, .token .colon, .rule .type]
  | functionDefinition => [.token .funWord, .token .identifier, .token .leftParen,
      .rule .parameters, .token .rightParen, .token .colon, .rule .type, .token .equal,
      .rule .expression]
  | arrayType => [.token .arrWord, .token .leftBracket, .token .integerConstant,
      .token .rightBracket, .rule .type]
  | simpleType t => [.token t.kind]
  | parameters => [.rule .parameter, .rule .parametersTail]
  | moreParameters => [.token .comma, .rule .parameters]
  | lastParameter => []
  | parameter => [.token .identifier, .token .colon, .rule .type]
  | expression => [.rule .disjunction]
  | disjunction => [.rule .conjunction, .rule .disjunctionTail]
  | moreDisjuncts => [.token .bar, .rule .disjunction]
  | lastDisjunct => []
  | conjunction => [.rule .comparison, .rule .conjunctionTail]
  | moreConjuncts => [.token .ampersand, .rule .conjunction]
  | lastConjunct => []
  | comparison => [.rule .sum, .rule .comparisonTail]
  | compared op => [.token op.kind, .rule .sum]
  | notCompared => []
  | sum => [.rule .product, .rule .sumTail]
  | moreTerms op => [.token op.kind, .rule .sum]
  | lastTerm => []
  | product => [.rule .signed, .rule .productTail]
  | moreFactors op => [.token op.kind, .rule .product]
  | lastFactor => []
  | signed op => [.token op.kind, .rule .signed]
  | unsigned => [.rule .indexed]
  | indexed => [.rule .atom, .rule .indexedTail]
  | index => [.token .leftBracket, .rule .expression, .token .rightBracket, .rule .indexedTail]
  | lastIndex => []
  | constant c => [.token c.kind]
  | name => [.token .identifier, .rule .callTail]
  | group => [.token .leftParen, .rule .expressions, .token .rightParen]
  | brace => [.token .leftBrace, .rule .braced]
  | arguments => [.token .leftParen, .rule .expressions, .token .rightParen]
  | noArguments => []
  | whileLoop => [.token .whileWord, .rule .expression, .token .colon, .rule .expression,
      .token .rightBrace]
  | forLoop => [.token .forWord, .token .identifier, .token .equal, .rule .expression,
      .token .comma, .rule .expression, .token .comma, .rule .expression, .token .colon,
      .rule .expression, .token .rightBrace]
  | conditional => [.token .ifWord, .rule .expression, .token .thenWord, .rule .expression,
      .rule .conditionalTail]
  | bracedExpression => [.rule .expression, .rule .bracedTail]
  | elseBranch => [.token .elseWord, .rule .expression, .token .rightBrace]
  | noElse => [.token .rightBrace]
  | assignment => [.token .equal, .rule .expression, .token .rightBrace]
  | whereBlock => [.token .whereWord, .rule .definitions, .token .rightBrace]
  | closingBrace => [.token .rightBrace]
  | expressions => [.rule .expression, .rule .expressionsTail]
  | moreExpressions => [.token .comma, .rule .expressions]
  | lastExpression => []

/-- The written form: the name of the nonterminal, an arrow, and the names of the symbols that
replace it, or an epsilon if there are none. -/
def text (p : Production) : String :=
  let symbols := p.rhs.map (GrammarSymbol.name p.lhs)
  p.lhs.name ++ " -> " ++ if symbols.isEmpty then "ε" else " ".intercalate symbols

end Production

end PinsSyntax
