import PinsSyntax.Grammar.Choice
import PinsSyntax.Proofs.Grammar.Leftmost

/-!
# One token of lookahead

Which nonterminals can be replaced by nothing (`Nonterminal.nullable`), which kinds the others can
start with (`Nonterminal.first`), and which kinds can come behind them (`Nonterminal.follow`). The
three tables are closed under the productions (`Production.nullable_of_rhs`,
`Production.mem_first_of_rhs`, `Production.rhs_followedBy`), and `Nonterminal.choose` takes a
production wherever one of the kinds that it can begin or be followed with comes next
(`Production.choose_of_mem_lookahead`). All kinds that begin none of the productions choose the same
(`Nonterminal.choose_of_notMem_first`).

Together they show that one token never discards the production of a leftmost derivation
(`Form.Yields.choose_eq`): the condition on what follows a nonterminal, `Form.FollowedBy`, holds of
the start of the grammar and is kept by every production (`Form.FollowedBy.expand`).
-/

namespace PinsSyntax

namespace Nonterminal

/-- Whether a nonterminal can be replaced by nothing. -/
def nullable : Nonterminal → Bool
  | definitionsTail | definitionsRest | parametersTail | disjunctionTail | conjunctionTail
  | comparisonTail | sumTail | productTail | indexedTail | callTail | expressionsTail => true
  | _ => false

/-- The kinds that an atom can start with. -/
def atomKinds : List Kind :=
  [.logicalConstant, .integerConstant, .stringConstant, .identifier, .leftParen, .leftBrace]

/-- The kinds that what replaces a nonterminal can start with. -/
def first : Nonterminal → List Kind
  | definitions | definitionsRest | definition => Expectation.definition.kinds
  | definitionsTail => [.semicolon]
  | typeDefinition => [.typWord]
  | variableDefinition => [.varWord]
  | functionDefinition => [.funWord]
  | type => Expectation.type.kinds
  | parameters | parameter => [.identifier]
  | parametersTail | expressionsTail => [.comma]
  | expression | disjunction | conjunction | comparison | sum | product | signed | expressions =>
    Expectation.expression.kinds
  | indexed | atom => atomKinds
  | disjunctionTail => [.bar]
  | conjunctionTail => [.ampersand]
  | comparisonTail =>
    [.doubleEqual, .bangEqual, .lessEqual, .greaterEqual, .less, .greater]
  | sumTail => [.plus, .minus]
  | productTail => [.star, .slash, .percent]
  | indexedTail => [.leftBracket]
  | callTail => [.leftParen]
  | braced => [.whileWord, .forWord, .ifWord] ++ Expectation.expression.kinds
  | conditionalTail => Expectation.conditionalTail.kinds
  | bracedTail => Expectation.bracedTail.kinds

/-- The kinds that can come behind what replaces a nonterminal. An operator comes behind the operands
of its own level and of all tighter ones. -/
def follow : Nonterminal → List Kind
  | definitions | definitionsTail | definitionsRest => [.endOfInput, .rightBrace]
  | definition | typeDefinition | variableDefinition | functionDefinition =>
    [.endOfInput, .rightBrace, .semicolon]
  | type => [.endOfInput, .rightBrace, .semicolon, .comma, .rightParen, .equal]
  | parameter => [.comma, .rightParen]
  | parameters | parametersTail | expressions | expressionsTail => [.rightParen]
  | expression | disjunction | disjunctionTail => afterExpression
  | conjunction | conjunctionTail => first disjunctionTail ++ afterExpression
  | comparison | comparisonTail => first conjunctionTail ++ afterConjunction
  | sum | sumTail => first comparisonTail ++ afterComparison
  | product | productTail => first sumTail ++ afterSum
  | signed | indexed | indexedTail => first productTail ++ afterProduct
  | atom | callTail | braced | conditionalTail | bracedTail =>
    first indexedTail ++ first productTail ++ afterProduct
where
  afterExpression : List Kind :=
    [.endOfInput, .rightBrace, .semicolon, .comma, .rightParen, .rightBracket, .colon, .equal,
      .thenWord, .elseWord, .whereWord]
  afterConjunction : List Kind := first disjunctionTail ++ afterExpression
  afterComparison : List Kind := first conjunctionTail ++ afterConjunction
  afterSum : List Kind := first comparisonTail ++ afterComparison
  afterProduct : List Kind := first sumTail ++ afterSum

end Nonterminal

/-- The kinds that what replaces a symbol can start with. -/
def GrammarSymbol.first : GrammarSymbol → List Kind
  | token k => [k]
  | rule n => n.first

namespace Form

/-- Whether a form can be replaced by nothing. -/
def nullable : Form → Bool
  | [] => true
  | .token _ :: _ => false
  | .rule n :: form => n.nullable && nullable form

/-- The kinds that what replaces a form, and then one of the kinds `after`, can start with. -/
def starts : Form → List Kind → List Kind
  | [], after => after
  | .token k :: _, _ => [k]
  | .rule n :: form, after => n.first ++ if n.nullable then starts form after else []

/-- Each nonterminal of a form is followed by kinds that can come behind it, if one of the kinds
`after` comes behind the form. -/
def FollowedBy : Form → List Kind → Prop
  | [], _ => True
  | .token _ :: form, after => FollowedBy form after
  | .rule n :: form, after => starts form after ⊆ n.follow ∧ FollowedBy form after

instance decidableFollowedBy : (form : Form) → (after : List Kind) → Decidable (FollowedBy form after)
  | [], _ => .isTrue trivial
  | .token _ :: form, after => decidableFollowedBy form after
  | .rule n :: form, after =>
    have := decidableFollowedBy form after
    inferInstanceAs (Decidable ((∀ k ∈ starts form after, k ∈ n.follow) ∧ FollowedBy form after))

variable {form rest : Form} {after after' : List Kind} {k : Kind}

/-- A form starts with a kind of its own, or it can be empty and what comes behind it starts. -/
lemma mem_starts_iff : k ∈ starts form after ↔ k ∈ starts form [] ∨ nullable form ∧ k ∈ after := by
  induction form with
  | nil => simp [starts, nullable]
  | cons s form ih =>
    cases s with
    | token k' => simp [starts, nullable]
    | rule n => cases hn : n.nullable <;> simp [starts, nullable, hn, ih, or_assoc]

/-- What starts two forms in a row. -/
lemma starts_append : starts (form ++ rest) after = starts form (starts rest after) := by
  induction form with
  | nil => rfl
  | cons s form ih =>
    cases s with
    | token k => rfl
    | rule n => simp only [List.cons_append, starts, ih]

/-- More kinds behind a form give it more starts. -/
lemma starts_mono (h : after ⊆ after') : starts form after ⊆ starts form after' := by
  intro k hk
  rw [mem_starts_iff] at hk ⊢
  exact hk.imp_right (And.imp_right (@h k))

/-- Fewer kinds behind a form are no harm. -/
lemma FollowedBy.mono (hf : FollowedBy form after') (h : after ⊆ after') :
    FollowedBy form after := by
  induction form with
  | nil => trivial
  | cons s form ih =>
    cases s with
    | token k => exact ih hf
    | rule n => exact ⟨fun k hk => hf.1 (starts_mono h hk), ih hf.2⟩

/-- Two forms in a row: the first one is followed by what the second one can start with. -/
lemma FollowedBy.append (h : FollowedBy form (starts rest after)) (hr : FollowedBy rest after) :
    FollowedBy (form ++ rest) after := by
  induction form with
  | nil => exact hr
  | cons s form ih =>
    cases s with
    | token k => exact ih h
    | rule n =>
      refine ⟨?_, ih h.2⟩
      show starts (form ++ rest) after ⊆ n.follow
      rw [starts_append]
      exact h.1

end Form

namespace Production

open Form

/-- The tables are closed under the productions. -/
lemma closed (p : Production) : (nullable p.rhs → p.lhs.nullable) ∧
    (∀ k ∈ starts p.rhs [], k ∈ p.lhs.first) ∧ FollowedBy p.rhs p.lhs.follow := by
  revert p
  decide +kernel

/-- A production whose symbols can all be empty belongs to a nonterminal that can be. -/
lemma nullable_of_rhs (p : Production) : nullable p.rhs → p.lhs.nullable := p.closed.1

/-- A production starts with kinds that its nonterminal can start with. -/
lemma mem_first_of_rhs (p : Production) : ∀ k ∈ starts p.rhs [], k ∈ p.lhs.first := p.closed.2.1

/-- The nonterminals of a production are followed by kinds that can come behind them. -/
lemma rhs_followedBy (p : Production) : FollowedBy p.rhs p.lhs.follow := p.closed.2.2

/-- The kinds that tell that a production is to be taken. -/
def lookahead (p : Production) : List Kind := starts p.rhs p.lhs.follow

/-- A production is taken wherever one of the kinds that tell so comes next. -/
lemma choose_of_mem_lookahead {p : Production} {k : Kind} (h : k ∈ p.lookahead) :
    p.lhs.choose k = .ok p := by
  have table : ∀ p : Production, ∀ k ∈ p.lookahead, (p.lhs.choose k).toOption = some p := by
    decide +kernel
  have hp := table p k h
  cases hc : p.lhs.choose k with
  | ok q =>
    rw [hc] at hp
    cases hp
    rfl
  | error e => simp [hc, Except.toOption] at hp

/-- A production is taken in front of every kind that it can begin with. -/
lemma choose_of_mem_starts {p : Production} {k : Kind} (h : k ∈ starts p.rhs []) :
    p.lhs.choose k = .ok p :=
  choose_of_mem_lookahead (starts_mono (List.nil_subset _) h)

end Production

/-- What a kind that begins no production of a nonterminal chooses does not depend on the kind. -/
lemma Nonterminal.choose_of_notMem_first {n : Nonterminal} {k : Kind} (h : k ∉ n.first) :
    n.choose k = n.choose .endOfInput := by
  cases n with
  | definitions | typeDefinition | variableDefinition | functionDefinition | parameters
  | parameter | expression | disjunction | conjunction | comparison | sum | product | indexed
  | expressions => rfl
  | _ => cases k <;> first | rfl | exact absurd (by decide) h

/-- A kind that a nonterminal can start with chooses a production that starts with a symbol which can
start with this kind. -/
lemma Nonterminal.exists_choose_of_mem_first {n : Nonterminal} {k : Kind} (h : k ∈ n.first) :
    ∃ p s form, n.choose k = .ok p ∧ p.rhs = s :: form ∧ k ∈ s.first := by
  have table : ∀ n : Nonterminal, ∀ k ∈ n.first, ∃ p ∈ (n.choose k).toOption, ∃ s ∈ p.rhs.head?,
      k ∈ s.first := by
    decide +kernel
  obtain ⟨p, hp, s, hs, hk⟩ := table n k h
  obtain ⟨form, hf⟩ := List.head?_eq_some_iff.1 hs
  cases hc : n.choose k with
  | ok q =>
    rw [hc] at hp
    cases hp
    exact ⟨p, s, form, rfl, hf, hk⟩
  | error e =>
    rw [hc] at hp
    cases hp

namespace Form

variable {form : Form} {p : Production} {ps : List Production} {kinds after : List Kind} {k : Kind}

/-- A production brings no start that its nonterminal did not have. -/
lemma starts_expand : starts (p.rhs ++ form) after ⊆ starts (.rule p.lhs :: form) after := by
  intro k hk
  rw [starts_append, mem_starts_iff] at hk
  simp only [starts, List.mem_append]
  rcases hk with hk | ⟨hn, hk⟩
  · exact .inl (p.mem_first_of_rhs k hk)
  · rw [if_pos (p.nullable_of_rhs hn)]
    exact .inr hk

/-- What follows the nonterminals of a form stays allowed when the first of them is replaced. -/
lemma FollowedBy.expand (h : FollowedBy (.rule p.lhs :: form) after) :
    FollowedBy (p.rhs ++ form) after :=
  (p.rhs_followedBy.mono h.1).append h.2

/-- What a form yields starts with one of the starts of the form. -/
lemma Yields.head_mem_starts (h : Yields form ps kinds) {e : Kind} (he : e ∈ after)
    (hk : (kinds ++ [e]).head? = some k) : k ∈ starts form after := by
  induction h with
  | nil => simp_all [starts]
  | token _ _ => simp_all [starts]
  | rule _ ih => exact starts_expand (ih hk)

/-- The next kind tells the production of a leftmost derivation. -/
lemma Yields.choose_eq (h : Yields (p.rhs ++ form) ps kinds)
    (hf : FollowedBy (.rule p.lhs :: form) after) {e : Kind} (he : e ∈ after)
    (hk : (kinds ++ [e]).head? = some k) : p.lhs.choose k = .ok p := by
  apply Production.choose_of_mem_lookahead
  have hs := h.head_mem_starts he hk
  rw [starts_append] at hs
  exact starts_mono hf.1 hs

end Form

end PinsSyntax
