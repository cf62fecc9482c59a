import Mathlib.Data.List.Chain
import PinsSyntax.Grammar.Derivation

/-!
# Heights of nonterminals

Replacing nonterminals comes to a token, or to the end, after few productions. From a nonterminal in
front of a form, at most its `height` of productions are applied before the next token is taken, and
at most its `reserve` of them where the nonterminal has left nothing and the form behind it is in
front. Nonterminals of expressions have a higher tail the tighter they bind, because all tails of the
looser ones may be empty behind it.

In a form every symbol is followed by one that is no higher than its reserve. The productions keep
to this (`Production.steady`), and so each of them makes the form lower
(`Form.height_expand_lt`).
-/

namespace PinsSyntax

namespace Nonterminal

/-- How many productions are applied at most from a nonterminal in front to the next token. -/
def height : Nonterminal → Nat
  | typeDefinition | variableDefinition | functionDefinition | definitionsTail => 1
  | definition => 2
  | definitions => 3
  | definitionsRest => 4
  | type | parameter | parametersTail => 1
  | parameters => 2
  | atom | conditionalTail | bracedTail | expressionsTail => 1
  | indexed | disjunctionTail => 2
  | signed | conjunctionTail => 3
  | product | comparisonTail => 4
  | sum | sumTail => 5
  | comparison | productTail => 6
  | conjunction | indexedTail => 7
  | disjunction | callTail => 8
  | expression => 9
  | expressions | braced => 10

/-- How high a nonterminal may be at most that stands behind this one. -/
def reserve : Nonterminal → Nat
  | definitions | definitionsTail | definitionsRest | parameters | parametersTail | expressions
  | expressionsTail => 0
  | definition | typeDefinition | variableDefinition | functionDefinition | type | parameter => 1
  | expression | disjunction | disjunctionTail => 1
  | conjunction | conjunctionTail => 2
  | comparison | comparisonTail => 3
  | sum | sumTail => 4
  | product | productTail => 5
  | signed | indexed | indexedTail => 6
  | atom | callTail | braced | conditionalTail | bracedTail => 7

lemma height_pos (n : Nonterminal) : 0 < n.height := by
  cases n <;> decide

lemma height_le (n : Nonterminal) : n.height ≤ 10 := by
  cases n <;> decide

end Nonterminal

namespace GrammarSymbol

/-- The height of a symbol: in front of a token, no production is applied. -/
def height : GrammarSymbol → Nat
  | token _ => 0
  | rule n => n.height

lemma height_le (a : GrammarSymbol) : a.height ≤ 10 := by
  cases a with
  | token k => exact Nat.zero_le _
  | rule n => exact n.height_le

/-- The reserve of a symbol: behind a token, any symbol may stand. -/
def reserve : GrammarSymbol → Nat
  | token _ => 10
  | rule n => n.reserve

/-- The second symbol may stand behind the first one. -/
def Supports (a b : GrammarSymbol) : Prop := b.height ≤ a.reserve

instance : DecidableRel Supports := fun a b => inferInstanceAs (Decidable (b.height ≤ a.reserve))

end GrammarSymbol

/-- A production is steady: its symbols support each other, the last one supports what the nonterminal
supports, the first one is lower than the nonterminal, and so is what stands behind the nonterminal
if the production leaves nothing. -/
lemma Production.steady (p : Production) :
    p.rhs.IsChain GrammarSymbol.Supports ∧
    (∀ a ∈ p.rhs.getLast?, p.lhs.reserve ≤ a.reserve) ∧
    (∀ a ∈ p.rhs.head?, a.height < p.lhs.height) ∧
    (p.rhs = [] → p.lhs.reserve < p.lhs.height) := by
  revert p
  decide

/-- Productions keep to the heights. -/
lemma Production.supports (p : Production) : p.rhs.IsChain GrammarSymbol.Supports ∧
    ∀ a ∈ p.rhs.getLast?, ∀ b, GrammarSymbol.Supports (.rule p.lhs) b → a.Supports b :=
  ⟨p.steady.1, fun a ha _ hb => Nat.le_trans hb (p.steady.2.1 a ha)⟩

/-- The height of a form is that of its first symbol. -/
def Form.height : Form → Nat
  | [] => 0
  | a :: _ => a.height

lemma Form.height_le (form : Form) : form.height ≤ 10 := by
  cases form with
  | nil => exact Nat.zero_le _
  | cons a form => exact a.height_le

/-- A production makes a form lower. -/
lemma Form.height_expand_lt {p : Production} {form : Form}
    (hf : List.IsChain GrammarSymbol.Supports (.rule p.lhs :: form)) :
    Form.height (p.rhs ++ form) < p.lhs.height := by
  obtain ⟨-, -, hhead, hnil⟩ := p.steady
  cases hp : p.rhs with
  | cons a rhs =>
    rw [hp] at hhead
    exact hhead a rfl
  | nil =>
    have hlt := hnil hp
    cases form with
    | nil => exact Nat.zero_lt_of_lt hlt
    | cons b form => exact Nat.lt_of_le_of_lt (List.isChain_cons_cons.1 hf).1 hlt

end PinsSyntax
