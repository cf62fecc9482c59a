import PinsSyntax.Proofs.Grammar.Leftmost

/-!
# Nothing in the grammar is useless

Every form of the grammar yields some kinds (`Form.exists_yields`), none of which is the end of input
(`Form.Yields.endOfInput_notMem`), and every production has a part in some leftmost derivation from a
nonterminal that reaches its own (`Nonterminal.Uses.of_mem_reach`). The first of these goes by
`Nonterminal.level`, a height of nonterminals that decreases from a nonterminal to all those of its
shortest production (`Nonterminal.level_shortest`); it also decreases to those that a production can
begin with (`Production.level_lt_of_mem_leading`).
-/

namespace PinsSyntax

namespace Nonterminal

/-- A production that leads to kinds without detours. -/
def shortest : Nonterminal → Production
  | definitions => .definitions
  | definitionsTail => .noSemicolon
  | definitionsRest => .lastDefinition
  | definition => .definition .ofType
  | typeDefinition => .typeDefinition
  | variableDefinition => .variableDefinition
  | functionDefinition => .functionDefinition
  | type => .simpleType .named
  | parameters => .parameters
  | parametersTail => .lastParameter
  | parameter => .parameter
  | expression => .expression
  | disjunction => .disjunction
  | disjunctionTail => .lastDisjunct
  | conjunction => .conjunction
  | conjunctionTail => .lastConjunct
  | comparison => .comparison
  | comparisonTail => .notCompared
  | sum => .sum
  | sumTail => .lastTerm
  | product => .product
  | productTail => .lastFactor
  | signed => .unsigned
  | indexed => .indexed
  | indexedTail => .lastIndex
  | atom => .constant .integer
  | callTail => .noArguments
  | braced => .bracedExpression
  | conditionalTail => .noElse
  | bracedTail => .closingBrace
  | expressions => .expressions
  | expressionsTail => .lastExpression

/-- The height of a nonterminal above those that it leads to without detours. -/
def level : Nonterminal → Nat
  | definitionsRest => 13
  | definitions => 12
  | definition => 11
  | functionDefinition | expressions | braced => 10
  | expression => 9
  | disjunction => 8
  | conjunction => 7
  | comparison => 6
  | sum => 5
  | product => 4
  | signed | parameters => 3
  | indexed | parameter | typeDefinition | variableDefinition => 2
  | _ => 1

lemma lhs_shortest (n : Nonterminal) : n.shortest.lhs = n := by
  cases n <;> rfl

lemma level_pos (n : Nonterminal) : 0 < n.level := by
  cases n <;> decide

/-- The nonterminals of a shortest production stand lower than the one that it replaces. -/
lemma level_shortest (n : Nonterminal) :
    ∀ m, .rule m ∈ n.shortest.rhs → m.level < n.level := by
  revert n
  decide +kernel

end Nonterminal

/-- The nonterminals of a form. -/
def Form.rules : Form → List Nonterminal
  | [] => []
  | .token _ :: form => rules form
  | .rule n :: form => n :: rules form

/-- The nonterminals that are found by going through productions in order: those of a production are
found if the one that it replaces has been. -/
def Nonterminal.reach (found : List Nonterminal) : List Production → List Nonterminal
  | [] => found
  | p :: ps => reach (if p.lhs ∈ found then Form.rules p.rhs ++ found else found) ps

/-- The nonterminals of a form that come before its first token. -/
def Form.leading : Form → List Nonterminal
  | .rule n :: form => n :: leading form
  | _ => []

/-- The nonterminals that a production can begin with stand lower than the one that it replaces. -/
lemma Production.level_lt_of_mem_leading (p : Production) :
    ∀ m ∈ Form.leading p.rhs, m.level < p.lhs.level := by
  revert p
  decide +kernel

/-- No production holds the end of input. -/
lemma Production.endOfInput_notMem_rhs (p : Production) : .token .endOfInput ∉ p.rhs := by
  revert p
  decide +kernel

namespace Form

variable {form : Form} {n : Nonterminal} {ps : List Production} {kinds : List Kind}

/-- A form whose nonterminals all yield kinds yields kinds. -/
lemma exists_yields_of_rules (h : ∀ n, .rule n ∈ form → ∃ ps kinds, Yields [.rule n] ps kinds) :
    ∃ ps kinds, Yields form ps kinds := by
  induction form with
  | nil => exact ⟨[], [], .nil⟩
  | cons s form ih =>
    obtain ⟨ps, kinds, hy⟩ := ih fun n hn => h n (List.mem_cons_of_mem s hn)
    cases s with
    | token k => exact ⟨ps, k :: kinds, .token hy⟩
    | rule n =>
      obtain ⟨qs, kinds', hn⟩ := h n List.mem_cons_self
      exact ⟨qs ++ ps, kinds' ++ kinds, hn.append hy⟩

/-- Every nonterminal yields some kinds. -/
lemma exists_yields_rule (n : Nonterminal) : ∃ ps kinds, Yields [.rule n] ps kinds := by
  obtain ⟨ps, kinds, h⟩ := exists_yields_of_rules fun m hm =>
    have := n.level_shortest m hm
    exists_yields_rule m
  rw [← List.append_nil n.shortest.rhs] at h
  have hr := Yields.rule h
  rw [n.lhs_shortest] at hr
  exact ⟨_, _, hr⟩
termination_by n.level

/-- Every form yields some kinds. -/
lemma exists_yields (form : Form) : ∃ ps kinds, Yields form ps kinds :=
  exists_yields_of_rules fun n _ => exists_yields_rule n

/-- The end of input is never yielded by a form that does not hold it. -/
lemma Yields.endOfInput_notMem (h : Yields form ps kinds) (hf : .token .endOfInput ∉ form) :
    .endOfInput ∉ kinds := by
  induction h with
  | nil => simp
  | token _ ih =>
    simp only [List.mem_cons, not_or] at hf ⊢
    exact ⟨fun e => hf.1 (congrArg _ e), ih hf.2⟩
  | rule _ ih =>
    apply ih
    simp only [List.mem_cons, not_or, List.mem_append] at hf ⊢
    exact ⟨Production.endOfInput_notMem_rhs _, hf.2⟩

/-- The nonterminals of a form are the symbols of it that are no tokens. -/
lemma mem_rules : n ∈ rules form ↔ .rule n ∈ form := by
  induction form with
  | nil => simp [rules]
  | cons s form ih => cases s <;> simp [rules, ih]

end Form

namespace Nonterminal

variable {n m : Nonterminal} {p q : Production}

/-- A nonterminal uses a production if it has a leftmost derivation that the production is a part of. -/
def Uses (n : Nonterminal) (p : Production) : Prop :=
  ∃ ps kinds, Form.Yields [.rule n] ps kinds ∧ p ∈ ps

/-- Every production is used by the nonterminal that it replaces. -/
lemma uses_lhs (p : Production) : p.lhs.Uses p := by
  obtain ⟨ps, kinds, h⟩ := Form.exists_yields (p.rhs ++ [])
  exact ⟨p :: ps, kinds, .rule h, List.mem_cons_self⟩

/-- A nonterminal uses the productions that the nonterminals in one of its own use. -/
lemma Uses.of_mem_rhs (h : n.Uses p) (hn : .rule n ∈ q.rhs) : q.lhs.Uses p := by
  obtain ⟨before, after, e⟩ := List.append_of_mem hn
  obtain ⟨ps, kinds, hy, hp⟩ := h
  obtain ⟨ps₁, kinds₁, h₁⟩ := Form.exists_yields before
  obtain ⟨ps₂, kinds₂, h₂⟩ := Form.exists_yields after
  have hq : Form.Yields (q.rhs ++ []) (ps₁ ++ (ps ++ ps₂)) (kinds₁ ++ (kinds ++ kinds₂)) := by
    rw [e, List.append_nil]
    exact h₁.append (hy.append h₂)
  exact ⟨_, _, .rule hq, by simp [hp]⟩

/-- A nonterminal uses the productions of all that is reached, if it uses the productions of all that
the search starts from. -/
lemma Uses.of_mem_reach {found : List Nonterminal} {qs : List Production} (h : m.Uses p)
    (hm : m ∈ reach found qs) (hf : ∀ l ∈ found, l.Uses p → n.Uses p) : n.Uses p := by
  induction qs generalizing found with
  | nil => exact hf m hm h
  | cons q qs ih =>
    -- What is found at `q` is used by the nonterminal of `q`, which had been found before.
    refine ih hm fun l hl h => ?_
    split at hl
    · rename_i hq
      rcases List.mem_append.1 hl with hl | hl
      · exact hf q.lhs hq (h.of_mem_rhs (Form.mem_rules.1 hl))
      · exact hf l hl h
    · exact hf l hl h

end Nonterminal

end PinsSyntax
