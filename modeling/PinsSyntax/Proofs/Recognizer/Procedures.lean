import PinsSyntax.Proofs.Recognizer.Following
import PinsSyntax.Recognizer.Run

/-!
# The recognizers follow the grammar

Each recognizer of a phrase follows the nonterminal of the phrase, and so does the whole recognizer
with the nonterminal that its entry starts from.
-/

namespace PinsSyntax.Recognizer

variable {σ : Type} {env : Surroundings σ} {n : Nat} {nested : Recognizer σ Unit}

/-- The productions of a chain: operands of the nonterminal `operand`, and tails that a separator
opens or that are empty. -/
structure ChainRules (stage : Stage) (head operand tail : Nonterminal) (operandRule : Production)
    (separator : Kind → Option Production) (lastRule : Production) : Prop where
  stage_head : head.stage? = some stage
  stage_tail : tail.stage? = none
  choose_head : ∀ k, head.choose k = .ok operandRule
  rhs_head : operandRule.rhs = [.rule operand, .rule tail]
  choose_tail : ∀ k, tail.choose k = .ok ((separator k).getD lastRule)
  rhs_separator : ∀ k p, separator k = some p → p.rhs = [.token k, .rule head]
  separator_ne_end : ∀ k p, separator k = some p → k ≠ .endOfInput
  rhs_last : lastRule.rhs = []

/-- A chain follows its nonterminal if its operands follow theirs. -/
lemma Runs.chain {stage : Stage} {head operand tail : Nonterminal}
    {operandRule lastRule : Production} {separator : Kind → Option Production}
    {x : Recognizer σ Unit}
    (rules : ChainRules stage head operand tail operandRule separator lastRule)
    (hb : n ≤ env.bound) (hx : Runs env n x [.rule operand]) :
    Runs env n (chain stage operandRule x separator lastRule) [.rule head] := by
  refine .loop hb fun m hm again ha => ?_
  simp only [bind_assoc]
  -- One round reads an operand and its tail, and a tail that a separator opens holds another chain.
  refine .began_apply rules.stage_head rules.choose_head ?_
  rw [rules.rhs_head]
  refine (hx.mono hm).bind (.of_at fun k => .peek fun t ht => ?_)
  have hc := rules.choose_tail k
  cases hs : separator k with
  | none =>
    rw [hs] at hc
    simp only [ht, hs, bind_assoc, pure_bind, Bool.false_eq_true, if_false, bind_pure_unit]
    exact .apply_nil rules.stage_tail hc rules.rhs_last
  | some p =>
    rw [hs] at hc
    simp only [ht, hs, bind_assoc, pure_bind, if_true]
    refine .apply rules.stage_tail hc ?_
    rw [rules.rhs_separator k p hs]
    exact .take (rules.separator_ne_end k p hs) ha

/-! ### Types and definitions -/

lemma type_runs (hb : n ≤ env.bound) : Runs env n type [.rule .type] := by
  refine .loop_bind hb fun m _ again ha => .of_at fun k => ?_
  rw [bind_assoc]
  refine .began_peek fun t ht => ?_
  by_cases hk : k = .arrWord
  · have hc : Nonterminal.choose .type k = .ok .arrayType := by rw [hk]; rfl
    simp only [ht, if_pos hk, bind_assoc, pure_bind, if_true]
    refine .began_apply rfl hc ?_
    cases hk
    exact .take (by decide) <| (Runs.expect (by decide)).bind <|
      (Runs.expect (by decide)).bind <| (Runs.expect (by decide)).bind ha
  · simp only [ht, if_neg hk, pure_bind, Bool.false_eq_true, if_false]
    refine .began_peek fun u hu => ?_
    cases hs : SimpleType.ofKind? k with
    | some st =>
      have hc : Nonterminal.choose .type k = .ok (.simpleType st) := by
        simp only [Nonterminal.choose, if_neg hk, hs]
      simp only [hu, hs]
      refine .began_apply rfl hc ?_
      cases SimpleType.ofKind?_eq_some_iff.1 hs
      exact .take_nil (by cases st <;> decide)
    | none =>
      have hc : Nonterminal.choose .type k = .error .type := by
        simp only [Nonterminal.choose, if_neg hk, hs]
      simp only [hu, hs]
      exact .began_unexpected rfl hc

lemma typeDefinition_runs (hb : n ≤ env.bound) :
    Runs env n typeDefinition [.rule .typeDefinition] :=
  .apply rfl (fun _ => rfl) <| (Runs.expect (by decide)).bind <| (Runs.expect (by decide)).bind <|
    (Runs.expect (by decide)).bind <| type_runs hb

lemma variableDefinition_runs (hb : n ≤ env.bound) :
    Runs env n variableDefinition [.rule .variableDefinition] :=
  .apply rfl (fun _ => rfl) <| (Runs.expect (by decide)).bind <| (Runs.expect (by decide)).bind <|
    (Runs.expect (by decide)).bind <| type_runs hb

lemma parameter_runs (hb : n ≤ env.bound) : Runs env n parameter [.rule .parameter] :=
  .apply rfl (fun _ => rfl) <| (Runs.expect (by decide)).bind <| (Runs.expect (by decide)).bind <|
    type_runs hb

/-- The productions of a chain with one separator only. -/
lemma chainRules_only {stage : Stage} {head operand tail : Nonterminal}
    {operandRule p lastRule : Production} {k : Kind} (stage_head : head.stage? = some stage)
    (stage_tail : tail.stage? = none) (choose_head : ∀ k, head.choose k = .ok operandRule)
    (rhs_head : operandRule.rhs = [.rule operand, .rule tail])
    (choose_tail : ∀ found, tail.choose found = .ok (if found = k then p else lastRule))
    (rhs_separator : p.rhs = [.token k, .rule head]) (hk : k ≠ .endOfInput)
    (rhs_last : lastRule.rhs = []) :
    ChainRules stage head operand tail operandRule (only k p) lastRule where
  stage_head := stage_head
  stage_tail := stage_tail
  choose_head := choose_head
  rhs_head := rhs_head
  choose_tail found := by
    rw [choose_tail, only]
    split <;> rfl
  rhs_separator found q h := by
    obtain ⟨rfl, hq⟩ := Option.ite_none_right_eq_some.1 h
    cases hq
    exact rhs_separator
  separator_ne_end found q h := by
    obtain ⟨rfl, -⟩ := Option.ite_none_right_eq_some.1 h
    exact hk
  rhs_last := rhs_last

lemma parameters_runs (hb : n ≤ env.bound) : Runs env n parameters [.rule .parameters] :=
  .chain (chainRules_only rfl rfl (fun _ => rfl) rfl (fun _ => rfl) rfl (by decide) rfl) hb
    (parameter_runs hb)

lemma functionDefinition_runs (hb : n ≤ env.bound) (hx : Runs env n nested [.rule .expression]) :
    Runs env n (functionDefinition nested) [.rule .functionDefinition] :=
  .apply rfl (fun _ => rfl) <| (Runs.expect (by decide)).bind <| (Runs.expect (by decide)).bind <|
    (Runs.expect (by decide)).bind <| (parameters_runs hb).bind <|
    (Runs.expect (by decide)).bind <| (Runs.expect (by decide)).bind <| (type_runs hb).bind <|
    (Runs.expect (by decide)).bind hx

lemma definition_runs (hb : n ≤ env.bound) (hx : Runs env n nested [.rule .expression]) :
    Runs env n (definition nested) [.rule .definition] := by
  refine .of_at fun k => .peek fun t ht => ?_
  cases hs : DefinitionSort.ofKind? k with
  | some sort =>
    have hc : Nonterminal.choose .definition k = .ok (.definition sort) := by
      simp only [Nonterminal.choose, hs]
    simp only [ht, hs]
    refine .apply rfl hc ?_
    cases sort with
    | ofType => exact (typeDefinition_runs hb).at
    | ofVariable => exact (variableDefinition_runs hb).at
    | ofFunction => exact (functionDefinition_runs hb hx).at
  | none =>
    have hc : Nonterminal.choose .definition k = .error .definition := by
      simp only [Nonterminal.choose, hs]
    simp only [ht, hs]
    exact .unexpected rfl hc

lemma definitions_runs (hb : n ≤ env.bound) (hx : Runs env n nested [.rule .expression]) :
    Runs env n (definitions nested) [.rule .definitions] := by
  refine .loop hb fun m hm again ha => ?_
  simp only [bind_assoc]
  refine .began_apply rfl (fun _ => rfl) ?_
  refine ((definition_runs hb hx).mono hm).bind (.of_at fun k => .peek fun t ht => ?_)
  have hc : Nonterminal.choose .definitionsTail k =
      .ok (if k = .semicolon then .semicolon else .noSemicolon) := rfl
  by_cases hk : k = .semicolon
  · rw [if_pos hk] at hc
    simp only [ht, if_pos hk, bind_assoc]
    refine .apply rfl hc ?_
    cases hk
    refine .take (by decide) (.of_at fun k => .peek fun u hu => ?_)
    have hc : Nonterminal.choose .definitionsRest k =
      .ok (if (DefinitionSort.ofKind? k).isSome then .moreDefinitions else .lastDefinition) := rfl
    by_cases hs : (DefinitionSort.ofKind? k).isSome
    · rw [if_pos hs] at hc
      simp only [hu, if_pos hs, bind_assoc, pure_bind, if_true]
      exact .apply rfl hc ha.at
    · rw [if_neg hs] at hc
      simp only [hu, if_neg hs, bind_assoc, pure_bind, Bool.false_eq_true, if_false,
        bind_pure_unit]
      exact .apply_nil rfl hc rfl
  · rw [if_neg hk] at hc
    simp only [ht, if_neg hk, bind_assoc, pure_bind, Bool.false_eq_true, if_false, bind_pure_unit]
    exact .apply_nil rfl hc rfl

/-! ### Expressions -/

lemma expressions_runs (hb : n ≤ env.bound) (hx : Runs env n nested [.rule .expression]) :
    Runs env n (expressions nested) [.rule .expressions] :=
  .chain (chainRules_only rfl rfl (fun _ => rfl) rfl (fun _ => rfl) rfl (by decide) rfl) hb hx

lemma callTail_runs (hb : n ≤ env.bound) (hx : Runs env n nested [.rule .expression]) :
    Runs env n (callTail nested) [.rule .callTail] := by
  refine .of_at fun k => .peek fun t ht => ?_
  have hc : Nonterminal.choose .callTail k =
      .ok (if k = .leftParen then .arguments else .noArguments) := rfl
  by_cases hk : k = .leftParen
  · rw [if_pos hk] at hc
    simp only [ht, if_pos hk]
    refine .apply rfl hc ?_
    cases hk
    exact .take_bind (by decide) <| (expressions_runs hb hx).bind <|
      Runs.expect (by decide)
  · rw [if_neg hk] at hc
    simp only [ht, if_neg hk]
    exact .apply_nil rfl hc rfl

lemma conditionalTail_runs (hx : Runs env n nested [.rule .expression]) :
    Runs env n (conditionalTail nested) [.rule .conditionalTail] := by
  refine .of_at fun k => .peek fun t ht => ?_
  simp only [ht]
  split
  · refine .apply rfl rfl ?_
    exact .take_bind (by decide) <| hx.bind <| Runs.expect (by decide)
  · exact .apply rfl rfl (.take_nil (by decide))
  · refine .unexpected rfl ?_
    simp only [Nonterminal.choose]

lemma bracedTail_runs (hb : n ≤ env.bound) (hx : Runs env n nested [.rule .expression]) :
    Runs env n (bracedTail nested) [.rule .bracedTail] := by
  refine .of_at fun k => .peek fun t ht => ?_
  simp only [ht]
  split
  · refine .apply rfl rfl ?_
    exact .take_bind (by decide) <| hx.bind <| Runs.expect (by decide)
  · refine .apply rfl rfl ?_
    exact .take_bind (by decide) <| (definitions_runs hb hx).bind <|
      Runs.expect (by decide)
  · exact .apply rfl rfl (.take_nil (by decide))
  · refine .unexpected rfl ?_
    simp only [Nonterminal.choose]

lemma braced_runs (hb : n ≤ env.bound) (hx : Runs env n nested [.rule .expression]) :
    Runs env n (braced nested) [.rule .braced] := by
  refine .of_at fun k => .peek fun t ht => ?_
  simp only [ht]
  split
  · refine .apply rfl rfl ?_
    exact .take_bind (by decide) <| hx.bind <| (Runs.expect (by decide)).bind <| hx.bind <|
      Runs.expect (by decide)
  · refine .apply rfl rfl ?_
    exact .take_bind (by decide) <| (Runs.expect (by decide)).bind <|
      (Runs.expect (by decide)).bind <| hx.bind <| (Runs.expect (by decide)).bind <| hx.bind <|
      (Runs.expect (by decide)).bind <| hx.bind <| (Runs.expect (by decide)).bind <| hx.bind <|
      Runs.expect (by decide)
  · refine .apply rfl rfl ?_
    exact .take_bind (by decide) <| hx.bind <| (Runs.expect (by decide)).bind <| hx.bind <|
      conditionalTail_runs hx
  · refine .apply (p := .bracedExpression) rfl ?_ (hx.bind (bracedTail_runs hb hx)).at
    simp only [Nonterminal.choose]

lemma atom_runs (hb : n ≤ env.bound) (hx : Runs env n nested [.rule .expression]) :
    Runs env (n + 1) (atom nested) [.rule .atom] := by
  refine .of_at fun k => .peek fun t ht => ?_
  cases hs : Constant.ofKind? k with
  | some c =>
    have hc : Nonterminal.choose .atom k = .ok (.constant c) := by simp only [Nonterminal.choose, hs]
    simp only [ht, hs]
    refine .apply rfl hc ?_
    cases Constant.ofKind?_eq_some_iff.1 hs
    exact .take_nil (by cases c <;> decide)
  | none =>
    simp only [ht, hs]
    split
    · contradiction
    · exact .apply rfl rfl (.take (by decide) (callTail_runs hb hx))
    · exact .apply rfl rfl (.take (by decide) <| (expressions_runs hb hx).bind <|
        Runs.expect (by decide))
    · exact .apply rfl rfl (.take (by decide) (braced_runs hb hx))
    · refine .unexpected rfl ?_
      simp only [Nonterminal.choose, hs]

lemma indexed_runs (hb : n + 1 ≤ env.bound) (hx : Runs env n nested [.rule .expression]) :
    Runs env (n + 1) (indexed nested) [.rule .indexed] := by
  refine .apply rfl (fun _ => rfl) ((atom_runs (Nat.le_of_succ_le hb) hx).bind ?_)
  refine .loop_bind hb fun m hm again ha => .of_at fun k => ?_
  rw [bind_assoc]
  refine .began_peek fun t ht => ?_
  have hc : Nonterminal.choose .indexedTail k =
      .ok (if k = .leftBracket then .index else .lastIndex) := rfl
  by_cases hk : k = .leftBracket
  · rw [if_pos hk] at hc
    simp only [ht, if_pos hk, bind_assoc, pure_bind, if_true]
    refine .began_apply rfl hc ?_
    cases hk
    exact .take (by decide) <| (hx.mono (Nat.le_of_lt_succ hm)).bind <|
      (Runs.expect (by decide)).bind ha
  · rw [if_neg hk] at hc
    simp only [ht, if_neg hk, pure_bind, Bool.false_eq_true, if_false]
    exact .began_apply_nil rfl hc rfl

lemma signed_runs (hb : n + 1 ≤ env.bound) (hx : Runs env n nested [.rule .expression]) :
    Runs env (n + 1) (signed nested) [.rule .signed] := by
  refine .loop hb fun m hm again ha => .of_at fun k => ?_
  rw [bind_assoc]
  refine .began_peek fun t ht => ?_
  have hc : Nonterminal.choose .signed k =
      .ok (((Sign.ofKind? k).map .signed).getD .unsigned) := rfl
  cases hs : Sign.ofKind? k with
  | some sign =>
    rw [hs] at hc
    simp only [ht, hs, bind_assoc, pure_bind, if_true]
    refine .began_apply rfl hc ?_
    cases Sign.ofKind?_eq_some_iff.1 hs
    exact .take (by cases sign <;> decide) ha
  | none =>
    rw [hs] at hc
    simp only [ht, hs, bind_assoc, pure_bind, Bool.false_eq_true, if_false, bind_pure_unit]
    exact .began_apply rfl hc ((indexed_runs hb hx).mono hm).at

/-- The productions of a chain whose separators are a family of operators. -/
lemma chainRules_family {Operator : Type} {stage : Stage} {head operand tail : Nonterminal}
    {operandRule lastRule : Production} {rule : Operator → Production} {kind : Operator → Kind}
    {ofKind? : Kind → Option Operator} (stage_head : head.stage? = some stage)
    (stage_tail : tail.stage? = none) (choose_head : ∀ k, head.choose k = .ok operandRule)
    (rhs_head : operandRule.rhs = [.rule operand, .rule tail])
    (choose_tail : ∀ k, tail.choose k = .ok (((ofKind? k).map rule).getD lastRule))
    (rhs_rule : ∀ op, (rule op).rhs = [.token (kind op), .rule head])
    (kind_of_ofKind? : ∀ k op, ofKind? k = some op → kind op = k)
    (kind_ne_end : ∀ op, kind op ≠ .endOfInput) (rhs_last : lastRule.rhs = []) :
    ChainRules stage head operand tail operandRule (fun k => (ofKind? k).map rule) lastRule where
  stage_head := stage_head
  stage_tail := stage_tail
  choose_head := choose_head
  rhs_head := rhs_head
  choose_tail := choose_tail
  rhs_separator k p h := by
    obtain ⟨op, hop, rfl⟩ := Option.map_eq_some_iff.1 h
    cases kind_of_ofKind? k op hop
    exact rhs_rule op
  separator_ne_end k p h := by
    obtain ⟨op, hop, rfl⟩ := Option.map_eq_some_iff.1 h
    cases kind_of_ofKind? k op hop
    exact kind_ne_end op
  rhs_last := rhs_last

lemma product_runs (hb : n + 1 ≤ env.bound) (hx : Runs env n nested [.rule .expression]) :
    Runs env (n + 1) (product nested) [.rule .product] :=
  .chain (chainRules_family rfl rfl (fun _ => rfl) rfl (fun _ => rfl) (fun _ => rfl)
    (fun _ _ => ProductOperator.ofKind?_eq_some_iff.1) (by intro op; cases op <;> decide) rfl) hb
    (signed_runs hb hx)

lemma sum_runs (hb : n + 1 ≤ env.bound) (hx : Runs env n nested [.rule .expression]) :
    Runs env (n + 1) (sum nested) [.rule .sum] :=
  .chain (chainRules_family rfl rfl (fun _ => rfl) rfl (fun _ => rfl) (fun _ => rfl)
    (fun _ _ => SumOperator.ofKind?_eq_some_iff.1) (by intro op; cases op <;> decide) rfl) hb
    (product_runs hb hx)

lemma comparison_runs (hb : n + 1 ≤ env.bound) (hx : Runs env n nested [.rule .expression]) :
    Runs env (n + 1) (comparison nested) [.rule .comparison] := by
  refine .apply rfl (fun _ => rfl) ((sum_runs hb hx).bind (.of_at fun k => .peek fun t ht => ?_))
  have hc : Nonterminal.choose .comparisonTail k =
      .ok (((Comparison.ofKind? k).map .compared).getD .notCompared) := rfl
  cases hs : Comparison.ofKind? k with
  | some op =>
    rw [hs] at hc
    simp only [ht, hs]
    refine .apply rfl hc ?_
    cases Comparison.ofKind?_eq_some_iff.1 hs
    exact .take_bind (by cases op <;> decide) (sum_runs hb hx)
  | none =>
    rw [hs] at hc
    simp only [ht, hs]
    exact .apply_nil rfl hc rfl

lemma conjunction_runs (hb : n + 1 ≤ env.bound) (hx : Runs env n nested [.rule .expression]) :
    Runs env (n + 1) (conjunction nested) [.rule .conjunction] :=
  .chain (chainRules_only rfl rfl (fun _ => rfl) rfl (fun _ => rfl) rfl (by decide) rfl) hb
    (comparison_runs hb hx)

lemma disjunction_runs (hb : n + 1 ≤ env.bound) (hx : Runs env n nested [.rule .expression]) :
    Runs env (n + 1) (disjunction nested) [.rule .disjunction] :=
  .chain (chainRules_only rfl rfl (fun _ => rfl) rfl (fun _ => rfl) rfl (by decide) rfl) hb
    (conjunction_runs hb hx)

/-- An expression cannot be nested as deeply as there are tokens, so the depth is never used up. -/
lemma expression_runs (hb : n ≤ env.bound) : Runs env n (expression n) [.rule .expression] := by
  induction n with
  | zero => exact .zero
  | succ n ih =>
    refine .began_apply rfl (fun _ => rfl) ?_
    exact disjunction_runs hb (ih (Nat.le_of_succ_le hb))

end PinsSyntax.Recognizer
