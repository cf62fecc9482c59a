import Mathlib.Data.List.Induction
import PinsSyntax.Proofs.Grammar.Leftmost

/-!
# Brackets and comparisons

Kinds are balanced (`Balanced`) if their brackets stand in pairs, side by side or one inside the
other. `Nesting` is what there is to know at a place of a text: the brackets that are open there, and
whether there is a comparison directly inside the innermost of them that no separator has come behind
yet. `Nesting.enter` goes on by one token, and refuses a bracket that closes nothing or something
else, and a comparison behind a comparison.

* `Nesting.opened_of_enterAll`: a bracket that is open stands in front of kinds that are balanced.
* `Balanced.of_enterAll`: balanced kinds leave the brackets around them as they are, and behind them
  there is no comparison any more only if a separator stands directly among them.
* `Form.Fits.expand`: a form stays one that fits into a nesting when a nonterminal of it is replaced.
-/

namespace PinsSyntax

/-! ### Balanced kinds -/

/-- What a token is to the nesting of a text: it opens a pair of brackets, which is closed by the
bracket named, or closes one; or it stands between comparisons, or compares. -/
inductive Role where
  | opening (closer : Kind)
  | closing
  | separator
  | comparison
  | other
  deriving DecidableEq

namespace Kind

/-- The role of the tokens of a kind. -/
def role : Kind → Role
  | leftParen => .opening rightParen
  | leftBracket => .opening rightBracket
  | leftBrace => .opening rightBrace
  | rightParen | rightBracket | rightBrace => .closing
  | bar | ampersand | comma | semicolon | colon | equal | thenWord | elseWord | whereWord =>
    .separator
  | doubleEqual | bangEqual | lessEqual | greaterEqual | less | greater => .comparison
  | _ => .other

/-- Whether a kind opens or closes a pair of brackets. -/
def isBracket (k : Kind) : Bool :=
  match k.role with
  | .opening _ | .closing => true
  | _ => false

/-- A bracket that closes a pair has this role. -/
lemma role_closer {k c : Kind} (h : k.role = .opening c) : c.role = .closing := by
  cases k <;> cases h <;> rfl

end Kind

/-- Kinds with brackets in pairs only. -/
inductive Balanced : List Kind → Prop where
  | nil :
    Balanced []
  | cons {k kinds} :
    k.isBracket = false →
    Balanced kinds →
    Balanced (k :: kinds)
  | group {k c inside kinds} :
    k.role = .opening c →
    Balanced inside →
    Balanced kinds →
    Balanced (k :: inside ++ c :: kinds)

/-- The brackets that are open behind kinds, told by those that close them, from the innermost. -/
inductive Opened : List Kind → List Kind → Prop where
  | balanced {kinds} :
    Balanced kinds →
    Opened kinds []
  | bracket {outside closers k c inside} :
    Opened outside closers →
    k.role = .opening c →
    Balanced inside →
    Opened (outside ++ k :: inside) (c :: closers)

variable {k c : Kind} {kinds kinds' closers : List Kind}

lemma Balanced.append (h : Balanced kinds) (h' : Balanced kinds') : Balanced (kinds ++ kinds') := by
  induction h with
  | nil => exact h'
  | cons hk _ ih => exact .cons hk ih
  | group hk hi _ _ ih =>
    rw [List.append_assoc]
    exact .group hk hi ih

/-- Balanced kinds open nothing. -/
lemma Opened.append (h : Opened kinds closers) (h' : Balanced kinds') :
    Opened (kinds ++ kinds') closers := by
  cases h with
  | balanced h => exact .balanced (h.append h')
  | bracket h hk hi =>
    rw [List.append_assoc]
    exact .bracket h hk (hi.append h')

/-- The innermost bracket that is open is closed. -/
lemma Opened.close (h : Opened kinds (c :: closers)) : Opened (kinds ++ [c]) closers := by
  cases h with
  | bracket h hk hi =>
    rw [List.append_assoc]
    exact h.append (.group hk hi .nil)

/-- Where nothing is open, the kinds are balanced. -/
lemma Opened.balanced_of_nil (h : Opened kinds []) : Balanced kinds := by
  cases h with
  | balanced h => exact h

/-- The innermost bracket that is open stands in front of balanced kinds. -/
lemma Opened.exists_bracket (h : Opened kinds (c :: closers)) :
    ∃ outside k inside, kinds = outside ++ k :: inside ∧ k.role = .opening c ∧ Balanced inside := by
  cases h with
  | bracket _ hk hi => exact ⟨_, _, _, rfl, hk, hi⟩

/-! ### The nesting at a place -/

/-- The nesting at a place of a text: whether a comparison stands directly inside the same brackets,
with no separator behind it, and the same for each pair of brackets around, told with the bracket that
closes the pair inside. -/
structure Nesting where
  compared : Bool
  outer : List (Kind × Bool)

namespace Nesting

/-- The nesting at the beginning of a text. -/
def outermost : Nesting := ⟨false, []⟩

/-- The nesting behind a token. -/
def enter (s : Nesting) (k : Kind) : Option Nesting :=
  match k.role with
  | .opening c => some ⟨false, (c, s.compared) :: s.outer⟩
  | .closing =>
    match s.outer with
    | (c, compared) :: outer => if k = c then some ⟨compared, outer⟩ else none
    | [] => none
  | .separator => some ⟨false, s.outer⟩
  | .comparison => if s.compared then none else some ⟨true, s.outer⟩
  | .other => some s

/-- The nesting behind tokens. -/
def enterAll (s : Nesting) (kinds : List Kind) : Option Nesting := kinds.foldlM enter s

variable {s s' : Nesting}

lemma enterAll_append : s.enterAll (kinds ++ kinds') = (s.enterAll kinds).bind (·.enterAll kinds') :=
  List.foldlM_append

lemma enterAll_cons : s.enterAll (k :: kinds) = (s.enter k).bind (·.enterAll kinds) :=
  List.foldlM_cons

/-- Tokens are let through if the first ones are, and the next one behind them, and so on. -/
lemma exists_of_enterAll (h : s.enterAll (kinds ++ k :: kinds') = some s') :
    ∃ s₁ s₂, s.enterAll kinds = some s₁ ∧ s₁.enter k = some s₂ ∧ s₂.enterAll kinds' = some s' := by
  rw [enterAll_append] at h
  obtain ⟨s₁, h₁, h⟩ := Option.bind_eq_some_iff.1 h
  rw [enterAll_cons] at h
  obtain ⟨s₂, h₂, h⟩ := Option.bind_eq_some_iff.1 h
  exact ⟨s₁, s₂, h₁, h₂, h⟩

lemma enter_opening (hk : k.role = .opening c) :
    s.enter k = some ⟨false, (c, s.compared) :: s.outer⟩ := by
  rw [enter, hk]

/-- Only the bracket that closes the innermost pair is let through, and the state of what is around
comes back. -/
lemma enter_closing (hk : k.role = .closing) (h : s.enter k = some s') :
    ∃ compared outer, s.outer = (k, compared) :: outer ∧ s' = ⟨compared, outer⟩ := by
  rw [enter, hk] at h
  cases ho : s.outer with
  | nil => simp [ho] at h
  | cons level outer =>
    obtain ⟨c, compared⟩ := level
    simp only [ho, Option.ite_none_right_eq_some, Option.some.injEq] at h
    obtain ⟨rfl, rfl⟩ := h
    exact ⟨compared, outer, rfl, rfl⟩

/-- A comparison is let through only if there is none before it. -/
lemma enter_comparison (hk : k.role = .comparison) (h : s.enter k = some s') :
    s.compared = false ∧ s' = ⟨true, s.outer⟩ := by
  rw [enter, hk] at h
  cases hs : s.compared with
  | true => simp [hs] at h
  | false =>
    simp only [hs, Bool.false_eq_true, if_false, Option.some.injEq] at h
    exact ⟨rfl, h.symm⟩

/-- What is no bracket opens and closes nothing, and it ends the effect of a comparison only if it is
a separator. -/
lemma enter_plain (hb : k.isBracket = false) (h : s.enter k = some s') :
    s'.outer = s.outer ∧ (s.compared = true → s'.compared = true ∨ k.role = .separator) := by
  cases hk : k.role with
  | opening c => simp [Kind.isBracket, hk] at hb
  | closing => simp [Kind.isBracket, hk] at hb
  | separator =>
    rw [enter, hk] at h
    cases h
    exact ⟨rfl, fun _ => .inr rfl⟩
  | comparison =>
    obtain ⟨-, rfl⟩ := enter_comparison hk h
    exact ⟨rfl, fun _ => .inl rfl⟩
  | other =>
    rw [enter, hk] at h
    cases h
    exact ⟨rfl, .inl⟩

/-- Behind kinds that are let through, the brackets of the nesting are open. -/
lemma opened_of_enterAll (h : outermost.enterAll kinds = some s) :
    Opened kinds (s.outer.map Prod.fst) := by
  induction kinds using List.reverseRecOn generalizing s with
  | nil =>
    cases h
    exact .balanced .nil
  | append_singleton kinds k ih =>
    obtain ⟨s₀, _, h₀, h, hs⟩ := exists_of_enterAll h
    cases hs
    have hopen := ih h₀
    cases hk : k.role with
    | opening c =>
      rw [enter_opening hk] at h
      cases h
      exact .bracket hopen hk .nil
    | closing =>
      obtain ⟨compared, outer, hs, rfl⟩ := enter_closing hk h
      rw [hs] at hopen
      exact hopen.close
    | _ =>
      have hb : k.isBracket = false := by rw [Kind.isBracket, hk]
      rw [(enter_plain hb h).1]
      exact hopen.append (.cons hb .nil)

end Nesting

/-- Balanced kinds leave the brackets around them as they are. Where there was a comparison before
them and none is behind them, a separator stands among them, directly inside the same brackets. -/
lemma Balanced.of_enterAll {s s' : Nesting} (hb : Balanced kinds) (h : s.enterAll kinds = some s') :
    s'.outer = s.outer ∧ (s.compared = true → s'.compared = false →
      ∃ left k right, kinds = left ++ k :: right ∧ k.role = .separator ∧ Balanced left ∧
        Balanced right) := by
  induction hb generalizing s s' with
  | nil =>
    cases h
    exact ⟨rfl, fun ht hf => absurd (ht.symm.trans hf) (by decide)⟩
  | @cons k kinds hk hb ih =>
    rw [Nesting.enterAll_cons] at h
    obtain ⟨s₁, h₁, h⟩ := Option.bind_eq_some_iff.1 h
    obtain ⟨hs, hc⟩ := Nesting.enter_plain hk h₁
    obtain ⟨hs', hsep⟩ := ih h
    refine ⟨hs'.trans hs, fun ht hf => ?_⟩
    obtain ht₁ | hsep' := hc ht
    · obtain ⟨left, k', right, rfl, hk', hl, hr⟩ := hsep ht₁ hf
      exact ⟨k :: left, k', right, rfl, hk', .cons hk hl, hr⟩
    · exact ⟨[], k, kinds, rfl, hsep', .nil, hb⟩
  | @group k c inside kinds hk hi _ ihi ih =>
    -- The state from before the group comes back behind it.
    obtain ⟨s₁, s₂, h₁, h₂, h⟩ := Nesting.exists_of_enterAll h
    rw [Nesting.enterAll_cons, Nesting.enter_opening hk] at h₁
    obtain ⟨hs₁, -⟩ := ihi h₁
    obtain ⟨compared, outer, hs₁', rfl⟩ := Nesting.enter_closing (Kind.role_closer hk) h₂
    rw [hs₁] at hs₁'
    cases hs₁'
    obtain ⟨hs', hsep⟩ := ih h
    refine ⟨hs', fun ht hf => ?_⟩
    obtain ⟨left, k', right, rfl, hk', hl, hr⟩ := hsep ht hf
    exact ⟨k :: inside ++ c :: left, k', right, by simp, hk', .group hk hi hl, hr⟩

/-! ### Forms that fit -/

/-- What the tokens of a nonterminal do to the nesting at the place where they stand. -/
inductive Effect where
  /-- No comparison and no separator stands directly among the tokens of an operand. -/
  | operand
  /-- The brackets around a phrase are as they were. If it is `fresh`, it may hold a comparison before
  any separator. -/
  | phrase (fresh : Bool)
  /-- The brace that is open is closed. -/
  | closing (fresh : Bool)

namespace Nonterminal

/-- The effect of a nonterminal. -/
def effect : Nonterminal → Effect
  | sum | sumTail | product | productTail | signed | indexed | indexedTail | atom | callTail =>
    .operand
  | expression | disjunction | conjunction | comparison | comparisonTail | expressions =>
    .phrase true
  | braced => .closing true
  | conditionalTail | bracedTail => .closing false
  | _ => .phrase false

end Nonterminal

namespace Form

/-- A form fits into a nesting if its tokens are let through, whatever replaces its nonterminals
according to their effect, and close all brackets. -/
def Fits : Form → Nesting → Prop
  | [], s => s.outer = []
  | .token k :: form, s => ∃ s', s.enter k = some s' ∧ Fits form s'
  | .rule n :: form, s =>
    match n.effect with
    | .operand => Fits form s
    | .phrase fresh =>
      (fresh = true → s.compared = false) ∧ ∀ compared, Fits form ⟨compared, s.outer⟩
    | .closing fresh =>
      (fresh = true → s.compared = false) ∧
        match s.outer with
        | (c, compared) :: outer => c = .rightBrace ∧ Fits form ⟨compared, outer⟩
        | [] => False

/-- A production keeps to the effect of its nonterminal. -/
lemma Fits.expand {p : Production} {form : Form} {s : Nesting} (h : Fits (.rule p.lhs :: form) s) :
    Fits (p.rhs ++ form) s := by
  obtain ⟨compared, outer⟩ := s
  -- Each production goes through its symbols; those that close a brace need one that is open.
  cases p with
  | definition x | simpleType x | compared x | moreTerms x | moreFactors x | signed x | constant x =>
    cases x <;>
      simp_all [-Bool.forall_bool, Fits, Production.rhs, Production.lhs, Nonterminal.effect,
        Nesting.enter, Kind.role, SimpleType.kind, Comparison.kind, SumOperator.kind,
        ProductOperator.kind, Sign.kind, Constant.kind]
  | whileLoop | forLoop | conditional | bracedExpression | elseBranch | noElse | assignment
  | whereBlock | closingBrace =>
    cases outer with
    | nil => exact h.2.elim
    | cons level outer =>
      obtain ⟨hf, hc, h⟩ := h
      simp_all [-Bool.forall_bool, Fits, Production.rhs, Nonterminal.effect, Nesting.enter,
        Kind.role]
  | _ =>
    simp_all [-Bool.forall_bool, Fits, Production.rhs, Production.lhs, Nonterminal.effect,
      Nesting.enter, Kind.role]

end Form

end PinsSyntax
