import PinsSyntax.Proofs.Grammar.Nesting
import PinsSyntax.Proofs.Recognizer.ErrorPlace

/-!
# Brackets and comparisons in what is read

As long as a form reads, what it has gone past is let through by the nesting, and what is left of it
fits into the nesting that it has come to (`Form.Reads.fits`). So in a sequence that is accepted the
brackets stand in pairs, and in front of an error no bracket has been closed that was not the
innermost one (`recognize_brackets`); and no two comparisons are accepted directly inside the same
brackets without a separator between them (`comparisons_separated`).
-/

namespace PinsSyntax

open Token (Closed)

variable {entry : Entry} {form form' : Form} {tokens tokens' : List Token} {log : List Event}
  {s s' : Nesting}

/-- A form that fits lets through what it reads, and still fits behind it. -/
lemma Form.Reads.fits (h : Reads form tokens log form' tokens') (hf : Fits form s) :
    ∃ s', s.enterAll ((Event.tokens log).map Token.kind) = some s' ∧ Fits form' s' := by
  induction h generalizing s with
  | refl => exact ⟨s, rfl, hf⟩
  | @token k t _ _ log _ _ hk _ ih =>
    cases hk
    obtain ⟨s₁, h₁, hf⟩ := hf
    obtain ⟨s', h', hf'⟩ := ih hf
    refine ⟨s', ?_, hf'⟩
    show s.enterAll (t.kind :: (Event.tokens log).map Token.kind) = some s'
    rw [Nesting.enterAll_cons, h₁]
    exact h'
  | rule hc _ ih =>
    cases Nonterminal.lhs_of_choose hc
    exact ih hf.expand

/-- What an entry starts from fits into a text of its own. -/
lemma Entry.fits_start (entry : Entry) : Form.Fits [.rule entry.start] .outermost := by
  cases entry with
  | program => exact ⟨nofun, fun _ => rfl⟩
  | expression => exact ⟨fun _ => rfl, fun _ => rfl⟩

namespace Reading

/-- What a reading has gone past is let through. -/
lemma exists_enterAll (r : Reading [.rule entry.start] tokens) :
    ∃ s, Nesting.outermost.enterAll (r.before.map Token.kind) = some s ∧ Form.Fits r.rest s :=
  r.reads.fits entry.fits_start

end Reading

/-- An accepted sequence is let through and leaves no bracket open. -/
lemma exists_enterAll_of_ok (ok : recognize entry tokens = .ok ()) :
    ∃ s, Nesting.outermost.enterAll (tokens.map Token.kind) = some s ∧ s.outer = [] := by
  have h := closed_of_recognize_ok ok
  obtain ⟨r⟩ := Reading.exists_of_closed entry h
  rw [r.recognize_eq h] at ok
  obtain ⟨hrest, he⟩ := r.verdict_eq_ok_iff.1 ok
  obtain ⟨s, hs, hf⟩ := r.exists_enterAll
  rw [hrest] at hf
  refine ⟨s, ?_, hf⟩
  have hb : r.behind = [] := (r.closed h).1.behind_eq_nil he
  have hk := congrArg (List.map Token.kind) r.tokens_eq
  rw [hb, List.map_append, List.map_singleton, eq_of_beq he] at hk
  rw [hk, Nesting.enterAll_append, hs]
  rfl

/-- The brackets of an accepted sequence stand in pairs. -/
lemma balanced_of_recognize_ok (ok : recognize entry tokens = .ok ()) :
    Balanced (tokens.map Token.kind) := by
  obtain ⟨s, hs, ho⟩ := exists_enterAll_of_ok ok
  have h := Nesting.opened_of_enterAll hs
  rw [ho] at h
  exact h.balanced_of_nil

/-- In an accepted sequence the brackets stand in pairs, side by side or one inside the other. The
tokens in front of an error begin such a sequence: each bracket among them that closes something
closes the one that has been opened last and is still open, as what stands between the two is
balanced. -/
theorem recognize_brackets (entry : Entry) (tokens : List Token) :
    (recognize entry tokens = .ok () → Balanced (tokens.map Token.kind)) ∧
    ∀ e, Closed tokens → recognize entry tokens = .error e →
      ∃ before t behind, tokens = before ++ t :: behind ∧
        (run (fun _ => id) entry tokens ()).taken = before.length ∧
        (∃ rest, recognize entry (before ++ rest) = .ok () ∧
          Balanced ((before ++ rest).map Token.kind)) ∧
        ∀ kinds c kinds', before.map Token.kind = kinds ++ c :: kinds' → c.role = .closing →
          ∃ outside k inside, kinds = outside ++ k :: inside ∧ k.role = .opening c ∧
            Balanced inside := by
  refine ⟨balanced_of_recognize_ok, fun e h he => ?_⟩
  obtain ⟨r⟩ := Reading.exists_of_closed entry h
  obtain ⟨rest, ok⟩ := r.exists_completion h
  refine ⟨r.before, r.front, r.behind, r.tokens_eq, r.taken_eq h _ _,
    ⟨rest, ok, balanced_of_recognize_ok ok⟩, fun kinds c kinds' hk hc => ?_⟩
  obtain ⟨s, hs, -⟩ := r.exists_enterAll
  rw [hk] at hs
  obtain ⟨s₁, s₂, h₁, h₂, -⟩ := Nesting.exists_of_enterAll hs
  obtain ⟨compared, outer, ho, -⟩ := Nesting.enter_closing hc h₂
  have hopen := Nesting.opened_of_enterAll h₁
  rw [ho] at hopen
  exact hopen.exists_bracket

/-- An index is accepted, and a second bracket behind the one that closes it is not. -/
theorem recognize_brackets_twiceClosed :
    let closed := Token.ofKinds [.identifier, .leftBracket, .integerConstant, .rightBracket]
    let tokens := Token.ofKinds
      [.identifier, .leftBracket, .integerConstant, .rightBracket, .rightBracket]
    let e := SyntaxError.trailing ⟨.origin, .rightBracket, ""⟩
    (recognize .expression closed = .ok () ∧ Closed tokens ∧
      recognize .expression tokens = .error e) ∧
    Balanced (closed.map Token.kind) ∧
    ∃ before t behind, tokens = before ++ t :: behind ∧
      (run (fun _ => id) .expression tokens ()).taken = before.length ∧
      (∃ rest, recognize .expression (before ++ rest) = .ok () ∧
        Balanced ((before ++ rest).map Token.kind)) ∧
      ∀ kinds c kinds', before.map Token.kind = kinds ++ c :: kinds' → c.role = .closing →
        ∃ outside k inside, kinds = outside ++ k :: inside ∧ k.role = .opening c ∧
          Balanced inside :=
  ⟨⟨rfl, by decide, rfl⟩, (recognize_brackets .expression _).1 rfl,
    (recognize_brackets .expression _).2 _ (by decide) rfl⟩

/-- Two comparisons of an accepted sequence that stand directly inside the same brackets, or outside
of all brackets, so that there are only pairs of brackets between them, have a separator between them
that stands directly inside the same brackets. -/
theorem comparisons_separated (entry : Entry) {tokens : List Token}
    (ok : recognize entry tokens = .ok ()) {before between behind : List Kind} {a b : Kind}
    (hk : tokens.map Token.kind = before ++ a :: between ++ b :: behind)
    (ha : a.role = .comparison) (hb : b.role = .comparison) (hp : Balanced between) :
    ∃ left k right, between = left ++ k :: right ∧ k.role = .separator ∧ Balanced left ∧
      Balanced right := by
  obtain ⟨s, hs, -⟩ := exists_enterAll_of_ok ok
  rw [hk, List.append_assoc] at hs
  obtain ⟨s₁, s₂, -, h₁, hs⟩ := Nesting.exists_of_enterAll hs
  obtain ⟨s₃, s₄, h₂, h₃, -⟩ := Nesting.exists_of_enterAll hs
  -- The first one is noted, and the second one is let through only where none is.
  obtain ⟨-, rfl⟩ := Nesting.enter_comparison ha h₁
  obtain ⟨hf, -⟩ := Nesting.enter_comparison hb h₃
  exact (hp.of_enterAll h₂).2 rfl hf

/-- The comparison inside the brackets does not count for the two around them, which have a
disjunction between them. -/
theorem comparisons_separated_parentheses :
    let between := [Kind.leftParen, .integerConstant, .less, .integerConstant, .rightParen, .bar,
      .integerConstant]
    let tokens := Token.ofKinds ([.integerConstant, .less] ++ between ++ [.less, .integerConstant])
    (recognize .expression tokens = .ok () ∧
      tokens.map Token.kind =
        [.integerConstant] ++ .less :: between ++ .less :: [.integerConstant, .endOfInput] ∧
      Kind.less.role = .comparison ∧ Balanced between) ∧
    ∃ left k right, between = left ++ k :: right ∧ k.role = .separator ∧ Balanced left ∧
      Balanced right := by
  intro between tokens
  have ok : recognize .expression tokens = .ok () := by decide +kernel
  have hp : Balanced between :=
    .group rfl (.cons rfl <| .cons rfl <| .cons rfl .nil) <| .cons rfl <| .cons rfl .nil
  have hk : tokens.map Token.kind =
      [.integerConstant] ++ .less :: between ++ .less :: [.integerConstant, .endOfInput] := rfl
  exact ⟨⟨ok, hk, rfl, hp⟩, comparisons_separated .expression ok hk rfl rfl hp⟩

end PinsSyntax
