import PinsSyntax.Proofs.Recognizer.ErrorPlace

/-!
# What is expected at an error

A reading ends at a token that no nonterminal in front of it can start with
(`Form.Reads.notMem_first`), for it would have taken such a token (`Form.exists_reads_of_mem_first`).
So an error names what the text can go on with: every kind that it expects would be accepted in the
place of the token, and the kind of this token is not among them (`recognize_error_expected`).

If what stands before the token is a whole phrase already, nothing is expected any more: what is left
of the form ends in front of the token as it would end in front of the end of input
(`Form.Reads.eq_nil_of_yields`). This is when the token is reported as trailing input, and no
other time (`recognize_error_trailing_iff`).
-/

namespace PinsSyntax

open Token (Closed)

variable {entry : Entry} {form form' rest : Form} {tokens tokens' behind : List Token} {t u : Token}
  {log log' : List Event} {s : GrammarSymbol} {n : Nonterminal} {k : Kind} {e : SyntaxError}
  {x : Expectation} {v : Except SyntaxError Unit}

namespace Form

lemma exists_reads_of_mem_first_rule (n : Nonterminal) (h : t.kind ∈ n.first) (form : Form)
    (tokens : List Token) : ∃ log form', Reads (.rule n :: form) (t :: tokens) log form' tokens := by
  obtain ⟨p, s, rhs, hc, hp, hs⟩ := Nonterminal.exists_choose_of_mem_first h
  cases s with
  | token k =>
    refine ⟨[.applied p, .taken t], rhs ++ form, .rule hc ?_⟩
    rw [hp]
    exact .token (List.mem_singleton.1 hs) .refl
  | rule m =>
    have : m.level < n.level := by
      rw [← Nonterminal.lhs_of_choose hc]
      exact p.level_lt_of_mem_leading m (by simp [hp, leading])
    obtain ⟨log, form', hr⟩ := exists_reads_of_mem_first_rule m hs (rhs ++ form) tokens
    refine ⟨.applied p :: log, form', .rule hc ?_⟩
    rw [hp]
    exact hr
termination_by n.level

/-- A token is taken where a symbol stands in front that can start with its kind. -/
lemma exists_reads_of_mem_first (h : t.kind ∈ s.first) (form : Form) (tokens : List Token) :
    ∃ log form', Reads (s :: form) (t :: tokens) log form' tokens := by
  cases s with
  | token k => exact ⟨[.taken t], form, .token (List.mem_singleton.1 h) .refl⟩
  | rule n => exact exists_reads_of_mem_first_rule n h form tokens

/-- A reading ends at no token that the symbol in front of it can start with. -/
lemma Reads.notMem_first (h : Reads (s :: form) (t :: behind) log form' (t :: behind))
    (hv : form'.verdict? t = some v) : t.kind ∉ s.first := by
  intro hk
  obtain ⟨log', rest, hr⟩ := exists_reads_of_mem_first hk form behind
  obtain ⟨log'', -, hr⟩ := h.exists_trans hv hr
  have hl := congrArg List.length hr.tokens_eq
  rw [List.length_append, List.length_cons] at hl
  omega

/-- A symbol that comes only first in productions never comes behind the first place of a form. -/
lemma Reads.notMem_tail (hs : ∀ p : Production, s ∉ p.rhs.tail)
    (h : Reads form tokens log form' tokens') (hf : s ∉ form.tail) : s ∉ form'.tail := by
  induction h with
  | refl => exact hf
  | token _ _ ih => exact ih fun h => hf (List.mem_of_mem_tail h)
  | @rule _ p _ form _ _ _ _ _ _ ih =>
    apply ih
    cases hp : p.rhs with
    | nil => exact fun h => hf (List.mem_of_mem_tail h)
    | cons a rhs =>
      have ha := hs p
      rw [hp] at ha
      exact fun h => (List.mem_append.1 h).elim ha hf

/-- A symbol that comes only first in productions, and not in the form that a reading starts from,
has just been put in front by a production. -/
lemma Reads.exists_applied (hs : ∀ p : Production, s ∉ p.rhs.tail) (hf : s ∉ form)
    (h : Reads form tokens log (s :: rest) tokens') :
    ∃ log' p rhs rest', p.rhs = s :: rhs ∧ rest = rhs ++ rest' ∧ log = log' ++ [.applied p] ∧
      Reads form tokens log' (.rule p.lhs :: rest') tokens' := by
  have hf' : s ∉ form.tail := fun h => hf (List.mem_of_mem_tail h)
  obtain ⟨-, rfl⟩ | ⟨log', p, rest', rfl, hrest, hr⟩ | ⟨log', t, -, hr⟩ := h.last_cases
  · exact absurd List.mem_cons_self hf
  · have hn : s ∉ rest' := hr.notMem_tail hs hf'
    cases hp : p.rhs with
    | nil =>
      rw [hp] at hrest
      subst hrest
      exact absurd List.mem_cons_self hn
    | cons a rhs =>
      rw [hp] at hrest
      obtain ⟨rfl, rfl⟩ := List.cons_eq_cons.1 hrest
      exact ⟨log', p, rhs, rest', hp, rfl, rfl, hr⟩
  · exact absurd List.mem_cons_self (hr.notMem_tail hs hf')

end Form

/-- An error expects what the nonterminal in front can start with. An atom is asked for where signs
could come before it, and they are expected too. -/
lemma Nonterminal.kinds_of_choose_error (h : n.choose k = .error x) :
    x.kinds = n.first ∨ n = .atom ∧ x.kinds = first .signed := by
  cases n with
  | definition | type | conditionalTail | bracedTail =>
    left
    cases k <;> cases h <;> rfl
  | atom =>
    right
    cases k <;> cases h <;> exact ⟨rfl, rfl⟩
  | braced => cases k <;> cases h
  | _ => cases h

/-- Signs could come in front of every atom. -/
lemma Form.Reads.exists_signed
    (h : Reads [.rule entry.start] tokens log (.rule .atom :: rest) tokens') :
    ∃ log' rest', Reads [.rule entry.start] tokens log' (.rule .signed :: rest') tokens' := by
  have hn : ∀ n ∈ [Nonterminal.atom, .indexed], ∀ p : Production, .rule n ∉ p.rhs.tail := by
    decide +kernel
  have hl : ∀ p : Production, (p.rhs.head? = some (.rule .atom) → p.lhs = .indexed) ∧
      (p.rhs.head? = some (.rule .indexed) → p.lhs = .signed) := by
    decide +kernel
  have hs : .rule .atom ∉ [GrammarSymbol.rule entry.start] ∧
      .rule .indexed ∉ [GrammarSymbol.rule entry.start] := by
    cases entry <;> decide
  obtain ⟨log', p, rhs, rest', hp, -, -, h⟩ := h.exists_applied (hn _ (by simp)) hs.1
  rw [(hl p).1 (by simp [hp])] at h
  obtain ⟨log'', q, rhs', rest'', hq, -, -, h⟩ := h.exists_applied (hn _ (by simp)) hs.2
  rw [(hl q).2 (by simp [hq])] at h
  exact ⟨log'', rest'', h⟩

namespace Reading

/-- Where a reading ends that expects something, it has stood with a symbol in front that can start
with every kind that is expected. -/
lemma exists_reads_of_expected? (r : Reading [.rule entry.start] tokens)
    (h : r.rest.expected? r.front.kind = some x) :
    ∃ log s form, Form.Reads [.rule entry.start] tokens log (s :: form) (r.front :: r.behind) ∧
      x.kinds = s.first := by
  have hr := r.reads
  cases hrest : r.rest with
  | nil =>
    rw [hrest] at h
    cases h
  | cons s form =>
    rw [hrest] at h hr
    cases s with
    | token k =>
      simp only [Form.expected?, Option.ite_none_left_eq_some, Option.some.injEq] at h
      obtain ⟨-, rfl⟩ := h
      exact ⟨r.log, .token k, form, hr, rfl⟩
    | rule n =>
      have hc : n.choose r.front.kind = .error x := by
        simp only [Form.expected?] at h
        split at h
        · cases h
        · rename_i hc
          cases h
          exact hc
      obtain hk | ⟨rfl, hk⟩ := Nonterminal.kinds_of_choose_error hc
      · exact ⟨r.log, .rule n, form, hr, hk⟩
      · obtain ⟨log, rest, hr⟩ := hr.exists_signed
        exact ⟨log, .rule .signed, rest, hr, hk⟩

/-- The token that a reading ends at is of no kind that is expected there. -/
lemma kind_front_notMem_kinds (r : Reading [.rule entry.start] tokens)
    (h : r.rest.expected? r.front.kind = some x) : r.front.kind ∉ x.kinds := by
  obtain ⟨log, s, form, hr, hk⟩ := r.exists_reads_of_expected? h
  obtain ⟨log', -, hr⟩ := r.reads.exists_trans r.ends hr
  rw [hk]
  exact hr.notMem_first r.ends

end Reading

/-- Where a symbol stands in front, any token that it can start with can be completed to a sequence
that is accepted. -/
lemma Form.Reads.exists_recognize_ok (h : Reads [.rule entry.start] tokens log (s :: form) tokens')
    (hu : u.kind ∈ s.first) :
    ∃ rest, recognize entry (Event.tokens log ++ u :: rest) = .ok () := by
  obtain ⟨log', form', hr⟩ := exists_reads_of_mem_first hu form []
  have ht : [u] = Event.tokens log' := by simpa using hr.tokens_eq
  obtain ⟨ps, kinds, hy⟩ := exists_yields form'
  obtain ⟨qs, hy⟩ : ∃ qs, Yields [.rule entry.start] qs
      ((Event.tokens log ++ [u]).map Token.kind ++ kinds) := by
    rw [List.map_append, List.append_assoc, ht]
    exact ⟨_, h.yields (hr.yields hy)⟩
  have hn := hy.endOfInput_notMem_start
  rw [List.mem_append, not_or] at hn
  obtain ⟨rest, ok⟩ := hy.exists_recognize_ok fun t ht =>
    beq_false_of_ne fun he => hn.1 (List.mem_map.2 ⟨t, ht, he⟩)
  refine ⟨rest, ?_⟩
  rwa [List.append_assoc, List.singleton_append] at ok

/-- All expectations: those of a token, and the phrases. -/
def Expectation.all : List Expectation :=
  Kind.all.map token ++ [definition, type, expression, conditionalTail, bracedTail]

lemma Expectation.mem_all (x : Expectation) : x ∈ all := by
  cases x with
  | token k => exact List.mem_append_left _ (List.mem_map_of_mem k.mem_all)
  | _ => decide

/-- An expectation is told by its text in a diagnostic. -/
lemma Expectation.describe_injective : Function.Injective Expectation.describe := by
  have h : (Expectation.all.map Expectation.describe).Nodup := by decide +kernel
  intro x y
  exact List.inj_on_of_nodup_map h (Expectation.mem_all x) (Expectation.mem_all y)

namespace Reading

variable {found expected : String} {span : Span}

/-- An unexpected token is told where something is left of the form, with what that expects. -/
lemma exists_expected?_of_unexpectedToken (r : Reading form tokens)
    (h : r.verdict = .error ⟨span, .unexpectedToken found expected⟩) :
    ∃ x, r.rest.expected? r.front.kind = some x ∧ x.describe = expected ∧
      span = r.front.span := by
  have he := r.ends
  rw [h] at he
  cases hr : r.rest with
  | nil =>
    rw [hr, Form.verdict?] at he
    split at he <;> cases he
  | cons s form =>
    rw [hr] at he
    obtain ⟨x, hx, hv⟩ := Option.map_eq_some_iff.1 he
    cases hv
    exact ⟨x, hx, rfl, rfl⟩

end Reading

/-- A token that is reported as unexpected is of none of the kinds that the report says are expected,
and a token of any of these kinds, in its place, can be completed to a sequence that is accepted. -/
theorem recognize_error_expected (entry : Entry) {tokens : List Token} {span : Span}
    {found expected : String} (h : Closed tokens)
    (he : recognize entry tokens = .error ⟨span, .unexpectedToken found expected⟩) :
    ∃ (x : Expectation) (before : List Token) (t : Token) (behind : List Token),
      (∀ y : Expectation, y.describe = expected ↔ y = x) ∧
      tokens = before ++ t :: behind ∧
      (run (fun _ => id) entry tokens ()).taken = before.length ∧ span = t.span ∧
      t.kind ∉ x.kinds ∧
      ∀ u : Token, u.kind ∈ x.kinds → ∃ rest, recognize entry (before ++ u :: rest) = .ok () := by
  obtain ⟨r⟩ := Reading.exists_of_closed entry h
  rw [r.recognize_eq h] at he
  obtain ⟨x, hx, rfl, rfl⟩ := r.exists_expected?_of_unexpectedToken he
  obtain ⟨log, s, form, hr, hk⟩ := r.exists_reads_of_expected? hx
  have hb : Event.tokens log = r.before :=
    List.append_cancel_right (hr.tokens_eq.symm.trans r.tokens_eq)
  refine ⟨x, r.before, r.front, r.behind, fun y => Expectation.describe_injective.eq_iff,
    r.tokens_eq, r.taken_eq h _ _, rfl, ?_, fun u hu => ?_⟩
  · obtain ⟨log', -, hr⟩ := r.reads.exists_trans r.ends hr
    rw [hk]
    exact hr.notMem_first r.ends
  · rw [hk] at hu
    rw [← hb]
    exact hr.exists_recognize_ok hu

/-- Behind the two signs, the parenthesis that closes nothing stands for an operand, which may have
more signs. -/
theorem recognize_error_expected_noOperand :
    let tokens := Token.ofKinds [.minus, .bang, .rightParen]
    let expected := "an expression"
    (Closed tokens ∧ recognize .expression tokens =
      .error ⟨.origin, .unexpectedToken "``" expected⟩) ∧
    ∃ (x : Expectation) (before : List Token) (t : Token) (behind : List Token),
      (∀ y : Expectation, y.describe = expected ↔ y = x) ∧
      tokens = before ++ t :: behind ∧
      (run (fun _ => id) .expression tokens ()).taken = before.length ∧ Span.origin = t.span ∧
      t.kind ∉ x.kinds ∧
      ∀ u : Token, u.kind ∈ x.kinds →
        ∃ rest, recognize .expression (before ++ u :: rest) = .ok () :=
  ⟨⟨by decide, rfl⟩, recognize_error_expected .expression (by decide) rfl⟩

/-! ### Trailing input -/

namespace Nonterminal

/-- A nonterminal that is replaced in front of the end of input is so in front of every kind. -/
lemma exists_choose {p : Production} (h : n.choose .endOfInput = .ok p) (k : Kind) :
    ∃ q, n.choose k = .ok q := by
  by_cases hk : k ∈ n.first
  · obtain ⟨q, s, form, hq, -⟩ := exists_choose_of_mem_first hk
    exact ⟨q, hq⟩
  · exact ⟨p, (choose_of_notMem_first hk).trans h⟩

end Nonterminal

/-- Where the tokens that are read past are all that the form yields, nothing is left of it: what can
be replaced by nothing in front of the end of input is so in front of the token, too. -/
lemma Form.Reads.eq_nil_of_yields {ps : List Production}
    (h : Reads form tokens log form' (t :: behind)) (hv : form'.verdict? t = some v)
    (hf : FollowedBy form [.endOfInput]) (hy : Yields form ps ((Event.tokens log).map Token.kind)) :
    form' = [] := by
  have hm : Kind.endOfInput ∈ [Kind.endOfInput] := List.mem_singleton_self _
  generalize ht : t :: behind = tokens' at h
  induction h generalizing ps with
  | refl =>
    cases hy with
    | nil => rfl
    | @rule p form ps _ hy =>
      obtain ⟨q, hq⟩ := Nonterminal.exists_choose (hy.choose_eq hf hm rfl) t.kind
      simp [verdict?, expected?, hq] at hv
  | token _ _ ih =>
    cases hy with
    | token hy => exact ih hv hf hy ht
  | @rule n p u form tokens log form' _ hc h ih =>
    subst ht
    cases hy with
    | @rule q _ ps _ hy =>
      have hy : Yields (q.rhs ++ form) ps ((Event.tokens log).map Token.kind) := hy
      -- The derivation goes on with the production of the reading.
      have hq : q.lhs.choose u.kind = .ok q := by
        have hu := h.tokens_eq
        cases hl : Event.tokens log with
        | cons w before =>
          rw [hl] at hu hy
          cases hu
          exact hy.choose_eq hf hm rfl
        | nil =>
          rw [hl] at hu hy
          cases hu
          have hn := (Reads.rule hc h).notMem_first hv
          rw [Nonterminal.choose_of_notMem_first hn]
          exact hy.choose_eq hf hm rfl
      cases hc.symm.trans hq
      exact ih hv hf.expand hy rfl

namespace Reading

/-- What a reading goes past is accepted on its own if and only if nothing is left of the form. -/
lemma recognize_before_eq_ok_iff (r : Reading [.rule entry.start] tokens) (h : Closed tokens)
    {last : Token} (hl : last.isEnd = true) :
    recognize entry (r.before ++ [last]) = .ok () ↔ r.rest = [] := by
  rw [recognize_eq_ok_iff_yields ((Closed.last hl).append (r.closed h).2),
    Token.bodyKinds_append_singleton]
  constructor
  · rintro ⟨ps, hy⟩
    exact r.reads.eq_nil_of_yields r.ends entry.followedBy_start hy
  · intro hr
    have hy := r.reads.yields (hr ▸ Form.Yields.nil)
    rw [List.append_nil, List.append_nil] at hy
    exact ⟨_, hy⟩

/-- A reading that does not accept reports trailing input if nothing is left of the form, and then
the token is no end of input; otherwise it reports an unexpected token. -/
lemma error_cases (r : Reading form tokens) (he : r.verdict = .error e) :
    r.rest = [] ∧ e = .trailing r.front ∧ r.front.isEnd = false ∨
      r.rest ≠ [] ∧ ∃ x, e = .unexpected r.front x := by
  have hv := r.ends
  rw [he] at hv
  cases hr : r.rest with
  | nil =>
    rw [hr, Form.verdict?] at hv
    split at hv
    · cases hv
    · rename_i hf
      cases hv
      exact .inl ⟨rfl, rfl, Bool.eq_false_iff.2 hf⟩
  | cons s form =>
    rw [hr] at hv
    obtain ⟨x, -, hx⟩ := Option.map_eq_some_iff.1 hv
    cases hx
    exact .inr ⟨List.cons_ne_nil s form, x, rfl⟩

end Reading

/-- A token is reported as trailing input if and only if what stands before it is accepted on its
own, which is never so of the end of input; any other error reports an unexpected token. -/
theorem recognize_error_trailing_iff (entry : Entry) {tokens : List Token} {e : SyntaxError}
    (h : Closed tokens) (he : recognize entry tokens = .error e) :
    ∃ before t behind, tokens = before ++ t :: behind ∧
      (run (fun _ => id) entry tokens ()).taken = before.length ∧
      (∀ last : Token, last.isEnd = true →
        (e = .trailing t ↔ recognize entry (before ++ [last]) = .ok ()) ∧
        ((∃ x, e = .unexpected t x) ↔ recognize entry (before ++ [last]) ≠ .ok ())) ∧
      (e = .trailing t → t.isEnd = false) := by
  obtain ⟨r⟩ := Reading.exists_of_closed entry h
  rw [r.recognize_eq h] at he
  refine ⟨r.before, r.front, r.behind, r.tokens_eq, r.taken_eq h _ _, fun last hl => ?_, ?_⟩
  · rw [Ne, r.recognize_before_eq_ok_iff h hl]
    obtain ⟨hr, rfl, -⟩ | ⟨hr, x, rfl⟩ := r.error_cases he
    · exact ⟨iff_of_true rfl hr, iff_of_false nofun (not_not_intro hr)⟩
    · exact ⟨iff_of_false nofun hr, iff_of_true ⟨x, rfl⟩ hr⟩
  · rintro rfl
    obtain ⟨-, -, hf⟩ | ⟨-, x, hx⟩ := r.error_cases he
    · exact hf
    · cases hx

/-- A second comparison is trailing input of an expression. -/
theorem recognize_error_trailing_iff_secondComparison :
    let tokens := Token.ofKinds [.identifier, .less, .identifier, .less, .identifier]
    let e := SyntaxError.trailing ⟨.origin, .less, ""⟩
    (Closed tokens ∧ recognize .expression tokens = .error e) ∧
    ∃ before t behind, tokens = before ++ t :: behind ∧
      (run (fun _ => id) .expression tokens ()).taken = before.length ∧
      (∀ last : Token, last.isEnd = true →
        (e = .trailing t ↔ recognize .expression (before ++ [last]) = .ok ()) ∧
        ((∃ x, e = .unexpected t x) ↔ recognize .expression (before ++ [last]) ≠ .ok ())) ∧
      (e = .trailing t → t.isEnd = false) :=
  ⟨⟨by decide, rfl⟩, recognize_error_trailing_iff .expression (by decide) rfl⟩

end PinsSyntax
