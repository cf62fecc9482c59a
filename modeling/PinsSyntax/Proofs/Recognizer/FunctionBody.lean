import PinsSyntax.Proofs.Recognizer.Expected
import PinsSyntax.Proofs.Recognizer.Kinds

/-!
# The body of a function

A program that starts with the head of a function goes on as the body of the function would alone,
as an expression: the head is read completely, whatever comes behind it, and then an expression
stands in front, with the tail of the definitions behind it (`Form.exists_reads_functionHead`). Where
the expression ends, the tail is replaced by nothing unless a semicolon comes next, so the end of the
body is checked in the same place and in the same way (`recognize_functionHead_append`).
-/

namespace PinsSyntax

open Token (Closed)

variable {form : Form} {tokens head body behind : List Token} {t : Token}
  {log : List Event} {v : Except SyntaxError Unit}

/-- What a function definition has before its body. -/
def Form.functionHead : Form :=
  [.token .funWord, .token .identifier, .token .leftParen, .rule .parameters, .token .rightParen,
    .token .colon, .rule .type, .token .equal]

namespace Form

/-- A token always follows the parameters and the type of a head. -/
lemma followedBy_functionHead (after : List Kind) : FollowedBy functionHead after :=
  ⟨by show [Kind.rightParen] ⊆ _; decide, by show [Kind.equal] ⊆ _; decide, trivial⟩

/-- The head of a function is read to its end in front of anything, and by the same productions. Its
body comes next, and then what may follow the definition. -/
lemma exists_reads_functionHead (hd : Derives functionHead (ofKinds (head.map Token.kind))) :
    ∃ ps, ∀ body : List Token, body ≠ [] → ∃ log, Event.productions log = ps ∧
      Reads [.rule .definitions] (head ++ body) log [.rule .expression, .rule .definitionsTail]
        body := by
  obtain ⟨ps, hy⟩ := derives_iff_exists_yields.1 hd
  -- The keyword in front tells what is defined.
  obtain ⟨u, tail, rfl, hu⟩ : ∃ u tail, head = u :: tail ∧ u.kind = .funWord := by
    generalize hk : head.map Token.kind = kinds at hy
    cases hy with
    | token _ =>
      obtain ⟨u, tail, rfl, hu, -⟩ := List.map_eq_cons_iff.1 hk
      exact ⟨u, tail, rfl, hu⟩
  have hc : Nonterminal.choose .definition u.kind = .ok (.definition .ofFunction) := by rw [hu]; rfl
  refine ⟨[.definitions, .definition .ofFunction, .functionDefinition] ++ ps, fun body hb => ?_⟩
  obtain ⟨t, behind, rfl⟩ := List.exists_cons_of_ne_nil hb
  obtain ⟨log, hr, rfl⟩ : ∃ log, Reads functionHead (u :: tail ++ t :: behind) log [] (t :: behind) ∧
      Event.productions log = ps :=
    hy.exists_reads (List.mem_singleton_self t.kind) (followedBy_functionHead _)
  exact ⟨_, rfl, .rule rfl (.rule hc (.rule rfl (hr.append _)))⟩

end Form

/-- The head of a function holds no end of input. -/
lemma Form.isEnd_eq_false_of_functionHead
    (hd : Derives functionHead (ofKinds (head.map Token.kind))) : ∀ t ∈ head, t.isEnd = false := by
  obtain ⟨ps, hy⟩ := derives_iff_exists_yields.1 hd
  have hn := hy.endOfInput_notMem (by decide)
  intro t ht
  exact beq_false_of_ne fun he => hn (List.mem_map.2 ⟨t, ht, he⟩)

/-- What comes behind a form does not matter to the verdict, as long as something is left of it. -/
lemma Form.verdict?_append (h : form ≠ []) (rest : Form) :
    (form ++ rest).verdict? t = form.verdict? t := by
  cases form with
  | nil => exact absurd rfl h
  | cons s form => cases s <;> rfl

/-- In front of any token but a semicolon the definitions end, and the verdict is given there. -/
lemma recognize_of_definitionsTail (h : Closed tokens)
    (hr : Form.Reads [.rule .definitions] tokens log [.rule .definitionsTail] (t :: behind))
    (hs : t.kind ≠ .semicolon) (hv : Form.verdict? [] t = some v) :
    recognize .program tokens = v ∧
      productions .program tokens = Event.productions log ++ [.noSemicolon] := by
  have hc : Nonterminal.choose .definitionsTail t.kind = .ok .noSemicolon :=
    congrArg Except.ok (if_neg hs)
  have hr : Form.Reads [.rule .definitions] tokens (log ++ [.applied .noSemicolon]) [] (t :: behind) :=
    hr.trans (.rule hc .refl)
  obtain ⟨hv, hp⟩ := recognize_eq_of_verdict .program h hr hv
  exact ⟨hv, hp.trans (Event.productions_append ..)⟩

/-- In front of a semicolon the definitions go on. -/
lemma productions_of_semicolon (h : Closed tokens)
    (hr : Form.Reads [.rule .definitions] tokens log [.rule .definitionsTail] (t :: behind))
    (hs : t.kind = .semicolon) :
    ∃ ps, productions .program tokens = Event.productions log ++ .semicolon :: ps := by
  have hc : Nonterminal.choose .definitionsTail t.kind = .ok .semicolon :=
    congrArg Except.ok (if_pos hs)
  have hr : Form.Reads [.rule .definitions] tokens (log ++ [.applied .semicolon])
      [.token .semicolon, .rule .definitionsRest] (t :: behind) :=
    hr.trans (.rule hc .refl)
  obtain ⟨r⟩ := Reading.exists_of_closed .program h
  obtain ⟨log', hl, -⟩ := r.reads.exists_trans r.ends hr
  refine ⟨Event.productions log', ?_⟩
  rw [r.productions_eq h, Reading.productions, hl, List.append_assoc]
  exact Event.productions_append ..

/-- Behind the head of a function, a program has the verdict of its body, unless that is an expression
with a semicolon behind it. In any case its trace is that of the head, which does not depend on the
body, and then that of the body; and unless a token of the body is unexpected, the tail of the
definitions comes behind them. -/
theorem recognize_functionHead_append {head : List Token}
    (hd : Form.Derives .functionHead (.ofKinds (head.map Token.kind))) :
    let trace entry tokens := (productions entry tokens).map Production.text
    ∃ fixed : List String, ∀ body : List Token, Closed body → ∃ (t : Token) (added : List String),
      body[(run (fun _ => id) .expression body ()).taken]? = some t ∧
      trace .program (head ++ body) = fixed ++ trace .expression body ++ added ∧
      match recognize .expression body with
      | .ok () => recognize .program (head ++ body) = .ok () ∧ added = ["definitions2 -> ε"]
      | .error e =>
        match e.fault with
        | .unexpectedToken _ _ => recognize .program (head ++ body) = .error e ∧ added = []
        | .trailingInput _ =>
          if t.kind = .semicolon then added.head? = some "definitions2 -> ; definitions3"
          else recognize .program (head ++ body) = .error e ∧ added = ["definitions2 -> ε"]
        | .missingEndOfInput => False := by
  intro trace
  obtain ⟨ps, hps⟩ := Form.exists_reads_functionHead hd
  refine ⟨ps.map Production.text, fun body h => ?_⟩
  have hc : Closed (head ++ body) := h.append (Form.isEnd_eq_false_of_functionHead hd)
  obtain ⟨r⟩ := Reading.exists_of_closed .expression h
  obtain ⟨log, rfl, hr⟩ := hps body h.ne_nil
  have hr := hr.trans (r.reads.append [.rule .definitionsTail])
  have hp : Event.productions (log ++ r.log) = Event.productions log ++ r.productions :=
    Event.productions_append ..
  refine ⟨r.front, ?_⟩
  rw [r.recognize_eq h, r.taken_eq h]
  simp only [trace, r.productions_eq h, ← List.map_append]
  cases hv : r.verdict with
  | ok =>
    obtain ⟨hrest, he⟩ := r.verdict_eq_ok_iff.1 hv
    have hs : r.front.kind ≠ .semicolon := by
      rw [eq_of_beq he]
      decide
    have hends := hv ▸ r.ends
    rw [hrest] at hr hends
    obtain ⟨hv', hp'⟩ := recognize_of_definitionsTail hc hr hs hends
    refine ⟨[Production.noSemicolon].map Production.text, r.getElem?_before, ?_, hv', by decide⟩
    rw [hp', hp, List.map_append]
  | error e =>
    have hends := hv ▸ r.ends
    obtain ⟨hrest, rfl, -⟩ | ⟨hrest, x, rfl⟩ := r.error_cases hv
    · rw [hrest] at hr hends
      simp only [SyntaxError.trailing]
      split
      · rename_i hs
        obtain ⟨ps, hp'⟩ := productions_of_semicolon hc hr hs
        refine ⟨(Production.semicolon :: ps).map Production.text, r.getElem?_before, ?_, ?_⟩
        · rw [hp', hp, List.map_append]
        · have ht : Production.semicolon.text = "definitions2 -> ; definitions3" := by decide
          exact congrArg some ht
      · rename_i hs
        obtain ⟨hv', hp'⟩ := recognize_of_definitionsTail hc hr hs hends
        refine ⟨[Production.noSemicolon].map Production.text, r.getElem?_before, ?_, hv', by decide⟩
        rw [hp', hp, List.map_append]
    · rw [← Form.verdict?_append hrest] at hends
      obtain ⟨hv', hp'⟩ := recognize_eq_of_verdict .program hc hr hends
      refine ⟨[], r.getElem?_before, ?_, hv', rfl⟩
      rw [hp', hp, List.append_nil]

/-- A second comparison in the body of a function is trailing input, as it is in the body alone, and
the trace goes on behind that of the body with what ends the definitions. -/
theorem recognize_functionHead_append_secondComparison :
    let head : List Token := [Kind.funWord, .identifier, .leftParen, .identifier, .colon, .integerWord,
      .rightParen, .colon, .logicalWord, .equal].map (⟨.origin, ·, ""⟩)
    let body := Token.ofKinds [.identifier, .less, .identifier, .less, .identifier]
    let trace entry tokens := (productions entry tokens).map Production.text
    let e : SyntaxError := ⟨.origin, .trailingInput "``"⟩
    (Form.Derives .functionHead (.ofKinds (head.map Token.kind)) ∧ Closed body) ∧
    (∃ t, body[(run (fun _ => id) .expression body ()).taken]? = some t ∧ t.kind = .less) ∧
    recognize .expression body = .error e ∧ recognize .program (head ++ body) = .error e ∧
    ∃ fixed, trace .program (head ++ body) =
      fixed ++ trace .expression body ++ ["definitions2 -> ε"] := by
  intro head body trace e
  have hd : Form.Derives .functionHead (.ofKinds (head.map Token.kind)) :=
    Form.derives_iff_exists_yields.2 ⟨[.parameters, .parameter, .simpleType .integer, .lastParameter,
      .simpleType .logical], Form.yields_of_expandAll rfl⟩
  have hb : Closed body := by decide
  have he : recognize .expression body = .error e := rfl
  have hi : (run (fun _ => id) .expression body ()).taken = 3 := rfl
  obtain ⟨fixed, h⟩ := recognize_functionHead_append hd
  obtain ⟨t, added, ht, htrace, hbody⟩ := h body hb
  rw [hi] at ht
  obtain rfl : ⟨.origin, .less, ""⟩ = t := Option.some.inj ht
  rw [he] at hbody
  obtain ⟨hr, rfl⟩ : recognize .program (head ++ body) = .error e ∧ added = ["definitions2 -> ε"] :=
    hbody
  exact ⟨⟨hd, hb⟩, ⟨_, by rw [hi]; rfl, rfl⟩, he, hr, fixed, htrace⟩

end PinsSyntax
