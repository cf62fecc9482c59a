import PinsSyntax.Proofs.Recognizer.ErrorPlace

/-!
# Programs in a row

A program can be put in front of another sequence of tokens that starts with a definition, with a
semicolon between them if it does not end in one itself. The recognizer goes through the program
with the steps that it makes on the program alone, but for the last one, and then on the other
sequence as it would without the program (`recognize_append_program`).

The last step on a program ends its definitions, and it is `Production.lastDefinition` if and only
if the program ends in a semicolon (`Form.Reads.last_definitions`), because only a semicolon stands
in front of the rest of definitions (`GrammarSymbol.Adjoins`). The steps before it come to the same
nonterminal in front of what follows the program (`Form.Reads.of_mem_starts`), and from there to the
start of the grammar, where the recognizer starts over (`recognize_eq_of_reads`).
-/

namespace PinsSyntax

open Token (Closed)

variable {entry : Entry} {form form' : Form} {tokens tokens' behind : List Token} {t : Token}
  {log log' : List Event}

/-! ### The end of a program -/

/-- Two symbols that may stand side by side: what comes behind a semicolon, and nothing else, is the
rest of the definitions. -/
def GrammarSymbol.Adjoins (a b : GrammarSymbol) : Prop :=
  a = .token .semicolon ↔ b = .rule .definitionsRest

instance : DecidableRel GrammarSymbol.Adjoins := fun a b =>
  inferInstanceAs (Decidable (a = .token .semicolon ↔ b = .rule .definitionsRest))

/-- The nonterminals of a list of definitions, and of what is left of one. -/
def Nonterminal.ofDefinitions : List Nonterminal :=
  [.definitions, .definitionsTail, .definitionsRest]

namespace Production

/-- How semicolons and the rest of definitions stand in a production: side by side, and neither the
one at its end nor the other at its beginning. -/
lemma rhs_semicolons (p : Production) : p.rhs.IsChain GrammarSymbol.Adjoins ∧
    .token .semicolon ∉ p.rhs.getLast? ∧ .rule .definitionsRest ∉ p.rhs.head? := by
  revert p
  decide +kernel

/-- A list of definitions ends in what is left of it, and two productions leave nothing. -/
lemma rhs_ofDefinitions (p : Production) (hp : p.lhs ∈ Nonterminal.ofDefinitions) :
    (∀ s ∈ p.rhs.getLast?, s ∈ Nonterminal.ofDefinitions.map .rule) ∧
      (p.rhs = [] → p = .noSemicolon ∨ p = .lastDefinition) := by
  revert p
  decide +kernel

end Production

/-- The last token of a log has been taken, and none after it. -/
lemma Event.exists_of_tokens_eq_append {before : List Token}
    (h : Event.tokens log = before ++ [t]) :
    ∃ log₁ log₂, log = log₁ ++ .taken t :: log₂ ∧ Event.tokens log₂ = [] := by
  obtain ⟨log₁, _, rfl, -, h⟩ := List.filterMap_eq_append_iff.1 h
  obtain ⟨log₂, e, log₃, rfl, -, he, hn⟩ := List.filterMap_eq_cons_iff.1 h
  cases e with
  | taken u =>
    cases he
    exact ⟨log₁ ++ log₂, log₃, (List.append_assoc ..).symm, hn⟩
  | _ => cases he

namespace Form

lemma Reads.adjoins {a b : GrammarSymbol} {rest : Form}
    (h : Reads [.rule entry.start] tokens log (a :: b :: rest) tokens') : a.Adjoins b := by
  have hp : ∀ p : Production, p.rhs.IsChain GrammarSymbol.Adjoins ∧
      ∀ a ∈ p.rhs.getLast?, ∀ b, GrammarSymbol.Adjoins (.rule p.lhs) b → a.Adjoins b := by
    refine fun p => ⟨p.rhs_semicolons.1, fun a ha b hb => iff_of_false ?_ ?_⟩
    · rintro rfl
      exact p.rhs_semicolons.2.1 ha
    · rintro rfl
      cases hb.2 rfl
  exact (List.isChain_cons_cons.1 (h.isChain hp (List.isChain_singleton _))).1

/-- A form of definitions ends in what is left of them as long as it reads. -/
lemma Reads.mem_ofDefinitions (h : Reads form tokens log form' tokens')
    (hf : ∀ s ∈ form.getLast?, s ∈ Nonterminal.ofDefinitions.map .rule) :
    ∀ s ∈ form'.getLast?, s ∈ Nonterminal.ofDefinitions.map .rule := by
  induction h with
  | refl => exact hf
  | @token k t form _ _ _ _ _ _ ih =>
    apply ih
    cases form with
    | nil => simp
    | cons s form => exact hf
  | @rule n p t form _ _ _ _ hc _ ih =>
    cases Nonterminal.lhs_of_choose hc
    apply ih
    cases form with
    | nil =>
      rw [List.append_nil]
      exact (p.rhs_ofDefinitions (by simpa using hf)).1
    | cons s form =>
      rw [List.getLast?_append_cons]
      exact hf

/-- No semicolon comes behind a semicolon. -/
lemma Reads.semicolon_notMem_starts (entry : Entry)
    (h : Reads [.rule entry.start] tokens log form tokens')
    (hs : (Event.tokens log).getLast?.map Token.kind = some .semicolon) :
    .semicolon ∉ starts form [.endOfInput] := by
  obtain ⟨s, hl, hk⟩ := Option.map_eq_some_iff.1 hs
  obtain ⟨before, ht⟩ := List.getLast?_eq_some_iff.1 hl
  obtain ⟨log₁, log₂, rfl, hn⟩ := Event.exists_of_tokens_eq_append ht
  obtain ⟨_, _, hr, h⟩ := h.exists_of_append
  cases h with
  | @token _ _ rest _ _ _ _ hs h =>
    -- Behind the semicolon, the rest of definitions stands in front of the form. It cannot start with
    -- a semicolon, and neither can what may follow it.
    cases hs.symm.trans hk
    have hf := hr.followedBy entry.followedBy_start
    intro hm
    have hm := h.starts_subset hn hm
    cases rest with
    | nil => simp [starts] at hm
    | cons b rest =>
      cases hr.adjoins.1 rfl
      have hf : starts rest [.endOfInput] ⊆ Nonterminal.follow .definitionsRest := hf.1
      rcases List.mem_append.1 hm with hm | hm
      · revert hm
        decide
      · have hm := hf hm
        revert hm
        decide

/-- The rest of definitions comes to stand in front when a semicolon has been taken. -/
lemma Reads.getLast?_eq_semicolon (entry : Entry) {rest : Form}
    (h : Reads [.rule entry.start] tokens log (.rule .definitionsRest :: rest) tokens') :
    (Event.tokens log).getLast?.map Token.kind = some .semicolon := by
  obtain ⟨-, hf⟩ | ⟨log', p, rest', rfl, hf, hr⟩ | ⟨log', s, rfl, hr⟩ := h.last_cases
  · cases entry <;> cases hf
  · cases hp : p.rhs with
    | nil =>
      rw [hp] at hf
      subst hf
      cases hr.adjoins.2 rfl
    | cons a rhs =>
      rw [hp] at hf
      cases hf
      exact absurd (List.head?_eq_some_iff.2 ⟨rhs, hp⟩) p.rhs_semicolons.2.2
  · have hs : s.kind = .semicolon := GrammarSymbol.token.inj (hr.adjoins.2 rfl)
    rw [Event.tokens_append]
    exact (congrArg _ List.getLast?_concat).trans (congrArg some hs)

/-- The last step on a program ends its definitions, in one way if they end in a semicolon, and in
another way if they do not. -/
lemma Reads.last_definitions (h : Reads [.rule .definitions] tokens log [] tokens') :
    ∃ log' p, log = log' ++ [.applied p] ∧
      Reads [.rule .definitions] tokens log' [.rule p.lhs] tokens' ∧
      (p = .noSemicolon ∧ (Event.tokens log').getLast?.map Token.kind ≠ some .semicolon ∨
        p = .lastDefinition ∧ (Event.tokens log').getLast?.map Token.kind = some .semicolon) := by
  have hs : ∀ s ∈ [GrammarSymbol.rule .definitions].getLast?,
      s ∈ Nonterminal.ofDefinitions.map .rule := by decide
  obtain ⟨-, hf⟩ | ⟨log', p, rest, rfl, hf, hr⟩ | ⟨log', u, -, hr⟩ := h.last_cases
  · cases hf
  · obtain ⟨hp, rfl⟩ := List.append_eq_nil_iff.1 hf.symm
    have hl : p.lhs ∈ Nonterminal.ofDefinitions := by simpa using hr.mem_ofDefinitions hs
    refine ⟨log', p, rfl, hr, ?_⟩
    obtain rfl | rfl := (p.rhs_ofDefinitions hl).2 hp
    · refine .inl ⟨rfl, fun hs => hr.semicolon_notMem_starts .program hs ?_⟩
      decide
    · exact .inr ⟨rfl, hr.getLast?_eq_semicolon .program⟩
  · simpa using hr.mem_ofDefinitions hs

end Form

/-! ### Starting over -/

/-- Where the start of the entry stands in front again, the recognizer goes on as it does with what
is left of the tokens alone. -/
lemma recognize_eq_of_reads (entry : Entry) (h : Closed tokens) (h' : Closed tokens')
    (hr : Form.Reads [.rule entry.start] tokens log [.rule entry.start] tokens') :
    recognize entry tokens = recognize entry tokens' ∧
      productions entry tokens = Event.productions log ++ productions entry tokens' := by
  obtain ⟨r'⟩ := Reading.exists_of_closed entry h'
  obtain ⟨hv, hp⟩ := recognize_eq_of_verdict entry h (hr.trans r'.reads) r'.ends
  rw [r'.recognize_eq h', r'.productions_eq h']
  exact ⟨hv, hp.trans (Event.productions_append log r'.log)⟩

/-- A reading goes on in front of every token `u` that can come where it has come to. If that leads
to the start of the entry, the recognizer starts over there. -/
lemma recognize_append_of_reads (entry : Entry) {u : Token} {behind' : List Token}
    (hr : Form.Reads [.rule entry.start] tokens log form (t :: behind))
    (hu : u.kind ∈ Form.starts form [.endOfInput])
    (hs : Form.Reads form (u :: behind') log' [.rule entry.start] tokens')
    (h : Closed (Event.tokens log ++ u :: behind')) (h' : Closed tokens') :
    recognize entry (Event.tokens log ++ u :: behind') = recognize entry tokens' ∧
      productions entry (Event.tokens log ++ u :: behind') =
        Event.productions log ++ Event.productions log' ++ productions entry tokens' := by
  rw [← Event.productions_append]
  exact recognize_eq_of_reads entry h h'
    ((hr.of_mem_starts entry.followedBy_start hu behind').trans hs)

/-- An accepted sequence is read to its end. -/
lemma exists_reads_of_recognize_ok (entry : Entry) {body : List Token} {last : Token}
    (ok : recognize entry (body ++ [last]) = .ok ()) :
    ∃ log, Form.Reads [.rule entry.start] (body ++ [last]) log [] [last] ∧
      productions entry (body ++ [last]) = Event.productions log := by
  have h := closed_of_recognize_ok ok
  have hl : last.kind ∈ [Kind.endOfInput] :=
    List.mem_singleton.2 (eq_of_beq (h.of_append (List.cons_ne_nil _ _)).1.isEnd_singleton)
  obtain ⟨ps, hy⟩ := (recognize_eq_ok_iff_yields h).1 ok
  have hp := productions_eq_of_yields h hy
  rw [Token.bodyKinds_append_singleton] at hy
  obtain ⟨log, hr, rfl⟩ := hy.exists_reads hl entry.followedBy_start
  exact ⟨log, hr, hp⟩

/-- An accepted program `p` in front of a sequence that starts with a definition: with a semicolon
between them, or without one if the program ends in a semicolon itself, the result is that of the
second sequence, and the last line of the trace of the program is replaced by those that lead on to
the trace of the second sequence. -/
theorem recognize_append_program {p q : List Token} {last first : Token}
    (hp : recognize .program (p ++ [last]) = .ok ()) (hq : Closed (first :: q))
    (hf : first.kind ∈ [Kind.typWord, .varWord, .funWord]) :
    let trace tokens := (productions .program tokens).map Production.text
    (p.getLast?.map Token.kind ≠ some .semicolon → ∀ s : Token, s.kind = .semicolon →
      recognize .program (p ++ s :: first :: q) = recognize .program (first :: q) ∧
      trace (p ++ s :: first :: q) = (trace (p ++ [last])).dropLast ++
        ["definitions2 -> ; definitions3", "definitions3 -> definitions"] ++ trace (first :: q)) ∧
    (p.getLast?.map Token.kind = some .semicolon →
      recognize .program (p ++ first :: q) = recognize .program (first :: q) ∧
      trace (p ++ first :: q) = (trace (p ++ [last])).dropLast ++
        ["definitions3 -> definitions"] ++ trace (first :: q)) := by
  intro trace
  have hb := ((closed_of_recognize_ok hp).of_append (List.cons_ne_nil _ _)).2
  have hmore : Nonterminal.choose .definitionsRest first.kind = .ok .moreDefinitions :=
    Production.choose_of_mem_starts (p := .moreDefinitions) hf
  obtain ⟨log, hr, htrace⟩ := exists_reads_of_recognize_ok .program hp
  obtain ⟨log, d, rfl, hr, hd⟩ := hr.last_definitions
  obtain rfl : Event.tokens log = p := List.append_cancel_right hr.tokens_eq.symm
  have hlines : (trace (Event.tokens log ++ [last])).dropLast =
      (Event.productions log).map Production.text := by
    simp only [trace, htrace, Event.productions_append, List.map_append]
    exact List.dropLast_concat
  rw [hlines]
  refine ⟨fun hn s hs => ?_, fun hs => ?_⟩
  · obtain ⟨rfl, -⟩ | ⟨-, hs'⟩ := hd
    · -- A semicolon can follow what is left of the definitions, and they start anew behind it.
      have hsep : Form.Reads [.rule .definitionsTail] (s :: first :: q)
          [.applied .semicolon, .taken s, .applied .moreDefinitions] [.rule .definitions]
          (first :: q) :=
        .rule (by rw [hs]; rfl) (.token hs (.rule hmore .refl))
      have hc := (hq.cons (by rw [Token.isEnd, hs]; rfl)).append hb
      obtain ⟨he, ht⟩ := recognize_append_of_reads .program hr (by rw [hs]; decide) hsep hc hq
      refine ⟨he, ?_⟩
      simp only [trace, ht, List.map_append]
      rfl
    · exact absurd hs' hn
  · obtain ⟨-, hn⟩ | ⟨rfl, -⟩ := hd
    · exact absurd hs hn
    · -- The semicolon has been taken, and the definitions start anew at once.
      have hsep : Form.Reads [.rule .definitionsRest] (first :: q) [.applied .moreDefinitions]
          [.rule .definitions] (first :: q) :=
        .rule hmore .refl
      obtain ⟨he, ht⟩ := recognize_append_of_reads .program hr (List.mem_append_left _ hf) hsep
        (hq.append hb) hq
      refine ⟨he, ?_⟩
      simp only [trace, ht, List.map_append]
      rfl

/-- A type definition, without and with a semicolon, in front of a variable without a colon. -/
theorem recognize_append_program_noColon :
    let token (k : Kind) : Token := ⟨.origin, k, ""⟩
    let last := Token.endAt .origin
    let p := [Kind.typWord, .identifier, .colon, .integerWord].map token
    let p' := p ++ [token .semicolon]
    let first := token .varWord
    let q := [token .identifier, token .integerWord, last]
    let trace tokens := (productions .program tokens).map Production.text
    (recognize .program (p ++ [last]) = .ok () ∧ recognize .program (p' ++ [last]) = .ok () ∧
      Closed (first :: q) ∧ first.kind ∈ [Kind.typWord, .varWord, .funWord] ∧
      p.getLast?.map Token.kind ≠ some .semicolon ∧
      p'.getLast?.map Token.kind = some .semicolon) ∧
    (recognize .program (p ++ token .semicolon :: first :: q) = recognize .program (first :: q) ∧
      trace (p ++ token .semicolon :: first :: q) = (trace (p ++ [last])).dropLast ++
        ["definitions2 -> ; definitions3", "definitions3 -> definitions"] ++ trace (first :: q)) ∧
    (recognize .program (p' ++ first :: q) = recognize .program (first :: q) ∧
      trace (p' ++ first :: q) = (trace (p' ++ [last])).dropLast ++
        ["definitions3 -> definitions"] ++ trace (first :: q)) := by
  intro token last p p' first q trace
  have hp : recognize .program (p ++ [last]) = .ok () := rfl
  have hp' : recognize .program (p' ++ [last]) = .ok () := rfl
  have hq : Closed (first :: q) := by decide
  have hf : first.kind ∈ [Kind.typWord, .varWord, .funWord] := by decide
  have hn : p.getLast?.map Token.kind ≠ some .semicolon := by decide
  exact ⟨⟨hp, hp', hq, hf, hn, rfl⟩,
    (recognize_append_program hp hq hf).1 hn (token .semicolon) rfl,
    (recognize_append_program hp' hq hf).2 rfl⟩

end PinsSyntax
