import Mathlib.Data.List.Nodup
import PinsSyntax.Proofs.Grammar.Productive
import PinsSyntax.Proofs.Recognizer.Outcome

/-!
# The language of the recognizer

The recognizer accepts a closed sequence of tokens if and only if the kinds before the end of input
can be derived from the nonterminal that the entry starts from (`recognize_eq_ok_iff_derives`). The
productions that it applies are then a leftmost derivation of these kinds, and there is no other one
(`productions_unique_leftmost`).

Both come from readings: the reading of an accepted sequence is a leftmost derivation
(`Reading.yields_of_ok`), and every leftmost derivation of the kinds of a sequence is its reading
(`Reading.eq_of_yields`).
-/

namespace PinsSyntax

open Token (Closed bodyKinds)

variable {entry : Entry} {tokens : List Token} {ps : List Production} {kinds : List Kind}

/-- Only the end of input comes behind what an entry starts from. -/
lemma Entry.followedBy_start (entry : Entry) :
    Form.FollowedBy [.rule entry.start] [.endOfInput] := by
  cases entry <;> decide

/-- Every production is used by the nonterminal that an entry starts from. All nonterminals are
reached from there when the productions are gone through twice. -/
lemma Entry.start_uses (entry : Entry) (p : Production) : entry.start.Uses p := by
  have h : ∀ n, n ∈ Nonterminal.reach [entry.start] (Production.all ++ Production.all) := by
    cases entry <;> decide +kernel
  refine (Nonterminal.uses_lhs p).of_mem_reach (h p.lhs) fun l hl => ?_
  cases List.mem_singleton.1 hl
  exact id

/-- What an entry yields holds no end of input. -/
lemma Form.Yields.endOfInput_notMem_start (h : Form.Yields [.rule entry.start] ps kinds) :
    .endOfInput ∉ kinds :=
  h.endOfInput_notMem (by simp)

namespace Reading

/-- The reading of an accepted sequence is a leftmost derivation of its kinds. -/
lemma yields_of_ok (r : Reading [.rule entry.start] tokens) (h : Closed tokens)
    (ok : r.verdict = .ok ()) :
    Form.Yields [.rule entry.start] r.productions (bodyKinds tokens) := by
  obtain ⟨hrest, hend⟩ := r.verdict_eq_ok_iff.1 ok
  have ht := r.tokens_eq
  have hk : bodyKinds (r.before ++ r.front :: r.behind) = r.before.map Token.kind :=
    Token.bodyKinds_of_isEnd (ht ▸ h) hend
  rw [← ht] at hk
  have hy := r.reads.yields (hrest ▸ Form.Yields.nil)
  rw [List.append_nil, List.append_nil] at hy
  rw [hk]
  exact hy

/-- A leftmost derivation of the kinds of a sequence is its reading, which accepts. -/
lemma eq_of_yields (r : Reading [.rule entry.start] tokens) (h : Closed tokens)
    (hy : Form.Yields [.rule entry.start] ps (bodyKinds tokens)) :
    r.verdict = .ok () ∧ r.productions = ps := by
  obtain ⟨body, last, rfl, -, hl⟩ := Token.closed_iff.1 h
  rw [Token.bodyKinds_append_singleton] at hy
  have he : last.kind ∈ [Kind.endOfInput] := List.mem_singleton.2 (eq_of_beq hl)
  obtain ⟨log, hr, hp⟩ := hy.exists_reads he entry.followedBy_start
  -- The derivation has been read to its end, and there is no other reading.
  let r' : Reading [.rule entry.start] (body ++ [last]) :=
    ⟨log, [], last, [], .ok (), hr, by rw [Form.verdict?, if_pos hl]⟩
  rw [Subsingleton.elim r r']
  exact ⟨rfl, hp⟩

end Reading

/-- Acceptance is the existence of a leftmost derivation. -/
lemma recognize_eq_ok_iff_yields (h : Closed tokens) :
    recognize entry tokens = .ok () ↔ ∃ ps, Form.Yields [.rule entry.start] ps (bodyKinds tokens) := by
  obtain ⟨r⟩ := Reading.exists_of_closed entry h
  rw [r.recognize_eq h]
  constructor
  · intro ok
    exact ⟨r.productions, r.yields_of_ok h ok⟩
  · rintro ⟨ps, hy⟩
    exact (r.eq_of_yields h hy).1

/-- The productions of a leftmost derivation are those that the recognizer applies. -/
lemma productions_eq_of_yields (h : Closed tokens)
    (hy : Form.Yields [.rule entry.start] ps (bodyKinds tokens)) :
    productions entry tokens = ps := by
  obtain ⟨r⟩ := Reading.exists_of_closed entry h
  rw [r.productions_eq h]
  exact (r.eq_of_yields h hy).2

/-- Every leftmost derivation is carried out on tokens of the kinds that it yields. -/
lemma productions_ofKinds (hy : Form.Yields [.rule entry.start] ps kinds) :
    productions entry (Token.ofKinds kinds) = ps := by
  have hb : bodyKinds (Token.ofKinds kinds) = kinds := Token.bodyKinds_append_ofKinds [] kinds
  exact productions_eq_of_yields (Token.closed_ofKinds hy.endOfInput_notMem_start) (hb.symm ▸ hy)

/-- Every production is applied to some closed sequence. -/
lemma exists_mem_productions (entry : Entry) (p : Production) :
    ∃ tokens, Closed tokens ∧ p ∈ productions entry tokens := by
  obtain ⟨ps, kinds, hy, hp⟩ := entry.start_uses p
  refine ⟨Token.ofKinds kinds, Token.closed_ofKinds hy.endOfInput_notMem_start, ?_⟩
  rw [productions_ofKinds hy]
  exact hp

/-- The recognizer accepts what can be derived from the start of its entry, in the grammar of all the
productions that it applies. -/
theorem recognize_eq_ok_iff_derives (entry : Entry) {tokens : List Token} (h : Closed tokens) :
    (recognize entry tokens = .ok () ↔
      Form.Derives [.rule entry.start] (.ofKinds (bodyKinds tokens))) ∧
    ∀ p : Production, ∃ tokens, Closed tokens ∧ p ∈ productions entry tokens := by
  refine ⟨?_, exists_mem_productions entry⟩
  rw [recognize_eq_ok_iff_yields h, Form.derives_iff_exists_yields]

/-- A type definition is accepted because it can be derived. -/
theorem recognize_eq_ok_iff_derives_typeDefinition :
    let tokens := Token.ofKinds [.typWord, .identifier, .colon, .integerWord]
    Closed tokens ∧
      (recognize .program tokens = .ok () ↔
        Form.Derives [.rule .definitions] (.ofKinds (bodyKinds tokens))) ∧
      ∀ p : Production, ∃ tokens, Closed tokens ∧ p ∈ productions .program tokens :=
  ⟨by decide, recognize_eq_ok_iff_derives .program (by decide)⟩

/-- Productions are told apart by their written form. -/
lemma Production.text_injective : Function.Injective Production.text := by
  have h : (Production.all.map Production.text).Nodup := by decide +kernel
  intro p q
  exact List.inj_on_of_nodup_map h (Production.mem_all p) (Production.mem_all q)

/-- An entry has no two leftmost derivations of the same kinds. -/
lemma Form.Yields.unique {qs : List Production} (h : Form.Yields [.rule entry.start] ps kinds)
    (h' : Form.Yields [.rule entry.start] qs kinds) : ps = qs := by
  rw [← productions_ofKinds h, productions_ofKinds h']

/-- The productions applied to an accepted sequence are the one leftmost derivation of the kinds
before its end of input. No kinds have two of them, and the texts of these productions determine the
kinds. -/
theorem productions_unique_leftmost (entry : Entry) {tokens : List Token} (h : Closed tokens)
    (ok : recognize entry tokens = .ok ()) :
    (∀ ps, Form.expandAll [.rule entry.start] ps = some (.ofKinds (bodyKinds tokens)) ↔
      ps = productions entry tokens) ∧
    (∀ kinds ps qs, Form.expandAll [.rule entry.start] ps = some (.ofKinds kinds) →
      Form.expandAll [.rule entry.start] qs = some (.ofKinds kinds) → ps = qs) ∧
    ∀ ps : List Production,
      ps.map Production.text = (productions entry tokens).map Production.text →
      Form.expandAll [.rule entry.start] ps = some (.ofKinds (bodyKinds tokens)) := by
  obtain ⟨qs, hy⟩ := (recognize_eq_ok_iff_yields h).1 ok
  have hp := productions_eq_of_yields h hy
  rw [hp]
  refine ⟨fun ps => ?_, fun kinds ps ps' e e' => ?_, fun ps e => ?_⟩
  · rw [← Form.yields_iff_expandAll]
    constructor
    · intro hy'
      exact hy'.unique hy
    · rintro rfl
      exact hy
  · exact (Form.yields_of_expandAll e).unique (Form.yields_of_expandAll e')
  · cases Production.text_injective.list_map e
    exact hy.expandAll_eq

/-- The productions applied to a type definition are its leftmost derivation. -/
theorem productions_unique_leftmost_typeDefinition :
    let tokens := Token.ofKinds [.typWord, .identifier, .colon, .integerWord]
    (Closed tokens ∧ recognize .program tokens = .ok ()) ∧
      (∀ ps, Form.expandAll [.rule .definitions] ps = some (.ofKinds (bodyKinds tokens)) ↔
        ps = productions .program tokens) ∧
      (∀ kinds ps qs, Form.expandAll [.rule .definitions] ps = some (.ofKinds kinds) →
        Form.expandAll [.rule .definitions] qs = some (.ofKinds kinds) → ps = qs) ∧
      ∀ ps : List Production,
        ps.map Production.text = (productions .program tokens).map Production.text →
        Form.expandAll [.rule .definitions] ps = some (.ofKinds (bodyKinds tokens)) :=
  ⟨⟨by decide, rfl⟩, productions_unique_leftmost .program (by decide) rfl⟩

end PinsSyntax
