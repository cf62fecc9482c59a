import PinsSyntax.Proofs.CommandLine.ScannedTokens
import PinsSyntax.Proofs.Recognizer.Expected
import PinsSyntax.Proofs.Recognizer.Kinds

/-!
# What a diagnostic says was found

A diagnostic names the token that was found by its lexeme, and what was expected by kinds. For a
token of a text the two fit: a spelling is scanned to one kind and one lexeme only
(`Kind.Admits.eq_of_spell_eq`), so a token whose kind has a spelling is named as its kind is
(`Token.Scanned.describe_eq`), and a token that is named as an expectation meets it
(`Token.Scanned.kind_mem_kinds`). Only strings have lexemes with spaces or other spellings in them,
and they are named with a quote, which no expectation has.

So what a check reports as unexpected never reads as what it reports as expected
(`check_error_found`).
-/

namespace PinsSyntax

open CharClass

variable {k k' : Kind} {lexeme lexeme' text : String} {x : Expectation} {t : Token}
  {source : String} {tokens : List Token}

namespace Kind

lemma spell_of_ne_stringConstant (h : k ≠ stringConstant) : k.spell lexeme = lexeme.toList := by
  cases k <;> first | rfl | exact absurd rfl h

/-- What is written tells the kind and the lexeme, for it can be scanned. -/
lemma Admits.eq_of_spell_eq (h : k.Admits lexeme) (h' : k'.Admits lexeme')
    (e : k.spell lexeme = k'.spell lexeme') : k = k' ∧ lexeme = lexeme' := by
  have hs := @Reader.scanItem_spell [] [] k lexeme h nofun
  have hs' := @Reader.scanItem_spell [] [] k' lexeme' h' nofun
  rw [e, hs'] at hs
  injection hs with hi
  injection hi with hi
  injection hi with _ hk hl
  exact ⟨hk.symm, hl.symm⟩

lemma admits_of_spelling? (h : k.spelling? = some text) : k.Admits text := by
  cases hk : k.keyword? with
  | some word =>
    rw [spelling?, hk] at h
    cases h
    exact .keyword hk
  | none =>
    rw [spelling?, hk] at h
    exact .symbol h

lemma describe_of_spelling? (h : k.spelling? = some text) : k.describe = "`" ++ text ++ "`" := by
  cases k <;> cases h <;> rfl

lemma ne_stringConstant_of_spelling? (h : k.spelling? = some text) : k ≠ stringConstant := by
  rintro rfl
  cases h

/-- The lexeme of a kind that has a spelling is this spelling. -/
lemma Admits.lexeme_eq (h : k.Admits lexeme) (hs : k.spelling? = some text) : lexeme = text := by
  cases h with
  | keyword h | symbol h => cases k <;> cases h <;> cases hs <;> rfl
  | logical | integer | identifier | string => cases hs

/-- A lexeme that is the spelling of a kind is one of that kind only, or it is that of a string. -/
lemma Admits.kind_eq (h : k.Admits lexeme) (hk : k ≠ stringConstant)
    (hs : k'.spelling? = some lexeme) : k = k' := by
  refine (h.eq_of_spell_eq (admits_of_spelling? hs) ?_).1
  rw [spell_of_ne_stringConstant hk,
    spell_of_ne_stringConstant (ne_stringConstant_of_spelling? hs)]

/-- Only strings can have spaces in their lexemes. -/
lemma Admits.space_notMem (h : k.Admits lexeme) (hk : k ≠ stringConstant) :
    ' ' ∉ lexeme.toList := by
  intro hc
  obtain ⟨-, hw⟩ | hs | ⟨-, -, hd⟩ | ⟨rfl, -⟩ := h.shape
  · cases isWordPart_of_mem hw hc
  · obtain ⟨d, ht, hd⟩ | ⟨d, shorter, ht, hd, -⟩ := symbol?_cases hs
    · rw [ht, List.mem_singleton] at hc
      subst hc
      cases hd
    · rw [ht, List.mem_cons, List.mem_singleton] at hc
      obtain rfl | hc := hc
      · cases hd
      · cases hc
  · cases hd _ hc
  · exact hk rfl

end Kind

namespace Expectation

/-- No expectation is written with the quote that strings are named with. -/
lemma quote_notMem_describe (x : Expectation) : '\'' ∉ x.describe.toList := by
  cases x with
  | token k => cases k <;> decide
  | _ => decide

/-- What reads as a spelling is the expectation of the kind with that spelling. -/
lemma exists_of_describe_eq (h : x.describe = "`" ++ text ++ "`") (hs : ' ' ∉ text.toList) :
    ∃ k, x = token k ∧ k.spelling? = some text := by
  have hsp : ' ' ∉ x.describe.toList := by
    rw [h]
    simpa using hs
  have hhead : x.describe.toList.head? = some '`' := by
    rw [h]
    simp
  cases x with
  | token k =>
    refine ⟨k, rfl, ?_⟩
    cases hk : k.spelling? with
    | some word =>
      have h := (Kind.describe_of_spelling? hk).symm.trans h
      rw [String.append_left_inj, String.append_right_inj] at h
      rw [h]
    | none =>
      -- The kinds without a spelling are not named in backquotes.
      cases k <;> first | cases hk; done | exact absurd hhead (by decide)
  | _ => exact absurd (by decide) hsp

end Expectation

namespace Token

lemma describe_of_ne (he : t.kind ≠ .endOfInput) (hs : t.kind ≠ .stringConstant) :
    t.describe = "`" ++ t.lexeme ++ "`" := by
  obtain ⟨span, kind, lexeme⟩ := t
  cases kind <;> first | rfl | exact absurd rfl he | exact absurd rfl hs

/-- A token of a text is named as its kind is, if that has a spelling or is the end of input. -/
lemma Scanned.describe_eq (h : t.Scanned)
    (hk : t.kind.spelling? ≠ none ∨ t.kind = .endOfInput) : t.describe = t.kind.describe := by
  by_cases he : t.kind = .endOfInput
  · rw [describe, he]
  · obtain ⟨text, ht⟩ := Option.ne_none_iff_exists'.1 (hk.resolve_right he)
    have hl : t.lexeme = text := (h.admits he).lexeme_eq ht
    rw [describe_of_ne he (Kind.ne_stringConstant_of_spelling? ht), Kind.describe_of_spelling? ht,
      hl]

/-- A token of a text that is named as an expectation meets it. -/
lemma Scanned.kind_mem_kinds (h : t.Scanned) (hx : t.describe = x.describe) :
    t.kind ∈ x.kinds := by
  by_cases he : t.kind = .endOfInput
  · have hd : (Expectation.token .endOfInput).describe = x.describe := by
      rw [← hx, describe, he]
      rfl
    cases Expectation.describe_injective hd
    exact he ▸ List.mem_singleton_self _
  have h := h.admits he
  by_cases hs : t.kind = .stringConstant
  · have hq : '\'' ∈ t.describe.toList := by
      simp [describe, hs]
    exact absurd (hx ▸ hq) x.quote_notMem_describe
  · rw [describe_of_ne he hs] at hx
    obtain ⟨k, rfl, hk⟩ := Expectation.exists_of_describe_eq hx.symm (h.space_notMem hs)
    exact List.mem_singleton.2 (h.kind_eq hs hk)

end Token

/-- A check that refuses the tokens of a text gives the error of the recognizer. -/
lemma exists_of_checkUntraced_eq {e : SyntaxError}
    (h : checkUntraced source = .error (.syntactic e)) :
    ∃ tokens, scan source = .ok tokens ∧ recognize .program tokens = .error e := by
  unfold checkUntraced at h
  cases hs : scan source with
  | error e =>
    rw [hs] at h
    cases h
  | ok tokens =>
    rw [hs] at h
    cases hr : recognize .program tokens with
    | ok =>
      simp only [hr] at h
      cases h
    | error e =>
      simp only [hr] at h
      cases h
      exact ⟨tokens, rfl, hr⟩

/-- A syntax error of a check, traced or not, is about a token of the text: it has the span of this
token and names it, with the text of its kind if that has a spelling or is the end of input, and
what it says was found is not what it says was expected. -/
theorem check_error_found {σ : Type} (sink : TraceSink σ) (init : σ) {source : String}
    {e : SyntaxError} (h : checkUntraced source = .error (.syntactic e) ∨
      (check sink source init).1 = .error (.syntactic e)) :
    ∃ tokens t, scan source = .ok tokens ∧ t ∈ tokens ∧ e.span = t.span ∧
      e.fault.found? = some t.describe ∧
      (t.kind.spelling? ≠ none ∨ t.kind = .endOfInput →
        e.fault.found? = some t.kind.describe) ∧
      ∀ found expected, e.fault = .unexpectedToken found expected → found ≠ expected := by
  rw [check_eq, or_self] at h
  obtain ⟨tokens, hs, he⟩ := exists_of_checkUntraced_eq h
  have hc := closed_of_scan_ok hs
  obtain ⟨r⟩ := Reading.exists_of_closed .program hc
  rw [r.recognize_eq hc] at he
  obtain ⟨hspan, hf⟩ := r.error_eq he
  have hm : r.front ∈ tokens := List.mem_of_getElem? r.getElem?_before
  have ht := scanned_of_mem hs hm
  refine ⟨tokens, r.front, hs, hm, hspan, hf, fun hk => hf.trans (congrArg some (ht.describe_eq hk)),
    ?_⟩
  rintro found expected hfault rfl
  obtain ⟨span, fault⟩ := e
  subst hfault
  obtain ⟨x, hx, hd, -⟩ := r.exists_expected?_of_unexpectedToken he
  cases hf
  exact r.kind_front_notMem_kinds hx (ht.kind_mem_kinds hd.symm)

/-- A colon in quotes is found, and a colon is expected. -/
theorem check_error_found_quotedColon :
    let source := "var x ':'"
    let e := SyntaxError.unexpected ⟨⟨⟨1, 7⟩, ⟨1, 10⟩⟩, .stringConstant, ":"⟩ (.token .colon)
    (checkUntraced source = .error (.syntactic e) ∨
      (check .record source #[]).1 = .error (.syntactic e)) ∧
    ∃ tokens t, scan source = .ok tokens ∧ t ∈ tokens ∧ e.span = t.span ∧
      e.fault.found? = some t.describe ∧
      (t.kind.spelling? ≠ none ∨ t.kind = .endOfInput →
        e.fault.found? = some t.kind.describe) ∧
      ∀ found expected, e.fault = .unexpectedToken found expected → found ≠ expected := by
  intro source e
  let pieces : List Piece := [
    ⟨[], .varWord, "var", .nil, by decide⟩,
    ⟨[' '], .identifier, "x", .blank rfl .nil, by decide⟩,
    ⟨[' '], .stringConstant, ":", .blank rfl .nil, by decide⟩]
  let l : Layout source.toList := ⟨pieces, [], _, by decide, by decide, .endOfInput (.closed .nil)⟩
  have hr : recognize .program (l.tokens ++ [Token.endAt ⟨1, 10⟩]) = .error e := rfl
  have h : checkUntraced source = .error (.syntactic e) := by
    rw [checkUntraced, l.scan_eq]
    exact congrArg (Except.mapError Diagnostic.syntactic) hr
  exact ⟨.inl h, check_error_found .record #[] (.inl h)⟩

end PinsSyntax
