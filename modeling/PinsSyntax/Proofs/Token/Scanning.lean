import PinsSyntax.Proofs.Token.Layout

/-!
# Scanning a layout

A scanner of a text yields the items of any layout of that text and nothing after them
(`Layout.yields`), and `scan` collects them (`Layout.scan_eq`), so its result tells how the text is
made up (`exists_pieces_of_scan_ok`, `exists_refused_of_scan_error`). The proof goes through the
pieces of the layout: at each the scanner stands behind the text of the pieces before, and its next
item is the token of the piece (`Scanner.next_piece`).

What a scanner has still to yield depends on the place alone that it has come to
(`Scanner.yields_iff_of_skipTrivia_eq`). So a text can be scanned part by part, and a part ends
behind pieces (`Scanner.yields_pieces`), behind trivia (`Scanner.yields_trivia`) or where the text
does (`Scanner.yields_ending`).
-/

namespace PinsSyntax

open Piece (textOf tokensBehind)

namespace Scanner

/-- The scanner has these items to yield, and none after them. -/
def Yields (s : Scanner) (items : List Item) : Prop :=
  ∀ n, s.items n = (List.range n).map (items[·]?)

variable {s s' : Scanner} {item last : Item} {items : List Item} {tokens found : List Token}
  {before rest gap : List Char} {p : Piece} {ps : List Piece}

lemma yields_nil (h : s.finished = true) : s.Yields [] := by
  intro n
  induction n with
  | zero => rfl
  | succ n ih =>
    have hn : s.next = (none, s) := by simp [next, h]
    rw [List.range_succ_eq_map, Scanner.items, hn, List.map_cons, List.map_map]
    exact congrArg (none :: ·) ih

lemma yields_cons_iff :
    s.Yields (item :: items) ↔ s.next.1 = some item ∧ s.next.2.Yields items := by
  have hr (n : Nat) : (List.range (n + 1)).map ((item :: items)[·]?) =
      some item :: (List.range n).map (items[·]?) := by
    simp [List.range_succ_eq_map, Function.comp_def]
  constructor
  · intro h
    refine ⟨(List.cons.inj ((h 1).trans (hr 0))).1, fun n => ?_⟩
    exact (List.cons.inj ((h (n + 1)).trans (hr n))).2
  · rintro ⟨hi, h⟩ n
    cases n with
    | zero => rfl
    | succ n => rw [hr, Scanner.items, hi, h n]

lemma Yields.next_eq_none (h : s.Yields []) : s.next.1 = none :=
  (List.cons.inj (h 1)).1

lemma collect_of_none (h : s.next.1 = none) : s.collect found = .ok found.reverse := by
  rw [collect]
  split
  · rfl
  all_goals
    rename_i hn
    rw [hn] at h
    cases h

lemma collect_of_error {e : LexicalError} (h : s.next.1 = some (.error e)) :
    s.collect found = .error e := by
  rw [collect]
  split
  all_goals
    rename_i hn
    rw [hn] at h
    cases h
  rfl

lemma collect_of_ok {t : Token} (h : s.next.1 = some (.ok t)) :
    s.collect found = s.next.2.collect (t :: found) := by
  rw [collect]
  split
  all_goals
    rename_i hn
    rw [hn] at h
    cases h
  rw [hn]

/-- What a scanner yields is collected up to the end of input or the error that comes last. -/
lemma Yields.collect_eq (h : s.Yields (tokens.map .ok ++ [last])) :
    s.collect found = last.map fun t => found.reverse ++ tokens ++ [t] := by
  induction tokens generalizing s found with
  | nil =>
    obtain ⟨hn, hy⟩ := yields_cons_iff.1 h
    cases last with
    | error e => exact collect_of_error hn
    | ok t =>
      rw [collect_of_ok hn, collect_of_none hy.next_eq_none, List.reverse_cons, List.append_nil]
      rfl
  | cons t tokens ih =>
    obtain ⟨hn, hy⟩ := yields_cons_iff.1 h
    rw [collect_of_ok hn, ih hy, List.reverse_cons, List.append_assoc found.reverse]
    rfl

/-- What a scanner yields tells what is collected. -/
lemma Yields.collect_congr (h : s.Yields items) (h' : s'.Yields items) :
    s.collect found = s'.collect found := by
  induction items generalizing s s' found with
  | nil => rw [collect_of_none h.next_eq_none, collect_of_none h'.next_eq_none]
  | cons item items ih =>
    obtain ⟨hn, hy⟩ := yields_cons_iff.1 h
    obtain ⟨hn', hy'⟩ := yields_cons_iff.1 h'
    cases item with
    | error e => rw [collect_of_error hn, collect_of_error hn']
    | ok t => rw [collect_of_ok hn, collect_of_ok hn', ih hy hy']

lemma next_of_not_finished (hs : s.finished = false) :
    s.next = (some s.reader.skipTrivia.scanItem.1, ⟨s.reader.skipTrivia.scanItem.2,
      s.reader.skipTrivia, s.reader.skipTrivia.scanItem.1.isLast⟩) := by
  rw [next, hs]
  rfl

/-- A scanner comes to an end. -/
lemma exists_yields (s : Scanner) : ∃ items, s.Yields items := by
  induction hn : s.itemBound using Nat.strongRecOn generalizing s with
  | ind n ih =>
    cases hs : s.finished with
    | true => exact ⟨[], yields_nil hs⟩
    | false =>
      have hnext := next_of_not_finished hs
      obtain ⟨items, hy⟩ := ih _ (hn ▸ itemBound_next_lt hnext) _ rfl
      refine ⟨s.reader.skipTrivia.scanItem.1 :: items, yields_cons_iff.2 ?_⟩
      rw [hnext]
      exact ⟨rfl, hy⟩

/-- The scanner that stands behind `before` with `rest` to come. -/
def behind (before rest : List Char) : Scanner :=
  ⟨.behind before rest, .behind before rest, false⟩

lemma ofString_eq_behind (source : String) : ofString source = behind [] source.toList := rfl

/-- What a scanner yields is told by the place where it finds the next item. -/
lemma yields_iff_of_skipTrivia_eq (hs : s.finished = false) (hs' : s'.finished = false)
    (h : s.reader.skipTrivia = s'.reader.skipTrivia) : s.Yields items ↔ s'.Yields items := by
  have hn : s.next = s'.next := by rw [next_of_not_finished hs, next_of_not_finished hs', h]
  have hi (n : Nat) : s.items n = s'.items n := by
    cases n with
    | zero => rfl
    | succ n => rw [Scanner.items, Scanner.items, hn]
  simp only [Yields, hi]

/-- The token of a piece is the next item of a scanner that stands in front of the piece. -/
lemma next_piece (hu : Unbroken before (p.text ++ rest)) (he : p.kind.EndsBefore rest) :
    ∃ s', (behind before (p.text ++ rest)).next =
        (some (.ok ⟨.of (before ++ p.gap) p.spelling, p.kind, p.lexeme⟩), s') ∧
      s'.finished = false ∧ s'.reader = .behind (before ++ p.text) rest := by
  obtain ⟨c, cs, hc, ht⟩ := p.spelling_eq_cons
  have hmark : (behind before (p.text ++ rest)).reader.skipTrivia =
      .behind (before ++ p.gap) (p.spelling ++ rest) := by
    rw [Piece.text, List.append_assoc] at hu ⊢
    refine Reader.skipTrivia_behind p.trivia hu ?_
    rw [hc]
    intro d hd
    cases hd
    exact ht
  have hitem := @Reader.scanItem_spell (before ++ p.gap) rest p.kind p.lexeme p.admits he
  have hend : (p.kind == .endOfInput) = false := beq_false_of_ne p.admits.ne_endOfInput
  rw [next_of_not_finished rfl, hmark, Piece.spelling, hitem]
  refine ⟨_, rfl, hend, ?_⟩
  rw [Piece.text, ← List.append_assoc]
  rfl

/-- The item that ends a text is the last one of a scanner that stands behind the last token. -/
lemma yields_ending (hu : Unbroken before rest) (he : Ending before rest last) :
    (behind before rest).Yields [last] := by
  have hn : (behind before rest).next.1 = some last ∧
      (behind before rest).next.2.finished = true := by
    cases he with
    | endOfInput hg =>
      have hmark : (behind before rest).reader.skipTrivia = _ :=
        Reader.skipTrivia_behind_last hg hu
      rw [next_of_not_finished rfl, hmark]
      exact ⟨rfl, rfl⟩
    | @refused gap rest e hg he =>
      have hmark : (behind before (gap ++ rest)).reader.skipTrivia =
          .behind (before ++ gap) rest := by
        refine Reader.skipTrivia_behind hg hu fun c hc => ?_
        obtain ⟨rest, rfl⟩ := List.head?_eq_some_iff.1 hc
        exact he.startsTrivia_eq_false
      have hitem := Reader.scanItem_refused he
      rw [next_of_not_finished rfl, hmark, hitem]
      exact ⟨rfl, rfl⟩
  exact yields_cons_iff.2 ⟨hn.1, yields_nil hn.2⟩

/-- A scanner that stands in front of pieces yields their tokens, and then what a scanner yields
that stands behind them. -/
lemma yields_pieces (hu : Unbroken before (textOf ps ++ rest)) (hm : Piece.Maximal ps rest)
    (hy : (behind (before ++ textOf ps) rest).Yields items) :
    (behind before (textOf ps ++ rest)).Yields ((tokensBehind before ps).map .ok ++ items) := by
  induction ps generalizing before with
  | nil =>
    rw [Piece.textOf_nil, List.append_nil] at hy
    exact hy
  | cons p ps ih =>
    rw [Piece.textOf_cons, List.append_assoc] at hu
    rw [Piece.textOf_cons, ← List.append_assoc] at hy
    obtain ⟨s', hn, hs', hr'⟩ := next_piece hu hm.1
    have hy := ih (p.unbroken_append_text before _) hm.2 hy
    rw [Piece.textOf_cons, List.append_assoc]
    refine yields_cons_iff.2 ?_
    rw [hn]
    exact ⟨rfl, (yields_iff_of_skipTrivia_eq hs' rfl (congrArg _ hr')).2 hy⟩

/-- A scanner that stands in front of trivia yields what one does that stands behind them. -/
lemma yields_trivia (hg : Trivia gap) (hu : Unbroken before (gap ++ rest)) (hr : Unbroken gap rest)
    (hy : (behind (before ++ gap) rest).Yields items) :
    (behind before (gap ++ rest)).Yields items :=
  (yields_iff_of_skipTrivia_eq rfl rfl (Reader.skipTrivia_append hg hu hr)).2 hy

end Scanner

namespace Layout

variable {source : String} {text : List Char}

/-- A scanner that stands in front of a text yields the items of its layout. -/
lemma yields_behind (l : Layout text) : (Scanner.behind [] text).Yields l.items := by
  have hu : Unbroken [] (textOf l.pieces ++ l.rest) := .start _
  have hy := Scanner.yields_pieces hu l.maximal
    (Scanner.yields_ending (Piece.unbroken_append_textOf hu) l.ending)
  rwa [← l.text_eq] at hy

/-- A scanner of a text yields the items of its layout. -/
theorem yields (l : Layout source.toList) : (Scanner.ofString source).Yields l.items :=
  l.yields_behind

/-- The tokens of a text are those of its layout with the end of input, or an error comes last. -/
theorem scan_eq (l : Layout source.toList) : scan source = l.last.map (l.tokens ++ [·]) :=
  l.yields.collect_eq

end Layout

variable {source : String} {tokens : List Token} {e : LexicalError}

/-- A text that is scanned is made of pieces that could not be longer and trivia behind them. -/
lemma exists_pieces_of_scan_ok (h : scan source = .ok tokens) :
    ∃ (ps : List Piece) (gap : List Char), source.toList = textOf ps ++ gap ∧
      Piece.Maximal ps gap ∧ LastTrivia gap ∧
      tokens = tokensBehind [] ps ++ [Token.endAt (Location.origin.through source.toList)] := by
  obtain ⟨l⟩ := exists_layout source.toList
  rw [l.scan_eq] at h
  obtain ⟨ps, gap, last, ht, hm, he⟩ := l
  cases he with
  | endOfInput hg =>
    cases h
    have hl : tokensBehind [] ps ++ [Token.endAt (Location.origin.through (textOf ps ++ gap))] =
        tokensBehind [] ps ++ [Token.endAt (Location.origin.through source.toList)] := by rw [ht]
    exact ⟨ps, gap, ht, hm, hg, hl⟩
  | refused => cases h

/-- A token as it is scanned: with a lexeme of its kind, or the end of input. -/
def Token.Scanned (t : Token) : Prop :=
  t.kind.Admits t.lexeme ∨ t.kind = .endOfInput ∧ t.lexeme = endText

lemma Token.Scanned.admits {t : Token} (h : t.Scanned) (he : t.kind ≠ .endOfInput) :
    t.kind.Admits t.lexeme :=
  h.resolve_right fun h => he h.1

lemma scanned_of_mem {t : Token} (hs : scan source = .ok tokens) (ht : t ∈ tokens) : t.Scanned := by
  obtain ⟨ps, gap, -, -, -, rfl⟩ := exists_pieces_of_scan_ok hs
  obtain ht | ht := List.mem_append.1 ht
  · exact .inl (Piece.admits_of_mem_tokensBehind ht)
  · cases List.mem_singleton.1 ht
    exact .inr ⟨rfl, rfl⟩

/-- A text that is not scanned is refused behind pieces that could not be longer and trivia. -/
lemma exists_refused_of_scan_error (h : scan source = .error e) :
    ∃ (ps : List Piece) (gap rest : List Char), source.toList = textOf ps ++ (gap ++ rest) ∧
      Piece.Maximal ps (gap ++ rest) ∧ Trivia gap ∧ Refused (textOf ps ++ gap) rest e := by
  obtain ⟨l⟩ := exists_layout source.toList
  rw [l.scan_eq] at h
  obtain ⟨ps, rest, last, ht, hm, he⟩ := l
  cases he with
  | endOfInput => cases h
  | refused hg he =>
    cases h
    exact ⟨ps, _, _, ht, hm, hg, he⟩

end PinsSyntax
