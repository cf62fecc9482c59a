import PinsSyntax.Proofs.CommandLine.Agreement
import PinsSyntax.Proofs.Token.Scanning

/-!
# Listings of tokens

A token is read back from its line in a listing (`Token.ofLine?_render`). Its span is written in
digits, colons and dashes and ends at the first bracket, the name of its kind is made of letters and
ends at the next space, and all that comes behind is its lexeme, whatever characters that has. So no
two tokens have the same line.

No lexeme of a text has a line feed in it (`Token.Scanned.lineFeed_notMem_lexeme`), so that a dump
which is split at its line feeds has one line for each token of the text (`lexicalDump_reads_back`).
-/

namespace PinsSyntax

/-- A text cut at the first `c`: what stands in front of it, and what behind it. -/
def cutAt (c : Char) (text : List Char) : List Char × List Char :=
  (text.takeWhile (· != c), (text.dropWhile (· != c)).tail)

/-- The location of a written form. -/
def Location.ofText (text : List Char) : Location :=
  let (line, column) := cutAt ':' text
  ⟨Nat.ofDigitChars 10 line 0, Nat.ofDigitChars 10 column 0⟩

/-- The span of a written form. -/
def Span.ofText (text : List Char) : Span :=
  let (start, stop) := cutAt '-' text
  ⟨.ofText start, .ofText stop⟩

/-- The token of a line in a listing, if the line names a kind. -/
def Token.ofLine? (line : List Char) : Option Token :=
  let (span, rest) := cutAt ']' line.tail
  let (name, lexeme) := cutAt ' ' rest.tail
  (Kind.ofName? (String.ofList name)).map (⟨.ofText span, ·, String.ofList lexeme⟩)

variable {c : Char} {front : List Char} {source : String} {t : Token} {tokens : List Token}
  {lines : List String}

/-! ### Reading a line -/

lemma cutAt_append (h : c ∉ front) (rest : List Char) :
    cutAt c (front ++ c :: rest) = (front, rest) := by
  have hf : ∀ d ∈ front, (d != c) = true := fun d hd => bne_iff_ne.2 fun e => h (e ▸ hd)
  rw [cutAt, List.takeWhile_append_of_pos hf, List.dropWhile_append_of_pos hf]
  simp

lemma Location.ofText_render (l : Location) : ofText l.render.toList = l := by
  have ht : l.render.toList = l.line.repr.toList ++ ':' :: l.column.repr.toList := by
    simp [render]
  have hl : ':' ∉ l.line.repr.toList := notMem_repr rfl l.line
  simp only [ofText, ht, cutAt_append hl]
  simp only [Nat.toList_repr, Nat.ofDigitChars_ten_toDigits]

lemma Span.ofText_render (s : Span) : ofText s.render.toList = s := by
  have ht : s.render.toList = s.start.render.toList ++ '-' :: s.stop.render.toList := by
    simp [render]
  have hs : '-' ∉ s.start.render.toList := s.start.notMem_render rfl (by decide)
  simp only [ofText, ht, cutAt_append hs, Location.ofText_render]

lemma Kind.isAlpha_of_mem_name (k : Kind) : ∀ c ∈ k.name.toList, c.isAlpha = true := by
  rw [← List.all_eq_true]
  cases k <;> rfl

lemma Kind.ofName?_name (k : Kind) : ofName? k.name = some k := by
  cases k <;> rfl

lemma Kind.notMem_name (k : Kind) (hc : c.isAlpha = false) : c ∉ k.name.toList := by
  intro h
  rw [k.isAlpha_of_mem_name c h] at hc
  cases hc

lemma Token.toList_render (t : Token) :
    t.render.toList = '[' :: (t.span.render.toList ++
      ']' :: ' ' :: (t.kind.name.toList ++ ' ' :: t.lexeme.toList)) := by
  simp [render]

/-- A token is read back from its line. -/
lemma Token.ofLine?_render (t : Token) : ofLine? t.render.toList = some t := by
  have hs : ']' ∉ t.span.render.toList := t.span.notMem_render rfl (by decide) (by decide)
  have hk : ' ' ∉ t.kind.name.toList := t.kind.notMem_name rfl
  simp only [ofLine?, toList_render, List.tail_cons, cutAt_append hs, cutAt_append hk,
    String.ofList_toList, Span.ofText_render, Kind.ofName?_name, Option.map_some]

lemma Token.render_injective : Function.Injective Token.render := by
  intro t u h
  have h := congrArg (fun line => ofLine? line.toList) h
  simpa only [ofLine?_render, Option.some.injEq] using h

/-! ### Splitting a dump into lines -/

/-- The line of a token has no line feed in it, unless its lexeme has. -/
lemma Token.lineFeed_notMem_render (h : '\n' ∉ t.lexeme.toList) : '\n' ∉ t.render.toList := by
  have hs : '\n' ∉ t.span.render.toList := t.span.notMem_render rfl (by decide) (by decide)
  have hk : '\n' ∉ t.kind.name.toList := t.kind.notMem_name rfl
  simp [toList_render, hs, hk, h]

/-- The lexemes of a text have no line feeds in them. -/
lemma Token.Scanned.lineFeed_notMem_lexeme (h : t.Scanned) : '\n' ∉ t.lexeme.toList := by
  intro hc
  obtain ha | ⟨-, he⟩ := h
  · cases ha.isLineBreak_eq_false (t.kind.mem_spell_of_mem hc)
  · rw [he] at hc
    exact absurd hc (by decide)

/-- Text behind lines without line feeds in them is split as these lines and then on its own. -/
lemma splitOn_unlines (h : ∀ line ∈ lines, '\n' ∉ line.toList) (rest : String) :
    (unlines lines ++ rest).toList.splitOn '\n' =
      lines.map String.toList ++ rest.toList.splitOn '\n' := by
  induction lines with
  | nil =>
    rw [unlines, List.map_nil, String.join_nil, String.empty_append]
    rfl
  | cons line lines ih =>
    obtain ⟨hl, h⟩ := List.forall_mem_cons.1 h
    have ht : (unlines (line :: lines) ++ rest).toList =
        line.toList ++ '\n' :: (unlines lines ++ rest).toList := by
      simp [unlines_cons]
    rw [ht, List.splitOn_append_cons_self_of_not_mem hl, ih h]
    rfl

/-- What is printed behind the dump of the tokens, if that is asked for. -/
lemma Options.exists_stdout_eq (o : Options) (hd : .lexical ∈ o.dumps)
    (hs : scan source = .ok tokens) :
    ∃ rest, (o.respond (.ok source)).stdout = unlines (tokens.map Token.render) ++ rest ∧
      (o.exec = .lexical ∨ .syntactic ∉ o.dumps → rest = "") := by
  have hp : (o.respond (.ok source)).stdout = o.printed source := by
    show (o.respondTo source).stdout = _
    rw [respondTo_eq]
    cases o.exec.diagnose source <;> rfl
  rw [hp, printed, hs]
  refine ⟨_, congrArg (· ++ _) (if_pos hd), fun h => if_neg ?_⟩
  rintro ⟨he, hm⟩
  obtain h | h := h
  · rw [h] at he
    cases he
  · exact h hm

/-- No two tokens have the same line in a listing. If the dump of the tokens is asked for and the
source can be scanned, then what is printed has, between its line feeds, one line for each token in
turn, from which the token is read back, and nothing behind these lines unless the productions are
dumped, too. -/
theorem lexicalDump_reads_back :
    (∀ t u : Token, t.render = u.render → t = u) ∧
    ∀ (o : Options) (source : String) (tokens : List Token),
      .lexical ∈ o.dumps → scan source = .ok tokens →
      ∃ lines rest, (o.respond (.ok source)).stdout.toList.splitOn '\n' = lines ++ rest ∧
        lines.length = tokens.length ∧ lines.map Token.ofLine? = tokens.map some ∧
        (o.exec = .lexical ∨ .syntactic ∉ o.dumps → rest = [[]]) := by
  refine ⟨fun t u h => Token.render_injective h, fun o source tokens hd hs => ?_⟩
  obtain ⟨rest, ho, hr⟩ := o.exists_stdout_eq hd hs
  have hl : ∀ line ∈ tokens.map Token.render, '\n' ∉ line.toList := by
    intro line hm
    obtain ⟨t, ht, rfl⟩ := List.mem_map.1 hm
    exact Token.lineFeed_notMem_render (scanned_of_mem hs ht).lineFeed_notMem_lexeme
  refine ⟨(tokens.map Token.render).map String.toList, rest.toList.splitOn '\n', ?_, ?_, ?_,
    fun h => ?_⟩
  · rw [ho, splitOn_unlines hl rest]
  · rw [List.length_map, List.length_map]
  · simp only [List.map_map, Function.comp_def, Token.ofLine?_render]
  · rw [hr h]
    rfl

/-- A string may hold whatever separates the parts of a line. -/
theorem lexicalDump_reads_back_separators :
    let o : Options := ⟨"input.pins", .syntactic, [.lexical]⟩
    let source := "'1:2] - '';'"
    let tokens : List Token :=
      [⟨⟨⟨1, 1⟩, ⟨1, 13⟩⟩, .stringConstant, "1:2] - ';"⟩, Token.endAt ⟨1, 13⟩]
    (.lexical ∈ o.dumps ∧ scan source = .ok tokens) ∧
    ∃ lines rest, (o.respond (.ok source)).stdout.toList.splitOn '\n' = lines ++ rest ∧
      lines.length = tokens.length ∧ lines.map Token.ofLine? = tokens.map some ∧
      (o.exec = .lexical ∨ .syntactic ∉ o.dumps → rest = [[]]) := by
  intro o source tokens
  let pieces : List Piece := [⟨[], .stringConstant, "1:2] - ';", .nil, by decide⟩]
  let l : Layout source.toList := ⟨pieces, [], _, by decide, by decide, .endOfInput (.closed .nil)⟩
  have hd : .lexical ∈ o.dumps := List.mem_singleton_self _
  have hs : scan source = .ok tokens := l.scan_eq
  exact ⟨⟨hd, hs⟩, lexicalDump_reads_back.2 o source tokens hd hs⟩

end PinsSyntax
