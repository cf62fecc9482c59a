import PinsSyntax.Text.CharClass
import PinsSyntax.Text.Reader
import PinsSyntax.Token.Basic
import PinsSyntax.Token.LexicalError

/-!
# Scanning a text into tokens

An item of a text is a token or a lexical error. Items are separated by trivia: blanks, and comments
that run from a number sign to the end of the line. A scanner yields the items of a text one after
another, the last of them being the end of input or the first error; `scan` collects them.

`Reader.scanItem` reads one item. Unless the item is the end of input it shortens the text left
(`length_rest_scanItem_lt`), which is why `scan` comes to an end.
-/

namespace PinsSyntax

open CharClass

/-- What stands at a place of a text: a token, or why there is none. -/
abbrev Item := Except LexicalError Token

/-- Whether an item is the last one of its text: the end of input or an error. -/
def Item.isLast : Item → Bool
  | .ok t => t.isEnd
  | .error _ => true

namespace Reader

/-- Reads past blanks and comments. -/
def skipTrivia (r : Reader) : Reader :=
  match _ : r.rest with
  | [] => r
  | c :: _ =>
    if isBlank c then r.advance.skipTrivia
    else if c = '#' then (r.advance.skipWhile (!isLineBreak ·)).skipTrivia
    else r
termination_by r.rest.length
decreasing_by
  · exact length_rest_advance_lt (by simp [*])
  · exact Nat.lt_of_le_of_lt (length_rest_skipWhile_le _ _) (length_rest_advance_lt (by simp [*]))

theorem length_rest_skipTrivia_le (r : Reader) : r.skipTrivia.rest.length ≤ r.rest.length := by
  fun_induction skipTrivia r with
  | case1 => exact Nat.le_refl _
  | case2 r _ _ _ _ ih => exact Nat.le_trans ih (length_rest_advance_le r)
  | case3 r _ _ _ ih =>
    exact Nat.le_trans ih (Nat.le_trans (length_rest_skipWhile_le _ _) (length_rest_advance_le r))
  | case4 => exact Nat.le_refl _

/-- The token of kind `k` whose source text lies between `start` and `stop`. -/
def tokenTo (start stop : Reader) (k : Kind) : Token :=
  ⟨start.spanTo stop, k, start.textTo stop⟩

/-- Reads the body and the closing quote of a string constant that was opened at `start`; `value` is
what the body read so far stands for. Two quotes in a row stand for one, and any other character of
the body has to be printable. The text may not end, nor the line, before the closing quote. -/
def scanString (start r : Reader) (value : String) : Item × Reader :=
  match _ : r.rest with
  | [] => (.error ⟨start.spanTo r, .unterminatedString⟩, r)
  | c :: rest =>
    if c = '\'' then
      if rest.head? = some '\'' then scanString start r.advance.advance (value.push '\'')
      else (.ok ⟨start.spanTo r.advance, .stringConstant, value⟩, r.advance)
    else if isPrintable c then scanString start r.advance (value.push c)
    else if isLineBreak c then (.error ⟨start.spanTo r, .unterminatedString⟩, r)
    else (.error ⟨r.spanTo r.advance, .unexpectedCharacter c⟩, r.advance)
termination_by r.rest.length
decreasing_by
  · exact Nat.lt_of_le_of_lt (length_rest_advance_le _) (length_rest_advance_lt (by simp [*]))
  · exact length_rest_advance_lt (by simp [*])

theorem length_rest_scanString_le (start r : Reader) (value : String) :
    (scanString start r value).2.rest.length ≤ r.rest.length := by
  fun_induction scanString start r value with
  | case1 | case5 => exact Nat.le_refl _
  | case2 r value _ _ _ ih =>
    exact Nat.le_trans ih (Nat.le_trans (length_rest_advance_le _) (length_rest_advance_le r))
  | case4 r value _ _ _ _ _ ih => exact Nat.le_trans ih (length_rest_advance_le r)
  | case3 r | case6 r => exact length_rest_advance_le r

/-- Reads a symbol whose first character has kind `k` and ends before `next`; an equals sign that
can belong to the symbol does. -/
def scanSymbol (start next : Reader) (k : Kind) : Item × Reader :=
  match k.withEqual?, next.peek? with
  | some longer, some '=' => (.ok (start.tokenTo next.advance longer), next.advance)
  | _, _ => (.ok (start.tokenTo next k), next)

theorem length_rest_scanSymbol_le (start next : Reader) (k : Kind) :
    (scanSymbol start next k).2.rest.length ≤ next.rest.length := by
  unfold scanSymbol
  split
  · exact length_rest_advance_le next
  · exact Nat.le_refl _

/-- Reads an item that starts at `start` with the character `c`, which `next` stands behind. -/
def scanFrom (start next : Reader) (c : Char) : Item × Reader :=
  match Kind.ofSymbolChar? c with
  | some k => scanSymbol start next k
  | none =>
    if c = '\'' then scanString start next ""
    else if c.isDigit then
      let stop := next.skipWhile Char.isDigit
      (.ok (start.tokenTo stop .integerConstant), stop)
    else if isWordStart c then
      let stop := next.skipWhile isWordPart
      (.ok (start.tokenTo stop (Kind.ofWord (start.textTo stop))), stop)
    else (.error ⟨start.spanTo next, .unexpectedCharacter c⟩, next)

theorem length_rest_scanFrom_le (start next : Reader) (c : Char) :
    (scanFrom start next c).2.rest.length ≤ next.rest.length := by
  unfold scanFrom
  split
  · exact length_rest_scanSymbol_le start next _
  · split
    · exact length_rest_scanString_le start next ""
    · split
      · exact length_rest_skipWhile_le _ next
      · split
        · exact length_rest_skipWhile_le _ next
        · exact Nat.le_refl _

/-- Reads the item at the reader, where no trivia stands. -/
def scanItem (r : Reader) : Item × Reader :=
  match r.peek? with
  | none => (.ok (Token.endAt r.location), r)
  | some c => scanFrom r r.advance c

theorem length_rest_scanItem_le (r : Reader) : r.scanItem.2.rest.length ≤ r.rest.length := by
  unfold scanItem
  split
  · exact Nat.le_refl _
  · exact Nat.le_trans (length_rest_scanFrom_le _ _ _) (length_rest_advance_le r)

theorem length_rest_scanItem_lt {r : Reader} (h : r.scanItem.1.isLast = false) :
    r.scanItem.2.rest.length < r.rest.length := by
  cases hr : r.rest with
  | nil => simp [scanItem, peek?, hr, Item.isLast, Token.isEnd, Token.endAt] at h
  | cons c rest =>
    have hlt : r.advance.rest.length < r.rest.length := length_rest_advance_lt (by simp [hr])
    have hle := length_rest_scanFrom_le r r.advance c
    simp only [scanItem, peek?, hr, List.head?_cons] at hlt ⊢
    omega

end Reader

/-- A scanner in the course of a text: where the next item is looked for, where the last one was
found, and whether that one was the last of the text. -/
structure Scanner where
  reader : Reader
  mark : Reader
  finished : Bool
  deriving Repr

namespace Scanner

/-- A scanner at the start of a text. -/
def ofString (source : String) : Scanner :=
  let reader := Reader.ofText source.toList
  ⟨reader, reader, false⟩

/-- The next item, or `none` after the last one, and the scanner behind it. -/
def next (s : Scanner) : Option Item × Scanner :=
  if s.finished then (none, s)
  else
    let mark := s.reader.skipTrivia
    let found := mark.scanItem
    (some found.1, ⟨found.2, mark, found.1.isLast⟩)

/-- A bound on the number of items still to come. -/
def itemBound (s : Scanner) : Nat := s.reader.rest.length + if s.finished then 0 else 1

theorem itemBound_next_lt {s : Scanner} {item : Item} {s' : Scanner}
    (h : s.next = (some item, s')) : s'.itemBound < s.itemBound := by
  unfold next at h
  split at h
  · simp at h
  · rename_i hs
    simp only [Prod.mk.injEq, Option.some.injEq] at h
    obtain ⟨-, rfl⟩ := h
    have hle := Nat.le_trans (Reader.length_rest_scanItem_le s.reader.skipTrivia)
      (Reader.length_rest_skipTrivia_le s.reader)
    cases hl : s.reader.skipTrivia.scanItem.1.isLast with
    | true => simp [itemBound, hs]; omega
    | false =>
      have hlt := Nat.lt_of_lt_of_le (Reader.length_rest_scanItem_lt hl)
        (Reader.length_rest_skipTrivia_le s.reader)
      simp [itemBound, hs]; omega

/-- The tokens still to come, behind the tokens `found` so far in reverse, or the first error. -/
def collect (s : Scanner) (found : List Token) : Except LexicalError (List Token) :=
  match _ : s.next with
  | (none, _) => .ok found.reverse
  | (some (.error e), _) => .error e
  | (some (.ok t), s') => s'.collect (t :: found)
termination_by s.itemBound
decreasing_by exact itemBound_next_lt ‹_›

/-- The results of `n` calls of `next` in a row. -/
def items : Nat → Scanner → List (Option Item)
  | 0, _ => []
  | n + 1, s => s.next.1 :: items n s.next.2

end Scanner

/-- The tokens of a text, the last of them the end of input, or the first lexical error. -/
def scan (source : String) : Except LexicalError (List Token) :=
  (Scanner.ofString source).collect []

end PinsSyntax
