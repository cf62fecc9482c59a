import PinsSyntax.Proofs.Text.Moving
import PinsSyntax.Proofs.Token.Reaching

/-!
# Scanners that are moved

A scanner finds the same items further down in a text, and in a text that goes on with more behind
it, as long as its reader does not come to see what the text goes on with. Each of the steps in
which a reader scans an item is such that it can be taken there (`Reader.skipTrivia_moved`,
`Reader.scanItem_moved`), so one call of `Scanner.next` is (`Scanner.next_moved`), and so is a run
of calls (`Scanner.items_moved`, `Scanner.Yields.moved`).

A reader never goes back to text that it has passed. So what it does not see at the end of a step it
has not seen in the course of it (`Move.Unseen.of_reaches`).
-/

namespace PinsSyntax

open CharClass

/-- The same token, `n` lines below. -/
def Token.down (t : Token) (n : Nat) : Token := ⟨t.span.down n, t.kind, t.lexeme⟩

/-- The same error, `n` lines below. -/
def LexicalError.down (e : LexicalError) (n : Nat) : LexicalError := ⟨e.span.down n, e.fault⟩

/-- The same item, `n` lines below. -/
def Item.down (n : Nat) : Item → Item
  | .ok t => .ok (t.down n)
  | .error e => .error (e.down n)

lemma Item.down_zero : Item.down 0 = id := by
  funext item
  cases item <;> rfl

lemma Item.isLast_down (n : Nat) (item : Item) : (item.down n).isLast = item.isLast := by
  cases item <;> rfl

/-- The same item elsewhere, and the reader behind it. -/
def Move.apply (m : Move) (found : Item × Reader) : Item × Reader :=
  (found.1.down m.lines, found.2.moved m)

variable {m : Move} {r start next stop : Reader} {k : Kind} {c : Char} {value : String}

namespace Reader

lemma skipTrivia_moved (h : m.Unseen r.skipTrivia) :
    (r.moved m).skipTrivia = r.skipTrivia.moved m := by
  have hu : m.Unseen r := h.of_reaches (reaches_skipTrivia r)
  fun_induction skipTrivia r with
  | case1 r hr =>
    rw [skipTrivia_eq, peek?_moved hu, peek?, hr]
    rfl
  | case2 r c rest hr hc ih =>
    have ha : m.Unseen r.advance := h.of_reaches (reaches_skipTrivia _)
    rw [skipTrivia_eq, peek?_moved hu, peek?_eq_some hr, advance_moved ha, ← ih h ha]
    exact if_pos hc
  | case3 r rest hr hc ih =>
    have hw := h.of_reaches (reaches_skipTrivia _)
    have ha : m.Unseen r.advance := hw.of_reaches (reaches_skipWhile _ _)
    rw [skipTrivia_eq, peek?_moved hu, peek?_eq_some hr, advance_moved ha,
      skipWhile_moved hw, ← ih h hw]
    exact (if_neg hc).trans (if_pos rfl)
  | case4 r c rest hr hc hn =>
    rw [skipTrivia_eq, peek?_moved hu, peek?_eq_some hr]
    exact (if_neg hc).trans (if_neg hn)

lemma tokenTo_moved (h : start.Reaches stop) :
    (start.moved m).tokenTo (stop.moved m) k = (start.tokenTo stop k).down m.lines := by
  rw [tokenTo, h.textTo_moved, spanTo_moved]
  rfl

lemma scanString_moved (h : m.Unseen (scanString start r value).2) :
    scanString (start.moved m) (r.moved m) value = m.apply (scanString start r value) := by
  have hu : m.Unseen r := h.of_reaches (reaches_scanString start r value)
  fun_induction scanString start r value with
  | case1 r value hr =>
    rw [scanString_eq, peek?_moved hu, peek?, hr]
    rfl
  | case2 r value rest hq hr ih =>
    have ha' := h.of_reaches (reaches_scanString start _ _)
    have ha : m.Unseen r.advance := ha'.of_reaches r.advance.reaches_advance
    rw [← peek?_advance_quote hr] at hq
    rw [scanString_eq, peek?_moved hu, peek?, hr, advance_moved ha, advance_moved ha',
      peek?_moved ha, hq, ih h ha']
    rfl
  | case3 r value rest hq hr =>
    rw [← peek?_advance_quote hr] at hq
    rw [scanString_eq, peek?_moved hu, peek?, hr, advance_moved h, peek?_moved h]
    exact (if_pos rfl).trans (if_neg hq)
  | case4 r value c rest hr hc hp ih =>
    have ha : m.Unseen r.advance := h.of_reaches (reaches_scanString start _ _)
    rw [scanString_eq, peek?_moved hu, peek?, hr, advance_moved ha, ← ih h ha]
    exact (if_neg hc).trans (if_pos hp)
  | case5 r value c rest hr hc hp hl =>
    rw [scanString_eq, peek?_moved hu, peek?, hr]
    exact (if_neg hc).trans ((if_neg hp).trans (if_pos hl))
  | case6 r value c rest hr hc hp hl =>
    rw [scanString_eq, peek?_moved hu, peek?, hr, advance_moved h]
    exact (if_neg hc).trans ((if_neg hp).trans (if_neg hl))

lemma scanSymbol_moved (hs : start.Reaches next) (h : m.Unseen (scanSymbol start next k).2) :
    scanSymbol (start.moved m) (next.moved m) k = m.apply (scanSymbol start next k) := by
  have hu : m.Unseen next := h.of_reaches (reaches_scanSymbol start next k)
  unfold scanSymbol at h ⊢
  rw [peek?_moved hu]
  split
  · rename_i longer hl hp
    simp only [hl, hp] at h
    rw [advance_moved h, tokenTo_moved hs.advance]
    rfl
  · rw [tokenTo_moved hs]
    rfl

lemma scanFrom_moved (hs : start.Reaches next) (h : m.Unseen (scanFrom start next c).2) :
    scanFrom (start.moved m) (next.moved m) c = m.apply (scanFrom start next c) := by
  unfold scanFrom at h ⊢
  cases hk : Kind.ofSymbolChar? c with
  | some k =>
    rw [hk] at h
    exact scanSymbol_moved hs h
  | none =>
    simp only [hk] at h ⊢
    split_ifs at h ⊢ with hq hd hw
    · exact scanString_moved h
    · have ht := hs.trans (reaches_skipWhile Char.isDigit next)
      rw [skipWhile_moved h, tokenTo_moved ht]
      rfl
    · have ht := hs.trans (reaches_skipWhile isWordPart next)
      rw [skipWhile_moved h, tokenTo_moved ht, ht.textTo_moved]
      rfl
    · rfl

lemma scanItem_moved (h : m.Unseen r.scanItem.2) : (r.moved m).scanItem = m.apply r.scanItem := by
  have hu : m.Unseen r := h.of_reaches (reaches_scanItem r)
  unfold scanItem at h ⊢
  rw [peek?_moved hu]
  cases hp : r.peek? with
  | none => rfl
  | some c =>
    rw [hp] at h
    have ha : m.Unseen r.advance := h.of_reaches (reaches_scanFrom r _ c)
    show scanFrom _ (r.moved m).advance c = _
    rw [advance_moved ha]
    exact scanFrom_moved r.reaches_advance h

end Reader

namespace Scanner

variable {s : Scanner} {items : List Item}

/-- The same scanner elsewhere. -/
def moved (s : Scanner) (m : Move) : Scanner := ⟨s.reader.moved m, s.mark.moved m, s.finished⟩

/-- A scanner that does not come to see more text finds the same item there, and it goes on as one
that is moved. -/
lemma next_moved (h : m.Unseen s.next.2.reader) :
    (s.moved m).next = (s.next.1.map (Item.down m.lines), s.next.2.moved m) := by
  cases hs : s.finished with
  | true => simp [next, moved, hs]
  | false =>
    have hs' : (s.moved m).finished = false := hs
    rw [next_of_not_finished hs] at h ⊢
    have ht : m.Unseen s.reader.skipTrivia := h.of_reaches (Reader.reaches_scanItem _)
    have hr : (s.moved m).reader.skipTrivia = _ := Reader.skipTrivia_moved ht
    rw [next_of_not_finished hs', hr, Reader.scanItem_moved h, Move.apply, Item.isLast_down]
    rfl

lemma items_moved (n : Nat) (h : m.Unseen (s.after n).reader) :
    (s.moved m).items n = (s.items n).map (Option.map (Item.down m.lines)) := by
  induction n generalizing s with
  | zero => rfl
  | succ n ih =>
    have hn : m.Unseen s.next.2.reader := h.of_reaches (reaches_after n _)
    rw [Scanner.items, next_moved hn, ih h]
    rfl

/-- With no more text behind, a scanner that is moved yields the same items there. -/
lemma Yields.moved (h : s.Yields items) (hm : m.more = []) :
    (s.moved m).Yields (items.map (Item.down m.lines)) := by
  intro n
  rw [items_moved n (.inl hm), h n, List.map_map]
  refine List.map_congr_left fun i _ => ?_
  rw [Function.comp_apply, List.getElem?_map]

end Scanner

end PinsSyntax
