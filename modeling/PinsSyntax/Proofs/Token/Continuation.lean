import PinsSyntax.Proofs.Token.Moving

/-!
# What comes behind a text

A scanner looks no further than one character behind what it reads. So the items that end before a
text does stay as they are, whatever the text goes on with (`Scanner.yields_append`). An item at the
end need not: a number or a word can become longer there, a symbol or a line break can turn out to
be the first half of another one, and a string can still be closed.
-/

namespace PinsSyntax

namespace Scanner

variable {s : Scanner} {items : List Item}

/-- A scanner of a text that goes on yields the same items as long as it leaves some of its own
text. -/
lemma exists_yields_moved (h : s.Yields items) (m : Move) :
    ∃ early late later, items = early ++ late ∧
      (s.moved m).Yields (early.map (Item.down m.lines) ++ later) ∧
      ∀ n < items.length, n < early.length ↔ (s.after (n + 1)).reader.rest ≠ [] := by
  induction items generalizing s with
  | nil =>
    obtain ⟨later, hl⟩ := (s.moved m).exists_yields
    exact ⟨[], [], later, rfl, hl, nofun⟩
  | cons item items ih =>
    obtain ⟨hi, hy⟩ := yields_cons_iff.1 h
    by_cases hr : s.next.2.reader.rest = []
    · -- What comes behind has nothing of the text left either.
      obtain ⟨later, hl⟩ := (s.moved m).exists_yields
      refine ⟨[], item :: items, later, rfl, hl, fun n _ => ⟨nofun, fun hn => absurd ?_ hn⟩⟩
      exact (reaches_after n s.next.2).rest_eq_nil hr
    · obtain ⟨early, late, later, rfl, hl, hn⟩ := ih hy
      refine ⟨item :: early, late, later, rfl, yields_cons_iff.2 ?_, fun n hlt => ?_⟩
      · rw [next_moved (.inr hr), hi]
        exact ⟨rfl, hl⟩
      · cases n with
        | zero => exact ⟨fun _ => hr, fun _ => Nat.zero_lt_succ _⟩
        | succ n => exact Nat.succ_lt_succ_iff.trans (hn n (Nat.lt_of_succ_lt_succ hlt))

/-- The items of a text that leave some of the text behind them are the first ones of the text with
any other one behind it. -/
theorem yields_append (a b : String) :
    ∃ early late later : List Item,
      (ofString a).Yields (early ++ late) ∧ (ofString (a ++ b)).Yields (early ++ later) ∧
      ∀ n item, (early ++ late)[n]? = some item →
        ∃ front rest, a.toList = front ++ rest ∧
          ((ofString a).after (n + 1)).reader = .behind front rest ∧
          item.span.stop = Location.origin.through front ∧ (n < early.length ↔ rest ≠ []) := by
  obtain ⟨items, hy⟩ := (ofString a).exists_yields
  let m : Move := ⟨0, 0, b.toList⟩
  obtain ⟨early, late, later, rfl, hl, hn⟩ := exists_yields_moved hy m
  have hm : (ofString a).moved m = ofString (a ++ b) := by
    simp only [ofString, moved, Reader.moved, Reader.ofText, String.toList_append]
    rfl
  rw [hm, Item.down_zero, List.map_id] at hl
  refine ⟨early, late, later, hy, hl, fun n item hi => ?_⟩
  obtain ⟨front, rest, ha, hr⟩ := exists_reader_after a (n + 1)
  have hs := stop_next ((hy.getElem?_eq n).symm.trans hi)
  have hn := hn n (List.getElem?_eq_some_iff.1 hi).1
  rw [← after_succ, hr] at hs
  rw [hr] at hn
  exact ⟨front, rest, ha, hr, hs, hn⟩

end Scanner

end PinsSyntax
