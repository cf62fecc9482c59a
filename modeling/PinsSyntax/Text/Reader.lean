import PinsSyntax.Text.Location

/-!
# Reading a text

A reader stands at a place of a text: it holds the text that is left, the number of bytes already
read in UTF-8, and the location reached. `Reader.advance` reads one character, or the two of a
carriage return and line feed pair, which is one line break; each advance shortens the text left
(`length_rest_advance_lt`). `Reader.textTo` cuts out what lies between two readers by their byte
offsets.
-/

namespace PinsSyntax

/-- The number of bytes of a text in UTF-8. -/
def byteLength : List Char → Nat
  | [] => 0
  | c :: cs => c.utf8Size + byteLength cs

/-- The first `n` bytes of a text in UTF-8, if they end between two characters of the text. -/
def takeBytes? (n : Nat) : List Char → Option (List Char)
  | [] => if n = 0 then some [] else none
  | c :: cs =>
    if n = 0 then some []
    else if c.utf8Size ≤ n then (takeBytes? (n - c.utf8Size) cs).map (c :: ·)
    else none

/-- A place in a text: what is left to read, the bytes read so far, and the location reached. -/
structure Reader where
  rest : List Char
  offset : Nat
  location : Location
  deriving DecidableEq, Repr

namespace Reader

/-- A reader at the start of a text. -/
def ofText (text : List Char) : Reader := ⟨text, 0, .origin⟩

/-- The next character, if any is left. -/
def peek? (r : Reader) : Option Char := r.rest.head?

/-- Reads one character; a carriage return takes a line feed that follows it along. -/
def advance (r : Reader) : Reader :=
  match r.rest with
  | [] => r
  | '\r' :: '\n' :: rest => ⟨rest, r.offset + 2, r.location.nextLine⟩
  | c :: rest => ⟨rest, r.offset + c.utf8Size, r.location.past c⟩

theorem length_rest_advance_lt {r : Reader} (h : r.rest ≠ []) :
    r.advance.rest.length < r.rest.length := by
  unfold advance
  split
  · contradiction
  · rename_i hr
    rw [hr]
    exact Nat.lt_add_of_pos_right (Nat.zero_lt_succ 1)
  · rename_i hr
    rw [hr]
    exact Nat.lt_add_one _

theorem length_rest_advance_le (r : Reader) : r.advance.rest.length ≤ r.rest.length := by
  by_cases h : r.rest = []
  · simp [advance, h]
  · exact Nat.le_of_lt (length_rest_advance_lt h)

/-- Reads on as long as the next character satisfies `p`. -/
def skipWhile (p : Char → Bool) (r : Reader) : Reader :=
  match _ : r.rest with
  | [] => r
  | c :: _ => if p c then skipWhile p r.advance else r
termination_by r.rest.length
decreasing_by exact length_rest_advance_lt (by simp [*])

theorem length_rest_skipWhile_le (p : Char → Bool) (r : Reader) :
    (r.skipWhile p).rest.length ≤ r.rest.length := by
  fun_induction skipWhile p r with
  | case1 => exact Nat.le_refl _
  | case2 r c _ _ _ ih => exact Nat.le_trans ih (length_rest_advance_le r)
  | case3 => exact Nat.le_refl _

/-- The span from `start` to `stop`. -/
def spanTo (start stop : Reader) : Span := ⟨start.location, stop.location⟩

/-- The text read between `start` and `stop`, cut out by their byte offsets. -/
def textTo (start stop : Reader) : String :=
  String.ofList ((takeBytes? (stop.offset - start.offset) start.rest).getD [])

end Reader

end PinsSyntax
