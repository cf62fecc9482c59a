import PinsSyntax.Recognizer.SyntaxError

/-!
# Cursors over tokens

A cursor moves forward over a sequence of tokens that is closed by its only end of input. It shows
the token it stands at, and it stops at the end of input. `Cursor.ofTokens` refuses every other
sequence.
-/

namespace PinsSyntax

/-- A place in a sequence of tokens: the number of tokens passed, the token at the place, and the
tokens behind it. -/
structure Cursor where
  position : Nat
  current : Token
  behind : List Token
  deriving DecidableEq, Repr

namespace Cursor

/-- A cursor at the first token of a sequence that is closed by its only end of input. Any other
sequence is an error at its first end of input, or at its last token if it has none, or at the
start of the text if it has no tokens. -/
def ofTokens (tokens : List Token) : Except SyntaxError Cursor :=
  match tokens, tokens.dropWhile (!·.isEnd) with
  | first :: behind, [_] => .ok ⟨0, first, behind⟩
  | _, extra :: _ => .error ⟨extra.span, .missingEndOfInput⟩
  | _, [] => .error ⟨(tokens.getLast?.map Token.span).getD .origin, .missingEndOfInput⟩

/-- The token at the cursor. -/
def peek (c : Cursor) : Token := c.current

/-- Whether the token at the cursor is of kind `k`. -/
def check (c : Cursor) (k : Kind) : Bool := c.peek.kind == k

/-- Whether the cursor stands at the end of input. -/
def isAtEnd (c : Cursor) : Bool := c.check .endOfInput

/-- The cursor at the next token, or where it is if that is the end of input. -/
def advance (c : Cursor) : Cursor :=
  if c.isAtEnd then c
  else
    match c.behind with
    | [] => c
    | t :: behind => ⟨c.position + 1, t, behind⟩

/-- The token at the cursor and all behind it. -/
def remaining (c : Cursor) : List Token := c.current :: c.behind

end Cursor

end PinsSyntax
