/-!
# Character classes

The classes of characters that tokens are made of. All of them hold ASCII characters only; digits
and letters are those of `Char.isDigit` and `Char.isAlpha`.
-/

namespace PinsSyntax.CharClass

/-- Line breaks are the line feed and the carriage return. -/
def isLineBreak (c : Char) : Bool := c == '\n' || c == '\r'

/-- Blanks separate tokens: the space, the tab and the line breaks. -/
def isBlank (c : Char) : Bool := c == ' ' || c == '\t' || isLineBreak c

/-- A word starts with a letter or an underscore. -/
def isWordStart (c : Char) : Bool := c.isAlpha || c == '_'

/-- A word goes on with letters, underscores and digits. -/
def isWordPart (c : Char) : Bool := isWordStart c || c.isDigit

/-- Printable characters run from the space to the tilde. -/
def isPrintable (c : Char) : Bool := ' ' ≤ c && c ≤ '~'

end PinsSyntax.CharClass
