/-!
# Kinds of tokens

The kinds of tokens with their names and spellings. A keyword or a symbol is spelled in one way
only (`keyword?`, `symbol?`); identifiers and constants have no fixed spelling, and `endOfInput`
stands for no text at all. `ofWord` and `ofSymbolChar?` read kinds off text, and `describe` names a
kind in a diagnostic.
-/

namespace PinsSyntax

/-- What a token is. -/
inductive Kind where
  | identifier
  | integerConstant
  | stringConstant
  | logicalConstant
  | plus
  | minus
  | star
  | slash
  | percent
  | ampersand
  | bar
  | bang
  | doubleEqual
  | bangEqual
  | less
  | lessEqual
  | greater
  | greaterEqual
  | equal
  | leftParen
  | rightParen
  | leftBracket
  | rightBracket
  | leftBrace
  | rightBrace
  | colon
  | semicolon
  | dot
  | comma
  | typWord
  | varWord
  | funWord
  | arrWord
  | whileWord
  | forWord
  | ifWord
  | thenWord
  | elseWord
  | whereWord
  | logicalWord
  | integerWord
  | stringWord
  | endOfInput
  deriving DecidableEq, Repr, Inhabited

namespace Kind

/-- All kinds: constants, operators, punctuation, keywords, primitive types, end of input. -/
def all : List Kind :=
  [identifier, integerConstant, stringConstant, logicalConstant,
    plus, minus, star, slash, percent, ampersand, bar, bang,
    doubleEqual, bangEqual, less, lessEqual, greater, greaterEqual, equal,
    leftParen, rightParen, leftBracket, rightBracket, leftBrace, rightBrace,
    colon, semicolon, dot, comma,
    typWord, varWord, funWord, arrWord, whileWord, forWord, ifWord, thenWord, elseWord, whereWord,
    logicalWord, integerWord, stringWord, endOfInput]

theorem mem_all (k : Kind) : k ∈ all := by
  cases k <;> decide

/-- The name of a kind in a listing of tokens. -/
def name : Kind → String
  | identifier => "Identifier"
  | integerConstant => "IntConst"
  | stringConstant => "StringConst"
  | logicalConstant => "LogicalConst"
  | plus => "Plus"
  | minus => "Minus"
  | star => "Star"
  | slash => "Slash"
  | percent => "Percent"
  | ampersand => "And"
  | bar => "Or"
  | bang => "Bang"
  | doubleEqual => "EqEq"
  | bangEqual => "BangEq"
  | less => "LessThan"
  | lessEqual => "LessThanEq"
  | greater => "GreaterThan"
  | greaterEqual => "GreaterThanEq"
  | equal => "Eq"
  | leftParen => "LeftParen"
  | rightParen => "RightParen"
  | leftBracket => "LeftBracket"
  | rightBracket => "RightBracket"
  | leftBrace => "LeftBrace"
  | rightBrace => "RightBrace"
  | colon => "Colon"
  | semicolon => "Semicolon"
  | dot => "Dot"
  | comma => "Comma"
  | typWord => "Typ"
  | varWord => "Var"
  | funWord => "Fun"
  | arrWord => "Arr"
  | whileWord => "While"
  | forWord => "For"
  | ifWord => "If"
  | thenWord => "Then"
  | elseWord => "Else"
  | whereWord => "Where"
  | logicalWord => "LogicalType"
  | integerWord => "IntegerType"
  | stringWord => "StringType"
  | endOfInput => "Eof"

/-- The kind with a given name. -/
def ofName? (text : String) : Option Kind := all.find? (·.name == text)

/-- The reserved spelling of a keyword or a primitive type. -/
def keyword? : Kind → Option String
  | typWord => some "typ"
  | varWord => some "var"
  | funWord => some "fun"
  | arrWord => some "arr"
  | whileWord => some "while"
  | forWord => some "for"
  | ifWord => some "if"
  | thenWord => some "then"
  | elseWord => some "else"
  | whereWord => some "where"
  | logicalWord => some "logical"
  | integerWord => some "integer"
  | stringWord => some "string"
  | _ => none

/-- The spelling of an operator or a punctuation mark. -/
def symbol? : Kind → Option String
  | plus => some "+"
  | minus => some "-"
  | star => some "*"
  | slash => some "/"
  | percent => some "%"
  | ampersand => some "&"
  | bar => some "|"
  | bang => some "!"
  | doubleEqual => some "=="
  | bangEqual => some "!="
  | less => some "<"
  | lessEqual => some "<="
  | greater => some ">"
  | greaterEqual => some ">="
  | equal => some "="
  | leftParen => some "("
  | rightParen => some ")"
  | leftBracket => some "["
  | rightBracket => some "]"
  | leftBrace => some "\x7b"
  | rightBrace => some "\x7d"
  | colon => some ":"
  | semicolon => some ";"
  | dot => some "."
  | comma => some ","
  | _ => none

/-- The one spelling of a kind that has one. -/
def spelling? (k : Kind) : Option String := k.keyword? <|> k.symbol?

/-- Names a kind in a diagnostic: its spelling in backquotes, or else what it is. -/
def describe (k : Kind) : String :=
  match k.spelling? with
  | some text => "`" ++ text ++ "`"
  | none =>
    match k with
    | identifier => "identifier"
    | integerConstant => "integer constant"
    | stringConstant => "string constant"
    | logicalConstant => "logical constant"
    | _ => "end of input"

/-- Each reserved word with its kind. -/
def keywords : List (String × Kind) :=
  all.filterMap fun k => k.keyword?.map (·, k)

/-- The kind of a reserved word. -/
def ofKeyword? (word : String) : Option Kind := keywords.lookup word

/-- The kind of a word: a reserved word, one of the two logical constants, or an identifier. -/
def ofWord (word : String) : Kind :=
  match ofKeyword? word with
  | some k => k
  | none => if word = "true" ∨ word = "false" then logicalConstant else identifier

/-- The kind of a symbol of one character. -/
def ofSymbolChar? : Char → Option Kind
  | '+' => some plus
  | '-' => some minus
  | '*' => some star
  | '/' => some slash
  | '%' => some percent
  | '&' => some ampersand
  | '|' => some bar
  | '!' => some bang
  | '=' => some equal
  | '<' => some less
  | '>' => some greater
  | '(' => some leftParen
  | ')' => some rightParen
  | '[' => some leftBracket
  | ']' => some rightBracket
  | '{' => some leftBrace
  | '}' => some rightBrace
  | ':' => some colon
  | ';' => some semicolon
  | '.' => some dot
  | ',' => some comma
  | _ => none

/-- The kind of the symbol that has an equals sign after the symbol of the given kind. -/
def withEqual? : Kind → Option Kind
  | bang => some bangEqual
  | equal => some doubleEqual
  | less => some lessEqual
  | greater => some greaterEqual
  | _ => none

end Kind

end PinsSyntax
