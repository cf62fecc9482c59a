import PinsSyntax.Token.Kind

/-!
# Families of alternatives

Some rules of the grammar have several alternatives that differ in one token only: the binary and
the prefix operators, the constants, the named types and the sorts of definition. Each family is a
type whose members are known by their kind; `ofKind?` finds the member that a kind selects and is
the partial inverse of `kind`.
-/

namespace PinsSyntax

/-- The comparison operators. -/
inductive Comparison where
  | equal
  | notEqual
  | atMost
  | atLeast
  | less
  | greater
  deriving DecidableEq, Repr

namespace Comparison

/-- The kind of the operator. -/
def kind : Comparison → Kind
  | equal => .doubleEqual
  | notEqual => .bangEqual
  | atMost => .lessEqual
  | atLeast => .greaterEqual
  | less => .less
  | greater => .greater

/-- The comparison operator of a kind. -/
def ofKind? : Kind → Option Comparison
  | .doubleEqual => some equal
  | .bangEqual => some notEqual
  | .lessEqual => some atMost
  | .greaterEqual => some atLeast
  | .less => some less
  | .greater => some greater
  | _ => none

theorem ofKind?_eq_some_iff {k : Kind} {op : Comparison} : ofKind? k = some op ↔ op.kind = k := by
  cases k <;> cases op <;> decide

end Comparison

/-- The operators between the terms of a sum. -/
inductive SumOperator where
  | plus
  | minus
  deriving DecidableEq, Repr

namespace SumOperator

/-- The kind of the operator. -/
def kind : SumOperator → Kind
  | plus => .plus
  | minus => .minus

/-- The operator of a sum that a kind stands for. -/
def ofKind? : Kind → Option SumOperator
  | .plus => some plus
  | .minus => some minus
  | _ => none

theorem ofKind?_eq_some_iff {k : Kind} {op : SumOperator} : ofKind? k = some op ↔ op.kind = k := by
  cases k <;> cases op <;> decide

end SumOperator

/-- The operators between the factors of a product. -/
inductive ProductOperator where
  | times
  | divide
  | remainder
  deriving DecidableEq, Repr

namespace ProductOperator

/-- The kind of the operator. -/
def kind : ProductOperator → Kind
  | times => .star
  | divide => .slash
  | remainder => .percent

/-- The operator of a product that a kind stands for. -/
def ofKind? : Kind → Option ProductOperator
  | .star => some times
  | .slash => some divide
  | .percent => some remainder
  | _ => none

theorem ofKind?_eq_some_iff {k : Kind} {op : ProductOperator} :
    ofKind? k = some op ↔ op.kind = k := by
  cases k <;> cases op <;> decide

end ProductOperator

/-- The operators in front of an operand. -/
inductive Sign where
  | plus
  | minus
  | negation
  deriving DecidableEq, Repr

namespace Sign

/-- The kind of the operator. -/
def kind : Sign → Kind
  | plus => .plus
  | minus => .minus
  | negation => .bang

/-- The sign that a kind stands for. -/
def ofKind? : Kind → Option Sign
  | .plus => some plus
  | .minus => some minus
  | .bang => some negation
  | _ => none

theorem ofKind?_eq_some_iff {k : Kind} {op : Sign} : ofKind? k = some op ↔ op.kind = k := by
  cases k <;> cases op <;> decide

end Sign

/-- The constants of the language. -/
inductive Constant where
  | logical
  | integer
  | string
  deriving DecidableEq, Repr

namespace Constant

/-- The kind of the constant. -/
def kind : Constant → Kind
  | logical => .logicalConstant
  | integer => .integerConstant
  | string => .stringConstant

/-- The constant that a kind stands for. -/
def ofKind? : Kind → Option Constant
  | .logicalConstant => some logical
  | .integerConstant => some integer
  | .stringConstant => some string
  | _ => none

theorem ofKind?_eq_some_iff {k : Kind} {c : Constant} : ofKind? k = some c ↔ c.kind = k := by
  cases k <;> cases c <;> decide

end Constant

/-- The types of one token: the primitive types, and those that have been given a name. -/
inductive SimpleType where
  | logical
  | integer
  | string
  | named
  deriving DecidableEq, Repr

namespace SimpleType

/-- The kind of the token. -/
def kind : SimpleType → Kind
  | logical => .logicalWord
  | integer => .integerWord
  | string => .stringWord
  | named => .identifier

/-- The type that a token of the kind stands for. -/
def ofKind? : Kind → Option SimpleType
  | .logicalWord => some logical
  | .integerWord => some integer
  | .stringWord => some string
  | .identifier => some named
  | _ => none

theorem ofKind?_eq_some_iff {k : Kind} {t : SimpleType} : ofKind? k = some t ↔ t.kind = k := by
  cases k <;> cases t <;> decide

end SimpleType

/-- What a definition defines: a type, a variable or a function. -/
inductive DefinitionSort where
  | ofType
  | ofVariable
  | ofFunction
  deriving DecidableEq, Repr

namespace DefinitionSort

/-- The keyword that opens the definition. -/
def kind : DefinitionSort → Kind
  | ofType => .typWord
  | ofVariable => .varWord
  | ofFunction => .funWord

/-- The sort of definition that a keyword opens. -/
def ofKind? : Kind → Option DefinitionSort
  | .typWord => some ofType
  | .varWord => some ofVariable
  | .funWord => some ofFunction
  | _ => none

theorem ofKind?_eq_some_iff {k : Kind} {s : DefinitionSort} : ofKind? k = some s ↔ s.kind = k := by
  cases k <;> cases s <;> decide

end DefinitionSort

end PinsSyntax
