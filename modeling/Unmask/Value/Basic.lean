import Unmask.Syntax.Printer
import Unmask.Text.Basic

/-!
# Values

The values that expressions fold to: what literals denote, and lists of values. A value has a
written form, `repr`, and a display form, `display`, which differs from it for text only. Where
values have no result there is an error with a message.
-/
namespace Unmask

inductive Value where
  | none
  | bool (value : Bool)
  | int (value : Int)
  | float (value : Float)
  | str (value : String)
  | bytes (value : Bytes)
  | list (items : List Value)

instance : Inhabited Value := ⟨.none⟩

/-- The kinds of values, and that of a slice, which is no value. -/
inductive Kind where
  | none | bool | int | float | str | bytes | list | slice
  deriving DecidableEq, Repr

def Kind.name : Kind → String
  | .none => "NoneType"
  | .bool => "bool"
  | .int => "int"
  | .float => "float"
  | .str => "str"
  | .bytes => "bytes"
  | .list => "list"
  | .slice => "slice"

namespace Value

def kind : Value → Kind
  | .none => .none
  | .bool _ => .bool
  | .int _ => .int
  | .float _ => .float
  | .str _ => .str
  | .bytes _ => .bytes
  | .list _ => .list

mutual

/-- Whether two values have the same kind and the same contents. Floats are compared as numbers. -/
def same : Value → Value → Bool
  | .none, .none => true
  | .bool a, .bool b => a == b
  | .int a, .int b => a == b
  | .float a, .float b => a == b
  | .str a, .str b => a == b
  | .bytes a, .bytes b => a == b
  | .list a, .list b => sameList a b
  | _, _ => false

def sameList : List Value → List Value → Bool
  | [], [] => true
  | a :: r, b :: s => a.same b && sameList r s
  | _, _ => false

end

/-- The value of a literal; an ellipsis has none. -/
def ofConstant? : Constant → Option Value
  | .none => some .none
  | .bool b => some (.bool b)
  | .int n => some (.int n)
  | .float x => some (.float x)
  | .str s => some (.str s)
  | .bytes b => some (.bytes b)
  | .ellipsis => Option.none

mutual

def toExpr : Value → Expr
  | .none => .constant .none
  | .bool b => .constant (.bool b)
  | .int n => .constant (.int n)
  | .float x => .constant (.float x)
  | .str s => .constant (.str s)
  | .bytes b => .constant (.bytes b)
  | .list items => .list (toExprs items)

def toExprs : List Value → List Expr
  | [] => []
  | v :: rest => v.toExpr :: toExprs rest

end

/-- A value as an integer; the truth values count as one and zero. -/
def asInt? : Value → Option Int
  | .bool b => some (if b then 1 else 0)
  | .int n => some n
  | _ => Option.none

def asText? : Value → Option String
  | .str s => some s
  | _ => Option.none

/-- Whether a condition with this value holds: nothing, zero and what is empty do not. -/
def truthy : Value → Bool
  | .none => false
  | .bool b => b
  | .int n => n != 0
  | .float x => x != 0
  | .str s => !s.isEmpty
  | .bytes b => !b.isEmpty
  | .list items => !items.isEmpty

mutual

def repr : Value → String
  | .none => "None"
  | .bool true => "True"
  | .bool false => "False"
  | .int n => toString n
  | .float x => Decimal.floatText x
  | .str s => Literal.quoteText s
  | .bytes b => Literal.quoteBytes b
  | .list items => "[" ++ ", ".intercalate (reprs items) ++ "]"

def reprs : List Value → List String
  | [] => []
  | v :: rest => v.repr :: reprs rest

end

/-- The display form of a value: text as it is, all else as written. -/
def display : Value → String
  | .str s => s
  | v => v.repr

end Value

/-- What is done to values, as it is named in errors. -/
inductive Operation where
  | unary (op : UnaryOp)
  | binary (op : BinaryOp)
  | compare (op : CompareOp)
  | index
  | slice
  | toFloat
  deriving DecidableEq, Repr

def Operation.symbol : Operation → String
  | .unary op => op.symbol
  | .binary op => op.symbol
  | .compare op => op.symbol
  | .index => "[]"
  | .slice => "[:]"
  | .toFloat => "float"

/-- What is wrong with a value of the right kind. -/
inductive ValueFault where
  | negativeShift
  | zeroStep
  | notHexadecimal
  | notFloat (text : String)
  | notInList (value : String)
  | notUtf8 (fault : Text.Utf8.Fault)
  deriving DecidableEq

def ValueFault.message : ValueFault → String
  | .negativeShift => "negative shift count"
  | .zeroStep => "slice step cannot be zero"
  | .notHexadecimal => "Non-hexadecimal digit found"
  | .notFloat text => "could not convert string to float: " ++ Text.Quoted.quote text
  | .notInList value => value ++ " is not in list"
  | .notUtf8 fault => "'utf-8' codec can't decode bytes: " ++ fault.message

/-- Why an operation has no result. -/
inductive EvalError where
  | unsupportedOperands (op : Operation) (left right : Kind)
  | unsupportedOperand (op : Operation) (operand : Kind)
  | divisionByZero
  | indexOutOfRange (kind : Kind)
  /-- The result would be larger than what is folded. -/
  | tooLarge (op : Operation)
  | invalid (fault : ValueFault)
  deriving DecidableEq

def EvalError.message : EvalError → String
  | .unsupportedOperands op left right =>
    s!"unsupported operand type(s) for {op.symbol}: '{left.name}' and '{right.name}'"
  | .unsupportedOperand op operand => s!"bad operand type for unary {op.symbol}: '{operand.name}'"
  | .divisionByZero => "division by zero"
  | .indexOutOfRange kind => s!"{kind.name} index out of range"
  | .tooLarge op => s!"result of {op.symbol} is too large to fold"
  | .invalid fault => fault.message

end Unmask
