import Unmask.Decimal
import Unmask.Text.Basic
import Unmask.Value.Basic

/-!
# Arithmetic on values

An integer is read in two's complement, as an endless row of bits: a nonnegative number has zeros to
the left of its digits, a negative one has ones. The bitwise operators act on these rows place by
place.

Integers have any size, `/` always gives a float, and `//` and `%` round down. An operation whose
result would be longer than `maxLength` or have more than `maxBits` bits is refused. Truth values
count as one and zero, save that the bitwise operators on two of them give a truth value.
-/
namespace Unmask

namespace Integer

/-- The number of binary digits of the magnitude; zero has none. -/
def bitLength (n : Int) : Nat := if n = 0 then 0 else n.natAbs.log2 + 1

/-- The digits of the first number where the second one has zeros. -/
def maskOut (m n : Nat) : Nat := m ^^^ (m &&& n)

/-- Ones where both numbers have ones. -/
def bitAnd : Int → Int → Int
  | .ofNat m, .ofNat n => .ofNat (m &&& n)
  | .ofNat m, .negSucc n => .ofNat (maskOut m n)
  | .negSucc m, .ofNat n => .ofNat (maskOut n m)
  | .negSucc m, .negSucc n => .negSucc (m ||| n)

/-- Ones where a number has a one. -/
def bitOr : Int → Int → Int
  | .ofNat m, .ofNat n => .ofNat (m ||| n)
  | .ofNat m, .negSucc n => .negSucc (maskOut n m)
  | .negSucc m, .ofNat n => .negSucc (maskOut m n)
  | .negSucc m, .negSucc n => .negSucc (m &&& n)

/-- Ones where the numbers differ. -/
def bitXor : Int → Int → Int
  | .ofNat m, .ofNat n => .ofNat (m ^^^ n)
  | .ofNat m, .negSucc n => .negSucc (m ^^^ n)
  | .negSucc m, .ofNat n => .negSucc (m ^^^ n)
  | .negSucc m, .negSucc n => .ofNat (m ^^^ n)

/-- Zeros become ones and ones become zeros. -/
def bitNot (n : Int) : Int := -n - 1

def power (base : Int) (exponent : Nat) : Int :=
  let magnitude : Int := Nat.pow base.natAbs exponent
  if base < 0 && exponent % 2 == 1 then -magnitude else magnitude

def shiftLeft (n : Int) (count : Nat) : Int := n * (Nat.pow 2 count : Nat)

/-- Moves all digits right. Once all are gone only the sign is left. -/
def shiftRight (n : Int) (count : Nat) : Int :=
  if bitLength n ≤ count then (if n < 0 then -1 else 0) else n.fdiv (Nat.pow 2 count : Nat)

end Integer

/-- The length of the longest sequence that is built: in octets of UTF-8 for text. -/
def maxLength : Nat := Nat.pow 2 24

/-- The bits of the largest integer that is computed. -/
def maxBits : Nat := Nat.pow 2 16

inductive Number where
  | int (value : Int)
  | float (value : Float)

namespace Number

/-- A number as a float, unless an integer is beyond all floats. -/
def toFloat (op : Operation) : Number → Except EvalError Float
  | .float x => .ok x
  | .int n =>
    let x := Decimal.ofInt n
    if x.isFinite then .ok x else .error (.tooLarge op)

/-- The remainder of floats: it has the sign of the divisor. -/
def floatModulo (a b : Float) : Float :=
  let r := Decimal.remainder a b
  if r != 0 && decide (r < 0) != decide (b < 0) then r + b else r

/-- Arithmetic of floats; the bitwise operators and `@` do not apply. -/
def floatBinary (op : BinaryOp) (a b : Float) : Except EvalError Value :=
  match op with
  | .add => .ok (.float (a + b))
  | .sub => .ok (.float (a - b))
  | .mult => .ok (.float (a * b))
  | .div => if b == 0 then .error .divisionByZero else .ok (.float (a / b))
  | .floorDiv => if b == 0 then .error .divisionByZero else .ok (.float (a / b).floor)
  | .mod => if b == 0 then .error .divisionByZero else .ok (.float (floatModulo a b))
  | .pow => if a == 0 && b < 0 then .error .divisionByZero else .ok (.float (a.pow b))
  | _ => .error (.unsupportedOperands (.binary op) .float .float)

/-- Arithmetic of floats on integers. -/
def intAsFloatBinary (op : BinaryOp) (a b : Int) : Except EvalError Value := do
  let x ← (Number.int a).toFloat (.binary op)
  let y ← (Number.int b).toFloat (.binary op)
  floatBinary op x y

/-- An integer that is not too large. -/
def bounded (op : BinaryOp) (n : Int) : Except EvalError Value :=
  if maxBits < Integer.bitLength n then .error (.tooLarge (.binary op)) else .ok (.int n)

/-- A product; it is refused by the sizes of its factors. -/
def product (a b : Int) : Except EvalError Value :=
  if maxBits < Integer.bitLength a + Integer.bitLength b then .error (.tooLarge (.binary .mult))
  else .ok (.int (a * b))

/-- A power; with a negative exponent it is a float. -/
def power (a b : Int) : Except EvalError Value :=
  if b < 0 then intAsFloatBinary .pow a b
  else if b < Nat.pow 2 32 && Integer.bitLength a * b.toNat ≤ maxBits then
    .ok (.int (Integer.power a b.toNat))
  else .error (.tooLarge (.binary .pow))

def shiftLeft (a b : Int) : Except EvalError Value :=
  if b < 0 then .error (.invalid .negativeShift)
  else if maxBits < Integer.bitLength a + b.toNat then .error (.tooLarge (.binary .shiftLeft))
  else .ok (.int (Integer.shiftLeft a b.toNat))

def shiftRight (a b : Int) : Except EvalError Value :=
  if b < 0 then .error (.invalid .negativeShift) else .ok (.int (Integer.shiftRight a b.toNat))

def intBinary (op : BinaryOp) (a b : Int) : Except EvalError Value :=
  match op with
  | .add => bounded op (a + b)
  | .sub => bounded op (a - b)
  | .mult => product a b
  | .floorDiv => if b == 0 then .error .divisionByZero else .ok (.int (a.fdiv b))
  | .mod => if b == 0 then .error .divisionByZero else .ok (.int (a.fmod b))
  | .div => if b == 0 then .error .divisionByZero else intAsFloatBinary .div a b
  | .pow => power a b
  | .shiftLeft => shiftLeft a b
  | .shiftRight => shiftRight a b
  | .bitAnd => .ok (.int (Integer.bitAnd a b))
  | .bitOr => .ok (.int (Integer.bitOr a b))
  | .bitXor => .ok (.int (Integer.bitXor a b))
  | .matMult => .error (.unsupportedOperands (.binary op) .int .int)

end Number

namespace Value

def number? : Value → Option Number
  | .float x => some (.float x)
  | v => v.asInt?.map Number.int

def unary (op : UnaryOp) (v : Value) : Except EvalError Value :=
  match op, v.number? with
  | .not, _ => .ok (.bool !v.truthy)
  | .plus, some (.int n) => .ok (.int n)
  | .minus, some (.int n) => .ok (.int (-n))
  | .invert, some (.int n) => .ok (.int (Integer.bitNot n))
  | .plus, some (.float x) => .ok (.float x)
  | .minus, some (.float x) => .ok (.float (-x))
  | _, _ => .error (.unsupportedOperand (.unary op) v.kind)

/-- A sequence of which the pieces are `length` long together, unless that is too long. -/
def sized (op : BinaryOp) (length : Nat) (result : Value) : Except EvalError Value :=
  if maxLength < length then .error (.tooLarge (.binary op)) else .ok result

def copies {α : Type} (times : Nat) (items : List α) : List α :=
  if items.isEmpty then [] else (List.replicate times items).flatten

/-- A sequence that is repeated; a negative count gives the empty one. -/
def repeated? (sequence count : Value) : Option (Except EvalError Value) :=
  count.asInt?.bind fun n =>
    let times := n.toNat
    match sequence with
    | .str s =>
      some (if maxLength < s.utf8ByteSize * times then .error (.tooLarge (.binary .mult))
        else .ok (.str (String.ofList (copies times s.toList))))
    | .bytes b =>
      some (if maxLength < b.length * times then .error (.tooLarge (.binary .mult))
        else .ok (.bytes (copies times b)))
    | .list items =>
      some (if maxLength < items.length * times then .error (.tooLarge (.binary .mult))
        else .ok (.list (copies times items)))
    | _ => Option.none

def isSequence : Value → Bool
  | .str _ => true
  | .bytes _ => true
  | .list _ => true
  | _ => false

/-- Two sequences of one kind in a row. -/
def joined? : Value → Value → Option (Except EvalError Value)
  | .str a, .str b => some (sized .add (a.utf8ByteSize + b.utf8ByteSize) (.str (a ++ b)))
  | .bytes a, .bytes b => some (sized .add (a.length + b.length) (.bytes (a ++ b)))
  | .list a, .list b => some (sized .add (a.length + b.length) (.list (a ++ b)))
  | _, _ => Option.none

/-- The bitwise operators on truth values. -/
def boolBinary? (op : BinaryOp) (a b : Bool) : Option Bool :=
  match op with
  | .bitAnd => some (a && b)
  | .bitOr => some (a || b)
  | .bitXor => some (a != b)
  | _ => Option.none

def unsupported (op : Operation) (a b : Value) : EvalError :=
  .unsupportedOperands op a.kind b.kind

/-- An operator that floats do not have is refused with the kinds of its operands. -/
def floatOperands (op : BinaryOp) (a b : Value) (x y : Number) : Except EvalError Value := do
  let x ← x.toFloat (.binary op)
  let y ← y.toFloat (.binary op)
  match Number.floatBinary op x y with
  | .error (.unsupportedOperands _ _ _) => .error (unsupported (.binary op) a b)
  | result => result

def numericBinary (op : BinaryOp) (a b : Value) : Except EvalError Value :=
  match a.number?, b.number? with
  | some (.int m), some (.int n) => Number.intBinary op m n
  | some x, some y => floatOperands op a b x y
  | _, _ => .error (unsupported (.binary op) a b)

def binary (op : BinaryOp) (a b : Value) : Except EvalError Value :=
  match op with
  | .add => (joined? a b).getD (numericBinary op a b)
  | .mult =>
    if a.isSequence then (a.repeated? b).getD (.error (unsupported (.binary op) a b))
    else if b.isSequence then (b.repeated? a).getD (.error (unsupported (.binary op) a b))
    else numericBinary op a b
  | _ =>
    match a, b with
    | .bool p, .bool q =>
      match boolBinary? op p q with
      | some r => .ok (.bool r)
      | Option.none => numericBinary op a b
    | _, _ => numericBinary op a b

mutual

/-- The value of a literal expression: a literal, a display of literals, or an operator with one
operand before one. -/
def ofExpr? : Expr → Option Value
  | .constant c => ofConstant? c
  | .list items => (ofExprs? items).map Value.list
  | .tuple items => (ofExprs? items).map Value.list
  | .unary op operand => (ofExpr? operand).bind fun v => (v.unary op).toOption
  | _ => Option.none

def ofExprs? : List Expr → Option (List Value)
  | [] => some []
  | e :: rest => (ofExpr? e).bind fun v => (ofExprs? rest).map (v :: ·)

end

mutual

theorem ofExpr?_toExpr (v : Value) : ofExpr? v.toExpr = some v := by
  cases v with
  | list items => simp [toExpr, ofExpr?, ofExprs?_toExprs items]
  | _ => rfl

theorem ofExprs?_toExprs (items : List Value) : ofExprs? (toExprs items) = some items := by
  cases items with
  | nil => rfl
  | cons v rest => simp [toExprs, ofExprs?, ofExpr?_toExpr v, ofExprs?_toExprs rest]

end

end Value

end Unmask
