import Unmask.Value.Arithmetic

/-!
# Parts and comparison of values

Elements and slices of text, octets and lists. Text is a row of characters. Positions may count
from the end, with -1 for the last one; the bounds of a slice are moved into the sequence.

Numbers are compared as numbers, text and octets from the front. Values that have no order are
equal when they have the same kind and contents.
-/
namespace Unmask.Value

/-- The place of a position that may count from the end. -/
def place? (index : Int) (length : Nat) : Option Nat :=
  let position := if index < 0 then index + length else index
  if 0 ≤ position && position < length then some position.toNat else Option.none

def element? {α : Type} (items : List α) (index : Int) : Option α :=
  (place? index items.length).bind (items[·]?)

def index (v position : Value) : Except EvalError Value :=
  match position.asInt? with
  | Option.none => .error (unsupported .index v position)
  | some n =>
    let found (element : Option Value) : Except EvalError Value :=
      match element with
      | some e => .ok e
      | Option.none => .error (.indexOutOfRange v.kind)
    match v with
    | .str s => found ((element? s.toList n).map fun c => .str (String.singleton c))
    | .bytes b => found ((element? b n).map fun o => .int o.toNat)
    | .list items => found (element? items n)
    | _ => .error (unsupported .index v position)

/-- The bounds of a slice; each may be absent. -/
structure Bounds where
  lower : Option Int
  upper : Option Int
  step : Option Int
  deriving DecidableEq

namespace Bounds

/-- A bound moved into the range from `low` to `high`. -/
def clamp (length low high : Int) (bound : Option Int) (absent : Int) : Int :=
  match bound with
  | Option.none => absent
  | some n => if n < 0 then max (n + length) low else min n high

/-- Where a slice starts, where it stops, and its step, on a sequence of a length. -/
def resolve (b : Bounds) (length : Nat) : Int × Int × Int :=
  let step := b.step.getD 1
  if step < 0 then
    let last : Int := length - 1
    (clamp length (-1) last b.lower last, clamp length (-1) last b.upper (-1), step)
  else (clamp length 0 length b.lower 0, clamp length 0 length b.upper length, step)

/-- The number of places from `start` in steps that lie before `stop`. -/
def count (start stop step : Int) : Nat :=
  if 0 < step then ((stop - start + step - 1).fdiv step).toNat
  else ((start - stop - step - 1).fdiv (-step)).toNat

/-- The places that a slice selects. -/
def places (b : Bounds) (length : Nat) : List Nat :=
  let (start, stop, step) := b.resolve length
  (List.range (count start stop step)).map fun i : Nat => (start + step * i).toNat

def select {α : Type} (b : Bounds) (items : List α) : List α :=
  let cells := items.toArray
  (b.places items.length).filterMap (cells[·]?)

end Bounds

def slice (v : Value) (b : Bounds) : Except EvalError Value :=
  let unlessZero (result : Value) : Except EvalError Value :=
    if b.step = some 0 then .error (.invalid .zeroStep) else .ok result
  match v with
  | .str s => unlessZero (.str (String.ofList (b.select s.toList)))
  | .bytes o => unlessZero (.bytes (b.select o))
  | .list items => unlessZero (.list (b.select items))
  | _ => .error (.unsupportedOperands .slice v.kind .slice)

/-- The order of two floats, unless one is no number. -/
def orderFloats (x y : Float) : Option Ordering :=
  if x < y then some .lt else if x == y then some .eq else if y < x then some .gt else Option.none

/-- The order of two rows by the first place where they differ. -/
def orderRows : List Nat → List Nat → Ordering
  | [], [] => .eq
  | [], _ :: _ => .lt
  | _ :: _, [] => .gt
  | a :: r, b :: s => if a < b then .lt else if b < a then .gt else orderRows r s

def order? (op : CompareOp) (a b : Value) : Except EvalError (Option Ordering) :=
  match a.number?, b.number? with
  | some (.int m), some (.int n) =>
    .ok (some (if m < n then .lt else if m = n then .eq else .gt))
  | some x, some y => do
    let x ← x.toFloat (.compare op)
    return orderFloats x (← y.toFloat (.compare op))
  | _, _ =>
    match a, b with
    | .str s, .str t => .ok (some (orderRows (s.toList.map Char.toNat) (t.toList.map Char.toNat)))
    | .bytes s, .bytes t => .ok (some (orderRows (s.map UInt8.toNat) (t.map UInt8.toNat)))
    | _, _ => .ok Option.none

/-- Whether a comparison holds; identity and membership are not decided. -/
def compare (op : CompareOp) (a b : Value) : Except EvalError Bool := do
  let order ← order? op a b
  let ordered (holds : Ordering → Bool) : Except EvalError Bool :=
    match order with
    | some o => .ok (holds o)
    | Option.none => .error (unsupported (.compare op) a b)
  match op with
  | .eq => return (order.map Ordering.isEq).getD (a.same b)
  | .notEq => return !(order.map Ordering.isEq).getD (a.same b)
  | .lt => ordered Ordering.isLT
  | .le => ordered Ordering.isLE
  | .gt => ordered Ordering.isGT
  | .ge => ordered Ordering.isGE
  | .is | .isNot | .isIn | .notIn => .error (unsupported (.compare op) a b)

end Unmask.Value
