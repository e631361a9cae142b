import Unmask.Text.Basic

/-!
# Doubles and decimals

A finite double is `significand · 2 ^ exponent`. Doubles are taken apart that way, and a positive
rational is put back together by rounding to the nearest double; a tie goes to the even significand.

Of the decimals that round to a given double, the shortest one is one with the fewest digits, and
among those the nearest to the double. With `n` digits only the two neighbours of the double on the
grid of `n`-digit decimals can qualify, so they are tried for `n = 1, 2, … 17` in exact arithmetic.
Its text is positional when the exponent lies between `-4` and `15`, with at least one digit on each
side of the point, and `d.ddde±XX` otherwise, with at least two digits in the exponent and no point
after a single digit.

A decimal that is read is an optional sign, digits with at most one point among, before or after
them, and an optional exponent; `inf`, `infinity` and `nan` are read in any case.
-/
namespace Unmask.Decimal

/-- A finite double, sign aside. -/
structure Binary where
  significand : Nat
  exponent : Int
  deriving DecidableEq, Repr

def isNegative (x : Float) : Bool := x.toBits >>> 63 == 1

/-- The magnitude of a finite double. -/
def Binary.ofFloat (x : Float) : Binary :=
  let bits : Nat := x.toBits.toNat
  let fraction : Nat := bits % Nat.pow 2 52
  let field : Nat := bits / Nat.pow 2 52 % Nat.pow 2 11
  if field == 0 then ⟨fraction, -1074⟩ else ⟨fraction + Nat.pow 2 52, (field : Int) - 1075⟩

/-- The exponent and the numerator and denominator of a positive rational in units of the last
place of the double nearest to it: the least exponent from `-1074` on for which the quotient is
below `2 ^ 53`. -/
def lastPlace (num den : Nat) : Int × Nat × Nat :=
  let guess : Int := (num.log2 : Int) - (den.log2 : Int) - 53
  let scale (e : Int) : Nat × Nat :=
    if e < 0 then (num * Nat.pow 2 e.natAbs, den) else (num, den * Nat.pow 2 e.natAbs)
  let fits (e : Int) : Bool := (scale e).1 < Nat.pow 2 53 * (scale e).2
  let e := max (if fits guess then guess else guess + 1) (-1074)
  (e, scale e)

/-- A quotient rounded to the nearest natural number, a tie to the even one. -/
def roundQuotient (num den : Nat) : Nat :=
  let q := num / den
  let r := num % den
  if 2 * r < den then q
  else if den < 2 * r then q + 1
  else if q % 2 == 0 then q else q + 1

/-- The bits of the nonnegative double `significand · 2 ^ exponent`, infinity when it is too large.
The significand is at most `2 ^ 53`, and at least `2 ^ 52` unless the exponent is `-1074`. -/
def assemble (significand : Nat) (exponent : Int) : UInt64 :=
  let field := (exponent + 1074).toNat
  let bits := if significand < Nat.pow 2 52 then significand else field * Nat.pow 2 52 + significand
  if 0x7FF0000000000000 ≤ bits then 0x7FF0000000000000 else UInt64.ofNat bits

/-- The double nearest to a nonnegative rational; infinity beyond the range of doubles. -/
def ofRatio (num den : Nat) : Float :=
  if num == 0 then 0.0
  else
    let (e, n, d) := lastPlace num den
    Float.ofBits (assemble (roundQuotient n d) e)

/-- The double nearest to an integer; infinite beyond the range of doubles. -/
def ofInt (n : Int) : Float :=
  let x := ofRatio n.natAbs 1
  if n < 0 then -x else x

/-- The remainder of a division that truncates toward zero. It has the sign of the dividend. -/
def remainder (x y : Float) : Float :=
  if x.isNaN || y.isNaN || x.isInf || y == 0.0 then 0.0 / 0.0
  else if y.isInf then x
  else
    let a := Binary.ofFloat x
    let b := Binary.ofFloat y
    let e := min a.exponent b.exponent
    let scaled (c : Binary) : Nat := c.significand * Nat.pow 2 (c.exponent - e).toNat
    let r := scaled a % scaled b
    let unit := Nat.pow 2 e.natAbs
    let magnitude := if e < 0 then ofRatio r unit else ofRatio (r * unit) 1
    if isNegative x then -magnitude else magnitude

/-- The decimal `d.ddd · 10 ^ exponent` with the given digits. -/
structure Scientific where
  digits : List Char
  exponent : Int
  deriving DecidableEq, Repr

/-- The rationals that round to a double, with the double itself, over one denominator. The ends
belong to them when `closed`. -/
structure Rounding where
  low : Nat
  value : Nat
  high : Nat
  denominator : Nat
  closed : Bool

def Rounding.of (b : Binary) : Rounding :=
  let below := if b.significand == Nat.pow 2 52 && b.exponent != -1074 then 1 else 2
  let m := 4 * b.significand
  let e := b.exponent - 2
  let up := if e < 0 then 1 else Nat.pow 2 e.natAbs
  let down := if e < 0 then Nat.pow 2 e.natAbs else 1
  ⟨(m - below) * up, m * up, (m + 2) * up, down, b.significand % 2 == 0⟩

/-- Whether `c · 10 ^ e` rounds to the double. -/
def Rounding.contains (r : Rounding) (c : Nat) (e : Int) : Bool :=
  let point := if e < 0 then c * r.denominator else c * Nat.pow 10 e.natAbs * r.denominator
  let unit := if e < 0 then Nat.pow 10 e.natAbs else 1
  let low := r.low * unit
  let high := r.high * unit
  if r.closed then low ≤ point && point ≤ high else low < point && point < high

/-- The greatest `k` with `10 ^ k ≤ value`, searched upwards from a guess that is not above it. -/
def Rounding.magnitudeFrom (r : Rounding) : Nat → Int → Int
  | 0, k => k
  | fuel + 1, k =>
    let next := k + 1
    let reached :=
      if next < 0 then r.denominator ≤ r.value * Nat.pow 10 next.natAbs
      else r.denominator * Nat.pow 10 next.natAbs ≤ r.value
    if reached then r.magnitudeFrom fuel next else k

def Rounding.magnitude (r : Rounding) : Int :=
  let guess := ((r.value.log2 : Int) - (r.denominator.log2 : Int) - 1) * 30103 / 100000 - 1
  r.magnitudeFrom 4 guess

/-- The double divided by `10 ^ e`: quotient, remainder and divisor. -/
def Rounding.divide (r : Rounding) (e : Int) : Nat × Nat × Nat :=
  let num := if e < 0 then r.value * Nat.pow 10 e.natAbs else r.value
  let den := if e < 0 then r.denominator else r.denominator * Nat.pow 10 e.natAbs
  (num / den, num % den, den)

/-- The neighbour of the double on the grid of multiples of `10 ^ e` that rounds to it, the nearer
one when both do and the upper one on a tie. -/
def Rounding.neighbour? (r : Rounding) (e : Int) : Option Nat :=
  let (q, rest, den) := r.divide e
  match r.contains q e, r.contains (q + 1) e with
  | true, true => some (if 2 * rest < den then q else q + 1)
  | true, false => some q
  | false, true => some (q + 1)
  | false, false => none

/-- Tries the grids of `n`, `n + 1`, … digits; `k` is the magnitude of the double. -/
def Rounding.shortestFrom (r : Rounding) (k : Int) : Nat → Nat → Nat × Int
  | 0, n => ((r.divide (k - n + 1)).1, k - n + 1)
  | fuel + 1, n =>
    match r.neighbour? (k - n + 1) with
    | some c => (c, k - n + 1)
    | none => r.shortestFrom k fuel (n + 1)

/-- A count of units of `10 ^ e` in scientific form, without trailing zeros. -/
def Scientific.ofUnits (c : Nat) (e : Int) : Scientific :=
  let digits := Nat.toDigits 10 c
  let kept := (digits.reverse.dropWhile (· == '0')).reverse
  ⟨if kept.isEmpty then ['0'] else kept, e + (digits.length : Int) - 1⟩

def Scientific.ofFloat (x : Float) : Scientific :=
  let b := Binary.ofFloat x
  if b.significand == 0 then ⟨['0'], 0⟩
  else
    let r := Rounding.of b
    let (c, e) := r.shortestFrom r.magnitude 17 1
    Scientific.ofUnits c e

def zeros (n : Nat) : List Char := List.replicate n '0'

/-- Positional notation of `d.ddd · 10 ^ exponent`. -/
def positional (digits : List Char) (exponent : Int) : List Char :=
  if exponent < 0 then '0' :: '.' :: zeros (exponent.natAbs - 1) ++ digits
  else
    let whole := exponent.natAbs + 1
    if digits.length ≤ whole then digits ++ zeros (whole - digits.length) ++ ['.', '0']
    else digits.take whole ++ '.' :: digits.drop whole

def twoDigits (n : Nat) : List Char :=
  let digits := Nat.toDigits 10 n
  zeros (2 - digits.length) ++ digits

def exponential (digits : List Char) (exponent : Int) : List Char :=
  let fraction := match digits.drop 1 with
    | [] => []
    | rest => '.' :: rest
  digits.take 1 ++ fraction ++ 'e' :: (if exponent < 0 then '-' else '+') ::
    twoDigits exponent.natAbs

def layout (negative : Bool) (digits : List Char) (exponent : Int) : List Char :=
  let sign := if negative then ['-'] else []
  if -4 ≤ exponent && exponent < 16 then sign ++ positional digits exponent
  else sign ++ exponential digits exponent

def floatText (x : Float) : String :=
  if x.isNaN then "nan"
  else if x.isInf then if isNegative x then "-inf" else "inf"
  else
    let d := Scientific.ofFloat x
    String.ofList (layout (isNegative x) d.digits d.exponent)

section Reading

open Unmask.Text

def digitsValue (digits : List Char) : Nat :=
  digits.foldl (fun n c => n * 10 + (c.toNat - '0'.toNat)) 0

/-- The double nearest to `digits · 10 ^ exponent`. Exponents far outside the range of doubles are
answered without computing the power. -/
def nearest (digits : List Char) (exponent : Int) : Float :=
  let significant := digits.dropWhile (· == '0')
  let top := (significant.length : Int) + exponent
  if significant.isEmpty || top < -400 then 0.0
  else if 400 < top then 1.0 / 0.0
  else
    let n := digitsValue significant
    let unit := Nat.pow 10 exponent.natAbs
    if exponent < 0 then ofRatio n unit else ofRatio (n * unit) 1

/-- An exponent after its mark: an optional sign and digits to the end. -/
def readExponent (cs : List Char) : Option Int :=
  let (negative, digits) := match cs with
    | '-' :: r => (true, r)
    | '+' :: r => (false, r)
    | r => (false, r)
  if digits.isEmpty || !digits.all isAsciiDigit then none
  else some (if negative then -(digitsValue digits : Int) else digitsValue digits)

def readMagnitude (cs : List Char) : Option Float :=
  let whole := cs.takeWhile isAsciiDigit
  let (fraction, rest) := match cs.dropWhile isAsciiDigit with
    | '.' :: r => (r.takeWhile isAsciiDigit, r.dropWhile isAsciiDigit)
    | r => ([], r)
  if whole.isEmpty && fraction.isEmpty then none
  else
    let exponent := match rest with
      | [] => some 0
      | c :: r => if c == 'e' || c == 'E' then readExponent r else none
    exponent.map fun e => nearest (whole ++ fraction) (e - fraction.length)

def readFloat (cs : List Char) : Option Float :=
  let (negative, rest) := match cs with
    | '-' :: r => (true, r)
    | '+' :: r => (false, r)
    | r => (false, r)
  let word := String.ofList (rest.map asciiLower)
  let magnitude :=
    if word == "inf" || word == "infinity" then some (1.0 / 0.0)
    else if word == "nan" then some (0.0 / 0.0)
    else readMagnitude rest
  magnitude.map fun x => if negative then -x else x

end Reading

end Unmask.Decimal
