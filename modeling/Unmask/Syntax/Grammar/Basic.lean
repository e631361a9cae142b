import Unmask.Syntax.Token
import Unmask.Syntax.Tree

/-!
# Grammar rules

A rule reads a tree at a place and tells where it stops. Rules call each other through `Rules`, the
record of the places where the grammar refers back to itself; `Unmask.Syntax.Grammar.Statement`
closes the circle. This module holds the record, the ways of looking at a single token, and rules
for rows and for string literals.

Literals in a row are one. A formatted literal holds expressions in braces, which are read to find
its end. Every rule that may take many steps is given `n`, a number of steps no smaller than what is
left to read; this holds in the other modules of the grammar as well.
-/
namespace Unmask

/-- Reads something at a place and tells the place after it; `none` if it does not stand there. -/
abbrev Rule (α : Type) := Cursor → Option (α × Cursor)

/-- Where an expression stands. -/
structure Frame where
  /-- A line end stops the expression. -/
  line : Bool
  /-- The expression may be a conditional `a if b else c`. -/
  ternary : Bool

namespace Frame

/-- Within a statement that ends with its line. -/
def statement : Frame := ⟨true, true⟩

/-- Between brackets, or in the head of a block: line ends do not count. -/
def free : Frame := ⟨false, true⟩

/-- A part of a comprehension, where `if` opens a condition. -/
def clause : Frame := ⟨false, false⟩

/-- Whether what stands at a place no longer belongs to the expression. -/
def stops (f : Frame) (c : Cursor) : Bool := f.line && c.lineEnd.isSome

end Frame

/-- The rules that the grammar refers back to. -/
structure Rules where
  expr : Frame → Rule Expr
  unary : Frame → Rule Expr
  inversion : Frame → Rule Expr
  target : Frame → Rule Expr
  pattern : Rule Unit
  /-- The inside of braces in a formatted string, up to the closing brace. -/
  hole : Rule Unit
  /-- The statements after a colon. -/
  suite : Rule (List Stmt)

namespace Cursor

def word (c : Cursor) : List Char := Token.word c.rest

def isWord (c : Cursor) (w : String) : Bool := c.word == w.toList

def isSymbol (c : Cursor) (s : String) : Bool := Token.symbol c.rest == s.toList

def afterWord (c : Cursor) : Cursor := c.advance c.word.length

/-- Whether a block may not end here although an operand is due: a line that is indented less than
its block ends the block, unless it goes on with a quote. -/
def isCutOff (c : Cursor) : Bool :=
  c.isDedented && !(c.rest.head?.any fun q => Literal.isQuote q || q == '`')

/-- Goes to the operand after an operator of `n` characters. -/
def operand? (c : Cursor) (n : Nat) : Option Cursor :=
  let c := c.advance n
  if c.isCutOff then none else some c

/-- Goes behind a symbol, after which brackets may close and lines may end. -/
def symbol? (c : Cursor) (s : String) : Option Cursor :=
  if c.isSymbol s then some (c.advance s.length) else none

/-- Goes behind a word after which an operand is due. -/
def keyword? (c : Cursor) (w : String) : Option Cursor :=
  if c.isWord w then c.operand? w.length else none

def name? (c : Cursor) : Option (String × Cursor) :=
  let w := c.word
  if w.isEmpty || Token.isReserved w then none else some (String.ofList w, c.advance w.length)

end Cursor

namespace Grammar

/-- Reads further elements, each behind a comma. A last comma may have no element behind it; the
result tells whether there was a comma at all. -/
def elements {α : Type} (rule : Rule α) : Nat → List α → Bool → Rule (List α × Bool)
  | 0, _, _, _ => none
  | n + 1, done, comma, c =>
    match c.symbol? "," with
    | none => some ((done.reverse, comma), c)
    | some c =>
      match rule c with
      | some (x, c) => elements rule n (x :: done) true c
      | none => some ((done.reverse, true), c)

/-- A rule that does not reach into the next line when line ends count. -/
def within {α : Type} (f : Frame) (rule : Rule α) : Rule α := fun c =>
  if f.stops c then none else rule c

/-- Reads what `rule` reads as often as it stands there. -/
def many {α : Type} (rule : Rule α) : Nat → List α → Rule (List α)
  | 0, _, _ => none
  | n + 1, done, c =>
    match rule c with
    | none => some (done.reverse, c)
    | some (x, c) => many rule n (x :: done) c

/-- Reads operands of operators that associate to the left. -/
def leftAssoc (f : Frame) (operator : Cursor → Option BinaryOp) (operand : Rule Expr) :
    Nat → Expr → Rule Expr
  | 0, _, _ => none
  | n + 1, left, c =>
    match if f.stops c then none else operator c with
    | none => some (left, c)
    | some op => do
      let c ← c.operand? op.symbol.length
      let (right, c) ← operand c
      leftAssoc f operator operand n (.binary left op right) c

/-- Whether a comprehension clause stands here. -/
def isClause (c : Cursor) : Bool :=
  c.isWord "for" || (c.isWord "async" && c.afterWord.isWord "for")

open Unmask.Text

/-- Passes over the format of an expression in braces, whose expressions may nest. -/
def formatSpec (g : Rules) : Nat → Rule Unit
  | 0, _ => none
  | n + 1, c =>
    match Token.format 0 c.rest with
    | .closed k => some ((), c.step k)
    | .hole k => do
      let (_, c) ← g.hole (c.step k)
      formatSpec g n c
    | .broken => none

/-- Goes on in the body of a string literal to its end. -/
def stringBody (g : Rules) (s : Token.StringStart) : Nat → Rule Unit
  | 0, _ => none
  | n + 1, c =>
    match Token.body s 0 true 0 c.rest with
    | .closed k => some ((), c.advance k)
    | .hole k => do
      let (_, c) ← g.hole (c.step k)
      stringBody g s n c
    | .broken => none

def string (g : Rules) (n : Nat) : Rule (List Char) := fun c => do
  let s ← Token.stringStart? c.rest
  let (_, stop) ← stringBody g s n (c.step s.length)
  return (c.textTo stop, stop)

def strings (g : Rules) (f : Frame) (n : Nat) : Nat → List (List Char) → Rule (List (List Char))
  | 0, _, _ => none
  | m + 1, done, c =>
    match if f.stops c then none else string g n c with
    | none => some (done.reverse, c)
    | some (text, c) => strings g f n m (text :: done) c

/-- The value of adjacent string literals. They are all text or all octets. -/
def joinStrings? (parts : List (List Char)) : Option Constant := do
  let values ← parts.mapM Literal.StringLiteral.decode?
  let texts := values.filterMap fun
    | .text s => some s
    | .bytes _ => none
  let octets := values.filterMap fun
    | .bytes b => some b
    | .text _ => none
  if octets.isEmpty then some (.str (String.join texts))
  else if texts.isEmpty then some (.bytes octets.flatten)
  else none

/-- One or more string literals; those without a value are kept as written. -/
def stringAtom (g : Rules) (f : Frame) (n : Nat) : Rule Expr := fun c => do
  let (first, c₁) ← string g n c
  let (parts, stop) ← strings g f n n [first] c₁
  match joinStrings? parts with
  | some value => return (.constant value, stop)
  | none => return (.verbatim (c.dedentedTo stop), stop)

end Grammar

end Unmask
