import Unmask.Syntax.Grammar.Primary

/-!
# The grammar of expressions

From the weakest to the strongest binding: `as`, conditionals, `or`, `and` and `not`, comparisons,
`|`, `^`, `&`, shifts, sums, products, signs and powers.
-/
namespace Unmask.Grammar

section Operator

open Unmask.Text

/-- Whether something that `await` can take stands here. -/
def isAwaitable (c : Cursor) : Bool :=
  (Token.stringStart? c.rest).isSome || (Token.number? c.rest).isSome || (wordAtom c).isSome ||
    ["(", "[", "\x7b", "...", "*", "+", "-", "~"].any c.isSymbol

def sign? (c : Cursor) : Option UnaryOp :=
  if c.isSymbol "-" then some .minus
  else if c.isSymbol "+" then some .plus
  else if c.isSymbol "~" then some .invert
  else none

/-- A primary, perhaps raised to a power. -/
def power (g : Rules) (f : Frame) (n : Nat) : Rule Expr := fun c => do
  let (base, c) ← primary g f n c
  if !f.stops c && c.isSymbol "**" then
    let c ← c.operand? 2
    let (exponent, c) ← g.unary f c
    return (.binary base .pow exponent, c)
  else return (base, c)

/-- Signs and `await`, which bind weaker than powers. -/
def unary (g : Rules) (f : Frame) (n : Nat) : Rule Expr := fun c =>
  match sign? c with
  | some op => do
    let c ← c.operand? 1
    let (operand, c) ← g.unary f c
    return (.unary op operand, c)
  | none =>
    let after := c.afterWord
    if c.isWord "await" && !f.stops after && isAwaitable after then do
      let (operand, c) ← g.unary f after
      return (.await operand, c)
    else power g f n c

def term (g : Rules) (f : Frame) (n : Nat) : Rule Expr := fun c => do
  let (left, c) ← unary g f n c
  let operator (c : Cursor) : Option BinaryOp :=
    match Token.symbol c.rest with
    | ['*'] => some .mult
    | ['@'] => some .matMult
    | ['/'] => some .div
    | ['%'] => some .mod
    | ['/', '/'] => some .floorDiv
    | _ => none
  leftAssoc f operator (unary g f n) n left c

def arith (g : Rules) (f : Frame) (n : Nat) : Rule Expr := fun c => do
  let (left, c) ← term g f n c
  let operator (c : Cursor) : Option BinaryOp :=
    match Token.symbol c.rest with
    | ['+'] => some .add
    | ['-'] => some .sub
    | _ => none
  leftAssoc f operator (term g f n) n left c

def shift (g : Rules) (f : Frame) (n : Nat) : Rule Expr := fun c => do
  let (left, c) ← arith g f n c
  let operator (c : Cursor) : Option BinaryOp :=
    match Token.symbol c.rest with
    | ['<', '<'] => some .shiftLeft
    | ['>', '>'] => some .shiftRight
    | _ => none
  leftAssoc f operator (arith g f n) n left c

def bitXor (g : Rules) (f : Frame) (n : Nat) : Rule Expr := fun c => do
  let (left, c) ← shift g f n c
  leftAssoc f (fun c => if c.isSymbol "^" then some .bitXor else none) (shift g f n) n left c

def bitAnd (g : Rules) (f : Frame) (n : Nat) : Rule Expr := fun c => do
  let (left, c) ← bitXor g f n c
  leftAssoc f (fun c => if c.isSymbol "&" then some .bitAnd else none) (bitXor g f n) n left c

def bitOr (g : Rules) (f : Frame) (n : Nat) : Rule Expr := fun c => do
  let (left, c) ← bitAnd g f n c
  leftAssoc f (fun c => if c.isSymbol "|" then some .bitOr else none) (bitAnd g f n) n left c

/-- A comparison operator as it is written, and the place of its right operand. -/
def compareSymbol? (c : Cursor) : Option (String × Cursor) :=
  let two (first second : String) : Option (String × Cursor) :=
    let c₁ := c.afterWord
    if c.isWord first && c₁.isWord second then do
      let c₂ ← c₁.operand? second.length
      return (String.ofList (c.textTo c₂), c₂)
    else none
  let s := String.ofList (Token.symbol c.rest)
  if ["<", "<=", "==", "!=", ">=", ">", "<>"].contains s then
    (c.operand? s.length).map fun c => (s, c)
  else if c.isWord "in" then (c.keyword? "in").map fun c => ("in", c)
  else if c.isWord "not" then two "not" "in"
  else if c.isWord "is" then
    if c.afterWord.isWord "not" then two "is" "not" else (c.keyword? "is").map fun c => ("is", c)
  else none

/-- Further comparisons. An operator that is not written with blanks alone between its words is
absent. -/
def comparisons (g : Rules) (f : Frame) (n : Nat) :
    Nat → List (Option CompareOp × Expr) → Rule (List (Option CompareOp × Expr))
  | 0, _, _ => none
  | m + 1, done, c =>
    match if f.stops c then none else compareSymbol? c with
    | none => some (done.reverse, c)
    | some (symbol, c) => do
      let (right, c) ← bitOr g f n c
      comparisons g f n m ((CompareOp.ofSymbol? symbol, right) :: done) c

def comparison (g : Rules) (f : Frame) (n : Nat) : Rule Expr := fun c => do
  let (left, c₁) ← bitOr g f n c
  let (links, stop) ← comparisons g f n n [] c₁
  if links.isEmpty then return (left, stop)
  else
    match links.mapM Prod.fst with
    | some ops => return (.compare left ops (links.map Prod.snd), stop)
    | none => return (.verbatim (c.dedentedTo stop), stop)

end Operator

section Expression

open Unmask.Text

def parameter (g : Rules) (typed : Bool) (n : Nat) : Rule Unit := fun c => do
  let c ←
    if c.isSymbol "*" then
      let c := c.advance 1
      match c.name? with
      | some (_, c) => some c
      | none => some c
    else if c.isSymbol "**" then (c.operand? 2).bind (·.name?) |>.map Prod.snd
    else if c.isSymbol "/" then some (c.advance 1)
    else if c.isSymbol "(" then (g.target .free c).map Prod.snd
    else c.name?.map Prod.snd
  let c ←
    if typed && c.isSymbol ":" then
      (c.operand? 1).bind fun c => (element g n c).map Prod.snd
    else some c
  if c.isSymbol "=" then
    let c ← c.operand? 1
    let (_, c) ← g.expr .free c
    return ((), c)
  else return ((), c)

/-- The parameters before a closing symbol, which is left to read. -/
def parameters (g : Rules) (typed : Bool) (close : String) (n : Nat) : Rule Unit := fun c =>
  if c.isSymbol close then some ((), c)
  else do
    let (_, c) ← parameter g typed n c
    let (_, c) ← elements (parameter g typed n) n [()] false c
    return ((), c)

/-- A lambda, its parameters kept as written. -/
def lambda (g : Rules) (f : Frame) (n : Nat) : Rule Expr := fun c => do
  let first ← if c.isWord "lambda" then some c.afterWord else none
  let (_, stop) ← parameters g false ":" n first
  let params := if first.pos == stop.pos then "" else first.dedentedTo stop
  let c ← if stop.isSymbol ":" then stop.operand? 1 else none
  let (body, c) ← g.expr f c
  return (.lambda params body, c)

/-- `target := value`. -/
def named (g : Rules) (f : Frame) : Rule Expr := fun c => do
  let (target, c) ← c.name?
  let c ← if !f.stops c && c.isSymbol ":=" then c.operand? 2 else none
  let (value, c) ← g.expr { f with ternary := false } c
  return (.named target value, c)

def inversion (g : Rules) (f : Frame) (n : Nat) : Rule Expr := fun c =>
  if c.isWord "lambda" then lambda g f n c
  else if c.isWord "not" then do
    let c ← c.keyword? "not"
    let (operand, c) ← g.inversion f c
    return (.unary .not operand, c)
  else
    match named g f c with
    | some r => some r
    | none => comparison g f n c

def operands (f : Frame) (op : BoolOp) (operand : Rule Expr) :
    Nat → List Expr → Rule (List Expr)
  | 0, _, _ => none
  | n + 1, done, c =>
    if !f.stops c && c.isWord op.symbol then do
      let c ← c.keyword? op.symbol
      let (e, c) ← operand c
      operands f op operand n (e :: done) c
    else some (done.reverse, c)

/-- One operand, or a chain of several. -/
def chain (f : Frame) (op : BoolOp) (operand : Rule Expr) (n : Nat) : Rule Expr := fun c => do
  let (first, c) ← operand c
  let (values, c) ← operands f op operand n [first] c
  match values with
  | [value] => return (value, c)
  | values => return (.bool op values, c)

def conjunction (g : Rules) (f : Frame) (n : Nat) : Rule Expr :=
  chain f .and (inversion g f n) n

def disjunction (g : Rules) (f : Frame) (n : Nat) : Rule Expr :=
  chain f .or (conjunction g f n) n

/-- An expression without `as`. -/
def conditional (g : Rules) (f : Frame) (n : Nat) : Rule Expr := fun c => do
  let (body, c) ← disjunction g f n c
  if f.ternary && !f.stops c && c.isWord "if" then
    let c ← c.keyword? "if"
    let (test, c) ← g.expr .free c
    let c ← c.keyword? "else"
    let (orelse, c) ← g.expr f c
    return (.conditional test body orelse, c)
  else return (body, c)

/-- Names given with `as`, which make the whole expression text. -/
def asTargets (g : Rules) (f : Frame) (n : Nat) (first : Cursor) : Nat → Expr → Rule Expr
  | 0, _, _ => none
  | m + 1, e, c =>
    if !f.stops c && c.isWord "as" then do
      let c ← c.keyword? "as"
      let (_, stop) ← disjunction g f n c
      asTargets g f n first m (.verbatim (first.dedentedTo stop)) stop
    else some (e, c)

def expr (g : Rules) (f : Frame) (n : Nat) : Rule Expr := fun c => do
  let (e, stop) ← conditional g f n c
  asTargets g f n c n e stop

/-- Whether an expression can be assigned to as it stands. -/
def isTarget : Expr → Bool
  | .name _ | .attribute .. | .subscript .. => true
  | _ => false

/-- Targets between brackets, unless the brackets belong to a longer primary. -/
def targetGroup (g : Rules) (f : Frame) (n : Nat) (left right : String) : Rule (List Expr) :=
  fun c => do
    let inner ← c.symbol? left
    let (items, c) ←
      if inner.isSymbol right then some ([], inner)
      else do
        let (first, c) ← g.target .free inner
        let ((items, _), c) ← elements (g.target .free) n [first] false c
        some (items, c)
    let stop ← c.symbol? right
    if !f.stops stop && ["(", "[", "."].any stop.isSymbol then none else some (items, stop)

/-- A target of an assignment or a loop. Parentheses make a tuple even around one target. -/
def target (g : Rules) (f : Frame) (n : Nat) : Rule Expr := fun c =>
  if c.isSymbol "*" then spread g f n c
  else
    match targetGroup g f n "(" ")" c with
    | some (items, stop) => some (.tuple items, stop)
    | none =>
      match targetGroup g f n "[" "]" c with
      | some (items, stop) => some (.list items, stop)
      | none => do
        let (e, stop) ← primary g f n c
        if isTarget e then some (e, stop) else none

/-- An expression in braces: its value, then perhaps `=`, a conversion and a format. -/
def hole (g : Rules) (n : Nat) : Rule Unit := fun c => do
  let c ← c.symbol? "\x7b"
  let c ←
    if c.isWord "yield" then (yield g .free n c).map Prod.snd
    else (expressionList g .free n c).map Prod.snd
  let c := if c.isSymbol "=" then c.advance 1 else c
  let c := match c.rest with
    | '!' :: letter :: _ => if 'a' ≤ letter && letter ≤ 'z' then c.advance 2 else c
    | _ => c
  let (_, c) ←
    if c.isSymbol ":" then formatSpec g n (c.step 1) else some ((), c)
  if c.isSymbol "\x7d" then some ((), c.step 1) else none

end Expression

end Unmask.Grammar
