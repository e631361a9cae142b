import Unmask.Syntax.Grammar.Simple

/-!
# The grammar of statements and programs

A compound statement has a head that ends with a colon and a suite: either simple statements in the
same line, or a block of lines indented more than the block around it, or nothing.

With the references of the grammar rules to each other filled in there are two ways in: a whole
program and a single expression.
-/
namespace Unmask

namespace Grammar

/-- Goes behind a word that continues a compound statement, if it still belongs to this block. -/
def continuation? (c : Cursor) (w : String) : Option Cursor :=
  if !c.isDedented && c.isWord w then some c.afterWord else none

def suite (g : Rules) : Rule (List Stmt) := fun c => do
  let c ← if c.isSymbol ":" then some (c.advance 1) else none
  g.suite c

/-- An `else` branch, empty if there is none. -/
def elseSuite (g : Rules) : Rule (List Stmt) := fun c =>
  match continuation? c "else" with
  | some c => suite g c
  | none => some ([], c)

/-- A conditional from its test on, with its `elif` branches nested. -/
def ifRest (g : Rules) : Nat → Rule Stmt
  | 0, _ => none
  | n + 1, c => do
    let (test, c) ← g.expr .free c
    let (body, c) ← suite g c
    match continuation? c "elif" with
    | some c =>
      let (rest, c) ← ifRest g n c
      return (.ite test body [rest], c)
    | none =>
      let (orelse, c) ← elseSuite g c
      return (.ite test body orelse, c)

def whileStatement (g : Rules) : Rule Stmt := fun c => do
  let c ← c.keyword? "while"
  let (test, c) ← g.expr .free c
  let (body, c) ← suite g c
  let (orelse, c) ← elseSuite g c
  return (.whileLoop test body orelse, c)

def forStatement (g : Rules) (n : Nat) (isAsync : Bool) : Rule Stmt := fun c => do
  let c ← c.keyword? "for"
  let (target, c) ← targetList g .free n c
  let c ← c.keyword? "in"
  let (iter, c) ← expressionList g .free n c
  let (body, c) ← suite g c
  let (orelse, c) ← elseSuite g c
  return (.forLoop target iter body orelse isAsync, c)

/-- What an `except` clause catches, and the name it binds. -/
def caught (g : Rules) (n : Nat) : Rule (Option Expr × Option String) := fun c =>
  if c.isSymbol ":" then some ((none, none), c)
  else do
    let (type, c) ← conditional g .free n c
    let bound? ←
      if c.isWord "as" then (c.keyword? "as").map some
      else if c.isSymbol "," then (c.operand? 1).map some
      else some none
    match bound? with
    | none => return ((some type, none), c)
    | some first =>
      let (_, stop) ← conditional g .free n first
      return ((some type, some (String.ofList (first.textTo stop))), stop)

/-- An `except` clause; a star behind the word is dropped. -/
def exceptClause (g : Rules) (n : Nat) : Rule Handler := fun c => do
  let c ← continuation? c "except"
  let c := if c.isSymbol "*" then c.advance 1 else c
  let ((type, name), c) ← caught g n c
  let (body, c) ← suite g c
  return (⟨type, name, body⟩, c)

/-- A `try` block. The grammar has every branch behind it optional, each by itself: `try: a` alone
is a statement, and so is an `else` branch without `except` clauses. -/
def tryStatement (g : Rules) (n : Nat) : Rule Stmt := fun c => do
  let (body, c) ← suite g c.afterWord
  let (handlers, c) ← many (exceptClause g n) n [] c
  let (orelse, c) ← elseSuite g c
  let (finalbody, c) ←
    match continuation? c "finally" with
    | some c => suite g c
    | none => some ([], c)
  return (.tryBlock body handlers orelse finalbody false, c)

/-- A `with` block; its items are kept as written. -/
def withStatement (g : Rules) (n : Nat) (isAsync : Bool) : Rule Stmt := fun c => do
  let first ← c.keyword? "with"
  let (e, c) ← g.expr .free first
  let (_, stop) ← elements (g.expr .free) n [e] false c
  let (body, c) ← suite g stop
  return (.withBlock (first.dedentedTo stop) body isAsync, c)

/-- A function from `def` on. Its parameters and annotation are kept as written; with type
parameters the whole function is, from `first` on. -/
def functionRest (g : Rules) (n : Nat) (first : Cursor) (decorators : List Expr)
    (isAsync : Bool) : Rule Stmt := fun c => do
  let (name, c) ← c.afterWord.name?
  let isGeneric := c.isSymbol "["
  let (_, paramsStart) ← if isGeneric then typeParameters g n c else some ((), c)
  let inner ← paramsStart.symbol? "("
  let (_, c) ← parameters g true ")" n inner
  let paramsStop ← c.symbol? ")"
  let params := paramsStart.dedentedTo paramsStop
  let (returns, c) ←
    if paramsStop.isSymbol "->" then do
      let typeStart ← paramsStop.operand? 2
      let (_, typeStop) ← typeExpression g .free typeStart
      some (some (typeStart.dedentedTo typeStop), typeStop)
    else some (none, paramsStop)
  let (body, stop) ← suite g c
  if isGeneric then return written first stop
  else return (.functionDef name params returns body decorators isAsync, stop)

/-- A class; with type parameters it is kept as written from `first` on. -/
def classRest (g : Rules) (n : Nat) (first : Cursor) (decorators : List Expr) : Rule Stmt :=
  fun c => do
    let (name, c) ← c.afterWord.name?
    let isGeneric := c.isSymbol "["
    let (_, c) ← if isGeneric then typeParameters g n c else some ((), c)
    let ((bases, keywords), c) ←
      if c.isSymbol "(" then argumentList g n c else some (([], []), c)
    let (body, stop) ← suite g c
    if isGeneric then return written first stop
    else return (.classDef name bases keywords body decorators, stop)

def definition (g : Rules) (n : Nat) (first : Cursor) (decorators : List Expr) : Rule Stmt :=
  fun c =>
    if c.isWord "def" then functionRest g n first decorators false c
    else if c.isWord "class" then classRest g n first decorators c
    else if c.isWord "async" && c.afterWord.isWord "def" then
      functionRest g n first decorators true c.afterWord
    else none

def decorator (g : Rules) : Rule Expr := fun c => do
  let c ← if c.isSymbol "@" then c.operand? 1 else none
  let (e, c) ← g.expr .statement c
  if c.lineEnd.isSome && !c.isDedented then some (e, c) else none

def decorated (g : Rules) (n : Nat) : Rule Stmt := fun c => do
  let (decorators, c₁) ← many (decorator g) n [] c
  definition g n c decorators c₁

def caseClause (g : Rules) (n : Nat) (indent : Nat) : Rule Unit := fun c => do
  let c ← match c.lineEnd with
    | some width => if width < indent then none else c.keyword? "case"
    | none => c.keyword? "case"
  let (first, c) ← g.pattern c
  let (_, c) ← elements g.pattern n [first] false c
  let c ←
    if c.isWord "if" then do
      let c ← c.keyword? "if"
      (g.expr .free c).map Prod.snd
    else some c
  let (_, c) ← suite g c
  return ((), c)

/-- A `match` statement, kept as written. -/
def matchStatement (g : Rules) (n : Nat) : Rule Stmt := fun c => do
  let (_, head) ← expressionList g .free n c.afterWord
  let head ← head.symbol? ":"
  let width ← head.lineEnd
  if width ≤ c.indent then return written c head
  else
    let (cases, stop) ← many (caseClause g n width) n [] { head with indent := width }
    let closed := stop.lineEnd.any (· < width)
    if cases.isEmpty || !closed then none
    else return written c { stop with indent := c.indent }

def compoundStatement (g : Rules) (n : Nat) : Rule Stmt := fun c =>
  if c.isWord "if" then (c.keyword? "if").bind (ifRest g n)
  else if c.isWord "while" then whileStatement g c
  else if c.isWord "for" then forStatement g n false c
  else if c.isWord "try" then tryStatement g n c
  else if c.isWord "with" then withStatement g n false c
  else if c.isWord "def" || c.isWord "class" then definition g n c [] c
  else if c.isSymbol "@" then decorated g n c
  else if c.isWord "async" then
    let after := c.afterWord
    if after.isWord "def" then definition g n c [] c
    else if after.isWord "for" then forStatement g n true after
    else if after.isWord "with" then withStatement g n true after
    else none
  else if c.isWord "match" && c.afterWord.lineEnd.isNone then matchStatement g n c
  else none

/-- One compound statement, or the simple statements of one line. -/
def statement (g : Rules) (n : Nat) : Rule (List Stmt) := fun c =>
  match compoundStatement g n c with
  | some (s, c) => some ([s], c)
  | none => simpleStatements g n [] c

/-- Statements up to the end of the block or of the source. -/
def statements (g : Rules) (n : Nat) : Nat → List Stmt → Rule (List Stmt)
  | 0, _, _ => none
  | m + 1, done, c =>
    if c.atEnd || c.isDedented then some (done.reverse, c)
    else do
      let (s, c) ← statement g n c
      statements g n m (s.reverse ++ done) c

def block (g : Rules) (n : Nat) : Rule (List Stmt) := fun c =>
  match c.lineEnd with
  | none => simpleStatements g n [] c
  | some width =>
    if c.indent < width then
      (statements g n n [] { c with indent := width }).map fun (body, stop) =>
        (body, { stop with indent := c.indent })
    else some ([], c)

end Grammar

/-- The grammar rules for sources of at most `n` tokens in a row. -/
def Rules.upTo : Nat → Rules
  | 0 =>
    { expr := fun _ _ => none
      unary := fun _ _ => none
      inversion := fun _ _ => none
      target := fun _ _ => none
      pattern := fun _ => none
      hole := fun _ => none
      suite := fun _ => none }
  | n + 1 =>
    { expr := fun f c => Grammar.expr (Rules.upTo n) f n c
      unary := fun f c => Grammar.unary (Rules.upTo n) f n c
      inversion := fun f c => Grammar.inversion (Rules.upTo n) f n c
      target := fun f c => Grammar.target (Rules.upTo n) f n c
      pattern := fun c => Grammar.pattern (Rules.upTo n) n c
      hole := fun c => Grammar.hole (Rules.upTo n) n c
      suite := fun c => Grammar.block (Rules.upTo n) n c }

/-- A number of steps that reading a source never exceeds. -/
def stepLimit (source : List Char) : Nat := 2 * source.length + 16

/-- Each carriage return before a line feed left out. -/
def unifyLineEnds : List Char → List Char
  | '\r' :: '\n' :: rest => '\n' :: unifyLineEnds rest
  | c :: rest => c :: unifyLineEnds rest
  | [] => []

/-- Why a text is no program or no expression. -/
inductive SyntaxError where
  /-- No program; the line is that of the first statement that cannot be read. -/
  | invalidSyntax (line : Nat)
  /-- A program, but not a single expression. -/
  | notAnExpression (found : String)
  deriving DecidableEq, Repr

def SyntaxError.message : SyntaxError → String
  | .invalidSyntax line => s!"invalid syntax at line {line}"
  | .notAnExpression found => s!"expected a single expression: {found}"

def Module.ofChars? (source : List Char) : Option Module :=
  let source := unifyLineEnds source
  let n := stepLimit source
  match Grammar.statements (Rules.upTo n) n n [] (Cursor.start source) with
  | some (m, c) => if c.atEnd then some m else none
  | none => none

/-- The source from the first of at most `m` statements on that cannot be read. -/
def unread (g : Rules) (n : Nat) : Nat → Cursor → List Char
  | 0, c => c.rest
  | m + 1, c =>
    match Grammar.statement g n c with
    | none => c.rest
    | some (_, next) => unread g n m next

/-- The line of the first statement that cannot be read. -/
def faultLine (source : List Char) : Nat :=
  let source := unifyLineEnds source
  let n := stepLimit source
  let rest := unread (Rules.upTo n) n n (Cursor.start source)
  source.count '\n' - rest.count '\n' + 1

def Module.parse (source : String) : Except SyntaxError Module :=
  match Module.ofChars? source.toList with
  | some m => .ok m
  | none => .error (.invalidSyntax (faultLine source.toList))

/-- Reads a text that is a single expression; blanks around it do not matter. -/
def Expr.parse (source : String) : Except SyntaxError Expr :=
  let source := Text.trimChars source.toList
  match Module.ofChars? source with
  | none => .error (.invalidSyntax (faultLine source))
  | some [] => .error (.notAnExpression "empty source")
  | some [.expr e] => .ok e
  | some [_] => .error (.notAnExpression "found a statement")
  | some _ => .error (.notAnExpression "found more than one statement")

end Unmask
