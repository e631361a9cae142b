import Unmask.Syntax.Grammar.Expression

/-!
# The grammar of simple statements

Simple statements share a line and end with it: assignments with one or more targets, with an
operator or with an annotation, imports, and the statements that start with a word of their own.

A `match` statement is kept as written, so the rules for what may follow `case` only tell where a
pattern ends.
-/
namespace Unmask.Grammar

/-- Further names behind points. -/
def dottedRest : Nat → List String → Rule (List String)
  | 0, _, _ => none
  | n + 1, done, c =>
    match (c.symbol? ".").bind (·.name?) with
    | some (name, c) => dottedRest n (name :: done) c
    | none => some (done.reverse, c)

def dottedName (n : Nat) : Rule String := fun c => do
  let (first, c) ← c.name?
  let (names, c) ← dottedRest n [first] c
  return (".".intercalate names, c)

def signedNumber : Rule Unit := fun c => do
  let c := (c.symbol? "-").getD c
  let (_, c) ← numberAtom c
  return ((), c)

def numberPattern : Rule Unit := fun c => do
  let (_, c) ← signedNumber c
  match (c.symbol? "+").or (c.symbol? "-") with
  | some right =>
    let (_, c) ← numberAtom right
    return ((), c)
  | none => return ((), c)

/-- A star or two with a name. -/
def spreadPattern : Rule Unit := fun c => do
  let c ← (c.symbol? "**").or (c.symbol? "*")
  let (_, c) ← c.name?
  return ((), c)

/-- Patterns with commas between them up to a closing bracket. -/
def patternsUpTo (rule : Rule Unit) (close : String) (n : Nat) : Rule Unit := fun c =>
  match c.symbol? close with
  | some stop => some ((), stop)
  | none => do
    let (_, c) ← rule c
    let (_, c) ← elements rule n [()] false c
    let c ← c.symbol? close
    return ((), c)

/-- A name, perhaps dotted, and the patterns of its parts if it is a class. -/
def namePattern (g : Rules) (n : Nat) : Rule Unit := fun c => do
  let (_, c) ← dottedName n c
  match c.symbol? "(" with
  | some inner => patternsUpTo g.pattern ")" n inner
  | none => return ((), c)

/-- A pattern that is not a union. -/
def closedPattern (g : Rules) (pair : Rule Unit) (n : Nat) : Rule Unit := fun c =>
  if c.isSymbol "[" then patternsUpTo g.pattern "]" n (c.advance 1)
  else if c.isSymbol "(" then patternsUpTo g.pattern ")" n (c.advance 1)
  else if c.isSymbol "\x7b" then patternsUpTo pair "\x7d" n (c.advance 1)
  else if c.isSymbol "*" || c.isSymbol "**" then spreadPattern c
  else if (Token.stringStart? c.rest).isSome then (stringAtom g .free n c).map fun (_, c) => ((), c)
  else if c.isSymbol "-" || (Token.number? c.rest).isSome then numberPattern c
  else if c.isWord "None" || c.isWord "True" || c.isWord "False" then some ((), c.afterWord)
  else namePattern g n c

def alternatives (rule : Rule Unit) : Nat → Rule Unit
  | 0, _ => none
  | n + 1, c =>
    match c.symbol? "|" with
    | none => some ((), c)
    | some c => do
      let (_, c) ← rule c
      alternatives rule n c

def patternNames : Nat → Rule Unit
  | 0, _ => none
  | n + 1, c =>
    if c.isWord "as" then do
      let (_, c) ← c.afterWord.name?
      patternNames n c
    else some ((), c)

/-- A pattern without a name after `as`. Nested patterns and pairs are read by the given rule. -/
def unionPattern (g : Rules) (pair : Rule Unit) (n : Nat) : Rule Unit := fun c => do
  let (_, c) ← closedPattern g pair n c
  alternatives (closedPattern g pair n) n c

def keywordPattern (g : Rules) (pair : Rule Unit) (n : Nat) : Rule Unit := fun c => do
  let (_, c) ← c.name?
  let c ← c.symbol? "="
  unionPattern g pair n c

/-- A pair of a dictionary pattern or what takes the remaining pairs. -/
def pairPattern (g : Rules) : Nat → Rule Unit
  | 0, _ => none
  | n + 1, c =>
    if c.isSymbol "*" || c.isSymbol "**" then spreadPattern c
    else do
      let (_, c) ← unionPattern g (pairPattern g n) n c
      let c ← c.symbol? ":"
      g.pattern c

def pattern (g : Rules) (n : Nat) : Rule Unit := fun c => do
  let (_, c) ← (keywordPattern g (pairPattern g n) n c).or (unionPattern g (pairPattern g n) n c)
  patternNames n c

inductive RightSide where
  | value (e : Expr)
  /-- A plain assignment: its targets and the value. -/
  | assigned (targets : List Expr) (value : Expr)
  | yielded
  /-- An assignment with an annotation, an operator or a `yield` somewhere in it. -/
  | mixed

/-- The symbol of an augmented assignment here. -/
def augmented? (c : Cursor) : Option (List Char) :=
  let s := Token.symbol c.rest
  if Token.augmentedSymbols.contains s then some s else none

/-- The targets in front of an assignment symbol. -/
def assignmentTarget (g : Rules) (n : Nat) (symbol : List Char) : Rule Expr := fun c => do
  let (target, c) ← targetList g .statement n c
  if c.lineEnd.isNone && Token.symbol c.rest == symbol then
    let c ← c.operand? symbol.length
    return (target, c)
  else none

def typeExpression (g : Rules) (f : Frame) : Rule Unit := fun c => do
  let c ←
    if c.isSymbol "*" then c.operand? 1 else if c.isSymbol "**" then c.operand? 2 else some c
  let (_, c) ← g.expr f c
  return ((), c)

/-- What follows an annotated target after the colon: a type and perhaps a value. -/
def annotation (g : Rules) (right : Rule RightSide) : Rule Unit := fun c => do
  let (_, c) ← typeExpression g .statement c
  if c.lineEnd.isNone && c.isSymbol "=" then
    let c ← c.operand? 1
    let (_, c) ← right c
    return ((), c)
  else return ((), c)

/-- The right side of an assignment, which may be an assignment again. -/
def rightSide (g : Rules) (n : Nat) : Nat → Rule RightSide
  | 0, _ => none
  | m + 1, c =>
    if c.isWord "yield" then (yield g .statement n c).map fun (_, c) => (.yielded, c)
    else do
      let (value, stop) ← expressionList g .statement n c
      if stop.lineEnd.isSome then return (.value value, stop)
      else if stop.isSymbol "=" then
        let (target, c) ← assignmentTarget g n ['='] c
        let (right, c) ← rightSide g n m c
        match right with
        | .value e => return (.assigned [target] e, c)
        | .assigned targets e => return (.assigned (target :: targets) e, c)
        | _ => return (.mixed, c)
      else if stop.isSymbol ":" then
        let (_, c) ← assignmentTarget g n [':'] c
        let (_, c) ← annotation g (rightSide g n m) c
        return (.mixed, c)
      else
        match augmented? stop with
        | some symbol =>
          let (_, c) ← assignmentTarget g n symbol c
          let (_, c) ← rightSide g n m c
          return (.mixed, c)
        | none => return (.value value, stop)

/-- A statement kept as written. -/
def written (first stop : Cursor) : Stmt × Cursor := (.verbatim (first.dedentedTo stop), stop)

/-- An assignment to `target` with the right side that starts at `c`. -/
def assignment (g : Rules) (n : Nat) (first : Cursor) (target : Expr) : Rule Stmt := fun c => do
  let (right, stop) ← rightSide g n n c
  match right with
  | .value e => return (.assign [target] e, stop)
  | .assigned targets e => return (.assign (target :: targets) e, stop)
  | _ => return written first stop

/-- An augmented assignment with the right side that starts at `c`. -/
def augmentedAssignment (g : Rules) (n : Nat) (first : Cursor) (target : Expr)
    (symbol : List Char) : Rule Stmt := fun c => do
  let (right, stop) ← rightSide g n n c
  let op ← BinaryOp.ofSymbol? (String.ofList symbol)
  match right with
  | .value e => return (.augAssign target op e, stop)
  | .yielded => return written first stop
  | _ => return (.augAssign target op (.verbatim (c.dedentedTo stop)), stop)

/-- An expression as a statement, or an assignment. A comma at the end of a single expression is
dropped. -/
def expressionStatement (g : Rules) (n : Nat) : Rule Stmt := fun c =>
  if c.isWord "yield" then (yield g .statement n c).map fun (_, stop) => written c stop
  else do
    let (first, c₁) ← g.expr .statement c
    let ((items, _), stop) ← elements (within .statement (g.expr .statement)) n [first] false c₁
    let value : Stmt := match items with
      | [item] => .expr item
      | items => .expr (.tuple items)
    if stop.lineEnd.isSome then return (value, stop)
    else if stop.isSymbol "=" then
      let (target, c₂) ← assignmentTarget g n ['='] c
      assignment g n c target c₂
    else if stop.isSymbol ":" then
      let (_, c₂) ← assignmentTarget g n [':'] c
      let (_, stop) ← annotation g (rightSide g n n) c₂
      return written c stop
    else
      match augmented? stop with
      | some symbol =>
        let (target, c₂) ← assignmentTarget g n symbol c
        augmentedAssignment g n c target symbol c₂
      | none => return (value, stop)

/-- A name to import, perhaps under another name. -/
def importedName (n : Nat) : Rule Alias := fun c => do
  let (name, c) ← dottedName n c
  if c.isWord "as" then
    let (asname, c) ← c.afterWord.name?
    return (⟨name, some asname⟩, c)
  else return (⟨name, none⟩, c)

def importedNames (n : Nat) (rule : Rule Alias) : Rule (List Alias) := fun c => do
  let (first, c) ← rule c
  let ((names, _), c) ← elements rule n [first] false c
  return (names, c)

def importStatement (n : Nat) : Rule Stmt := fun c => do
  let (names, c) ← importedNames n (within .statement (importedName n)) (c.afterWord)
  return (.importNames names, c)

/-- The number of points in front of the module of an import. -/
def leadingPoints : Nat → Nat → Cursor → Nat × Cursor
  | 0, level, c => (level, c)
  | n + 1, level, c =>
    if c.isSymbol "..." then leadingPoints n (level + 3) (c.advance 3)
    else if c.isSymbol "." then leadingPoints n (level + 1) (c.advance 1)
    else (level, c)

def importFrom (n : Nat) : Rule Stmt := fun c => do
  let (level, c) := leadingPoints n 0 c.afterWord
  let (module, c) ←
    match dottedName n c with
    | some (name, c) => some (some name, c)
    | none => if level == 0 then none else some (none, c)
  let c ← c.keyword? "import"
  if c.isSymbol "*" && !(level == 0 && module == some "__future__") then
    return (.importFrom module level [⟨"*", none⟩], c.advance 1)
  else
    match c.symbol? "(" with
    | some c =>
      let (names, c) ← importedNames n (importedName n) c
      let c ← c.symbol? ")"
      return (.importFrom module level names, c)
    | none =>
      let (names, c) ← importedNames n (within .statement (importedName n)) c
      return (.importFrom module level names, c)

/-- Whether a statement ends here. -/
def isStatementEnd (c : Cursor) : Bool := c.lineEnd.isSome || c.isSymbol ";"

/-- Expressions with commas between them and none at the end. -/
def commaSeparated (g : Rules) (n : Nat) : Rule (List Expr) := fun c => do
  let (first, c) ← g.expr .statement c
  let next : Rule Expr := fun c => do
    let c ← if !Frame.statement.stops c && c.isSymbol "," then c.operand? 1 else none
    g.expr .statement c
  let (rest, c) ← many next n [] c
  return (first :: rest, c)

def assertStatement (g : Rules) (n : Nat) : Rule Stmt := fun c => do
  let operand ← c.keyword? "assert"
  let (parts, stop) ← commaSeparated g n operand
  match parts with
  | [test] => return (.assert test none, stop)
  | [test, msg] => return (.assert test (some msg), stop)
  | _ => return written c stop

def returnStatement (g : Rules) (n : Nat) : Rule Stmt := fun c => do
  let after := c.afterWord
  if isStatementEnd after then return (.ret none, after)
  else
    let (value, stop) ← expressionList g .statement n after
    return (.ret (some value), stop)

def deleteStatement (g : Rules) (n : Nat) : Rule Stmt := fun c => do
  let c ← c.keyword? "del"
  let (first, c) ← g.expr .statement c
  let ((items, _), c) ← elements (within .statement (g.expr .statement)) n [first] false c
  return (.delete items, c)

def raiseStatement (g : Rules) (n : Nat) : Rule Stmt := fun c => do
  let after := c.afterWord
  let (exc, c) ←
    if isStatementEnd after || after.isWord "from" then some (none, after)
    else (expressionList g .statement n after).map fun (e, c) => (some e, c)
  if c.lineEnd.isNone && c.isWord "from" then
    let c ← c.keyword? "from"
    let (cause, c) ← g.expr .statement c
    return (.raise exc (some cause), c)
  else return (.raise exc none, c)

def declaredNames (n : Nat) : Rule (List String) := fun c => do
  let (first, c) ← c.afterWord.name?
  let next : Rule String := fun c => do
    let c ← if !Frame.statement.stops c && c.isSymbol "," then c.operand? 1 else none
    c.name?
  let (rest, c) ← many next n [] c
  return (first :: rest, c)

/-- Takes what a rule reads only if a statement ends there. -/
def toEnd {α : Type} (rule : Rule α) : Rule α := fun c =>
  (rule c).bind fun (x, c) => if isStatementEnd c then some (x, c) else none

/-- A `print` statement of the older form, kept as written. -/
def printStatement (g : Rules) (n : Nat) : Rule Stmt := fun c => do
  let after := c.afterWord
  let first ← if after.isSymbol ">>" then after.operand? 2 else some after
  let (e, c₁) ← g.expr .statement first
  let (_, stop) ← elements (within .statement (g.expr .statement)) n [e] false c₁
  return written c stop

/-- An `exec` statement of the older form, kept as written. -/
def execStatement (g : Rules) (n : Nat) : Rule Stmt := fun c => do
  let after := c.afterWord
  let c₁ ←
    match string g n after with
    | some (_, c₁) => some c₁
    | none => after.name?.map Prod.snd
  if c₁.lineEnd.isNone && c₁.isWord "in" then
    let c₂ ← c₁.keyword? "in"
    let (_, stop) ← commaSeparated g n c₂
    return written c stop
  else return written c c₁

def typeParameter (g : Rules) : Rule Unit := fun c => do
  let (_, c) ← typeExpression g .free c
  if c.isSymbol ":" then
    let c ← c.operand? 1
    typeExpression g .free c
  else return ((), c)

def typeParameters (g : Rules) (n : Nat) : Rule Unit := fun c => do
  let c ← c.symbol? "["
  let (_, c) ← typeParameter g c
  let (_, c) ← elements (typeParameter g) n [()] false c
  let c ← c.symbol? "]"
  return ((), c)

/-- A type alias, kept as written. -/
def typeStatement (g : Rules) (n : Nat) : Rule Stmt := fun c => do
  let left := c.afterWord
  let aliasName : Rule Unit := fun c => do
    let (_, c) ← c.name?
    if c.isSymbol "[" then typeParameters g n c else return ((), c)
  let takesValue (r : Unit × Cursor) : Option Cursor :=
    if r.2.isSymbol "=" then r.2.operand? 1 else none
  let right ←
    match (aliasName left).bind takesValue with
    | some right => some right
    | none => (typeExpression g .free left).bind takesValue
  let (_, stop) ← typeExpression g .statement right
  return written c stop

/-- The statements whose first word may also be a name: the reading as an older `print` or `exec`
statement gives way to an expression, and a type alias comes first. -/
def softStatement (g : Rules) (n : Nat) : Rule Stmt := fun c =>
  let plain := expressionStatement g n
  let or (first second : Rule Stmt) : Option (Stmt × Cursor) :=
    match toEnd first c with
    | some r => some r
    | none => second c
  if c.afterWord.lineEnd.isSome then plain c
  else if c.isWord "print" then
    if c.afterWord.isSymbol ">>" then printStatement g n c else or plain (printStatement g n)
  else if c.isWord "exec" then or plain (execStatement g n)
  else if c.isWord "type" then or (typeStatement g n) plain
  else plain c

def simpleStatement (g : Rules) (n : Nat) : Rule Stmt := fun c =>
  if c.isWord "pass" then some (.pass, c.afterWord)
  else if c.isWord "break" then some (.breakLoop, c.afterWord)
  else if c.isWord "continue" then some (.continueLoop, c.afterWord)
  else if c.isWord "import" then importStatement n c
  else if c.isWord "from" then importFrom n c
  else if c.isWord "return" then returnStatement g n c
  else if c.isWord "del" then deleteStatement g n c
  else if c.isWord "raise" then raiseStatement g n c
  else if c.isWord "assert" then assertStatement g n c
  else if c.isWord "global" then (declaredNames n c).map fun (names, c) => (.global names, c)
  else if c.isWord "nonlocal" then (declaredNames n c).map fun (names, c) => (.nonlocal names, c)
  else softStatement g n c

/-- Simple statements up to the end of their line. -/
def simpleStatements (g : Rules) : Nat → List Stmt → Rule (List Stmt)
  | 0, _, _ => none
  | n + 1, done, c => do
    let (s, c) ← simpleStatement g n c
    let done := s :: done
    if c.lineEnd.isSome then return (done.reverse, c)
    else
      let c ← c.symbol? ";"
      if c.lineEnd.isSome then return (done.reverse, c) else simpleStatements g n done c

end Unmask.Grammar
