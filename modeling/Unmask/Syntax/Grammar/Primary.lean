import Unmask.Syntax.Grammar.Basic

/-!
# The grammar of atoms and primaries

Numbers, names, and what stands between brackets: displays, comprehensions and groups. A primary is
an atom with the attributes, subscripts and calls behind it.
-/
namespace Unmask.Grammar

section Atom

open Unmask.Text

/-- A number; imaginary numbers and numbers of older forms are kept as written. -/
def numberAtom : Rule Expr := fun c => do
  let (n, isFloat) ← Token.number? c.rest
  let text := c.rest.take n
  let value :=
    if isFloat then (Literal.float? text).map Constant.float
    else (Literal.int? text).map Constant.int
  match value with
  | some value => return (.constant value, c.advance n)
  | none => return (.verbatim (String.ofList text), c.advance n)

/-- A name or a word with a value. -/
def wordAtom : Rule Expr := fun c =>
  if c.isWord "None" then some (.constant .none, c.afterWord)
  else if c.isWord "True" then some (.constant (.bool true), c.afterWord)
  else if c.isWord "False" then some (.constant (.bool false), c.afterWord)
  else c.name?.map fun (name, c) => (.name name, c)

/-- Expressions with commas between them and perhaps one at the end; a comma makes a tuple. -/
def expressionList (g : Rules) (f : Frame) (n : Nat) : Rule Expr := fun c => do
  let (first, c) ← g.expr f c
  let ((items, comma), c) ← elements (within f (g.expr f)) n [first] false c
  return (if comma then .tuple items else first, c)

/-- `yield` with what it yields. -/
def yield (g : Rules) (f : Frame) (n : Nat) : Rule Unit := fun c => do
  let c ← if c.isWord "yield" then some c.afterWord else none
  if f.stops c then return ((), c)
  else if c.isWord "from" then
    let c ← c.keyword? "from"
    let (_, c) ← g.expr f c
    return ((), c)
  else
    match expressionList g f n c with
    | some (_, c) => return ((), c)
    | none => return ((), c)

/-- An element of a display: an expression, a spread, or a `yield` kept as written. -/
def element (g : Rules) (n : Nat) : Rule Expr := fun c =>
  if c.isWord "yield" then
    (yield g .free n c).map fun (_, stop) => (.verbatim (c.dedentedTo stop), stop)
  else if c.isSymbol "*" then do
    let inner ← c.operand? 1
    let (e, stop) ← g.expr .free inner
    return (.starred e, stop)
  else g.expr .free c

/-- The sources of a clause. Several of them form a tuple in which the commas stay as text. -/
def clauseSources (items : List Expr) : Expr :=
  match items with
  | [] => .tuple []
  | [item] => item
  | item :: rest => .tuple (item :: rest.flatMap fun e => [.verbatim ",", e])

def targetList (g : Rules) (f : Frame) (n : Nat) : Rule Expr := fun c => do
  let (first, c) ← g.target f c
  let ((items, comma), c) ← elements (within f (g.target f)) n [first] false c
  return (if comma then .tuple items else first, c)

def condition (g : Rules) : Rule Expr := fun c => do
  let c ← c.keyword? "if"
  g.expr .clause c

/-- A clause of a comprehension with the conditions that follow it. -/
def clause (g : Rules) (n : Nat) : Rule Comprehension := fun c => do
  let isAsync := c.isWord "async"
  let c := if isAsync then c.afterWord else c
  let c ← c.keyword? "for"
  let (target, c) ← targetList g .free n c
  let c ← c.keyword? "in"
  let (first, c) ← g.expr .clause c
  let ((items, _), c) ← elements (g.expr .clause) n [first] false c
  let (ifs, c) ← many (condition g) n [] c
  return (⟨target, clauseSources items, ifs, isAsync⟩, c)

def clauses (g : Rules) (n : Nat) (close : String) : Rule (List Comprehension) := fun c => do
  let (generators, c) ← many (clause g n) n [] c
  let c ← c.symbol? close
  return (generators, c)

/-- Round brackets: a tuple, a generator, or an expression in parentheses. -/
def parens (g : Rules) (n : Nat) : Rule Expr := fun c => do
  let inner ← c.symbol? "("
  match inner.symbol? ")" with
  | some stop => return (.tuple [], stop)
  | none =>
    let isYield := inner.isWord "yield"
    let (first, c₁) ← element g n inner
    if isClause c₁ then
      let (generators, stop) ← clauses g n ")" c₁
      return (.generator first generators, stop)
    else
      let ((items, comma), c₂) ← elements (element g n) n [first] false c₁
      let stop ← c₂.symbol? ")"
      if comma then return (.tuple items, stop)
      else if isYield then return (.verbatim (c.dedentedTo stop), stop)
      else return (first, stop)

/-- Square brackets: a list or a list comprehension. -/
def brackets (g : Rules) (n : Nat) : Rule Expr := fun c => do
  let inner ← c.symbol? "["
  match inner.symbol? "]" with
  | some stop => return (.list [], stop)
  | none =>
    let (first, c₁) ← element g n inner
    if isClause c₁ then
      let (generators, stop) ← clauses g n "]" c₁
      return (.listComp first generators, stop)
    else
      let ((items, _), c₂) ← elements (element g n) n [first] false c₁
      let stop ← c₂.symbol? "]"
      return (.list items, stop)

/-- A pair of a dictionary display, or a spread without a key. -/
def pair (g : Rules) : Rule (Option Expr × Expr) := fun c =>
  if c.isSymbol "**" then do
    let c ← c.operand? 2
    let (value, c) ← g.expr .free c
    return ((none, value), c)
  else do
    let (key, c) ← g.expr .free c
    let c ← if c.isSymbol ":" then c.operand? 1 else none
    let (value, c) ← g.expr .free c
    return ((some key, value), c)

/-- The rest of a dictionary display after its first pair. -/
def dictRest (g : Rules) (n : Nat) (first : Option Expr × Expr) : Rule Expr := fun c => do
  let ((items, _), c) ← elements (pair g) n [first] false c
  let stop ← c.symbol? "\x7d"
  return (.dict (items.map Prod.fst) (items.map Prod.snd), stop)

/-- Curly brackets: a dictionary, a set, or a comprehension of either. -/
def braces (g : Rules) (n : Nat) : Rule Expr := fun c => do
  let inner ← c.symbol? "\x7b"
  match inner.symbol? "\x7d" with
  | some stop => return (.dict [] [], stop)
  | none =>
    match (inner.symbol? ",").bind (·.symbol? "\x7d") with
    | some stop => return (.dict [] [], stop)
    | none =>
      if inner.isSymbol "**" then
        let (first, c₁) ← pair g inner
        dictRest g n first c₁
      else
        let (first, c₁) ← element g n inner
        if c₁.isSymbol ":" then
          let c₂ ← c₁.operand? 1
          let (value, c₃) ← g.expr .free c₂
          if isClause c₃ then
            let (generators, stop) ← clauses g n "\x7d" c₃
            return (.dictComp first value generators, stop)
          else dictRest g n (some first, value) c₃
        else if isClause c₁ then
          let (generators, stop) ← clauses g n "\x7d" c₁
          return (.setComp first generators, stop)
        else
          let ((items, _), c₂) ← elements (element g n) n [first] false c₁
          let stop ← c₂.symbol? "\x7d"
          return (.set items, stop)

end Atom

section Primary

open Unmask.Text

inductive Argument where
  | positional (value : Expr)
  | keyword (value : Keyword)

def argument (g : Rules) : Rule Argument := fun c =>
  if c.isSymbol "*" then do
    let c ← c.operand? 1
    let (e, c) ← g.expr .free c
    return (.positional (.starred e), c)
  else if c.isSymbol "**" then do
    let c ← c.operand? 2
    let (e, c) ← g.expr .free c
    return (.keyword ⟨none, e⟩, c)
  else
    let named : Option (String × Cursor) := do
      let (name, c) ← c.name?
      let c ← if c.isSymbol "=" then c.operand? 1 else none
      return (name, c)
    match named with
    | some (name, c) => (g.expr .free c).map fun (e, c) => (.keyword ⟨some name, e⟩, c)
    | none => (g.expr .free c).map fun (e, c) => (.positional e, c)

def Argument.positional? : Argument → Option Expr
  | .positional e => some e
  | .keyword _ => none

def Argument.keyword? : Argument → Option Keyword
  | .keyword k => some k
  | .positional _ => none

/-- Arguments after the first one, up to the closing bracket. -/
def argumentsRest (g : Rules) (n : Nat) (first : Argument) : Rule (List Expr × List Keyword) :=
  fun c => do
    let ((items, _), c) ← elements (argument g) n [first] false c
    let stop ← c.symbol? ")"
    return ((items.filterMap Argument.positional?, items.filterMap Argument.keyword?), stop)

/-- An argument list without arguments: nothing, or a comma alone. -/
def noArguments (c : Cursor) : Option Cursor :=
  match c.symbol? ")" with
  | some stop => some stop
  | none => (c.symbol? ",").bind (·.symbol? ")")

/-- Arguments between round brackets. -/
def argumentList (g : Rules) (n : Nat) : Rule (List Expr × List Keyword) := fun c => do
  let inner ← c.symbol? "("
  match noArguments inner with
  | some stop => return (([], []), stop)
  | none =>
    let (first, c) ← argument g inner
    argumentsRest g n first c

/-- What stands between the brackets of a call: arguments, or one generator. -/
def callArguments (g : Rules) (n : Nat) : Rule (List Expr × List Keyword) := fun c => do
  let inner ← c.symbol? "("
  match noArguments inner with
  | some stop => return (([], []), stop)
  | none =>
    let (first, c) ← argument g inner
    match first, isClause c with
    | .positional e, true =>
      let (generators, stop) ← clauses g n ")" c
      return (([.generator e generators], []), stop)
    | first, _ => argumentsRest g n first c

/-- A bound of a slice, absent when a colon or the end of the index follows. -/
def bound (g : Rules) : Rule (Option Expr) := fun c =>
  if c.isSymbol ":" || c.isSymbol "," || c.isSymbol "]" then some (none, c)
  else (g.expr .free c).map fun (e, c) => (some e, c)

def index (g : Rules) : Rule Expr := fun c => do
  let (lower, c) ← bound g c
  match c.symbol? ":" with
  | none => lower.map fun e => (e, c)
  | some c =>
    let (upper, c) ← bound g c
    match c.symbol? ":" with
    | none => return (.slice lower upper none, c)
    | some c =>
      let (step, c) ← bound g c
      return (.slice lower upper step, c)

/-- The index between square brackets; several of them form a tuple. -/
def subscript (g : Rules) (n : Nat) : Rule Expr := fun c => do
  let inner ← c.symbol? "["
  let (first, c) ← index g inner
  let ((items, _), c) ← elements (index g) n [first] false c
  let stop ← c.symbol? "]"
  match items with
  | [item] => return (item, stop)
  | items => return (.tuple items, stop)

def member : Rule String := fun c => do
  let c ← c.symbol? "."
  c.name?

/-- Attributes and subscripts of a value; other postfixes stop the row. -/
def members (g : Rules) (f : Frame) (n : Nat) : Nat → Expr → Rule Expr
  | 0, _, _ => none
  | m + 1, e, c =>
    if f.stops c then some (e, c)
    else if c.isSymbol "." then do
      let (name, c) ← member c
      members g f n m (.attribute e name) c
    else if c.isSymbol "[" then do
      let (i, c) ← subscript g n c
      members g f n m (.subscript e i) c
    else some (e, c)

/-- Attributes, subscripts and calls of a value. -/
def postfixes (g : Rules) (f : Frame) (n : Nat) : Nat → Expr → Rule Expr
  | 0, _, _ => none
  | m + 1, e, c =>
    if f.stops c then some (e, c)
    else if c.isSymbol "." then do
      let (name, c) ← member c
      postfixes g f n m (.attribute e name) c
    else if c.isSymbol "[" then do
      let (i, c) ← subscript g n c
      postfixes g f n m (.subscript e i) c
    else if c.isSymbol "(" then do
      let ((args, keywords), c) ← callArguments g n c
      postfixes g f n m (.call e args keywords) c
    else some (e, c)

/-- A spread of a name with its attributes and subscripts. -/
def spread (g : Rules) (f : Frame) (n : Nat) : Rule Expr := fun c => do
  let inner ← if c.isSymbol "*" then c.operand? 1 else none
  let (name, c₁) ← inner.name?
  let (e, stop) ← members g f n n (.name name) c₁
  return (.starred e, stop)

def atom (g : Rules) (f : Frame) (n : Nat) : Rule Expr := fun c =>
  if (Token.stringStart? c.rest).isSome then stringAtom g f n c
  else if (Token.number? c.rest).isSome then numberAtom c
  else if c.isSymbol "(" then parens g n c
  else if c.isSymbol "[" then brackets g n c
  else if c.isSymbol "\x7b" then braces g n c
  else if c.isSymbol "..." then some (.constant .ellipsis, c.advance 3)
  else if c.isSymbol "*" then spread g f n c
  else wordAtom c

/-- An atom with its attributes, subscripts and calls. -/
def primary (g : Rules) (f : Frame) (n : Nat) : Rule Expr := fun c => do
  let (e, c) ← atom g f n c
  postfixes g f n n e c

end Primary

end Unmask.Grammar
