import Unmask.Syntax.Literal
import Unmask.Syntax.Tree

/-!
# Writing programs

Trees are written with four spaces of indentation, with as few parentheses as the binding levels of
the operators allow, and with an empty block written as `pass`. Text kept from a source is written
as it stands, re-indented to the place where it goes.
-/
namespace Unmask

/-- How strongly a form of expression binds; the weakest is `0`. -/
abbrev Level := Nat

namespace Level

def named : Level := 0
def tuple : Level := 1
def yield : Level := 2
def test : Level := 3
def or : Level := 4
def and : Level := 5
def not : Level := 6
def comparison : Level := 7
def bitOr : Level := 8
def bitXor : Level := 9
def bitAnd : Level := 10
def shift : Level := 11
def arith : Level := 12
def term : Level := 13
def factor : Level := 14
def power : Level := 15
def await : Level := 16
def atom : Level := 17

def next (l : Level) : Level := if l < atom then l + 1 else atom

end Level

def BinaryOp.level : BinaryOp → Level
  | .add | .sub => .arith
  | .mult | .matMult | .div | .mod | .floorDiv => .term
  | .pow => .power
  | .shiftLeft | .shiftRight => .shift
  | .bitOr => .bitOr
  | .bitXor => .bitXor
  | .bitAnd => .bitAnd

def BoolOp.level : BoolOp → Level
  | .and => .and
  | .or => .or

def UnaryOp.level : UnaryOp → Level
  | .not => .not
  | _ => .factor

namespace Printer

open Unmask.Text Unmask.Literal

/-- Pieces of text with a separator between them. -/
def join (separator : List Char) : List (List Char) → List Char
  | [] => []
  | [piece] => piece
  | piece :: rest => piece ++ separator ++ join separator rest

def comma : List Char := [',', ' ']

/-- Puts parentheses around a text that binds weaker than its place asks for. -/
def wrapped (own context : Level) (text : List Char) : List Char :=
  if own < context then '(' :: text ++ [')'] else text

/-- Whether text is written without parentheses in every place: one string literal, or a word of
alphanumeric characters, underscores and points. -/
def isAtomic (text : List Char) : Bool :=
  let trimmed := trimChars text
  if trimmed.contains '\n' then false
  else
    match trimmed.dropWhile (!isQuote ·) with
    | quote :: rest =>
      (trimmed.takeWhile (!isQuote ·)).all isAsciiLetter && rest.getLast? == some quote &&
        !rest.dropLast.contains quote
    | [] => !trimmed.isEmpty && trimmed.all fun c => isAlphanumeric c || c == '_' || c == '.'

def verbatim (text : String) : List Char :=
  if isAtomic text.toList then text.toList else '(' :: text.toList ++ [')']

/-- Replaces the word `inf` by a literal that overflows to infinity. -/
def spellInfinity : List Char → List Char
  | 'i' :: 'n' :: 'f' :: rest => "1e309".toList ++ spellInfinity rest
  | c :: rest => c :: spellInfinity rest
  | [] => []

def floatChars (x : Float) : List Char :=
  if x.isNaN then "(1e309-1e309)".toList else spellInfinity (Decimal.floatText x).toList

/-- A number; with a sign in front it binds like a negation. -/
def number (context : Level) (text : List Char) : List Char :=
  wrapped (if text.head? == some '-' then .factor else .atom) context text

def constant (context : Level) : Constant → List Char
  | .none => "None".toList
  | .bool true => "True".toList
  | .bool false => "False".toList
  | .ellipsis => "...".toList
  | .str s => quoteChars s.toList
  | .bytes b => quoteByteChars b
  | .int n => number context (toString n).toList
  | .float x => number context (floatChars x)

def isIntLiteral : Expr → Bool
  | .constant (.int _) => true
  | _ => false

/-- The items of a tuple; one alone is followed by a comma. -/
def tupleItems (items : List (List Char)) : List Char :=
  match items with
  | [item] => item ++ [',']
  | _ => join comma items

/-- Arguments in order, the positional ones first. -/
def arguments (args keywords : List (List Char)) : List Char := join comma (args ++ keywords)

/-- The levels that the operands of a binary operator are written at. -/
def operandLevels (op : BinaryOp) : Level × Level :=
  match op with
  | .pow => (op.level.next, op.level)
  | _ => (op.level, op.level.next)

/-- The operands of a chain of comparisons, each behind its operator. -/
def comparisons (ops : List CompareOp) (operands : List (List Char)) : List Char :=
  (ops.zip operands).flatMap fun (op, text) => ' ' :: op.symbol.toList ++ ' ' :: text

def pairs (keys : List (Option (List Char))) (values : List (List Char)) : List Char :=
  join comma <| (keys.zip values).map fun
    | (some key, value) => key ++ [':', ' '] ++ value
    | (none, value) => '*' :: '*' :: value

mutual

/-- An expression in a place that asks for a binding level. -/
def expr (context : Level) : Expr → List Char
  | .name id => id.toList
  | .constant c => constant context c
  | .attribute value attr =>
    expr .atom value ++ (if isIntLiteral value then [' '] else []) ++ '.' :: attr.toList
  | .subscript value slice =>
    let inner := match slice with
      | .tuple (item :: rest) => tupleItems (expr .test item :: exprs .test rest)
      | other => expr .tuple other
    expr .atom value ++ '[' :: inner ++ [']']
  | .slice lower upper step =>
    option [] lower ++ ':' :: option [] upper ++ option [':'] step
  | .call func args keywords_ =>
    expr .atom func ++ '(' :: arguments (exprs .test args) (keywords keywords_) ++ [')']
  | .binary left op right =>
    let levels := operandLevels op
    wrapped op.level context
      (expr levels.1 left ++ ' ' :: op.symbol.toList ++ ' ' :: expr levels.2 right)
  | .unary op operand =>
    let space := if op == .not then [' '] else []
    wrapped op.level context (op.symbol.toList ++ space ++ expr op.level operand)
  | .bool op values =>
    wrapped op.level context
      (join (' ' :: op.symbol.toList ++ [' ']) (exprs op.level.next values))
  | .compare left ops comparators =>
    wrapped .comparison context
      (expr Level.comparison.next left ++ comparisons ops (exprs Level.comparison.next comparators))
  | .conditional test body orelse =>
    wrapped .test context
      (expr Level.test.next body ++ " if ".toList ++ expr Level.test.next test ++
        " else ".toList ++ expr .test orelse)
  | .lambda params body =>
    let space := if params.isEmpty then [] else [' ']
    wrapped .test context
      ("lambda".toList ++ space ++ params.toList ++ [':', ' '] ++ expr .test body)
  | .named target value =>
    wrapped .named context (target.toList ++ " := ".toList ++ expr .atom value)
  | .list items => '[' :: join comma (exprs .test items) ++ [']']
  | .tuple items =>
    let text := tupleItems (exprs .test items)
    if items.isEmpty || Level.tuple < context then '(' :: text ++ [')'] else text
  | .set items =>
    if items.isEmpty then "\x7b*()\x7d".toList
    else '\x7b' :: join comma (exprs .test items) ++ ['\x7d']
  | .dict keys_ values =>
    '\x7b' :: pairs (keys keys_) (dictValues (keys_.map Option.isSome) values) ++ ['\x7d']
  | .starred value => '*' :: expr .bitOr value
  | .listComp elt generators => '[' :: expr .test elt ++ clauses generators ++ [']']
  | .setComp elt generators => '\x7b' :: expr .test elt ++ clauses generators ++ ['\x7d']
  | .generator elt generators => '(' :: expr .test elt ++ clauses generators ++ [')']
  | .dictComp key value generators =>
    '\x7b' :: expr .test key ++ ':' :: ' ' :: expr .test value ++ clauses generators ++ ['\x7d']
  | .await value => wrapped .await context ("await ".toList ++ expr .atom value)
  | .verbatim text => verbatim text

def exprs (context : Level) : List Expr → List (List Char)
  | [] => []
  | e :: rest => expr context e :: exprs context rest

/-- A part that may be absent, behind a mark. -/
def option (mark : List Char) : Option Expr → List Char
  | none => []
  | some e => mark ++ expr .test e

def keys : List (Option Expr) → List (Option (List Char))
  | [] => []
  | none :: rest => none :: keys rest
  | some e :: rest => some (expr .test e) :: keys rest

/-- The values of a dictionary display. A value without a key is spread. -/
def dictValues : List Bool → List Expr → List (List Char)
  | hasKey :: flags, e :: rest =>
    expr (if hasKey then .test else .bitOr) e :: dictValues flags rest
  | _, _ => []

def keyword : Keyword → List Char
  | ⟨some arg, value⟩ => arg.toList ++ '=' :: expr .test value
  | ⟨none, value⟩ => '*' :: '*' :: expr .bitOr value

def keywords : List Keyword → List (List Char)
  | [] => []
  | k :: rest => keyword k :: keywords rest

def clause : Comprehension → List Char
  | ⟨target, iter, ifs, isAsync⟩ =>
    (if isAsync then " async for ".toList else " for ".toList) ++ expr .tuple target ++
      " in ".toList ++ expr Level.test.next iter ++
      (exprs Level.test.next ifs).flatMap (" if ".toList ++ ·)

def clauses : List Comprehension → List Char
  | [] => []
  | g :: rest => clause g ++ clauses rest

end

/-- One line of text at a depth of indentation. -/
def line (depth : Nat) (text : List Char) : List Char := List.replicate (4 * depth) ' ' ++ text

/-- The lines of a statement kept as written. -/
def verbatimLines (depth : Nat) (text : String) : List (List Char) :=
  (splitChars '\n' text.toList).map fun l => if (trimChars l).isEmpty then [] else line depth l

def importedName (a : Alias) : List Char :=
  match a.asname with
  | some n => a.name.toList ++ " as ".toList ++ n.toList
  | none => a.name.toList

def aliases (names : List Alias) : List Char := join comma (names.map importedName)

def nameList (names : List String) : List Char := join comma (names.map String.toList)

def isConditional : Stmt → Bool
  | .ite .. => true
  | _ => false

def isElif : List Stmt → Bool
  | [s] => isConditional s
  | _ => false

/-- The lines that precede a definition: a blank line unless nothing is written yet, and the
decorators. -/
def decorators (depth : Nat) (started : Bool) (exprs : List Expr) : List (List Char) :=
  (if started then [[]] else []) ++ exprs.map fun e => line depth ('@' :: expr .test e)

def async (isAsync : Bool) : List Char := if isAsync then "async ".toList else []

mutual

/-- The lines of a statement. `keyword` opens a conditional; `started` tells whether anything is
written above. -/
def lines (depth : Nat) (keyword : String) (started : Bool) : Stmt → List (List Char)
  | .expr value => [line depth (expr .yield value)]
  | .assign targets value =>
    [line depth ((exprs .tuple targets).flatMap (· ++ " = ".toList) ++ expr .test value)]
  | .augAssign target op value =>
    [line depth (expr .tuple target ++ ' ' :: op.symbol.toList ++ "= ".toList ++ expr .test value)]
  | .ret none => [line depth "return".toList]
  | .ret (some value) => [line depth ("return ".toList ++ expr .test value)]
  | .delete targets => [line depth ("del ".toList ++ join comma (exprs .test targets))]
  | .raise exc cause =>
    [line depth ("raise".toList ++ option [' '] exc ++ option " from ".toList cause)]
  | .assert test msg => [line depth ("assert ".toList ++ expr .test test ++ option comma msg)]
  | .pass => [line depth "pass".toList]
  | .breakLoop => [line depth "break".toList]
  | .continueLoop => [line depth "continue".toList]
  | .global names => [line depth ("global ".toList ++ nameList names)]
  | .nonlocal names => [line depth ("nonlocal ".toList ++ nameList names)]
  | .importNames names => [line depth ("import ".toList ++ aliases names)]
  | .importFrom module level names =>
    [line depth ("from ".toList ++ List.replicate level '.' ++ (module.getD "").toList ++
      " import ".toList ++ aliases names)]
  | .ite test body orelse =>
    line depth (keyword.toList ++ ' ' :: expr .test test ++ [':']) :: block depth body ++
      (if isElif orelse then blockLines depth "elif" true orelse else elseBlock depth orelse)
  | .whileLoop test body orelse =>
    line depth ("while ".toList ++ expr .test test ++ [':']) :: block depth body ++
      elseBlock depth orelse
  | .forLoop target iter body orelse isAsync =>
    line depth (async isAsync ++ "for ".toList ++ expr .tuple target ++ " in ".toList ++
      expr .test iter ++ [':']) :: block depth body ++ elseBlock depth orelse
  | .tryBlock body handlers_ orelse finalbody isStar =>
    line depth "try:".toList :: block depth body ++ handlers depth isStar handlers_ ++
      elseBlock depth orelse ++
      (if finalbody.isEmpty then [] else line depth "finally:".toList :: block depth finalbody)
  | .withBlock items body isAsync =>
    line depth (async isAsync ++ "with ".toList ++ items.toList ++ [':']) :: block depth body
  | .functionDef name params returns body decorators_ isAsync =>
    let annotation := match returns with
      | some r => " -> ".toList ++ r.toList
      | none => []
    decorators depth started decorators_ ++
      line depth (async isAsync ++ "def ".toList ++ name.toList ++ params.toList ++ annotation ++
        [':']) :: block depth body
  | .classDef name bases keywords_ body decorators_ =>
    let parents :=
      if bases.isEmpty && keywords_.isEmpty then []
      else '(' :: arguments (exprs .test bases) (keywords keywords_) ++ [')']
    decorators depth started decorators_ ++
      line depth ("class ".toList ++ name.toList ++ parents ++ [':']) :: block depth body
  | .verbatim text => verbatimLines depth text

/-- The lines of statements in a row. -/
def blockLines (depth : Nat) (keyword : String) (started : Bool) : List Stmt → List (List Char)
  | [] => []
  | s :: rest => lines depth keyword started s ++ blockLines depth "if" true rest

/-- An indented block, `pass` if there is nothing in it. -/
def block (depth : Nat) : List Stmt → List (List Char)
  | [] => [line (depth + 1) "pass".toList]
  | s :: rest => lines (depth + 1) "if" true s ++ blockLines (depth + 1) "if" true rest

/-- An `else` branch, nothing if it is empty. -/
def elseBlock (depth : Nat) : List Stmt → List (List Char)
  | [] => []
  | s :: rest =>
    line depth "else:".toList :: lines (depth + 1) "if" true s ++
      blockLines (depth + 1) "if" true rest

def handler (depth : Nat) (isStar : Bool) : Handler → List (List Char)
  | ⟨type, name, body⟩ =>
    let binding := match name with
      | some n => " as ".toList ++ n.toList
      | none => []
    line depth ((if isStar then "except*" else "except").toList ++ option [' '] type ++ binding ++
      [':']) :: block depth body

def handlers (depth : Nat) (isStar : Bool) : List Handler → List (List Char)
  | [] => []
  | h :: rest => handler depth isStar h ++ handlers depth isStar rest

end

end Printer

def Expr.text (e : Expr) : String := String.ofList (Printer.expr .test e)

def Module.chars (m : Module) : List Char :=
  Printer.join ['\n'] (Printer.blockLines 0 "if" false m)

/-- The text of a program, without a line end after the last line. -/
def Module.text (m : Module) : String := String.ofList (Module.chars m)

end Unmask
