import Unmask.Syntax.Tree

/-!
# The nodes of a tree

All statements and expressions of a tree in the order in which they are written, each before its
parts. Targets of assignments and clauses of comprehensions are expressions like all others.
-/
namespace Unmask

inductive Node where
  | stmt (s : Stmt)
  | expr (e : Expr)

/-- A node and, if it is entered, what is in it. -/
def visit (enter : Expr → Bool) (e : Expr) (within : List Expr) : List Expr :=
  e :: if enter e then within else []

mutual

/-- An expression and all expressions in it. Those in an expression that is not entered are left
out. -/
def Expr.visited (enter : Expr → Bool) : Expr → List Expr
  | .name id => [.name id]
  | .constant c => [.constant c]
  | .attribute value attr => visit enter (.attribute value attr) (value.visited enter)
  | .subscript value slice =>
    visit enter (.subscript value slice) (value.visited enter ++ slice.visited enter)
  | .slice lower upper step =>
    visit enter (.slice lower upper step)
      (Expr.visitedOption enter lower ++ Expr.visitedOption enter upper ++
        Expr.visitedOption enter step)
  | .call func args keywords =>
    visit enter (.call func args keywords)
      (func.visited enter ++ Expr.visitedList enter args ++ Keyword.visitedList enter keywords)
  | .binary left op right =>
    visit enter (.binary left op right) (left.visited enter ++ right.visited enter)
  | .unary op operand => visit enter (.unary op operand) (operand.visited enter)
  | .bool op values => visit enter (.bool op values) (Expr.visitedList enter values)
  | .compare left ops comparators =>
    visit enter (.compare left ops comparators)
      (left.visited enter ++ Expr.visitedList enter comparators)
  | .conditional test body orelse =>
    visit enter (.conditional test body orelse)
      (test.visited enter ++ body.visited enter ++ orelse.visited enter)
  | .lambda params body => visit enter (.lambda params body) (body.visited enter)
  | .named target value => visit enter (.named target value) (value.visited enter)
  | .list items => visit enter (.list items) (Expr.visitedList enter items)
  | .tuple items => visit enter (.tuple items) (Expr.visitedList enter items)
  | .set items => visit enter (.set items) (Expr.visitedList enter items)
  | .dict keys values =>
    visit enter (.dict keys values)
      (Expr.visitedOptions enter keys ++ Expr.visitedList enter values)
  | .starred value => visit enter (.starred value) (value.visited enter)
  | .listComp elt generators =>
    visit enter (.listComp elt generators)
      (elt.visited enter ++ Comprehension.visitedList enter generators)
  | .setComp elt generators =>
    visit enter (.setComp elt generators)
      (elt.visited enter ++ Comprehension.visitedList enter generators)
  | .generator elt generators =>
    visit enter (.generator elt generators)
      (elt.visited enter ++ Comprehension.visitedList enter generators)
  | .dictComp key value generators =>
    visit enter (.dictComp key value generators)
      (key.visited enter ++ value.visited enter ++ Comprehension.visitedList enter generators)
  | .await value => visit enter (.await value) (value.visited enter)
  | .verbatim text => [.verbatim text]

def Expr.visitedOption (enter : Expr → Bool) : Option Expr → List Expr
  | none => []
  | some e => e.visited enter

def Expr.visitedOptions (enter : Expr → Bool) : List (Option Expr) → List Expr
  | [] => []
  | e :: rest => Expr.visitedOption enter e ++ Expr.visitedOptions enter rest

def Expr.visitedList (enter : Expr → Bool) : List Expr → List Expr
  | [] => []
  | e :: rest => e.visited enter ++ Expr.visitedList enter rest

def Keyword.visited (enter : Expr → Bool) : Keyword → List Expr
  | ⟨_, value⟩ => value.visited enter

def Keyword.visitedList (enter : Expr → Bool) : List Keyword → List Expr
  | [] => []
  | k :: rest => k.visited enter ++ Keyword.visitedList enter rest

def Comprehension.visited (enter : Expr → Bool) : Comprehension → List Expr
  | ⟨target, iter, ifs, _⟩ =>
    target.visited enter ++ iter.visited enter ++ Expr.visitedList enter ifs

def Comprehension.visitedList (enter : Expr → Bool) : List Comprehension → List Expr
  | [] => []
  | g :: rest => g.visited enter ++ Comprehension.visitedList enter rest

end

def Node.ofExprs (es : List Expr) : List Node := es.map Node.expr

mutual

/-- A statement and all statements and expressions in it. Those in an expression that is not
entered are left out; statements are always entered. -/
def Stmt.visited (enter : Expr → Bool) : Stmt → List Node
  | .expr value => .stmt (.expr value) :: Node.ofExprs (value.visited enter)
  | .assign targets value =>
    .stmt (.assign targets value) ::
      Node.ofExprs (Expr.visitedList enter targets ++ value.visited enter)
  | .augAssign target op value =>
    .stmt (.augAssign target op value) ::
      Node.ofExprs (target.visited enter ++ value.visited enter)
  | .ret value => .stmt (.ret value) :: Node.ofExprs (Expr.visitedOption enter value)
  | .delete targets => .stmt (.delete targets) :: Node.ofExprs (Expr.visitedList enter targets)
  | .raise exc cause =>
    .stmt (.raise exc cause) ::
      Node.ofExprs (Expr.visitedOption enter exc ++ Expr.visitedOption enter cause)
  | .assert test msg =>
    .stmt (.assert test msg) :: Node.ofExprs (test.visited enter ++ Expr.visitedOption enter msg)
  | .pass => [.stmt .pass]
  | .breakLoop => [.stmt .breakLoop]
  | .continueLoop => [.stmt .continueLoop]
  | .global names => [.stmt (.global names)]
  | .nonlocal names => [.stmt (.nonlocal names)]
  | .importNames names => [.stmt (.importNames names)]
  | .importFrom module level names => [.stmt (.importFrom module level names)]
  | .ite test body orelse =>
    .stmt (.ite test body orelse) ::
      Node.ofExprs (test.visited enter) ++ Stmt.visitedList enter body ++
        Stmt.visitedList enter orelse
  | .whileLoop test body orelse =>
    .stmt (.whileLoop test body orelse) ::
      Node.ofExprs (test.visited enter) ++ Stmt.visitedList enter body ++
        Stmt.visitedList enter orelse
  | .forLoop target iter body orelse isAsync =>
    .stmt (.forLoop target iter body orelse isAsync) ::
      Node.ofExprs (target.visited enter ++ iter.visited enter) ++
        Stmt.visitedList enter body ++ Stmt.visitedList enter orelse
  | .tryBlock body handlers orelse finalbody isStar =>
    .stmt (.tryBlock body handlers orelse finalbody isStar) ::
      Stmt.visitedList enter body ++ Handler.visitedList enter handlers ++
        Stmt.visitedList enter orelse ++ Stmt.visitedList enter finalbody
  | .withBlock items body isAsync =>
    .stmt (.withBlock items body isAsync) :: Stmt.visitedList enter body
  | .functionDef name params returns body decorators isAsync =>
    .stmt (.functionDef name params returns body decorators isAsync) ::
      Node.ofExprs (Expr.visitedList enter decorators) ++ Stmt.visitedList enter body
  | .classDef name bases keywords body decorators =>
    .stmt (.classDef name bases keywords body decorators) ::
      Node.ofExprs (Expr.visitedList enter decorators ++ Expr.visitedList enter bases ++
        Keyword.visitedList enter keywords) ++ Stmt.visitedList enter body
  | .verbatim text => [.stmt (.verbatim text)]

def Stmt.visitedList (enter : Expr → Bool) : List Stmt → List Node
  | [] => []
  | s :: rest => s.visited enter ++ Stmt.visitedList enter rest

def Handler.visited (enter : Expr → Bool) : Handler → List Node
  | ⟨type, _, body⟩ => Node.ofExprs (Expr.visitedOption enter type) ++ Stmt.visitedList enter body

def Handler.visitedList (enter : Expr → Bool) : List Handler → List Node
  | [] => []
  | h :: rest => h.visited enter ++ Handler.visitedList enter rest

end

/-- The statements and expressions of a program, without those in expressions that are not
entered. -/
def Module.visited (enter : Expr → Bool) (m : Module) : List Node := Stmt.visitedList enter m

abbrev Expr.all (e : Expr) : List Expr := e.visited fun _ => true

abbrev Expr.allOf (es : List Expr) : List Expr := Expr.visitedList (fun _ => true) es

abbrev Stmt.allOf (m : List Stmt) : List Node := Stmt.visitedList (fun _ => true) m

def Module.nodes (m : Module) : List Node := m.visited fun _ => true

def Node.exprs (nodes : List Node) : List Expr :=
  nodes.filterMap fun
    | .expr e => some e
    | .stmt _ => none

def Node.stmts (nodes : List Node) : List Stmt :=
  nodes.filterMap fun
    | .stmt s => some s
    | .expr _ => none

end Unmask
