import Unmask.Proofs.Places.Cursors
import Unmask.Proofs.TreeWalks
import Unmask.Syntax.Grammar.Statement

/-!
# Constants and their places

A constant is written in a source as a word, a symbol, a number or a row of string literals. Whether
all constants of a tree are written in a source goes by the parts of the tree.
-/
namespace Unmask

open Cursor

/-- Literals in a row at the front of a text, with gaps alone between them. -/
inductive Grammar.InRow : List Char → List (List Char) → Prop
  | nil {cs : List Char} : InRow cs []
  | cons {text behind : List Char} {parts : List (List Char)} :
      (Token.stringStart? (text ++ behind)).isSome → InRow (afterGap behind) parts →
      InRow (text ++ behind) (text :: parts)

/-- Whether a constant is written at the front of a text. -/
inductive Constant.WrittenAt (cs : List Char) : Constant → Prop
  | word {w : String} {k : Constant} :
      (w, k) ∈ [("None", Constant.none), ("True", .bool true), ("False", .bool false)] →
      Token.word cs = w.toList → WrittenAt cs k
  | ellipsis : Token.symbol cs = ['.', '.', '.'] → WrittenAt cs .ellipsis
  | int {n : Nat} {value : Int} : Token.number? cs = some (n, false) →
      Literal.int? (cs.take n) = some value → WrittenAt cs (.int value)
  | float {n : Nat} {value : Float} : Token.number? cs = some (n, true) →
      Literal.float? (cs.take n) = some value → WrittenAt cs (.float value)
  | strings {parts : List (List Char)} {k : Constant} : parts ≠ [] → Grammar.InRow cs parts →
      Grammar.joinStrings? parts = some k → WrittenAt cs k

/-- Whether a constant is written anywhere in a text. -/
def Constant.WrittenIn (src : List Char) (k : Constant) : Prop := ∃ p, k.WrittenAt (src.drop p)

/-- Whether all constants among some expressions are written in a text. -/
def Expr.AllWritten (src : List Char) (es : List Expr) : Prop :=
  ∀ k, .constant k ∈ es → k.WrittenIn src

def Expr.WrittenIn (src : List Char) (e : Expr) : Prop := Expr.AllWritten src e.all

def Keyword.WrittenIn (src : List Char) (k : Keyword) : Prop := k.value.WrittenIn src

structure Comprehension.WrittenIn (src : List Char) (g : Comprehension) : Prop where
  goal : g.target.WrittenIn src
  iter : g.iter.WrittenIn src
  ifs : ∀ e ∈ g.ifs, e.WrittenIn src

def Stmt.WrittenIn (src : List Char) (s : Stmt) : Prop :=
  Expr.AllWritten src (Node.exprs (s.visited fun _ => true))

variable {src : List Char}

namespace Expr

lemma allWritten_nil : AllWritten src [] := nofun

lemma allWritten_append {es rest : List Expr} :
    AllWritten src (es ++ rest) ↔ AllWritten src es ∧ AllWritten src rest := by
  simp only [AllWritten, List.mem_append]
  exact ⟨fun h => ⟨fun k hk => h k (.inl hk), fun k hk => h k (.inr hk)⟩,
    fun h k hk => hk.elim (h.1 k) (h.2 k)⟩

/-- What is no constant itself has its constants in it. -/
lemma writtenIn_iff {e : Expr} {within : List Expr}
    (hall : e.all = visit (fun _ => true) e within) (he : ∀ k, .constant k ≠ e) :
    e.WrittenIn src ↔ AllWritten src within := by
  simp [WrittenIn, AllWritten, hall, visit, he]

lemma allWritten_option {o : Option Expr} :
    AllWritten src (visitedOption (fun _ => true) o) ↔ ∀ e ∈ o, e.WrittenIn src := by
  cases o <;> simp [visitedOption, allWritten_nil, WrittenIn]

lemma allWritten_options {os : List (Option Expr)} :
    AllWritten src (visitedOptions (fun _ => true) os) ↔
      ∀ o ∈ os, ∀ e ∈ o, e.WrittenIn src := by
  induction os with
  | nil => simp [visitedOptions, allWritten_nil]
  | cons o os ih =>
    rw [visitedOptions, allWritten_append, allWritten_option, ih, List.forall_mem_cons]

lemma allWritten_list {es : List Expr} :
    AllWritten src (allOf es) ↔ ∀ e ∈ es, e.WrittenIn src := by
  induction es with
  | nil => simp [visitedList, allWritten_nil]
  | cons e es ih =>
    show AllWritten src (e.all ++ allOf es) ↔ _
    rw [allWritten_append, ih, List.forall_mem_cons, WrittenIn]

lemma allWritten_keywords {ks : List Keyword} :
    AllWritten src (Keyword.visitedList (fun _ => true) ks) ↔ ∀ k ∈ ks, k.WrittenIn src := by
  induction ks with
  | nil => simp [Keyword.visitedList, allWritten_nil]
  | cons k ks ih =>
    obtain ⟨arg, value⟩ := k
    rw [Keyword.visitedList, allWritten_append, ih, List.forall_mem_cons]
    rfl

lemma allWritten_comprehensions {gs : List Comprehension} :
    AllWritten src (Comprehension.visitedList (fun _ => true) gs) ↔
      ∀ g ∈ gs, g.WrittenIn src := by
  induction gs with
  | nil => simp [Comprehension.visitedList, allWritten_nil]
  | cons g gs ih =>
    obtain ⟨goal, iter, ifs, isAsync⟩ := g
    rw [Comprehension.visitedList, allWritten_append, ih, List.forall_mem_cons,
      Comprehension.visited, allWritten_append, allWritten_append, allWritten_list]
    exact and_congr_left' ⟨fun ⟨⟨h, h'⟩, h''⟩ => ⟨h, h', h''⟩, fun ⟨h, h', h''⟩ => ⟨⟨h, h'⟩, h''⟩⟩

-- What is written of a tree is what is written of its parts.
section Parts

variable {e l r t : Expr} {es : List Expr} {ks : List Keyword} {gs : List Comprehension}

lemma writtenIn_constant {k : Constant} : (constant k).WrittenIn src ↔ k.WrittenIn src := by
  simp [WrittenIn, AllWritten, visited]

lemma writtenIn_name (id : String) : (name id).WrittenIn src := by
  simp [WrittenIn, AllWritten, visited]

lemma writtenIn_verbatim (text : String) : (verbatim text).WrittenIn src := by
  simp [WrittenIn, AllWritten, visited]

lemma writtenIn_attribute (attr : String) :
    (e.attribute attr).WrittenIn src ↔ e.WrittenIn src := writtenIn_iff rfl nofun

lemma writtenIn_subscript :
    (l.subscript r).WrittenIn src ↔ l.WrittenIn src ∧ r.WrittenIn src :=
  .trans (writtenIn_iff rfl nofun) allWritten_append

lemma writtenIn_slice {lower upper step : Option Expr} :
    (slice lower upper step).WrittenIn src ↔ (∀ e ∈ lower, e.WrittenIn src) ∧
      (∀ e ∈ upper, e.WrittenIn src) ∧ ∀ e ∈ step, e.WrittenIn src := by
  refine .trans (writtenIn_iff rfl nofun) ?_
  rw [allWritten_append, allWritten_append, allWritten_option, allWritten_option,
    allWritten_option, and_assoc]

lemma writtenIn_call :
    (call e es ks).WrittenIn src ↔ e.WrittenIn src ∧ (∀ e ∈ es, e.WrittenIn src) ∧
      ∀ k ∈ ks, k.WrittenIn src := by
  refine .trans (writtenIn_iff rfl nofun) ?_
  rw [allWritten_append, allWritten_append, allWritten_list, allWritten_keywords, and_assoc]
  rfl

lemma writtenIn_binary (op : BinaryOp) :
    (binary l op r).WrittenIn src ↔ l.WrittenIn src ∧ r.WrittenIn src :=
  .trans (writtenIn_iff rfl nofun) allWritten_append

lemma writtenIn_unary (op : UnaryOp) : (unary op e).WrittenIn src ↔ e.WrittenIn src :=
  writtenIn_iff rfl nofun

lemma writtenIn_bool (op : BoolOp) :
    (bool op es).WrittenIn src ↔ ∀ e ∈ es, e.WrittenIn src :=
  .trans (writtenIn_iff rfl nofun) allWritten_list

lemma writtenIn_compare (ops : List CompareOp) :
    (compare l ops es).WrittenIn src ↔ l.WrittenIn src ∧ ∀ e ∈ es, e.WrittenIn src := by
  refine .trans (writtenIn_iff rfl nofun) ?_
  rw [allWritten_append, allWritten_list]
  rfl

lemma writtenIn_conditional :
    (conditional t l r).WrittenIn src ↔ t.WrittenIn src ∧ l.WrittenIn src ∧ r.WrittenIn src := by
  refine .trans (writtenIn_iff rfl nofun) ?_
  rw [allWritten_append, allWritten_append, and_assoc]
  rfl

lemma writtenIn_lambda (params : String) : (lambda params e).WrittenIn src ↔ e.WrittenIn src :=
  writtenIn_iff rfl nofun

lemma writtenIn_named (id : String) : (named id e).WrittenIn src ↔ e.WrittenIn src :=
  writtenIn_iff rfl nofun

lemma writtenIn_list : (list es).WrittenIn src ↔ ∀ e ∈ es, e.WrittenIn src :=
  .trans (writtenIn_iff rfl nofun) allWritten_list

lemma writtenIn_tuple : (tuple es).WrittenIn src ↔ ∀ e ∈ es, e.WrittenIn src :=
  .trans (writtenIn_iff rfl nofun) allWritten_list

lemma writtenIn_set : (set es).WrittenIn src ↔ ∀ e ∈ es, e.WrittenIn src :=
  .trans (writtenIn_iff rfl nofun) allWritten_list

lemma writtenIn_dict {keys : List (Option Expr)} :
    (dict keys es).WrittenIn src ↔ (∀ k ∈ keys, ∀ e ∈ k, e.WrittenIn src) ∧
      ∀ e ∈ es, e.WrittenIn src := by
  refine .trans (writtenIn_iff rfl nofun) ?_
  rw [allWritten_append, allWritten_options, allWritten_list]

lemma writtenIn_starred : (starred e).WrittenIn src ↔ e.WrittenIn src := writtenIn_iff rfl nofun

lemma writtenIn_await : (await e).WrittenIn src ↔ e.WrittenIn src := writtenIn_iff rfl nofun

lemma allWritten_clauses :
    AllWritten src (e.all ++ Comprehension.visitedList (fun _ => true) gs) ↔
      e.WrittenIn src ∧ ∀ g ∈ gs, g.WrittenIn src := by
  rw [allWritten_append, allWritten_comprehensions]
  rfl

lemma writtenIn_listComp :
    (listComp e gs).WrittenIn src ↔ e.WrittenIn src ∧ ∀ g ∈ gs, g.WrittenIn src :=
  .trans (writtenIn_iff rfl nofun) allWritten_clauses

lemma writtenIn_setComp :
    (setComp e gs).WrittenIn src ↔ e.WrittenIn src ∧ ∀ g ∈ gs, g.WrittenIn src :=
  .trans (writtenIn_iff rfl nofun) allWritten_clauses

lemma writtenIn_generator :
    (generator e gs).WrittenIn src ↔ e.WrittenIn src ∧ ∀ g ∈ gs, g.WrittenIn src :=
  .trans (writtenIn_iff rfl nofun) allWritten_clauses

lemma writtenIn_dictComp :
    (dictComp l r gs).WrittenIn src ↔ l.WrittenIn src ∧ r.WrittenIn src ∧
      ∀ g ∈ gs, g.WrittenIn src := by
  refine .trans (writtenIn_iff rfl nofun) ?_
  rw [allWritten_append, allWritten_append, allWritten_comprehensions, and_assoc]
  rfl

end Parts
end Expr

/-- What an `except` clause holds. -/
structure Handler.WrittenIn (src : List Char) (h : Handler) : Prop where
  type : ∀ e ∈ h.type, e.WrittenIn src
  body : ∀ s ∈ h.body, s.WrittenIn src

namespace Stmt

open Unmask.Expr

lemma allWritten_stmt {s : Stmt} {nodes : List Node} :
    AllWritten src (Node.exprs (.stmt s :: nodes)) ↔ AllWritten src (Node.exprs nodes) := Iff.rfl

lemma allWritten_nodes {nodes rest : List Node} :
    AllWritten src (Node.exprs (nodes ++ rest)) ↔
      AllWritten src (Node.exprs nodes) ∧ AllWritten src (Node.exprs rest) := by
  simp only [Node.exprs, List.filterMap_append, allWritten_append]

lemma allWritten_body {body : List Stmt} :
    AllWritten src (Node.exprs (allOf body)) ↔ ∀ s ∈ body, s.WrittenIn src := by
  induction body with
  | nil => exact ⟨nofun, nofun⟩
  | cons s body ih =>
    show AllWritten src (Node.exprs ((s.visited fun _ => true) ++ allOf body)) ↔ _
    rw [allWritten_nodes, ih, List.forall_mem_cons, WrittenIn]

lemma allWritten_handlers {handlers : List Handler} :
    AllWritten src (Node.exprs (Handler.visitedList (fun _ => true) handlers)) ↔
      ∀ h ∈ handlers, h.WrittenIn src := by
  induction handlers with
  | nil => exact ⟨nofun, nofun⟩
  | cons h handlers ih =>
    obtain ⟨type, name, body⟩ := h
    rw [Handler.visitedList, allWritten_nodes, ih, List.forall_mem_cons, Handler.visited,
      allWritten_nodes, Node.exprs_ofExprs, allWritten_option, allWritten_body]
    exact and_congr_left' ⟨fun ⟨h, h'⟩ => ⟨h, h'⟩, fun ⟨h, h'⟩ => ⟨h, h'⟩⟩

-- What is written of a statement is what is written of its parts.
section Parts

variable {s : Stmt} {e goal iter test : Expr} {es decorators : List Expr}
variable {body orelse : List Stmt}

lemma writtenIn_iff (hall : (s.visited fun _ => true) = .stmt s :: Node.ofExprs es) :
    s.WrittenIn src ↔ AllWritten src es := by
  rw [WrittenIn, hall, allWritten_stmt, Node.exprs_ofExprs]

/-- Expressions in front of a body. -/
lemma writtenIn_headed (hall : (s.visited fun _ => true) =
      .stmt s :: Node.ofExprs es ++ allOf body) :
    s.WrittenIn src ↔ AllWritten src es ∧ ∀ s ∈ body, s.WrittenIn src := by
  rw [WrittenIn, hall, allWritten_nodes, allWritten_stmt, Node.exprs_ofExprs, allWritten_body]

/-- Expressions in front of two bodies. -/
lemma writtenIn_branches (hall : (s.visited fun _ => true) =
      .stmt s :: Node.ofExprs es ++ allOf body ++ allOf orelse) :
    s.WrittenIn src ↔ AllWritten src es ∧ (∀ s ∈ body, s.WrittenIn src) ∧
      ∀ s ∈ orelse, s.WrittenIn src := by
  rw [WrittenIn, hall, allWritten_nodes, allWritten_nodes, allWritten_stmt, Node.exprs_ofExprs,
    allWritten_body, allWritten_body, and_assoc]

lemma writtenIn_expr : (expr e).WrittenIn src ↔ e.WrittenIn src := writtenIn_iff rfl

/-- A statement without expressions. -/
lemma writtenIn_alone (hall : (s.visited fun _ => true) = [.stmt s]) : s.WrittenIn src :=
  (writtenIn_iff hall).mpr allWritten_nil

lemma writtenIn_verbatim (text : String) : (verbatim text).WrittenIn src := writtenIn_alone rfl

lemma writtenIn_assign :
    (assign es e).WrittenIn src ↔ (∀ e ∈ es, e.WrittenIn src) ∧ e.WrittenIn src := by
  refine .trans (writtenIn_iff rfl) ?_
  rw [allWritten_append, allWritten_list]
  rfl

lemma writtenIn_augAssign (op : BinaryOp) :
    (augAssign goal op e).WrittenIn src ↔ goal.WrittenIn src ∧ e.WrittenIn src :=
  .trans (writtenIn_iff rfl) allWritten_append

lemma writtenIn_ret {o : Option Expr} : (ret o).WrittenIn src ↔ ∀ e ∈ o, e.WrittenIn src :=
  .trans (writtenIn_iff rfl) allWritten_option

lemma writtenIn_delete : (delete es).WrittenIn src ↔ ∀ e ∈ es, e.WrittenIn src :=
  .trans (writtenIn_iff rfl) allWritten_list

lemma writtenIn_raise {exc cause : Option Expr} :
    (raise exc cause).WrittenIn src ↔
      (∀ e ∈ exc, e.WrittenIn src) ∧ ∀ e ∈ cause, e.WrittenIn src := by
  refine .trans (writtenIn_iff rfl) ?_
  rw [allWritten_append, allWritten_option, allWritten_option]

lemma writtenIn_assert {msg : Option Expr} :
    (assert test msg).WrittenIn src ↔ test.WrittenIn src ∧ ∀ e ∈ msg, e.WrittenIn src := by
  refine .trans (writtenIn_iff rfl) ?_
  rw [allWritten_append, allWritten_option]
  rfl

lemma writtenIn_ite :
    (ite test body orelse).WrittenIn src ↔ test.WrittenIn src ∧
      (∀ s ∈ body, s.WrittenIn src) ∧ ∀ s ∈ orelse, s.WrittenIn src := writtenIn_branches rfl

lemma writtenIn_whileLoop :
    (whileLoop test body orelse).WrittenIn src ↔ test.WrittenIn src ∧
      (∀ s ∈ body, s.WrittenIn src) ∧ ∀ s ∈ orelse, s.WrittenIn src := writtenIn_branches rfl

lemma writtenIn_forLoop (isAsync : Bool) :
    (forLoop goal iter body orelse isAsync).WrittenIn src ↔
      (goal.WrittenIn src ∧ iter.WrittenIn src) ∧
      (∀ s ∈ body, s.WrittenIn src) ∧ ∀ s ∈ orelse, s.WrittenIn src :=
  .trans (writtenIn_branches rfl) (and_congr_left' allWritten_append)

lemma writtenIn_tryBlock {handlers : List Handler} {finalbody : List Stmt} (isStar : Bool) :
    (tryBlock body handlers orelse finalbody isStar).WrittenIn src ↔
      (((∀ s ∈ body, s.WrittenIn src) ∧ ∀ h ∈ handlers, h.WrittenIn src) ∧
        ∀ s ∈ orelse, s.WrittenIn src) ∧ ∀ s ∈ finalbody, s.WrittenIn src := by
  rw [WrittenIn, visited, allWritten_nodes, allWritten_nodes, allWritten_nodes, allWritten_stmt,
    allWritten_body, allWritten_body, allWritten_body, allWritten_handlers]

lemma writtenIn_withBlock (items : String) (isAsync : Bool) :
    (withBlock items body isAsync).WrittenIn src ↔ ∀ s ∈ body, s.WrittenIn src := by
  rw [WrittenIn, visited, allWritten_stmt, allWritten_body]

lemma writtenIn_functionDef (name params : String) (returns : Option String) (isAsync : Bool) :
    (functionDef name params returns body decorators isAsync).WrittenIn src ↔
      (∀ e ∈ decorators, e.WrittenIn src) ∧ ∀ s ∈ body, s.WrittenIn src :=
  .trans (writtenIn_headed rfl) (and_congr_left' allWritten_list)

lemma writtenIn_classDef (name : String) {keywords : List Keyword} :
    (classDef name es keywords body decorators).WrittenIn src ↔
      (((∀ e ∈ decorators, e.WrittenIn src) ∧ ∀ e ∈ es, e.WrittenIn src) ∧
        ∀ k ∈ keywords, k.WrittenIn src) ∧ ∀ s ∈ body, s.WrittenIn src := by
  refine .trans (writtenIn_headed rfl) (and_congr_left' ?_)
  rw [allWritten_append, allWritten_append, allWritten_list, allWritten_list, allWritten_keywords]

end Parts
end Stmt

end Unmask
