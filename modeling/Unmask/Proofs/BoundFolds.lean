import Unmask.Proofs.FoldedParts

/-!
# Folding where names are bound

Some programs are folded alike at every depth: no text in them is evaluated. A name in them becomes
the literal that it stands for, a node is reduced once its parts are folded, and an assignment of a
literal goes into the bindings for the statements behind it.
-/
namespace Unmask.BlankObf

variable {n : Nat} {bindings next : Bindings} {e r : Expr}

/-- Under the bindings an expression is folded to another, at every depth. -/
def Becomes (bindings : Bindings) (e r : Expr) : Prop :=
  ∀ n, ((folder n).onExpr e).run bindings = some (r, bindings)

/-- Under the bindings statements are folded to others and leave other bindings, at every depth. -/
def Turns (bindings : Bindings) (m r : List Stmt) (next : Bindings) : Prop :=
  ∀ n, ((folder n).onBody m).run bindings = some (r, next)

/-- A node that is no bound name is reduced once its parts are folded. -/
lemma run_node {walk : StateT Bindings Option Expr} {parts : Expr}
    (hbound : boundLiteral? bindings e = none) (hwalk : walk.run bindings = some (parts, bindings))
    (hparts : evaluated? parts = none) :
    ((folder n).expr e walk).run bindings = some (reduced parts, bindings) := by
  obtain ⟨nested, hnested⟩ : ∃ nested, (folder n).expr = foldExpr nested := by
    cases n <;> exact ⟨_, rfl⟩
  simp [hnested, foldExpr, hbound, hwalk, foldParts, hparts, reduced]

/-- A node that is not reduced is put together from its folded parts. -/
lemma run_kept {walk : StateT Bindings Option Expr} {parts : Expr}
    (hbound : boundLiteral? bindings e = none) (hwalk : walk.run bindings = some (parts, bindings))
    (hparts : evaluated? parts = none) (hreduce : reduce? parts = none) :
    ((folder n).expr e walk).run bindings = some (parts, bindings) := by
  rw [run_node hbound hwalk hparts, reduced, hreduce]
  rfl

namespace Becomes

lemma constant (c : Constant) : Becomes bindings (.constant c) (.constant c) :=
  fun _ => run_kept rfl rfl rfl rfl

lemma bound {id : String} {v : Value} (h : bindings.lookup id = some v) :
    Becomes bindings (.name id) v.toExpr := by
  intro n
  rw [ConstantBindings.name_run, h]
  rfl

lemma free {id : String} (h : bindings.lookup id = none) :
    Becomes bindings (.name id) (.name id) := by
  intro n
  rw [ConstantBindings.name_run, h]
  rfl

lemma «attribute» {object : Expr} (h : Becomes bindings object r) (attr : String) :
    Becomes bindings (.attribute object attr) (.attribute r attr) := by
  intro n
  rw [Fold.onExpr]
  exact run_kept rfl (by simp [h n]) rfl rfl

lemma unary {operand : Expr} (h : Becomes bindings operand r) (op : UnaryOp) :
    Becomes bindings (.unary op operand) (reduced (.unary op r)) := by
  intro n
  rw [Fold.onExpr]
  exact run_node rfl (by simp [h n]) rfl

lemma binary {left right s : Expr} (hleft : Becomes bindings left r)
    (hright : Becomes bindings right s) (op : BinaryOp) :
    Becomes bindings (.binary left op right) (reduced (.binary r op s)) := by
  intro n
  rw [Fold.onExpr]
  exact run_node rfl (by simp [hleft n, hright n]) rfl

lemma lambda {body : Expr} (h : Becomes bindings body r) (params : String) :
    Becomes bindings (.lambda params body) (.lambda params r) := by
  intro n
  rw [Fold.onExpr]
  exact run_kept rfl (by simp [h n]) rfl rfl

/-- The parts of a row are folded one after the other. -/
lemma row {es rs : List Expr} (h : List.Forall₂ (Becomes bindings) es rs) (n : Nat) :
    ((folder n).onExprs es).run bindings = some (rs, bindings) := by
  induction h with
  | nil => rfl
  | cons hfirst _ ih => simp [Fold.onExprs, hfirst n, ih]

lemma list {es rs : List Expr} (h : List.Forall₂ (Becomes bindings) es rs) :
    Becomes bindings (.list es) (.list rs) := by
  intro n
  rw [Fold.onExpr]
  exact run_kept rfl (by simp [row h n]) rfl rfl

lemma compare {left right s : Expr} (hleft : Becomes bindings left r)
    (hright : Becomes bindings right s) (op : CompareOp) :
    Becomes bindings (.compare left [op] [right]) (.compare r [op] [s]) := by
  intro n
  rw [Fold.onExpr]
  exact run_kept rfl (by simp [hleft n, row (.cons hright .nil) n]) rfl rfl

/-- A call of something other than `eval`. -/
lemma apply {func f : Expr} {args as : List Expr} (hfunc : Becomes bindings func f)
    (hargs : List.Forall₂ (Becomes bindings) args as) (heval : f ≠ .name "eval") :
    Becomes bindings (.apply func args) (reduced (.apply f as)) := by
  intro n
  have hparts : evaluated? (.apply f as) = none := by
    unfold evaluated?
    split
    · next heq =>
      cases heq
      exact absurd rfl heval
    · rfl
  rw [Expr.apply, Fold.onExpr]
  exact run_node rfl (by simp [hfunc n, row hargs n, Fold.onKeywords, Expr.apply]) hparts

/-- A call of a name that is not bound, with one argument. -/
lemma called {id : String} {arg : Expr} (hid : bindings.lookup id = none) (heval : id ≠ "eval")
    (harg : Becomes bindings arg r) :
    Becomes bindings (.apply (.name id) [arg]) (reduced (.apply (.name id) [r])) :=
  apply (free hid) (.cons harg .nil) (by simpa using heval)

/-- A call of a function of a module whose name is not bound, with one argument. -/
lemma dotted {module function : String} {arg : Expr} (hmodule : bindings.lookup module = none)
    (harg : Becomes bindings arg r) :
    Becomes bindings (.apply (.attribute (.name module) function) [arg])
      (reduced (.apply (.attribute (.name module) function) [r])) :=
  apply ((free hmodule).attribute function) (.cons harg .nil) nofun

end Becomes

namespace Turns

variable {m rest : List Stmt}

lemma nil : Turns bindings [] [] bindings := fun _ => rfl

/-- An assignment of a literal vanishes, and the name stands for the literal from there on. -/
lemma assign {id : String} {value : Expr} {v : Value} (hvalue : Becomes bindings value v.toExpr)
    (hrest : Turns ((id, v) :: bindings) m rest next) :
    Turns bindings (.assign [.name id] value :: m) rest next := by
  intro n
  have hbinding : binding? (.assign [.name id] v.toExpr) = some (id, v) := by
    rw [binding?, Value.ofExpr?_toExpr]
    rfl
  simp [Fold.onBody, ConstantBindings.onStmt_assign, hvalue n, foldStmt, hbinding, hrest n]

/-- A statement that binds nothing is put together from its folded parts. -/
lemma onStmt_walk {s t : Stmt} {walk : StateT Bindings Option Stmt}
    (hwalk : walk.run bindings = some (t, next)) (ht : binding? t = none) :
    ((folder n).stmt s walk).run bindings = some ([t], next) := by
  simp [ConstantBindings.folder_stmt, hwalk, foldStmt, ht]

/-- A statement that stays is followed by the others. -/
lemma stmt {s t : Stmt} {between : Bindings}
    (hs : ∀ n, ((folder n).onStmt s).run bindings = some ([t], between))
    (hrest : Turns between m rest next) : Turns bindings (s :: m) (t :: rest) next := by
  intro n
  simp [Fold.onBody, hs n, hrest n]

lemma expr (h : Becomes bindings e r) (hrest : Turns bindings m rest next) :
    Turns bindings (.expr e :: m) (.expr r :: rest) next := by
  refine stmt (fun n => ?_) hrest
  simp [ConstantBindings.onStmt_expr, h n]

lemma breakLoop (hrest : Turns bindings m rest next) :
    Turns bindings (.breakLoop :: m) (.breakLoop :: rest) next := by
  refine stmt (fun n => ?_) hrest
  rw [Fold.onStmt]
  exact onStmt_walk rfl rfl

/-- A conditional without an alternative. -/
lemma ite {test t : Expr} {body folded : List Stmt} {between : Bindings}
    (htest : Becomes bindings test t) (hbody : Turns bindings body folded between)
    (hrest : Turns between m rest next) :
    Turns bindings (.ite test body [] :: m) (.ite t folded [] :: rest) next := by
  refine stmt (fun n => ?_) hrest
  rw [Fold.onStmt]
  exact onStmt_walk (by simp [htest n, hbody n, Fold.onBody]) rfl

/-- A loop over a plain name without an alternative. -/
lemma forLoop {id : String} {iter i : Expr} {body folded : List Stmt} {between : Bindings}
    (hiter : Becomes bindings iter i) (hbody : Turns bindings body folded between)
    (hrest : Turns between m rest next) :
    Turns bindings (.forLoop (.name id) iter body [] false :: m)
      (.forLoop (.name id) i folded [] false :: rest) next := by
  refine stmt (fun n => ?_) hrest
  rw [Fold.onStmt]
  exact onStmt_walk (by simp [hiter n, hbody n, Fold.onTarget, Fold.onBody]) rfl

end Turns

/-- A program of which no text is evaluated is folded to its end. -/
lemma foldConstants_of_turns {m r : Module} (h : Turns [] m r next) : foldConstants m = r := by
  rw [foldConstants, foldWithin, h maxNesting]
  rfl

end Unmask.BlankObf
