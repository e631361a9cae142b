import Unmask.Syntax.Fold
import Unmask.Syntax.Visit

/-!
# Walks over trees

The nodes that a visit shows are among all nodes of a tree, and all parts of a node among them are
among them too. A fold that puts each node back as it is puts the whole tree back.
-/
namespace Unmask

theorem Node.exprs_ofExprs (es : List Expr) : Node.exprs (Node.ofExprs es) = es := by
  rw [Node.exprs, Node.ofExprs, List.filterMap_map]
  exact List.filterMap_some

theorem Node.stmts_ofExprs (es : List Expr) : Node.stmts (Node.ofExprs es) = [] := by
  rw [Node.stmts, Node.ofExprs, List.filterMap_map]
  exact List.filterMap_eq_nil_iff.mpr fun _ _ => rfl

section Visited

variable {enter : Expr → Bool}

theorem visit_sublist {e : Expr} {within all : List Expr} (h : within.Sublist all) :
    (visit enter e within).Sublist (visit (fun _ => true) e all) := by
  rw [visit, visit, if_pos rfl]
  refine .cons_cons e ?_
  split
  · exact h
  · exact List.nil_sublist _

mutual

/-- A visit leaves nodes out and adds none. -/
theorem Expr.visited_sublist (e : Expr) : (e.visited enter).Sublist e.all := by
  cases e with
  | name | constant | verbatim => exact .refl _
  | «attribute» value _ | unary _ value | lambda _ value | named _ value | starred value
  | await value => exact visit_sublist value.visited_sublist
  | subscript left right | binary left _ right =>
    exact visit_sublist (left.visited_sublist.append right.visited_sublist)
  | slice lower upper step =>
    exact visit_sublist (((Expr.visitedOption_sublist lower).append
      (Expr.visitedOption_sublist upper)).append (Expr.visitedOption_sublist step))
  | call func args keywords =>
    exact visit_sublist ((func.visited_sublist.append (Expr.visitedList_sublist args)).append
      (Keyword.visitedList_sublist keywords))
  | bool _ items | list items | tuple items | «set» items =>
    exact visit_sublist (Expr.visitedList_sublist items)
  | compare left _ comparators =>
    exact visit_sublist (left.visited_sublist.append (Expr.visitedList_sublist comparators))
  | conditional test body orelse =>
    exact visit_sublist ((test.visited_sublist.append body.visited_sublist).append
      orelse.visited_sublist)
  | dict keys values =>
    exact visit_sublist ((Expr.visitedOptions_sublist keys).append
      (Expr.visitedList_sublist values))
  | listComp elt gs | setComp elt gs | generator elt gs =>
    exact visit_sublist (elt.visited_sublist.append (Comprehension.visitedList_sublist gs))
  | dictComp key value gs =>
    exact visit_sublist ((key.visited_sublist.append value.visited_sublist).append
      (Comprehension.visitedList_sublist gs))

theorem Expr.visitedOption_sublist (o : Option Expr) :
    (Expr.visitedOption enter o).Sublist (Expr.visitedOption (fun _ => true) o) := by
  cases o with
  | none => exact .refl _
  | some e => exact e.visited_sublist

theorem Expr.visitedOptions_sublist (os : List (Option Expr)) :
    (Expr.visitedOptions enter os).Sublist (Expr.visitedOptions (fun _ => true) os) := by
  cases os with
  | nil => exact .refl _
  | cons o rest => exact (Expr.visitedOption_sublist o).append (Expr.visitedOptions_sublist rest)

theorem Expr.visitedList_sublist (es : List Expr) :
    (Expr.visitedList enter es).Sublist (Expr.allOf es) := by
  cases es with
  | nil => exact .refl _
  | cons e rest => exact e.visited_sublist.append (Expr.visitedList_sublist rest)

theorem Keyword.visitedList_sublist (ks : List Keyword) :
    (Keyword.visitedList enter ks).Sublist (Keyword.visitedList (fun _ => true) ks) := by
  cases ks with
  | nil => exact .refl _
  | cons k rest =>
    obtain ⟨_, value⟩ := k
    exact value.visited_sublist.append (Keyword.visitedList_sublist rest)

theorem Comprehension.visitedList_sublist (gs : List Comprehension) :
    (Comprehension.visitedList enter gs).Sublist
      (Comprehension.visitedList (fun _ => true) gs) := by
  cases gs with
  | nil => exact .refl _
  | cons g rest =>
    obtain ⟨goal, iter, ifs, _⟩ := g
    exact ((goal.visited_sublist.append iter.visited_sublist).append
      (Expr.visitedList_sublist ifs)).append (Comprehension.visitedList_sublist rest)

end

theorem Node.ofExprs_sublist {es all : List Expr} (h : es.Sublist all) :
    (Node.ofExprs es).Sublist (Node.ofExprs all) := h.map Node.expr

mutual

/-- A visit of a statement leaves nodes out and adds none. -/
theorem Stmt.visited_sublist (s : Stmt) :
    (s.visited enter).Sublist (s.visited fun _ => true) := by
  cases s with
  | pass | breakLoop | continueLoop | «global» | «nonlocal» | importNames | importFrom
  | verbatim => exact .refl _
  | expr value => exact .cons_cons _ (Node.ofExprs_sublist value.visited_sublist)
  | assign targets value =>
    exact .cons_cons _ (Node.ofExprs_sublist
      ((Expr.visitedList_sublist targets).append value.visited_sublist))
  | augAssign target _ value =>
    exact .cons_cons _ (Node.ofExprs_sublist
      (target.visited_sublist.append value.visited_sublist))
  | ret value => exact .cons_cons _ (Node.ofExprs_sublist (Expr.visitedOption_sublist value))
  | delete targets => exact .cons_cons _ (Node.ofExprs_sublist (Expr.visitedList_sublist targets))
  | raise exc cause =>
    exact .cons_cons _ (Node.ofExprs_sublist
      ((Expr.visitedOption_sublist exc).append (Expr.visitedOption_sublist cause)))
  | assert test msg =>
    exact .cons_cons _ (Node.ofExprs_sublist
      (test.visited_sublist.append (Expr.visitedOption_sublist msg)))
  | ite test body orelse | whileLoop test body orelse =>
    exact .cons_cons _ (((Node.ofExprs_sublist test.visited_sublist).append
      (Stmt.visitedList_sublist body)).append (Stmt.visitedList_sublist orelse))
  | forLoop target iter body orelse _ =>
    exact .cons_cons _ (((Node.ofExprs_sublist
      (target.visited_sublist.append iter.visited_sublist)).append
      (Stmt.visitedList_sublist body)).append (Stmt.visitedList_sublist orelse))
  | tryBlock body handlers orelse finalbody _ =>
    exact .cons_cons _ ((((Stmt.visitedList_sublist body).append
      (Handler.visitedList_sublist handlers)).append (Stmt.visitedList_sublist orelse)).append
      (Stmt.visitedList_sublist finalbody))
  | withBlock _ body _ => exact .cons_cons _ (Stmt.visitedList_sublist body)
  | functionDef _ _ _ body decorators _ =>
    exact .cons_cons _ ((Node.ofExprs_sublist (Expr.visitedList_sublist decorators)).append
      (Stmt.visitedList_sublist body))
  | classDef _ bases keywords body decorators =>
    exact .cons_cons _ ((Node.ofExprs_sublist
      (((Expr.visitedList_sublist decorators).append (Expr.visitedList_sublist bases)).append
        (Keyword.visitedList_sublist keywords))).append (Stmt.visitedList_sublist body))

theorem Stmt.visitedList_sublist (m : List Stmt) :
    (Stmt.visitedList enter m).Sublist (Stmt.allOf m) := by
  cases m with
  | nil => exact .refl _
  | cons s rest => exact s.visited_sublist.append (Stmt.visitedList_sublist rest)

theorem Handler.visitedList_sublist (hs : List Handler) :
    (Handler.visitedList enter hs).Sublist (Handler.visitedList (fun _ => true) hs) := by
  cases hs with
  | nil => exact .refl _
  | cons h rest =>
    obtain ⟨type, _, body⟩ := h
    exact ((Node.ofExprs_sublist (Expr.visitedOption_sublist type)).append
      (Stmt.visitedList_sublist body)).append (Handler.visitedList_sublist rest)

end

end Visited

/-- A row in which all parts of its members are. -/
def Expr.Closed (es : List Expr) : Prop := ∀ e ∈ es, ∀ part ∈ e.all, part ∈ es

theorem Expr.Closed.append {es rest : List Expr} (h : Expr.Closed es) (h' : Expr.Closed rest) :
    Expr.Closed (es ++ rest) := by
  intro e he part hpart
  rcases List.mem_append.mp he with he | he
  · exact List.mem_append_left _ (h e he part hpart)
  · exact List.mem_append_right _ (h' e he part hpart)

theorem Expr.Closed.visit {e : Expr} {within : List Expr}
    (hall : e.all = visit (fun _ => true) e within) (h : Expr.Closed within) :
    Expr.Closed e.all := by
  intro e' he' part hpart
  rw [hall] at he'
  rcases List.mem_cons.mp he' with rfl | he'
  · exact hpart
  · rw [hall]
    exact List.mem_cons_of_mem _ (h e' he' part hpart)

mutual

/-- All parts of a part are parts. -/
theorem Expr.closed_all (e : Expr) : Expr.Closed e.all := by
  cases e with
  | name | constant | verbatim => exact .visit rfl (nofun : Expr.Closed [])
  | «attribute» value _ | unary _ value | lambda _ value | named _ value | starred value
  | await value => exact .visit rfl value.closed_all
  | subscript left right | binary left _ right =>
    exact .visit rfl (left.closed_all.append right.closed_all)
  | slice lower upper step =>
    exact .visit rfl (((Expr.closed_option lower).append (Expr.closed_option upper)).append
      (Expr.closed_option step))
  | call func args keywords =>
    exact .visit rfl ((func.closed_all.append (Expr.closed_list args)).append
      (Keyword.closed_list keywords))
  | bool _ items | list items | tuple items | «set» items =>
    exact .visit rfl (Expr.closed_list items)
  | compare left _ comparators =>
    exact .visit rfl (left.closed_all.append (Expr.closed_list comparators))
  | conditional test body orelse =>
    exact .visit rfl ((test.closed_all.append body.closed_all).append orelse.closed_all)
  | dict keys values =>
    exact .visit rfl ((Expr.closed_options keys).append (Expr.closed_list values))
  | listComp elt gs | setComp elt gs | generator elt gs =>
    exact .visit rfl (elt.closed_all.append (Comprehension.closed_list gs))
  | dictComp key value gs =>
    exact .visit rfl ((key.closed_all.append value.closed_all).append
      (Comprehension.closed_list gs))

theorem Expr.closed_option (o : Option Expr) :
    Expr.Closed (Expr.visitedOption (fun _ => true) o) := by
  cases o with
  | none => exact nofun
  | some e => exact e.closed_all

theorem Expr.closed_options (os : List (Option Expr)) :
    Expr.Closed (Expr.visitedOptions (fun _ => true) os) := by
  cases os with
  | nil => exact nofun
  | cons o rest => exact (Expr.closed_option o).append (Expr.closed_options rest)

theorem Expr.closed_list (es : List Expr) : Expr.Closed (Expr.allOf es) := by
  cases es with
  | nil => exact nofun
  | cons e rest => exact e.closed_all.append (Expr.closed_list rest)

theorem Keyword.closed_list (ks : List Keyword) :
    Expr.Closed (Keyword.visitedList (fun _ => true) ks) := by
  cases ks with
  | nil => exact nofun
  | cons k rest =>
    obtain ⟨_, value⟩ := k
    exact value.closed_all.append (Keyword.closed_list rest)

theorem Comprehension.closed_list (gs : List Comprehension) :
    Expr.Closed (Comprehension.visitedList (fun _ => true) gs) := by
  cases gs with
  | nil => exact nofun
  | cons g rest =>
    obtain ⟨goal, iter, ifs, _⟩ := g
    exact ((goal.closed_all.append iter.closed_all).append (Expr.closed_list ifs)).append
      (Comprehension.closed_list rest)

end

theorem Expr.mem_all (e : Expr) : e ∈ e.all := by
  cases e <;> exact List.mem_cons_self

/-- A row of nodes in which all nodes of its statements are. -/
def Node.Closed (nodes : List Node) : Prop :=
  ∀ s ∈ Node.stmts nodes, ∀ node ∈ s.visited (fun _ => true), node ∈ nodes

theorem Node.Closed.append {nodes rest : List Node} (h : Node.Closed nodes)
    (h' : Node.Closed rest) : Node.Closed (nodes ++ rest) := by
  intro s hs node hnode
  rw [Node.stmts, List.filterMap_append] at hs
  rcases List.mem_append.mp hs with hs | hs
  · exact List.mem_append_left _ (h s hs node hnode)
  · exact List.mem_append_right _ (h' s hs node hnode)

theorem Node.Closed.visit {s : Stmt} {within : List Node}
    (hall : (s.visited fun _ => true) = .stmt s :: within) (h : Node.Closed within) :
    Node.Closed (s.visited fun _ => true) := by
  intro s' hs' node hnode
  rw [hall] at hs'
  rcases List.mem_cons.mp hs' with rfl | hs'
  · exact hnode
  · rw [hall]
    exact List.mem_cons_of_mem _ (h s' hs' node hnode)

theorem Node.closed_ofExprs (es : List Expr) : Node.Closed (Node.ofExprs es) := by
  intro s hs
  rw [Node.stmts_ofExprs] at hs
  contradiction

mutual

/-- All nodes of a statement within another one are nodes of that one. -/
theorem Stmt.closed_visited (s : Stmt) : Node.Closed (s.visited fun _ => true) := by
  cases s with
  | pass | breakLoop | continueLoop | «global» | «nonlocal» | importNames | importFrom
  | verbatim => exact .visit rfl (Node.closed_ofExprs [])
  | expr | assign | augAssign | ret | delete | raise | assert =>
    exact .visit rfl (Node.closed_ofExprs _)
  | ite test body orelse | whileLoop test body orelse =>
    exact .visit rfl (((Node.closed_ofExprs _).append (Stmt.closed_list body)).append
      (Stmt.closed_list orelse))
  | forLoop goal iter body orelse _ =>
    exact .visit rfl (((Node.closed_ofExprs _).append (Stmt.closed_list body)).append
      (Stmt.closed_list orelse))
  | tryBlock body handlers orelse finalbody _ =>
    exact .visit rfl ((((Stmt.closed_list body).append (Handler.closed_list handlers)).append
      (Stmt.closed_list orelse)).append (Stmt.closed_list finalbody))
  | withBlock _ body _ => exact .visit rfl (Stmt.closed_list body)
  | functionDef _ _ _ body | classDef _ _ _ body =>
    exact .visit rfl ((Node.closed_ofExprs _).append (Stmt.closed_list body))

theorem Stmt.closed_list (m : List Stmt) : Node.Closed (Stmt.allOf m) := by
  cases m with
  | nil => exact nofun
  | cons s rest => exact s.closed_visited.append (Stmt.closed_list rest)

theorem Handler.closed_list (hs : List Handler) :
    Node.Closed (Handler.visitedList (fun _ => true) hs) := by
  cases hs with
  | nil => exact nofun
  | cons h rest =>
    obtain ⟨_, _, body⟩ := h
    exact ((Node.closed_ofExprs _).append (Stmt.closed_list body)).append
      (Handler.closed_list rest)

end

/-- All parts of an expression that stands as a statement in a program are in it. -/
theorem Module.mem_exprs {m : Module} {e part : Expr} (h : .expr e ∈ Node.stmts m.nodes)
    (hpart : part ∈ e.all) : part ∈ Node.exprs m.nodes := by
  have hnode : Node.expr part ∈ m.nodes :=
    Stmt.closed_list m (.expr e) h (.expr part)
      (List.mem_cons_of_mem _ (List.mem_map_of_mem hpart))
  exact List.mem_filterMap.mpr ⟨.expr part, hnode, rfl⟩

namespace Fold

variable {m : Type → Type} [Monad m] {F : Fold m}

/-- Whether a fold puts each of some expressions back once their parts are put back. -/
def Restores (F : Fold m) (es : List Expr) : Prop := ∀ e ∈ es, F.expr e (pure e) = pure e

/-- And each statement among some nodes. -/
def RestoresNodes (F : Fold m) (nodes : List Node) : Prop :=
  F.Restores (Node.exprs nodes) ∧ ∀ s ∈ Node.stmts nodes, F.stmt s (pure s) = pure [s]

theorem restores_append {es rest : List Expr} :
    F.Restores (es ++ rest) ↔ F.Restores es ∧ F.Restores rest := List.forall_mem_append

theorem restores_visit {e : Expr} {within : List Expr} :
    F.Restores (visit (fun _ => true) e within) ↔
      F.expr e (pure e) = pure e ∧ F.Restores within := List.forall_mem_cons

theorem restoresNodes_append {nodes rest : List Node} :
    F.RestoresNodes (nodes ++ rest) ↔ F.RestoresNodes nodes ∧ F.RestoresNodes rest := by
  simp only [RestoresNodes, Node.exprs, Node.stmts, List.filterMap_append, restores_append,
    List.forall_mem_append]
  exact and_and_and_comm

theorem restoresNodes_stmt {s : Stmt} {nodes : List Node} :
    F.RestoresNodes (.stmt s :: nodes) ↔
      F.stmt s (pure s) = pure [s] ∧ F.RestoresNodes nodes := by
  simp only [RestoresNodes, Node.exprs, Node.stmts, List.filterMap_cons, List.forall_mem_cons]
  exact and_left_comm

theorem restoresNodes_ofExprs {es : List Expr} :
    F.RestoresNodes (Node.ofExprs es) ↔ F.Restores es := by
  simp [RestoresNodes, Node.exprs_ofExprs, Node.stmts_ofExprs]

variable [LawfulMonad m]

mutual

/-- A fold that puts all nodes of an expression back puts the expression back. -/
theorem onExpr_restores {e : Expr} (h : F.Restores e.all) : F.onExpr e = pure e := by
  cases e with
  | name | constant | verbatim => exact h _ List.mem_cons_self
  | «attribute» value _ | unary _ value | lambda _ value | named _ value | starred value
  | await value =>
    simp only [Expr.visited, restores_visit] at h
    simp only [onExpr, onExpr_restores h.2, pure_bind]
    exact h.1
  | subscript left right | binary left _ right =>
    simp only [Expr.visited, restores_visit, restores_append] at h
    simp only [onExpr, onExpr_restores h.2.1, onExpr_restores h.2.2, pure_bind]
    exact h.1
  | slice lower upper step =>
    simp only [Expr.visited, restores_visit, restores_append] at h
    simp only [onExpr, onOption_restores h.2.1.1, onOption_restores h.2.1.2,
      onOption_restores h.2.2, pure_bind]
    exact h.1
  | call func args keywords =>
    simp only [Expr.visited, restores_visit, restores_append] at h
    simp only [onExpr, onExpr_restores h.2.1.1, onExprs_restores h.2.1.2, onKeywords_restores h.2.2,
      pure_bind]
    exact h.1
  | bool _ items | list items | tuple items | «set» items =>
    simp only [Expr.visited, restores_visit] at h
    simp only [onExpr, onExprs_restores h.2, pure_bind]
    exact h.1
  | compare left _ comparators =>
    simp only [Expr.visited, restores_visit, restores_append] at h
    simp only [onExpr, onExpr_restores h.2.1, onExprs_restores h.2.2, pure_bind]
    exact h.1
  | conditional test body orelse =>
    simp only [Expr.visited, restores_visit, restores_append] at h
    simp only [onExpr, onExpr_restores h.2.1.1, onExpr_restores h.2.1.2, onExpr_restores h.2.2,
      pure_bind]
    exact h.1
  | dict keys values =>
    simp only [Expr.visited, restores_visit, restores_append] at h
    simp only [onExpr, onOptions_restores h.2.1, onExprs_restores h.2.2, pure_bind]
    exact h.1
  | listComp elt gs | setComp elt gs | generator elt gs =>
    simp only [Expr.visited, restores_visit, restores_append] at h
    simp only [onExpr, onExpr_restores h.2.1, onComprehensions_restores h.2.2, pure_bind]
    exact h.1
  | dictComp key value gs =>
    simp only [Expr.visited, restores_visit, restores_append] at h
    simp only [onExpr, onExpr_restores h.2.1.1, onExpr_restores h.2.1.2,
      onComprehensions_restores h.2.2, pure_bind]
    exact h.1

theorem onTarget_restores {goal : Expr} (h : F.Restores goal.all) :
    F.onTarget goal = pure goal := by
  cases goal with
  | tuple items | list items =>
    simp only [Expr.visited, restores_visit] at h
    simp only [onTarget, onTargets_restores h.2, pure_bind]
  | starred value =>
    simp only [Expr.visited, restores_visit] at h
    simp only [onTarget, onTarget_restores h.2, pure_bind]
  | subscript value key =>
    simp only [Expr.visited, restores_visit, restores_append] at h
    simp only [onTarget, onExpr_restores h.2.1, onExpr_restores h.2.2, pure_bind]
  | «attribute» value _ =>
    simp only [Expr.visited, restores_visit] at h
    simp only [onTarget, onExpr_restores h.2, pure_bind]
  | _ => simp only [onTarget]

theorem onOption_restores {o : Option Expr}
    (h : F.Restores (Expr.visitedOption (fun _ => true) o)) : F.onOption o = pure o := by
  cases o with
  | none => rfl
  | some e => simp only [onOption, onExpr_restores h, pure_bind]

theorem onOptions_restores {os : List (Option Expr)}
    (h : F.Restores (Expr.visitedOptions (fun _ => true) os)) : F.onOptions os = pure os := by
  cases os with
  | nil => rfl
  | cons o rest =>
    simp only [Expr.visitedOptions, restores_append] at h
    simp only [onOptions, onOption_restores h.1, onOptions_restores h.2, pure_bind]

theorem onExprs_restores {es : List Expr} (h : F.Restores (Expr.allOf es)) :
    F.onExprs es = pure es := by
  cases es with
  | nil => rfl
  | cons e rest =>
    simp only [Expr.visitedList, restores_append] at h
    simp only [onExprs, onExpr_restores h.1, onExprs_restores h.2, pure_bind]

theorem onTargets_restores {goals : List Expr} (h : F.Restores (Expr.allOf goals)) :
    F.onTargets goals = pure goals := by
  cases goals with
  | nil => rfl
  | cons goal rest =>
    simp only [Expr.visitedList, restores_append] at h
    simp only [onTargets, onTarget_restores h.1, onTargets_restores h.2, pure_bind]

theorem onKeywords_restores {ks : List Keyword}
    (h : F.Restores (Keyword.visitedList (fun _ => true) ks)) : F.onKeywords ks = pure ks := by
  cases ks with
  | nil => rfl
  | cons k rest =>
    obtain ⟨_, value⟩ := k
    simp only [Keyword.visitedList, Keyword.visited, restores_append] at h
    simp only [onKeywords, onKeyword, onExpr_restores h.1, onKeywords_restores h.2, pure_bind]

theorem onComprehensions_restores {gs : List Comprehension}
    (h : F.Restores (Comprehension.visitedList (fun _ => true) gs)) :
    F.onComprehensions gs = pure gs := by
  cases gs with
  | nil => rfl
  | cons g rest =>
    obtain ⟨goal, iter, ifs, _⟩ := g
    simp only [Comprehension.visitedList, Comprehension.visited, restores_append] at h
    simp only [onComprehensions, onComprehension, onTarget_restores h.1.1.1,
      onExpr_restores h.1.1.2, onExprs_restores h.1.2, onComprehensions_restores h.2, pure_bind]

end

mutual

/-- And one that puts all nodes of a statement back puts the statement back. -/
theorem onStmt_restores {s : Stmt} (h : F.RestoresNodes (s.visited fun _ => true)) :
    F.onStmt s = pure [s] := by
  cases s with
  | pass | breakLoop | continueLoop | «global» | «nonlocal» | importNames | importFrom
  | verbatim => exact h.2 _ List.mem_cons_self
  | expr value =>
    simp only [Stmt.visited, restoresNodes_stmt, restoresNodes_ofExprs] at h
    simp only [onStmt, onExpr_restores h.2, pure_bind]
    exact h.1
  | assign targets value =>
    simp only [Stmt.visited, restoresNodes_stmt, restoresNodes_ofExprs, restores_append] at h
    simp only [onStmt, onTargets_restores h.2.1, onExpr_restores h.2.2, pure_bind]
    exact h.1
  | augAssign target _ value =>
    simp only [Stmt.visited, restoresNodes_stmt, restoresNodes_ofExprs, restores_append] at h
    simp only [onStmt, onTarget_restores h.2.1, onExpr_restores h.2.2, pure_bind]
    exact h.1
  | ret value =>
    simp only [Stmt.visited, restoresNodes_stmt, restoresNodes_ofExprs] at h
    simp only [onStmt, onOption_restores h.2, pure_bind]
    exact h.1
  | delete targets =>
    simp only [Stmt.visited, restoresNodes_stmt, restoresNodes_ofExprs] at h
    simp only [onStmt, onTargets_restores h.2, pure_bind]
    exact h.1
  | raise exc cause =>
    simp only [Stmt.visited, restoresNodes_stmt, restoresNodes_ofExprs, restores_append] at h
    simp only [onStmt, onOption_restores h.2.1, onOption_restores h.2.2, pure_bind]
    exact h.1
  | assert test msg =>
    simp only [Stmt.visited, restoresNodes_stmt, restoresNodes_ofExprs, restores_append] at h
    simp only [onStmt, onExpr_restores h.2.1, onOption_restores h.2.2, pure_bind]
    exact h.1
  | ite test body orelse | whileLoop test body orelse =>
    simp only [Stmt.visited, List.cons_append, restoresNodes_stmt, restoresNodes_append,
      restoresNodes_ofExprs] at h
    simp only [onStmt, onExpr_restores h.2.1.1, onBody_restores h.2.1.2, onBody_restores h.2.2,
      pure_bind]
    exact h.1
  | forLoop target iter body orelse _ =>
    simp only [Stmt.visited, List.cons_append, restoresNodes_stmt, restoresNodes_append,
      restoresNodes_ofExprs, restores_append] at h
    simp only [onStmt, onTarget_restores h.2.1.1.1, onExpr_restores h.2.1.1.2,
      onBody_restores h.2.1.2, onBody_restores h.2.2, pure_bind]
    exact h.1
  | tryBlock body handlers orelse finalbody _ =>
    simp only [Stmt.visited, List.cons_append, restoresNodes_stmt, restoresNodes_append] at h
    simp only [onStmt, onBody_restores h.2.1.1.1, onHandlers_restores h.2.1.1.2,
      onBody_restores h.2.1.2, onBody_restores h.2.2, pure_bind]
    exact h.1
  | withBlock _ body _ =>
    simp only [Stmt.visited, restoresNodes_stmt] at h
    simp only [onStmt, onBody_restores h.2, pure_bind]
    exact h.1
  | functionDef _ _ _ body decorators _ =>
    simp only [Stmt.visited, List.cons_append, restoresNodes_stmt, restoresNodes_append,
      restoresNodes_ofExprs] at h
    simp only [onStmt, onExprs_restores h.2.1, onBody_restores h.2.2, pure_bind]
    exact h.1
  | classDef _ bases keywords body decorators =>
    simp only [Stmt.visited, List.cons_append, restoresNodes_stmt, restoresNodes_append,
      restoresNodes_ofExprs, restores_append] at h
    simp only [onStmt, onExprs_restores h.2.1.1.1, onExprs_restores h.2.1.1.2,
      onKeywords_restores h.2.1.2, onBody_restores h.2.2, pure_bind]
    exact h.1

theorem onBody_restores {body : List Stmt} (h : F.RestoresNodes (Stmt.allOf body)) :
    F.onBody body = pure body := by
  cases body with
  | nil => rfl
  | cons s rest =>
    simp only [Stmt.visitedList, restoresNodes_append] at h
    simp only [onBody, onStmt_restores h.1, onBody_restores h.2, pure_bind, List.cons_append,
      List.nil_append]

theorem onHandlers_restores {hs : List Handler}
    (h : F.RestoresNodes (Handler.visitedList (fun _ => true) hs)) : F.onHandlers hs = pure hs := by
  cases hs with
  | nil => rfl
  | cons handler rest =>
    obtain ⟨type, _, body⟩ := handler
    simp only [Handler.visitedList, Handler.visited, restoresNodes_append,
      restoresNodes_ofExprs] at h
    simp only [onHandlers, onHandler, onOption_restores h.1.1, onBody_restores h.1.2,
      onHandlers_restores h.2, pure_bind]

end

end Fold

end Unmask
