import Unmask.Proofs.BoundNames
import Unmask.Proofs.References
import Unmask.Proofs.Substitution
import Unmask.Proofs.TreeWalks

/-!
# Renaming what is read

A renaming substitutes names for names that are read. Renamings compose as their maps do, and the
one that changes no name changes nothing. What a tree reads is renamed and nothing else: its targets
bind what they bound, name by name, also those of the comprehensions in it.
-/
namespace Unmask
open Fold

/-- The targets that an expression assigns to by itself. -/
def Expr.targets : Expr → List Expr
  | .listComp _ generators => generators.map Comprehension.target
  | .setComp _ generators => generators.map Comprehension.target
  | .generator _ generators => generators.map Comprehension.target
  | .dictComp _ _ generators => generators.map Comprehension.target
  | _ => []

/-- The targets that a statement assigns to or deletes by itself. -/
def Stmt.targets : Stmt → List Expr
  | .assign targets _ => targets
  | .augAssign target _ _ => [target]
  | .delete targets => targets
  | .forLoop target _ _ _ _ => [target]
  | _ => []

def Node.targets : Node → List Expr
  | .stmt s => s.targets
  | .expr e => e.targets

/-- The names that each target in a program binds. -/
def Module.bindings (m : Module) : List (List String) :=
  (m.nodes.flatMap Node.targets).map Expr.boundNames

/-- Targets that bind the same names one by one do so together. -/
lemma boundNamesList_eq {es es' : List Expr}
    (h : es'.map Expr.boundNames = es.map Expr.boundNames) :
    Expr.boundNamesList es' = Expr.boundNamesList es := by
  have hflat (es : List Expr) : Expr.boundNamesList es = (es.map Expr.boundNames).flatten := by
    induction es with
    | nil => rfl
    | cons e rest ih => rw [Expr.boundNamesList, ih, List.map_cons, List.flatten_cons]
  rw [hflat, hflat, h]

/-- A reference behind a renaming: one in what is kept as written stays. -/
def Reference.rename (s : String → String) : Reference → Reference
  | .read id => .read (s id)
  | .kept id => .kept id

variable (s : String → String)

lemma rename_kept (names : List String) :
    (names.map Reference.kept).map (Reference.rename s) = names.map Reference.kept := by
  rw [List.map_map]
  rfl

/-- The substitution of names for names. -/
abbrev renamer : Fold Id := substituting fun id => .name (s id)

/-- Nodes and the references in them behind a renaming: all targets bind the same names, and what
is read is renamed. -/
structure Renamed {α : Type} (targets : α → List Expr) (nodes nodes' : List α)
    (refs refs' : List Reference) : Prop where
  bindings : (nodes'.flatMap targets).map Expr.boundNames =
    (nodes.flatMap targets).map Expr.boundNames
  references : refs' = refs.map (Reference.rename s)

namespace Renamed

variable {s} {α : Type} {targets : α → List Expr} {nodes nodes' rest rest' : List α}
  {refs refs' refs₁ refs₁' : List Reference}

lemma nil : Renamed s targets [] [] [] [] := ⟨rfl, rfl⟩

lemma append (h : Renamed s targets nodes nodes' refs refs')
    (hrest : Renamed s targets rest rest' refs₁ refs₁') :
    Renamed s targets (nodes ++ rest) (nodes' ++ rest') (refs ++ refs₁) (refs' ++ refs₁') where
  bindings := by
    rw [List.flatMap_append, List.flatMap_append, List.map_append, List.map_append, h.bindings,
      hrest.bindings]
  references := by rw [List.map_append, h.references, hrest.references]

/-- A node before its parts, where its own targets bind the same names. -/
lemma cons {n n' : α} (hn : (targets n').map Expr.boundNames = (targets n).map Expr.boundNames)
    (h : Renamed s targets nodes nodes' refs refs') :
    Renamed s targets (n :: nodes) (n' :: nodes') refs refs' where
  bindings := by
    rw [List.flatMap_cons, List.flatMap_cons, List.map_append, List.map_append, hn, h.bindings]
  references := h.references

/-- What is kept as written stays. -/
lemma kept {texts : List Reference} (h : Renamed s targets nodes nodes' refs refs')
    (ht : texts.map (Reference.rename s) = texts) :
    Renamed s targets nodes nodes' (refs ++ texts) (refs' ++ texts) where
  bindings := h.bindings
  references := by rw [List.map_append, ht, h.references]

lemma ofExprs {es es' : List Expr} (h : Renamed s Expr.targets es es' refs refs') :
    Renamed s Node.targets (Node.ofExprs es) (Node.ofExprs es') refs refs' where
  bindings := by
    rw [Node.ofExprs, Node.ofExprs, List.flatMap_map, List.flatMap_map]
    exact h.bindings
  references := h.references

end Renamed

/-- A target behind a renaming binds the same names, and in what it reads others are read. -/
structure RenamedGoal (goal goal' : Expr) : Prop where
  names : goal'.boundNames = goal.boundNames
  within : Renamed s Expr.targets goal.all goal'.all goal.targetReferences goal'.targetReferences

structure RenamedGoals (goals goals' : List Expr) : Prop where
  names : goals'.map Expr.boundNames = goals.map Expr.boundNames
  within : Renamed s Expr.targets (Expr.allOf goals) (Expr.allOf goals')
    (Expr.targetReferencesList goals) (Expr.targetReferencesList goals')

structure RenamedClauses (gs gs' : List Comprehension) : Prop where
  names : (gs'.map Comprehension.target).map Expr.boundNames =
    (gs.map Comprehension.target).map Expr.boundNames
  within : Renamed s Expr.targets (Comprehension.visitedList (fun _ => true) gs)
    (Comprehension.visitedList (fun _ => true) gs') (Comprehension.referencesList gs)
    (Comprehension.referencesList gs')

mutual

theorem renamed_expr (e : Expr) :
    Renamed s Expr.targets e.all ((renamer s).onExpr e).all e.references
      ((renamer s).onExpr e).references := by
  cases e with
  | name | constant => exact ⟨rfl, rfl⟩
  | verbatim text => exact ⟨rfl, (rename_kept s _).symm⟩
  | «attribute» value _ | unary _ value | named _ value | starred value | await value =>
    exact .cons rfl (renamed_expr value)
  | lambda params body =>
    have hparams : Renamed s Expr.targets [] [] _ _ := .kept .nil (rename_kept s (words params))
    exact .cons rfl (hparams.append (renamed_expr body))
  | subscript left right | binary left _ right =>
    exact .cons rfl ((renamed_expr left).append (renamed_expr right))
  | slice lower upper step =>
    exact .cons rfl (((renamed_option lower).append (renamed_option upper)).append
      (renamed_option step))
  | call func args keywords =>
    exact .cons rfl (((renamed_expr func).append (renamed_exprs args)).append
      (renamed_keywords keywords))
  | bool _ items | list items | tuple items | «set» items => exact .cons rfl (renamed_exprs items)
  | compare left _ comparators =>
    exact .cons rfl ((renamed_expr left).append (renamed_exprs comparators))
  | conditional test body orelse =>
    exact .cons rfl (((renamed_expr test).append (renamed_expr body)).append (renamed_expr orelse))
  | dict keys values => exact .cons rfl ((renamed_options keys).append (renamed_exprs values))
  | listComp elt gs | setComp elt gs | generator elt gs =>
    have hgs := renamed_clauses gs
    exact .cons hgs.names ((renamed_expr elt).append hgs.within)
  | dictComp key value gs =>
    have hgs := renamed_clauses gs
    exact .cons hgs.names (((renamed_expr key).append (renamed_expr value)).append hgs.within)

theorem renamed_goal (goal : Expr) : RenamedGoal s goal ((renamer s).onTarget goal) := by
  cases goal with
  | name => exact ⟨rfl, rfl, rfl⟩
  | tuple items | list items =>
    have hitems := renamed_goals items
    exact ⟨boundNamesList_eq hitems.names, .cons rfl hitems.within⟩
  | starred value =>
    have hvalue := renamed_goal value
    exact ⟨hvalue.names, .cons rfl hvalue.within⟩
  | subscript value key =>
    exact ⟨rfl, .cons rfl ((renamed_expr value).append (renamed_expr key))⟩
  | «attribute» value _ => exact ⟨rfl, .cons rfl (renamed_expr value)⟩
  | _ => exact ⟨rfl, rfl, (rename_kept s _).symm⟩

theorem renamed_option (o : Option Expr) :
    Renamed s Expr.targets (Expr.visitedOption (fun _ => true) o)
      (Expr.visitedOption (fun _ => true) ((renamer s).onOption o)) (Expr.referencesOption o)
      (Expr.referencesOption ((renamer s).onOption o)) := by
  cases o with
  | none => exact .nil
  | some e => exact renamed_expr e

theorem renamed_options (os : List (Option Expr)) :
    Renamed s Expr.targets (Expr.visitedOptions (fun _ => true) os)
      (Expr.visitedOptions (fun _ => true) ((renamer s).onOptions os))
      (Expr.referencesOptions os) (Expr.referencesOptions ((renamer s).onOptions os)) := by
  cases os with
  | nil => exact .nil
  | cons o rest => exact (renamed_option o).append (renamed_options rest)

theorem renamed_exprs (es : List Expr) :
    Renamed s Expr.targets (Expr.allOf es) (Expr.allOf ((renamer s).onExprs es))
      (Expr.referencesList es) (Expr.referencesList ((renamer s).onExprs es)) := by
  cases es with
  | nil => exact .nil
  | cons e rest => exact (renamed_expr e).append (renamed_exprs rest)

theorem renamed_goals (goals : List Expr) :
    RenamedGoals s goals ((renamer s).onTargets goals) := by
  cases goals with
  | nil => exact ⟨rfl, .nil⟩
  | cons goal rest =>
    have hgoal := renamed_goal goal
    have hrest := renamed_goals rest
    exact ⟨congrArg₂ List.cons hgoal.names hrest.names, hgoal.within.append hrest.within⟩

theorem renamed_keyword (k : Keyword) :
    Renamed s Expr.targets (k.visited fun _ => true)
      (((renamer s).onKeyword k).visited fun _ => true) k.references
      ((renamer s).onKeyword k).references := by
  obtain ⟨_, value⟩ := k
  exact renamed_expr value

theorem renamed_keywords (ks : List Keyword) :
    Renamed s Expr.targets (Keyword.visitedList (fun _ => true) ks)
      (Keyword.visitedList (fun _ => true) ((renamer s).onKeywords ks))
      (Keyword.referencesList ks) (Keyword.referencesList ((renamer s).onKeywords ks)) := by
  cases ks with
  | nil => exact .nil
  | cons k rest => exact (renamed_keyword k).append (renamed_keywords rest)

theorem renamed_clauses (gs : List Comprehension) :
    RenamedClauses s gs ((renamer s).onComprehensions gs) := by
  cases gs with
  | nil => exact ⟨rfl, .nil⟩
  | cons g rest =>
    obtain ⟨goal, iter, ifs, _⟩ := g
    have hgoal := renamed_goal goal
    have hrest := renamed_clauses rest
    have hfirst := (hgoal.within.append (renamed_expr iter)).append (renamed_exprs ifs)
    exact ⟨congrArg₂ List.cons hgoal.names hrest.names, hfirst.append hrest.within⟩

end

/-- A statement that becomes one statement. -/
lemma Renamed.single {stmt : Stmt} {before : List Node} {refs : List Reference}
    (h : Renamed s Node.targets before (stmt.visited fun _ => true) refs stmt.references) :
    Renamed s Node.targets before (Stmt.allOf [stmt]) refs (Stmt.referencesList [stmt]) := by
  rw [Stmt.allOf, Stmt.visitedList, Stmt.visitedList, List.append_nil, Stmt.referencesList,
    Stmt.referencesList, List.append_nil]
  exact h

lemma visitedList_append (m rest : List Stmt) :
    Stmt.allOf (m ++ rest) = Stmt.allOf m ++ Stmt.allOf rest := by
  unfold Stmt.allOf
  induction m with
  | nil => rfl
  | cons stmt m ih =>
    rw [List.cons_append, Stmt.visitedList, Stmt.visitedList, ih, List.append_assoc]

mutual

theorem renamed_stmt (stmt : Stmt) :
    Renamed s Node.targets (stmt.visited fun _ => true) (Stmt.allOf ((renamer s).onStmt stmt))
      stmt.references (Stmt.referencesList ((renamer s).onStmt stmt)) := by
  cases stmt with
  | pass | breakLoop | continueLoop | «global» | «nonlocal» | importNames | importFrom =>
    exact .single s ⟨rfl, rfl⟩
  | verbatim text => exact .single s ⟨rfl, (rename_kept s _).symm⟩
  | expr value => exact .single s (.cons rfl (renamed_expr s value).ofExprs)
  | assign targets value =>
    have htargets := renamed_goals s targets
    exact .single s (.cons htargets.names (htargets.within.append (renamed_expr s value)).ofExprs)
  | augAssign target op value =>
    have htarget := renamed_goal s target
    exact .single s (.cons (congrArg ([·]) htarget.names)
      (htarget.within.append (renamed_expr s value)).ofExprs)
  | ret value => exact .single s (.cons rfl (renamed_option s value).ofExprs)
  | delete targets =>
    have htargets := renamed_goals s targets
    exact .single s (.cons htargets.names htargets.within.ofExprs)
  | raise exc cause =>
    exact .single s (.cons rfl ((renamed_option s exc).append (renamed_option s cause)).ofExprs)
  | assert test msg =>
    exact .single s (.cons rfl ((renamed_expr s test).append (renamed_option s msg)).ofExprs)
  | ite test body orelse | whileLoop test body orelse =>
    exact .single s (.cons rfl (((renamed_expr s test).ofExprs.append (renamed_body body)).append
      (renamed_body orelse)))
  | forLoop target iter body orelse _ =>
    have htarget := renamed_goal s target
    have hhead := (htarget.within.append (renamed_expr s iter)).ofExprs
    exact .single s (.cons (congrArg ([·]) htarget.names)
      ((hhead.append (renamed_body body)).append (renamed_body orelse)))
  | tryBlock body handlers orelse finalbody _ =>
    exact .single s (.cons rfl ((((renamed_body body).append (renamed_handlers handlers)).append
      (renamed_body orelse)).append (renamed_body finalbody)))
  | withBlock items body _ =>
    have hitems : Renamed s Node.targets [] [] _ _ := .kept .nil (rename_kept s (words items))
    exact .single s (.cons rfl (hitems.append (renamed_body body)))
  | functionDef _ params returns body decorators _ =>
    have hreturns : ((returns.map keptWords).getD []).map (Reference.rename s) =
        (returns.map keptWords).getD [] := by
      cases returns with
      | none => rfl
      | some text => exact rename_kept s (words text)
    have hhead := (renamed_exprs s decorators).ofExprs.kept (rename_kept s (words params))
    exact .single s (.cons rfl ((hhead.kept hreturns).append (renamed_body body)))
  | classDef name bases keywords body decorators =>
    have hhead := ((renamed_exprs s decorators).append (renamed_exprs s bases)).append
      (renamed_keywords s keywords)
    exact .single s (.cons rfl (hhead.ofExprs.append (renamed_body body)))

theorem renamed_body (m : List Stmt) :
    Renamed s Node.targets (Stmt.allOf m) (Stmt.allOf ((renamer s).onBody m))
      (Stmt.referencesList m) (Stmt.referencesList ((renamer s).onBody m)) := by
  cases m with
  | nil => exact .nil
  | cons stmt rest =>
    show Renamed s Node.targets _ (Stmt.allOf (_ ++ _)) _ (Stmt.referencesList (_ ++ _))
    rw [visitedList_append, referencesList_append]
    exact (renamed_stmt stmt).append (renamed_body rest)

theorem renamed_handler (h : Handler) :
    Renamed s Node.targets (h.visited fun _ => true)
      (((renamer s).onHandler h).visited fun _ => true) h.references
      ((renamer s).onHandler h).references := by
  obtain ⟨type, _, body⟩ := h
  exact (renamed_option s type).ofExprs.append (renamed_body body)

theorem renamed_handlers (hs : List Handler) :
    Renamed s Node.targets (Handler.visitedList (fun _ => true) hs)
      (Handler.visitedList (fun _ => true) ((renamer s).onHandlers hs))
      (Handler.referencesList hs) (Handler.referencesList ((renamer s).onHandlers hs)) := by
  cases hs with
  | nil => exact .nil
  | cons h rest => exact (renamed_handler h).append (renamed_handlers rest)

end

/-- Names for themselves make no difference to a program. -/
theorem Fold.onBody_name (m : List Stmt) : (substituting .name).onBody m = m := by
  have hexprs (es : List Expr) : (substituting .name).Restores es := by
    intro e _
    cases e <;> rfl
  exact onBody_restores ⟨hexprs _, fun s _ => rfl⟩

/-- Renamings compose, the one that changes no name changes nothing, and a renaming changes what is
read and leaves all names that targets bind as they are. -/
theorem Module.renameReads_laws :
    (∀ (s t : String → String) (m : Module),
      (m.renameReads s).renameReads t = m.renameReads (t ∘ s)) ∧
    (∀ m : Module, m.renameReads id = m) ∧
    ∀ (s : String → String) (m : Module), (m.renameReads s).bindings = m.bindings ∧
      (m.renameReads s).references = m.references.map (Reference.rename s) := by
  refine ⟨fun s t m => ?_, fun m => ?_, fun s m => ?_⟩
  · exact onBody_substituting (fun id => .name (s id)) (fun id => .name (t id)) m
  · exact onBody_name m
  · exact ⟨(renamed_body s m).bindings, (renamed_body s m).references⟩

end Unmask
