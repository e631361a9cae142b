import Unmask.Proofs.ForeignNames
import Unmask.Proofs.MockInvariants
import Unmask.Proofs.References
import Unmask.Resolve.Program

/-!
# Dangling names

An assignment to an item of a scope vanishes, so every reference to the name that it bound has to
vanish as well. The cleanup leaves no read of a bound name: each one is replaced by what the name is
bound to, and what is known is written without a foreign name. What stays are the references in what
is kept as written, of which the cleanup knows nothing, so a name dangles if and only if it is in
what the folded program keeps.
-/
namespace Unmask

section NameCleanup

variable {k : String}

/-- No read of a name is left, and it is in what is kept if it was. -/
structure Swept (k : String) (before after : List Reference) : Prop where
  read : .read k ∉ after
  kept : .kept k ∈ after ↔ .kept k ∈ before

namespace Swept

lemma nil : Swept k [] [] := ⟨List.not_mem_nil, Iff.rfl⟩

lemma append {l l' rest rest' : List Reference} (h : Swept k l l') (hrest : Swept k rest rest') :
    Swept k (l ++ rest) (l' ++ rest') where
  read := by
    rw [List.mem_append]
    exact fun hmem => hmem.elim h.read hrest.read
  kept := by rw [List.mem_append, List.mem_append, h.kept, hrest.kept]

/-- What is kept as written has no reads. -/
lemma written (names : List String) : Swept k (names.map .kept) (names.map .kept) where
  read := by
    rw [List.mem_map]
    rintro ⟨_, _, ⟨⟩⟩
  kept := Iff.rfl

/-- A program without reads of a name refers to it in what is kept as written. -/
theorem refersTo {before : List Reference} {m : Module} (h : Swept k before m.references) :
    m.RefersTo k ↔ .kept k ∈ before := by
  rw [Module.refersTo_iff, h.kept]
  exact or_iff_right h.read

lemma text (text : String) : Swept k (keptWords text) (keptWords text) := written (words text)

end Swept

mutual

lemma references_value (v : Value) : v.toExpr.references = [] := by
  cases v with
  | list items => exact references_values items
  | _ => rfl

lemma references_values (items : List Value) :
    Expr.referencesList (Value.toExprs items) = [] := by
  cases items with
  | nil => rfl
  | cons v rest =>
    rw [Value.toExprs, Expr.referencesList, references_value v, references_values rest]
    rfl

end

/-- The parameter that a getter is written with. -/
lemma keptWords_ignored : keptWords "*_" = [.kept "_"] := by decide

/-- What is known is written without a foreign name. -/
lemma Foreign.revert_references (h : Foreign k) (hignored : k ≠ "_") {m : Mock} (hm : m.Known) :
    Swept k [] m.revert.references := by
  have hread {name : String} (hname : name ≠ k) : Swept k [] [.read name] := by
    refine ⟨fun hmem => ?_, by simp⟩
    cases List.mem_singleton.mp hmem
    exact hname rfl
  cases m with
  | value _ v =>
    rw [Mock.revert, references_value]
    exact .nil
  | code => exact hread (h.builtin .compile)
  | builtin b => exact hread (h.builtin b)
  | library => exact hread (h.builtin .importModule)
  | scope s => exact hread (h.scope s)
  | getter s =>
    have hparams : Swept k [] (keptWords "*_") := by
      rw [keptWords_ignored]
      refine ⟨by simp, iff_of_false (fun hmem => ?_) List.not_mem_nil⟩
      cases List.mem_singleton.mp hmem
      exact hignored rfl
    exact hparams.append (hread (h.scope s))
  | method receiver =>
    rw [Mock.revert, Expr.references, references_value]
    exact .nil
  | unknown name => exact absurd rfl (hm name)

/-- A foreign name that is bound, where all that is bound is known. -/
structure Namespace.Sweeps (ns : Namespace) (k : String) : Prop where
  foreign : Foreign k
  ignored : k ≠ "_"
  bound : (ns.local? k).isSome
  known : ∀ name m, ns.local? name = some m → m.Known

namespace Namespace

variable {ns : Namespace}

lemma substitute_swept (h : ns.Sweeps k) (id : String) :
    Swept k [.read id] (ns.substitute id).references := by
  have hkept : Reference.kept k ∉ [Reference.read id] := by simp
  unfold substitute
  split
  · next m hm =>
    have hm := h.foreign.revert_references h.ignored (h.known id m hm)
    exact ⟨hm.read, hm.kept.trans (iff_of_false List.not_mem_nil hkept)⟩
  · next hnone =>
    refine ⟨fun hmem => ?_, Iff.rfl⟩
    cases List.mem_singleton.mp hmem
    have hbound := h.bound
    rw [hnone] at hbound
    contradiction

mutual

/-- No read of the name is left in an expression. -/
theorem swept_expr (h : ns.Sweeps k) (e : Expr) :
    Swept k e.references (ns.cleanup.onExpr e).references := by
  cases e with
  | name id => exact substitute_swept h id
  | constant => exact .nil
  | verbatim text => exact .text text
  | call func args keywords =>
    exact ((swept_expr h func).append (swept_exprs h args)).append (swept_keywords h keywords)
  | «attribute» value _ | unary _ value | named _ value | starred value | await value =>
    exact swept_expr h value
  | lambda params body => exact (Swept.text params).append (swept_expr h body)
  | subscript left right | binary left _ right =>
    exact (swept_expr h left).append (swept_expr h right)
  | slice lower upper step =>
    exact ((swept_option h lower).append (swept_option h upper)).append (swept_option h step)
  | bool _ items | list items | tuple items | «set» items => exact swept_exprs h items
  | compare left _ comparators => exact (swept_expr h left).append (swept_exprs h comparators)
  | conditional test body orelse =>
    exact ((swept_expr h test).append (swept_expr h body)).append (swept_expr h orelse)
  | dict keys values => exact (swept_options h keys).append (swept_exprs h values)
  | listComp elt generators | setComp elt generators | generator elt generators =>
    exact (swept_expr h elt).append (swept_comprehensions h generators)
  | dictComp key value generators =>
    exact ((swept_expr h key).append (swept_expr h value)).append
      (swept_comprehensions h generators)

theorem swept_target (h : ns.Sweeps k) (goal : Expr) :
    Swept k goal.targetReferences (ns.cleanup.onTarget goal).targetReferences := by
  cases goal with
  | name => exact .nil
  | tuple items | list items => exact swept_targets h items
  | starred value => exact swept_target h value
  | subscript value slice => exact (swept_expr h value).append (swept_expr h slice)
  | «attribute» value _ => exact swept_expr h value
  | _ => exact .written _

theorem swept_option (h : ns.Sweeps k) (o : Option Expr) :
    Swept k (Expr.referencesOption o) (Expr.referencesOption (ns.cleanup.onOption o)) := by
  cases o with
  | none => exact .nil
  | some e => exact swept_expr h e

theorem swept_options (h : ns.Sweeps k) (os : List (Option Expr)) :
    Swept k (Expr.referencesOptions os) (Expr.referencesOptions (ns.cleanup.onOptions os)) := by
  cases os with
  | nil => exact .nil
  | cons o rest => exact (swept_option h o).append (swept_options h rest)

theorem swept_exprs (h : ns.Sweeps k) (es : List Expr) :
    Swept k (Expr.referencesList es) (Expr.referencesList (ns.cleanup.onExprs es)) := by
  cases es with
  | nil => exact .nil
  | cons e rest => exact (swept_expr h e).append (swept_exprs h rest)

theorem swept_targets (h : ns.Sweeps k) (goals : List Expr) :
    Swept k (Expr.targetReferencesList goals)
      (Expr.targetReferencesList (ns.cleanup.onTargets goals)) := by
  cases goals with
  | nil => exact .nil
  | cons goal rest => exact (swept_target h goal).append (swept_targets h rest)

theorem swept_keyword (h : ns.Sweeps k) (a : Keyword) :
    Swept k a.references (ns.cleanup.onKeyword a).references := by
  obtain ⟨_, value⟩ := a
  exact swept_expr h value

theorem swept_keywords (h : ns.Sweeps k) (as : List Keyword) :
    Swept k (Keyword.referencesList as)
      (Keyword.referencesList (ns.cleanup.onKeywords as)) := by
  cases as with
  | nil => exact .nil
  | cons a rest => exact (swept_keyword h a).append (swept_keywords h rest)

theorem swept_comprehension (h : ns.Sweeps k) (g : Comprehension) :
    Swept k g.references (ns.cleanup.onComprehension g).references := by
  obtain ⟨goal, iter, ifs, _⟩ := g
  exact ((swept_target h goal).append (swept_expr h iter)).append (swept_exprs h ifs)

theorem swept_comprehensions (h : ns.Sweeps k) (gs : List Comprehension) :
    Swept k (Comprehension.referencesList gs)
      (Comprehension.referencesList (ns.cleanup.onComprehensions gs)) := by
  cases gs with
  | nil => exact .nil
  | cons g rest => exact (swept_comprehension h g).append (swept_comprehensions h rest)

end

/-- A statement that becomes one statement. -/
lemma swept_single {before : List Reference} {s : Stmt} (h : Swept k before s.references) :
    Swept k before (Stmt.referencesList [s]) := by
  rw [Stmt.referencesList, Stmt.referencesList, List.append_nil]
  exact h

mutual

/-- No read of the name is left in a statement. -/
theorem swept_stmt (h : ns.Sweeps k) (s : Stmt) :
    Swept k s.references (Stmt.referencesList (ns.cleanup.onStmt s)) := by
  cases s with
  | expr value => exact swept_single (swept_expr h value)
  | assign targets value =>
    exact swept_single ((swept_targets h targets).append (swept_expr h value))
  | augAssign target _ value =>
    exact swept_single ((swept_target h target).append (swept_expr h value))
  | ret value => exact swept_single (swept_option h value)
  | delete targets => exact swept_single (swept_targets h targets)
  | raise exc cause => exact swept_single ((swept_option h exc).append (swept_option h cause))
  | assert test msg => exact swept_single ((swept_expr h test).append (swept_option h msg))
  | pass | breakLoop | continueLoop | «global» | «nonlocal» | importNames | importFrom =>
    exact swept_single .nil
  | ite test body orelse | whileLoop test body orelse =>
    exact swept_single (((swept_expr h test).append (swept_body h body)).append
      (swept_body h orelse))
  | forLoop target iter body orelse =>
    exact swept_single ((((swept_target h target).append (swept_expr h iter)).append
      (swept_body h body)).append (swept_body h orelse))
  | tryBlock body handlers orelse finalbody =>
    exact swept_single ((((swept_body h body).append (swept_handlers h handlers)).append
      (swept_body h orelse)).append (swept_body h finalbody))
  | withBlock items body => exact swept_single ((Swept.text items).append (swept_body h body))
  | functionDef _ params returns body decorators =>
    have hreturns :
        Swept k ((returns.map keptWords).getD []) ((returns.map keptWords).getD []) := by
      cases returns with
      | none => exact .nil
      | some text => exact .text text
    exact swept_single ((((swept_exprs h decorators).append (.text params)).append hreturns).append
      (swept_body h body))
  | classDef _ bases keywords body decorators =>
    exact swept_single ((((swept_exprs h decorators).append (swept_exprs h bases)).append
      (swept_keywords h keywords)).append (swept_body h body))
  | verbatim text => exact swept_single (.text text)

/-- No read of the name is left in a program. -/
theorem swept_body (h : ns.Sweeps k) (m : List Stmt) :
    Swept k (Stmt.referencesList m) (Stmt.referencesList (ns.cleanup.onBody m)) := by
  cases m with
  | nil => exact .nil
  | cons s rest =>
    have hs := (swept_stmt h s).append (swept_body h rest)
    rw [← referencesList_append] at hs
    exact hs

theorem swept_handler (h : ns.Sweeps k) (handler : Handler) :
    Swept k handler.references (ns.cleanup.onHandler handler).references := by
  obtain ⟨type, _, body⟩ := handler
  exact (swept_option h type).append (swept_body h body)

theorem swept_handlers (h : ns.Sweeps k) (handlers : List Handler) :
    Swept k (Handler.referencesList handlers)
      (Handler.referencesList (ns.cleanup.onHandlers handlers)) := by
  cases handlers with
  | nil => exact .nil
  | cons handler rest => exact (swept_handler h handler).append (swept_handlers h rest)

end

/-- No read of the name is left in a program that is cleaned, and what it keeps as written stays. -/
theorem swept_clean (h : ns.Sweeps k) (m : Module) :
    Swept k m.references (m.clean ns).references := swept_body h m

end Namespace

end NameCleanup

/-- Nothing that is not known is ever made. -/
theorem Mock.known_lasting : Mock.Lasting Mock.Known where
  constant _ := known_ofValue
  unary _ _ := known_ofValue
  binary _ _ _ _ := known_ofValue
  list _ := known_ofValue
  slice _ _ := known_ofValue
  index _ _ := known_ofValue
  base := known_ofBaseName?
  getter _ := fun _ => nofun
  member _ := known_getAttr
  call _ _ _ := known_call

namespace Session

variable {k : String} {s : Session} {m : Module}

/-- A name that a run has bound, and that is not one of those that known objects are written with:
the cleaned program reads it nowhere, and it refers to it if and only if the folded program has it
in what it keeps as written. -/
theorem refersTo_iff_kept (hbase : Mock.ofBaseName? k = none)
    (hmodelled : k ≠ Builtin.unhexlify.name) (hignored : k ≠ "_") (hknown : s.Binds Mock.Known)
    (hbound : ((s.transform m).2.names.local? k).isSome) :
    let folded := (s.transform m).1
    let cleaned := folded.clean (s.transform m).2.names
    .read k ∉ cleaned.references ∧ (cleaned.RefersTo k ↔ .kept k ∈ folded.references) := by
  intro folded cleaned
  have hsweeps : (s.transform m).2.names.Sweeps k :=
    ⟨⟨hbase, hmodelled⟩, hignored, hbound, transform_binds Mock.known_lasting hknown m⟩
  have hswept : Swept k folded.references cleaned.references := Namespace.swept_clean hsweeps folded
  exact ⟨hswept.read, hswept.refersTo⟩

/-- `f(k)` and then `globals()['k'] = 1`: the read before the assignment is replaced too. -/
theorem read_before_binding_replaced :
    let s := Session.start .empty
    let m : Module := [.expr (.apply (.name "f") [.name "k"]),
      .assign [.subscript (.apply (.name "globals") []) (.str "k")] (.int 1)]
    Mock.ofBaseName? "k" = none ∧ "k" ≠ Builtin.unhexlify.name ∧ "k" ≠ "_" ∧
      s.Binds Mock.Known ∧ ((s.transform m).2.names.local? "k").isSome ∧
      ¬ ((s.transform m).1.clean (s.transform m).2.names).RefersTo "k" := by
  intro s m
  have hbase : Mock.ofBaseName? "k" = none := by decide
  have hmodelled : "k" ≠ Builtin.unhexlify.name := by decide
  have hignored : "k" ≠ "_" := by decide
  have hknown : s.Binds Mock.Known := fun _ _ => nofun
  have hbound : ((s.transform m).2.names.local? "k").isSome := rfl
  have hkept : Reference.kept "k" ∉ (s.transform m).1.references := by
    show Reference.kept "k" ∉ [Reference.read "f", .read "k"]
    decide
  exact ⟨hbase, hmodelled, hignored, hknown, hbound,
    mt (refersTo_iff_kept hbase hmodelled hignored hknown hbound).2.mp hkept⟩

/-- `globals()['k'] = 1` and then `print(f'{k}')`: the assignment vanishes and `k` dangles in the
text of the literal. -/
theorem literal_dangles :
    let s := Session.start .empty
    let m : Module := [.assign [.subscript (.apply (.name "globals") []) (.str "k")] (.int 1),
      .expr (.apply (.name "print") [.verbatim "f'\x7bk\x7d'"])]
    let cleaned := (s.transform m).1.clean (s.transform m).2.names
    ((s.transform m).2.names.local? "k").isSome ∧
      cleaned = [.expr (.apply (.name "print") [.verbatim "f'\x7bk\x7d'"])] ∧
      cleaned.RefersTo "k" := by
  refine ⟨rfl, rfl, .kept "k", ?_, rfl⟩
  show Reference.kept "k" ∈ [Reference.read "print"] ++ (keptWords "f'\x7bk\x7d'" ++ []) ++ [] ++ []
  decide

end Session

end Unmask
