import Unmask.Proofs.CallFolding
import Unmask.Proofs.Running

/-!
# Courses of sessions

What is said of computations on sessions and is kept as they are put together holds of whatever is
resolved, if it holds of the expansions; programs may bind names besides. A course is a relation
between sessions that a run can only follow: it holds between a session and itself, it can be put
together, and noting an issue follows it. To follow a course is kept in this way.
-/
namespace Unmask.Resolving

variable {α β : Type}

/-- A property of computations that is kept as they are put together, where of a session only its
names are read. -/
structure Closed (P : ∀ {α : Type}, Resolving α → Prop) : Prop where
  pure : ∀ {α : Type} (a : α), P (Pure.pure a)
  bind : ∀ {α β : Type} {x : Resolving α} {f : α → Resolving β},
    P x → (∀ a, P (f a)) → P (x >>= f)
  record : ∀ error node, P (Resolving.record error node)
  reading : ∀ {β : Type} {f : Session → Resolving β}, (∀ s t, s.names = t.names → f s = f t) →
    (∀ s, P (f s)) → P (get >>= f)

/-- What can be said of computations, whatever their results. -/
def Closed.judgement {P : ∀ {α : Type}, Resolving α → Prop} (hP : Closed P) :
    Judgement Resolving where
  Holds x _ := P x
  pure _ := hP.pure _
  bind := hP.bind

/-- Noting an issue before a result. -/
theorem Closed.recorded {P : ∀ {α : Type}, Resolving α → Prop} (hP : Closed P) (error : MockError)
    (node : Resolved) (a : α) : P (Resolving.record error node >>= fun _ => Pure.pure a) :=
  hP.bind (hP.record error node) fun _ => hP.pure a

variable {R : Session → Session → Prop}

/-- A relation that a run can only follow. -/
structure Course (R : Session → Session → Prop) : Prop where
  refl : ∀ s, R s s
  trans : ∀ s t u, R s t → R t u → R s u
  record : ∀ s issue, R s { s with issues := s.issues ++ [issue] }

/-- A computation moves every session along a relation. -/
def Along (R : Session → Session → Prop) (x : Resolving α) : Prop := ∀ s, R s (x.run s).2

theorem Along.pure (hR : Course R) (a : α) : Along R (Pure.pure a) := fun s => hR.refl s

theorem Along.bind {x : Resolving α} {f : α → Resolving β} (hR : Course R) (hx : Along R x)
    (hf : ∀ a, Along R (f a)) : Along R (x >>= f) :=
  fun s => hR.trans _ _ _ (hx s) (hf _ _)

theorem Along.reading {f : Session → Resolving β} (hf : ∀ t, Along R (f t)) :
    Along R (get >>= f) :=
  fun s => hf s s

/-- To follow a course is kept. -/
theorem Course.closed (hR : Course R) : Closed (Along R ·) where
  pure := .pure hR
  bind := .bind hR
  record _ _ s := hR.record s _
  reading _ := .reading

theorem Along.recorded (hR : Course R) (error : MockError) (node : Resolved) (a : α) :
    Along R (Resolving.record error node >>= fun _ => Pure.pure a) :=
  hR.closed.recorded error node a

/-- A computation does the same in sessions that are related, and leaves them related. -/
def Respects (R : Session → Session → Prop) (x : Resolving α) : Prop :=
  ∀ s t, R s t → (x.run s).1 = (x.run t).1 ∧ R (x.run s).2 (x.run t).2

/-- To respect a relation is kept if the names are the same in related sessions. -/
theorem respects_closed (hnames : ∀ s t, R s t → s.names = t.names)
    (hrecord : ∀ s t issue, R s t →
      R { s with issues := s.issues ++ [issue] } { t with issues := t.issues ++ [issue] }) :
    Closed (Respects R ·) where
  pure a s t h := ⟨rfl, h⟩
  bind := by
    intro α β x f hx hf s t h
    obtain ⟨hvalue, hafter⟩ := hx s t h
    have hs : (x >>= f).run s = (f (x.run s).1).run (x.run s).2 := rfl
    have ht : (x >>= f).run t = (f (x.run s).1).run (x.run t).2 := by
      rw [hvalue]
      rfl
    rw [hs, ht]
    exact hf _ _ _ hafter
  record error node s t h := ⟨rfl, hrecord s t _ h⟩
  reading := by
    intro β f hf hrespects s t h
    have hs : (get >>= f).run s = (f s).run s := rfl
    have ht : (get >>= f).run t = (f s).run t := by
      rw [hf s t (hnames s t h)]
      rfl
    rw [hs, ht]
    exact hrespects s s t h

end Unmask.Resolving

namespace Unmask.Resolve
open Resolving

variable {P : ∀ {α : Type}, Resolving α → Prop} {within : Option Expansion}

lemma name_holds (hP : Closed P) (id : String) : P (name id) := by
  unfold name
  refine hP.reading (fun s t h => by rw [h]) fun t => ?_
  split
  · exact hP.pure _
  · exact hP.pure _

lemma unary_holds (hP : Closed P) (op : UnaryOp) (r : Resolved) : P (unary op r) := by
  unfold unary
  split
  · exact hP.pure _
  · split
    · exact hP.pure _
    · exact hP.recorded _ _ _

lemma binary_holds (hP : Closed P) (l : Resolved) (op : BinaryOp) (r : Resolved) :
    P (binary l op r) := by
  unfold binary
  split
  · split
    · split
      · exact hP.pure _
      · exact hP.recorded _ _ _
    · exact hP.pure _
  · exact hP.pure _

lemma member_holds (hP : Closed P) (object : Resolved) (attr : String) :
    P (member object attr) := by
  unfold member
  split
  · exact hP.pure _
  · split
    · exact hP.pure _
    · exact hP.recorded _ _ _

lemma slice_holds (hP : Closed P) (object : Resolved) (lower upper step : Option Resolved) :
    P (slice object lower upper step) := by
  unfold slice
  split
  · split
    · exact hP.pure _
    · exact hP.recorded _ _ _
  · exact hP.pure _

lemma subscript_holds (hP : Closed P) (object key : Resolved) :
    P (subscript object key) := by
  unfold subscript
  split
  · refine hP.reading (fun s t h => by rw [h]) fun t => ?_
    split
    · exact hP.pure _
    · exact hP.recorded _ _ _
  · exact hP.pure _

lemma callKnown_holds (hP : Closed P) (m : Mock) (a : Arguments) (callee : Resolved)
    (residual : Expr) : P (callKnown m a callee residual) := by
  unfold callKnown
  split
  · exact hP.pure _
  · exact hP.pure _
  · exact hP.recorded _ _ _

section Expressions

/-- A kept property that expansions of expressions have too. -/
structure Followed (P : ∀ {α : Type}, Resolving α → Prop) (within : Option Expansion) : Prop where
  closed : Closed P
  expand : ∀ x ∈ within, ∀ e, P (deeper (x.expr e))

variable (h : Followed P within)
include h

lemma expandEval_holds (source : String) : P (expandEval within source) := by
  have hP := h.closed
  unfold expandEval
  split
  · exact hP.pure _
  · next x =>
    split
    · exact hP.pure _
    · exact hP.bind (h.expand x rfl _) fun _ => hP.pure _

lemma callEval_holds (source : String) (callee : Resolved) (residual : Expr) :
    P (callEval within source callee residual) := by
  have hP := h.closed
  unfold callEval
  refine hP.bind (expandEval_holds h source) fun r => ?_
  split
  · exact hP.pure _
  · exact hP.recorded _ _ _

lemma call_holds (callee : Resolved) (args : List Resolved) (named : List NamedArgument) :
    P (call within callee args named) := by
  have hP := h.closed
  unfold call
  split
  · exact hP.pure _
  · dsimp only
    split
    · exact callEval_holds h _ _ _
    · split
      · exact hP.recorded _ _ _
      · split
        · exact callKnown_holds hP _ _ _ _
        · exact hP.pure _

mutual

/-- Resolving an expression has every kept property that expansions have. -/
theorem expr_holds (e : Expr) : P (expr within e) := by
  have hP := h.closed
  cases e with
  | constant c => exact hP.pure _
  | name id => exact name_holds hP id
  | subscript value key =>
    cases key with
    | slice lower upper step =>
      rw [expr]
      have ihvalue := expr_holds value
      have ihlower := option_holds lower
      have ihupper := option_holds upper
      have ihstep := option_holds step
      exact hP.bind ihvalue fun _ => hP.bind ihlower fun _ =>
        hP.bind ihupper fun _ => hP.bind ihstep fun _ =>
          slice_holds hP _ _ _ _
    | _ =>
      have ihvalue := expr_holds value
      rw [expr_subscript]
      · exact hP.bind ihvalue fun _ => hP.bind (expr_holds _) fun _ =>
          subscript_holds hP _ _
      · nofun
  | unary op operand =>
    rw [expr]
    have ihoperand := expr_holds operand
    exact hP.bind ihoperand fun _ => unary_holds hP _ _
  | binary left op right =>
    rw [expr]
    have ihleft := expr_holds left
    have ihright := expr_holds right
    exact hP.bind ihleft fun _ => hP.bind ihright fun _ =>
      binary_holds hP _ _ _
  | bool op values =>
    rw [expr]
    have ihvalues := exprs_holds values
    exact hP.bind ihvalues fun _ => hP.pure _
  | «attribute» value attr =>
    rw [expr]
    have ihvalue := expr_holds value
    exact hP.bind ihvalue fun _ => member_holds hP _ _
  | call func args keywords =>
    rw [expr]
    have ihfunc := expr_holds func
    have ihargs := exprs_holds args
    have ihkeywords := namedArguments_holds keywords
    exact hP.bind ihfunc fun _ => hP.bind ihargs fun _ =>
      hP.bind ihkeywords fun _ => call_holds h _ _ _
  | list items | tuple items | «set» items =>
    rw [expr]
    have ihitems := exprs_holds items
    exact hP.bind ihitems fun _ => hP.pure _
  | lambda params body =>
    rw [expr]
    have ihbody := expr_holds body
    exact hP.bind ihbody fun _ => hP.pure _
  | slice lower upper step =>
    rw [expr]
    have ihlower := option_holds lower
    have ihupper := option_holds upper
    have ihstep := option_holds step
    exact hP.bind ihlower fun _ => hP.bind ihupper fun _ =>
      hP.bind ihstep fun _ => hP.pure _
  | compare left ops comparators =>
    rw [expr]
    have ihleft := expr_holds left
    have ihcomparators := exprs_holds comparators
    exact hP.bind ihleft fun _ => hP.bind ihcomparators fun _ =>
      hP.pure _
  | conditional test body orelse =>
    rw [expr]
    have ihtest := expr_holds test
    have ihbody := expr_holds body
    have ihorelse := expr_holds orelse
    exact hP.bind ihtest fun _ => hP.bind ihbody fun _ =>
      hP.bind ihorelse fun _ => hP.pure _
  | named _ value | starred value | await value =>
    rw [expr]
    have ihvalue := expr_holds value
    exact hP.bind ihvalue fun _ => hP.pure _
  | dict keys values =>
    rw [expr]
    have ihkeys := options_holds keys
    have ihvalues := exprs_holds values
    exact hP.bind ihkeys fun _ => hP.bind ihvalues fun _ =>
      hP.pure _
  | listComp elt generators | setComp elt generators | generator elt generators =>
    rw [expr]
    have ihgenerators := comprehensions_holds generators
    have ihelt := expr_holds elt
    exact hP.bind ihgenerators fun _ => hP.bind ihelt fun _ =>
      hP.pure _
  | dictComp key value generators =>
    rw [expr]
    have ihgenerators := comprehensions_holds generators
    have ihkey := expr_holds key
    have ihvalue := expr_holds value
    exact hP.bind ihgenerators fun _ => hP.bind ihkey fun _ =>
      hP.bind ihvalue fun _ => hP.pure _
  | verbatim text => exact hP.pure _

theorem option_holds (o : Option Expr) : P (option within o) := by
  have hP := h.closed
  cases o with
  | none => exact hP.pure _
  | some e =>
    rw [option]
    exact hP.bind (expr_holds e) fun _ => hP.pure _

theorem options_holds (os : List (Option Expr)) : P (options within os) := by
  have hP := h.closed
  cases os with
  | nil => exact hP.pure _
  | cons o rest =>
    rw [options]
    exact hP.bind (option_holds o) fun _ => hP.bind (options_holds rest) fun _ => hP.pure _

theorem exprs_holds (es : List Expr) : P (exprs within es) := by
  have hP := h.closed
  cases es with
  | nil => exact hP.pure _
  | cons e rest =>
    rw [exprs]
    exact hP.bind (expr_holds e) fun _ => hP.bind (exprs_holds rest) fun _ => hP.pure _

theorem namedArgument_holds (k : Keyword) : P (namedArgument within k) := by
  have hP := h.closed
  obtain ⟨arg, value⟩ := k
  rw [namedArgument]
  exact hP.bind (expr_holds value) fun _ => hP.pure _

theorem namedArguments_holds (ks : List Keyword) : P (namedArguments within ks) := by
  have hP := h.closed
  cases ks with
  | nil => exact hP.pure _
  | cons k rest =>
    rw [namedArguments]
    exact hP.bind (namedArgument_holds k) fun _ => hP.bind (namedArguments_holds rest) fun _ =>
      hP.pure _

theorem target_holds (goal : Expr) : P (target within goal) := by
  have hP := h.closed
  cases goal with
  | tuple items | list items =>
    rw [target]
    exact hP.bind (targets_holds items) fun _ => hP.pure _
  | starred value =>
    rw [target]
    exact hP.bind (target_holds value) fun _ => hP.pure _
  | subscript value slice =>
    rw [target]
    exact hP.bind (expr_holds value) fun _ => hP.bind (expr_holds slice) fun _ => hP.pure _
  | «attribute» value attr =>
    rw [target]
    exact hP.bind (expr_holds value) fun _ => hP.pure _
  | _ => exact hP.pure _

theorem targets_holds (goals : List Expr) : P (targets within goals) := by
  have hP := h.closed
  cases goals with
  | nil => exact hP.pure _
  | cons goal rest =>
    rw [targets]
    exact hP.bind (target_holds goal) fun _ => hP.bind (targets_holds rest) fun _ => hP.pure _

theorem comprehension_holds (g : Comprehension) : P (comprehension within g) := by
  have hP := h.closed
  obtain ⟨goal, iter, ifs, isAsync⟩ := g
  rw [comprehension]
  exact hP.bind (expr_holds iter) fun _ => hP.bind (target_holds goal) fun _ =>
    hP.bind (exprs_holds ifs) fun _ => hP.pure _

theorem comprehensions_holds (gs : List Comprehension) :
    P (comprehensions within gs) := by
  have hP := h.closed
  cases gs with
  | nil => exact hP.pure _
  | cons g rest =>
    rw [comprehensions]
    exact hP.bind (comprehension_holds g) fun _ => hP.bind (comprehensions_holds rest) fun _ =>
      hP.pure _

end

end Expressions

section Programs

/-- A kept property of programs: expansions of programs have it, and binding a name does. -/
structure Run (P : ∀ {α : Type}, Resolving α → Prop) (within : Option Expansion) : Prop
    extends Followed P within where
  expandBody : ∀ x ∈ within, ∀ m, P (deeper (x.body m))
  binding : ∀ name m, P (Resolving.bind name m)

variable (h : Run P within)
include h

lemma onExpr_holds (e : Expr) : P ((fold within).onExpr e) := by
  rw [onExpr_fold]
  exact h.closed.bind (expr_holds h.toFollowed e) fun _ => h.closed.pure _

lemma expandExec_holds (source : String) : P (expandExec within source) := by
  have hP := h.closed
  unfold expandExec
  split
  · exact hP.pure _
  · next x =>
    split
    · exact hP.pure _
    · exact hP.bind (h.expandBody x rfl _) fun _ => hP.pure _

lemma callStatement_holds (func : Expr) (args : List Expr) (keywords : List Keyword) :
    P (callStatement within func args keywords) := by
  have hP := h.closed
  have hF := h.toFollowed
  unfold callStatement
  refine hP.bind (expr_holds hF func) fun callee => ?_
  refine hP.bind (exprs_holds hF args) fun args => ?_
  refine hP.bind (namedArguments_holds hF keywords) fun named => ?_
  split
  · exact hP.bind (call_holds hF _ _ _) fun _ => hP.pure _
  · refine hP.bind (expandExec_holds h _) fun r => ?_
    split
    · exact hP.pure _
    · exact hP.recorded _ _ _

/-- The end of an assignment to an item. -/
def store (container key stored : Resolved) : Resolving (List Stmt) :=
  match binding? container key stored with
  | some (name, m) => do
    Resolving.bind name m
    return []
  | none => return [.assign [.subscript container.toExpr key.toExpr] stored.toExpr]

lemma store_holds (container key stored : Resolved) : P (store container key stored) := by
  have hP := h.closed
  unfold store
  split
  · next name m _ => exact hP.bind (h.binding name m) fun _ => hP.pure _
  · exact hP.pure _

lemma assignStatement_holds (goal value : Expr) : P (assignStatement within goal value) := by
  have hP := h.closed
  have hF := h.toFollowed
  unfold assignStatement
  refine hP.bind (expr_holds hF value) fun stored => ?_
  split
  · next container key =>
    exact hP.bind (expr_holds hF container) fun container =>
      hP.bind (expr_holds hF key) fun key => store_holds h container key stored
  · exact hP.bind (target_holds hF goal) fun _ => hP.pure _

/-- What its parts have, a statement has. -/
lemma stmt_holds (s : Stmt) {walk : Resolving Stmt} (hwalk : P walk) :
    P ((fold within).stmt s walk) := by
  have hP := h.closed
  simp only [fold]
  split
  · exact callStatement_holds h _ _ _
  · exact assignStatement_holds h _ _
  · exact hP.bind hwalk fun _ => hP.pure _

/-- The walk through a program does not look at calls here. -/
lemma fold_holds :
    (fold within).Keeps h.closed.judgement.thread (fun _ _ => ()) "" fun _ e => e where
  expr _ := onExpr_holds h
  stmt _ s _ := stmt_holds h s
  afterStmt _ _ _ hs := hs
  afterBody _ _ _ hbody := hbody

/-- Resolving a program has every kept property that expansions and bindings have. -/
theorem onBody_holds (m : List Stmt) : P ((fold within).onBody m) :=
  (fold_holds h).onBody () m

end Programs

end Unmask.Resolve
