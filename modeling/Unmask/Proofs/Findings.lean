import Unmask.Proofs.Courses

/-!
# What sessions find

Resolving an expression reads only the names of a session, and only programs bind names. So what is
found for an expression depends on the names alone, and the parts of an expression are found as they
are found by themselves.
-/
namespace Unmask.Resolving

variable {α β : Type} {ns : Namespace} {a b : α}

/-- With these names bound, a computation has this result and leaves the names as they are. -/
def Finds (ns : Namespace) (x : Resolving α) (a : α) : Prop :=
  ∀ s : Session, s.names = ns → (x.run s).1 = a ∧ (x.run s).2.names = ns

lemma Finds.unique {x : Resolving α} (ha : Finds ns x a) (hb : Finds ns x b) : a = b :=
  (ha (.start ns) rfl).1.symm.trans (hb (.start ns) rfl).1

lemma Finds.pure (a : α) : Finds ns (Pure.pure a) a := fun _ hs => ⟨rfl, hs⟩

lemma Finds.of_eq {x : Resolving α} (h : x = Pure.pure a) : Finds ns x a := h ▸ .pure a

lemma Finds.bind {x : Resolving α} {f : α → Resolving β} {b : β} (hx : Finds ns x a)
    (hf : Finds ns (f a) b) : Finds ns (x >>= f) b := by
  intro s hs
  obtain ⟨hresult, hnames⟩ := hx s hs
  have hrun : (x >>= f).run s = (f a).run (x.run s).2 := by
    rw [← hresult]
    rfl
  rw [hrun]
  exact hf _ hnames

lemma Finds.record (error : MockError) (node : Resolved) :
    Finds ns (Resolving.record error node) () := fun _ hs => ⟨rfl, hs⟩

lemma Finds.recorded (error : MockError) (node : Resolved) (a : α) :
    Finds ns (Resolving.record error node >>= fun _ => Pure.pure a) a :=
  (Finds.record error node).bind (.pure a)

/-- Of a session only its names matter. -/
lemma Finds.reading {f : Session → Resolving β} {b : β}
    (hf : ∀ s t, s.names = t.names → f s = f t) (h : Finds ns (f (.start ns)) b) :
    Finds ns (get >>= f) b := by
  intro s hs
  have hrun : (get >>= f).run s = (f (.start ns)).run s := by
    rw [← hf s (.start ns) hs]
    rfl
  rw [hrun]
  exact h s hs

lemma Finds.deeper {x : Resolving α} (hx : Finds ns x a) : Finds ns (deeper x) a :=
  fun s hs => hx { s with depth := s.depth + 1, descents := s.descents ++ [s.depth + 1] } hs

/-- To find something is kept as computations are put together. -/
lemma finding (ns : Namespace) : Closed fun x => ∃ a, Finds ns x a where
  pure a := ⟨a, .pure a⟩
  bind := by
    rintro _ _ x f ⟨a, hx⟩ hf
    obtain ⟨b, hb⟩ := hf a
    exact ⟨b, hx.bind hb⟩
  record error node := ⟨(), .record error node⟩
  reading hf h := by
    obtain ⟨b, hb⟩ := h (.start ns)
    exact ⟨b, .reading hf hb⟩

end Unmask.Resolving

namespace Unmask.Resolve
open Resolving

/-- Something is found wherever so many texts can be run within each other. -/
lemma followed (ns : Namespace) (n : Nat) :
    Followed (fun x => ∃ a, Finds ns x a) (expansion n) := by
  induction n with
  | zero => exact ⟨finding ns, nofun⟩
  | succ n ih =>
    refine ⟨finding ns, ?_⟩
    rintro x ⟨⟩ e
    obtain ⟨r, hr⟩ := expr_holds ih e
    exact ⟨r, hr.deeper⟩

end Unmask.Resolve

namespace Unmask.Session
open Resolving Resolve

/-- What a session finds for an expression. -/
def found (s : Session) (e : Expr) : Resolved := (s.resolve e).1

/-- How a session follows code within code. -/
abbrev reach (s : Session) : Option Expansion := expansion (maxNesting - s.depth)

variable (s : Session)

lemma finds_found (e : Expr) : Finds s.names (expr s.reach e) (s.found e) := by
  obtain ⟨r, hr⟩ := expr_holds (followed s.names (maxNesting - s.depth)) e
  have hfound : s.found e = r := by
    rw [found, resolve_eq_run]
    exact (hr s rfl).1
  rwa [hfound]

/-- What is found is what the computation has as its result. -/
lemma found_eq {s : Session} {e : Expr} {r : Resolved} (h : Finds s.names (expr s.reach e) r) :
    s.found e = r :=
  (s.finds_found e).unique h

lemma finds_exprs (es : List Expr) : Finds s.names (exprs s.reach es) (es.map s.found) := by
  induction es with
  | nil => exact .pure []
  | cons e rest ih =>
    rw [exprs]
    exact (s.finds_found e).bind (ih.bind (.pure _))

/-- A keyword argument with what is found for it. -/
def foundNamed (k : Keyword) : NamedArgument := (k.arg, s.found k.value)

lemma finds_namedArgument (k : Keyword) :
    Finds s.names (namedArgument s.reach k) (s.foundNamed k) := by
  obtain ⟨arg, value⟩ := k
  rw [namedArgument]
  exact (s.finds_found value).bind (.pure (arg, s.found value))

lemma finds_namedArguments (ks : List Keyword) :
    Finds s.names (namedArguments s.reach ks) (ks.map s.foundNamed) := by
  induction ks with
  | nil => exact .pure []
  | cons k rest ih =>
    rw [namedArguments]
    exact (s.finds_namedArgument k).bind (ih.bind (.pure _))

lemma finds_option (o : Option Expr) : Finds s.names (option s.reach o) (o.map s.found) := by
  cases o with
  | none => exact .pure none
  | some e =>
    rw [option]
    exact (s.finds_found e).bind (.pure _)

variable {s} {r : Resolved}

lemma found_unary {op : UnaryOp} {operand : Expr}
    (h : Finds s.names (unary op (s.found operand)) r) : s.found (.unary op operand) = r := by
  refine found_eq ?_
  rw [expr]
  exact (s.finds_found operand).bind h

lemma found_binary {left right : Expr} {op : BinaryOp}
    (h : Finds s.names (binary (s.found left) op (s.found right)) r) :
    s.found (.binary left op right) = r := by
  refine found_eq ?_
  rw [expr]
  exact (s.finds_found left).bind ((s.finds_found right).bind h)

lemma found_bool (op : BoolOp) (values : List Expr) :
    s.found (.bool op values) = chain op (values.map s.found) := by
  refine found_eq ?_
  rw [expr]
  exact (s.finds_exprs values).bind (.pure _)

lemma found_list (items : List Expr) : s.found (.list items) = list (items.map s.found) := by
  refine found_eq ?_
  rw [expr]
  exact (s.finds_exprs items).bind (.pure _)

lemma found_slice {value : Expr} {lower upper step : Option Expr}
    (h : Finds s.names (slice (s.found value) (lower.map s.found) (upper.map s.found)
      (step.map s.found)) r) : s.found (.subscript value (.slice lower upper step)) = r := by
  refine found_eq ?_
  rw [expr]
  exact (s.finds_found value).bind ((s.finds_option lower).bind ((s.finds_option upper).bind
    ((s.finds_option step).bind h)))

lemma found_bounds (s : Session) (lower upper step : Option Expr) :
    ∃ r, s.found (.slice lower upper step) = .expr r := by
  refine ⟨.slice ((lower.map s.found).map Resolved.toExpr) ((upper.map s.found).map Resolved.toExpr)
    ((step.map s.found).map Resolved.toExpr), found_eq ?_⟩
  rw [expr]
  exact (s.finds_option lower).bind ((s.finds_option upper).bind ((s.finds_option step).bind
    (.pure _)))

lemma found_subscript {value key : Expr} (hkey : ∀ lower upper step, key ≠ .slice lower upper step)
    (h : Finds s.names (subscript (s.found value) (s.found key)) r) :
    s.found (.subscript value key) = r := by
  refine found_eq ?_
  rw [expr_subscript hkey]
  exact (s.finds_found value).bind ((s.finds_found key).bind h)

lemma found_call {func : Expr} {args : List Expr} {keywords : List Keyword}
    (h : Finds s.names
      (call s.reach (s.found func) (args.map s.found) (keywords.map s.foundNamed)) r) :
    s.found (.call func args keywords) = r := by
  refine found_eq ?_
  rw [expr]
  exact (s.finds_found func).bind ((s.finds_exprs args).bind
    ((s.finds_namedArguments keywords).bind h))

/-- An item of a known object under a known key. -/
lemma finds_subscript (ns : Namespace) (m index : Mock) :
    Finds ns (subscript (.mock m) (.mock index))
      (match item m index ns with
        | .ok found => .mock found
        | .error _ => .expr (.subscript m.revert index.revert)) := by
  unfold subscript
  refine .reading (fun s t h => by rw [h]) ?_
  show Finds ns (match item m index ns with
    | .ok found => pure (Resolved.mock found)
    | .error error => do
      Resolving.record error (.mock m)
      pure (.expr (.subscript m.revert index.revert))) _
  split
  · exact .pure _
  · exact .recorded _ _ _

/-- A call of a known object on known arguments finds what it gives, or nothing. -/
lemma finds_callKnown (ns : Namespace) (m : Mock) (a : Arguments) (callee : Resolved)
    (residual : Expr) :
    ∃ r, Finds ns (callKnown m a callee residual) r ∧
      ∀ result, r = .mock result ↔ m.call a = .ok (some result) := by
  unfold callKnown
  cases m.call a with
  | error error => exact ⟨.expr residual, .recorded _ _ _, fun _ => ⟨nofun, nofun⟩⟩
  | ok given =>
    cases given with
    | none => exact ⟨.expr residual, .pure _, fun _ => ⟨nofun, nofun⟩⟩
    | some given => exact ⟨.mock given, .pure _, fun _ => by simp⟩

end Unmask.Session
