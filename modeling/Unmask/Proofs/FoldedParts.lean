import Mathlib.Data.List.Forall2
import Unmask.Proofs.ConstantBindings

/-!
# Folding where no name is bound

Folding an expression leaves the bindings as they are, so where no name is bound each part of an
expression is folded by itself, and then the node, if it is one that is reduced.
-/
namespace Unmask.BlankObf
open ConstantBindings (Leaves leaves_linking)

variable {n : Nat} {α β : Type}

/-- With no name bound, a computation gives a result and binds no name. -/
def Yields (x : StateT Bindings Option α) (a : α) : Prop := x.run [] = some (a, [])

/-- With no name bound, an expression is folded to another. -/
def Folds (n : Nat) (e l : Expr) : Prop := Yields ((folder n).onExpr e) l

lemma Yields.of_bind {x : StateT Bindings Option α} {f : α → StateT Bindings Option β} {b : β}
    (hx : Leaves x) (h : Yields (x >>= f) b) : ∃ a, Yields x a ∧ Yields (f a) b := by
  rw [Yields, StateT.run_bind] at h
  obtain ⟨⟨a, bindings⟩, hfirst, hrest⟩ := Option.bind_eq_some_iff.mp h
  obtain rfl : bindings = [] := hx [] _ hfirst
  exact ⟨a, hfirst, hrest⟩

lemma Yields.of_pure {a b : α} (h : Yields (pure a) b) : b = a := by
  cases h
  rfl

lemma leaves_pure (a : α) : Leaves (pure a : StateT Bindings Option α) := leaves_linking.pure a

lemma leaves_bind {x : StateT Bindings Option α} {f : α → StateT Bindings Option β}
    (hx : Leaves x) (hf : ∀ a, Leaves (f a)) : Leaves (x >>= f) :=
  leaves_linking.bind (y := x) (g := f) hx hf

lemma linked_leaves (n : Nat) :
    (folder n).LinkedExprs (folder n) (fun x _ => Leaves x) := by
  cases n with
  | zero =>
    exact folding_linkedExprs leaves_linking ConstantBindings.leaves_get
      fun _ => ConstantBindings.leaves_failure
  | succ n =>
    exact folding_linkedExprs leaves_linking ConstantBindings.leaves_get
      (ConstantBindings.onExpr_leaves n)

lemma Folds.exprs {es ls : List Expr} (h : Yields ((folder n).onExprs es) ls) :
    List.Forall₂ (Folds n) es ls := by
  induction es generalizing ls with
  | nil =>
    obtain rfl := h.of_pure
    exact .nil
  | cons e rest ih =>
    rw [Fold.onExprs] at h
    obtain ⟨l, hl, h⟩ := h.of_bind ((linked_leaves n).onExpr e)
    obtain ⟨ls, hls, h⟩ := h.of_bind ((linked_leaves n).onExprs rest)
    obtain rfl := h.of_pure
    exact .cons hl (ih hls)

lemma Folds.option {o r : Option Expr} (h : Yields ((folder n).onOption o) r) :
    Option.Rel (Folds n) o r := by
  cases o with
  | none =>
    obtain rfl := h.of_pure
    exact .none
  | some e =>
    rw [Fold.onOption] at h
    obtain ⟨l, hl, h⟩ := h.of_bind ((linked_leaves n).onExpr e)
    obtain rfl := h.of_pure
    exact .some hl

/-- What the clauses of a comprehension go through is folded. -/
lemma Folds.iters {gs rs : List Comprehension} (h : Yields ((folder n).onComprehensions gs) rs) :
    List.Forall₂ (fun g r => Folds n g.iter r.iter) gs rs := by
  induction gs generalizing rs with
  | nil =>
    obtain rfl := h.of_pure
    exact .nil
  | cons g rest ih =>
    obtain ⟨goal, iter, ifs, isAsync⟩ := g
    rw [Fold.onComprehensions] at h
    obtain ⟨r, hr, h⟩ := h.of_bind ((linked_leaves n).onComprehension _)
    obtain ⟨rs, hrs, h⟩ := h.of_bind ((linked_leaves n).onComprehensions rest)
    obtain rfl := h.of_pure
    rw [Fold.onComprehension] at hr
    obtain ⟨l, hl, hr⟩ := hr.of_bind ((linked_leaves n).onExpr iter)
    obtain ⟨goal', -, hr⟩ := hr.of_bind ((linked_leaves n).onTarget goal)
    obtain ⟨ifs', -, hr⟩ := hr.of_bind ((linked_leaves n).onExprs ifs)
    obtain rfl := hr.of_pure
    exact .cons hl (ih hrs)

/-- No keywords come from none, and some from some. -/
lemma keywords_nil {ks : List Keyword} (h : Yields ((folder n).onKeywords ks) []) : ks = [] := by
  cases ks with
  | nil => rfl
  | cons k rest =>
    rw [Fold.onKeywords] at h
    obtain ⟨_, -, h⟩ := h.of_bind ((linked_leaves n).onKeyword k)
    obtain ⟨_, -, h⟩ := h.of_bind ((linked_leaves n).onKeywords rest)
    cases h.of_pure

/-- A node with its parts folded, reduced if it can be. -/
def reduced (e : Expr) : Expr := (reduce? e).getD e

/-- The parts of a node are folded, and then the node. -/
lemma Yields.node {e l : Expr} {walk : StateT Bindings Option Expr} (hwalk : Leaves walk)
    (h : Yields ((folder n).expr e walk) l) :
    ∃ parts, Yields walk parts ∧ (evaluated? parts = none → l = reduced parts) := by
  have hbound : boundLiteral? [] e = none := by
    cases e <;> rfl
  obtain ⟨nested, hnested⟩ : ∃ nested, (folder n).expr = foldExpr nested := by
    cases n <;> exact ⟨_, rfl⟩
  rw [hnested] at h
  have hrun : Yields (walk >>= foldParts nested) l := by
    simpa [Yields, foldExpr, hbound] using h
  obtain ⟨parts, hparts, h⟩ := hrun.of_bind hwalk
  refine ⟨parts, hparts, fun hevaluated => ?_⟩
  rw [foldParts, hevaluated] at h
  exact h.of_pure

variable {e l : Expr}

lemma Yields.leaf (h : Yields ((folder n).expr e (pure e)) l) (he : evaluated? e = none) :
    l = reduced e := by
  obtain ⟨parts, hparts, hl⟩ := h.node (leaves_pure e)
  obtain rfl := hparts.of_pure
  exact hl he

lemma Yields.one {part : Expr} {make : Expr → Expr}
    (h : Yields ((folder n).expr e (do return make (← (folder n).onExpr part))) l)
    (he : ∀ r, evaluated? (make r) = none) : ∃ r, Folds n part r ∧ l = reduced (make r) := by
  have hpart := (linked_leaves n).onExpr part
  obtain ⟨parts, hparts, hl⟩ := h.node (leaves_bind hpart fun _ => leaves_pure _)
  obtain ⟨r, hr, hparts⟩ := hparts.of_bind hpart
  obtain rfl := hparts.of_pure
  exact ⟨r, hr, hl (he r)⟩

lemma Yields.two {first second : Expr} {make : Expr → Expr → Expr}
    (h : Yields ((folder n).expr e (do
      let r ← (folder n).onExpr first
      return make r (← (folder n).onExpr second))) l)
    (he : ∀ r s, evaluated? (make r s) = none) :
    ∃ r s, Folds n first r ∧ Folds n second s ∧ l = reduced (make r s) := by
  have hfirst := (linked_leaves n).onExpr first
  have hsecond := (linked_leaves n).onExpr second
  obtain ⟨parts, hparts, hl⟩ :=
    h.node (leaves_bind hfirst fun _ => leaves_bind hsecond fun _ => leaves_pure _)
  obtain ⟨r, hr, hparts⟩ := hparts.of_bind hfirst
  obtain ⟨s, hs, hparts⟩ := hparts.of_bind hsecond
  obtain rfl := hparts.of_pure
  exact ⟨r, s, hr, hs, hl (he r s)⟩

lemma Yields.row {items : List Expr} {make : List Expr → Expr}
    (h : Yields ((folder n).expr e (do return make (← (folder n).onExprs items))) l)
    (he : ∀ ls, evaluated? (make ls) = none) :
    ∃ ls, List.Forall₂ (Folds n) items ls ∧ l = reduced (make ls) := by
  have hitems := (linked_leaves n).onExprs items
  obtain ⟨parts, hparts, hl⟩ := h.node (leaves_bind hitems fun _ => leaves_pure _)
  obtain ⟨ls, hls, hparts⟩ := hparts.of_bind hitems
  obtain rfl := hparts.of_pure
  exact ⟨ls, Folds.exprs hls, hl (he ls)⟩

lemma Folds.constant {c : Constant} (h : Folds n (.constant c) l) : l = .constant c := by
  rw [Folds, Fold.onExpr] at h
  exact h.leaf rfl

lemma Folds.name {id : String} (h : Folds n (.name id) l) : l = .name id := by
  rw [Folds, Fold.onExpr] at h
  exact h.leaf rfl

lemma Folds.list {items : List Expr} (h : Folds n (.list items) l) :
    ∃ ls, List.Forall₂ (Folds n) items ls ∧ l = .list ls := by
  rw [Folds, Fold.onExpr] at h
  exact h.row fun _ => rfl

lemma Folds.tuple {items : List Expr} (h : Folds n (.tuple items) l) :
    ∃ ls, List.Forall₂ (Folds n) items ls ∧ l = .tuple ls := by
  rw [Folds, Fold.onExpr] at h
  exact h.row fun _ => rfl

lemma Folds.attribute {object : Expr} {attr : String} (h : Folds n (.attribute object attr) l) :
    ∃ r, Folds n object r ∧ l = .attribute r attr := by
  rw [Folds, Fold.onExpr] at h
  exact h.one fun _ => rfl

lemma Folds.unary {op : UnaryOp} {operand : Expr} (h : Folds n (.unary op operand) l) :
    ∃ r, Folds n operand r ∧ l = reduced (.unary op r) := by
  rw [Folds, Fold.onExpr] at h
  exact h.one fun _ => rfl

lemma Folds.binary {left right : Expr} {op : BinaryOp} (h : Folds n (.binary left op right) l) :
    ∃ r s, Folds n left r ∧ Folds n right s ∧ l = reduced (.binary r op s) := by
  rw [Folds, Fold.onExpr] at h
  exact h.two fun _ _ => rfl

lemma Folds.subscript {value key : Expr} (h : Folds n (.subscript value key) l) :
    ∃ r k, Folds n value r ∧ Folds n key k ∧ l = reduced (.subscript r k) := by
  rw [Folds, Fold.onExpr] at h
  exact h.two fun _ _ => rfl

lemma Folds.slice {lower upper step : Option Expr} (h : Folds n (.slice lower upper step) l) :
    ∃ lo up st, Option.Rel (Folds n) lower lo ∧ Option.Rel (Folds n) upper up ∧
      Option.Rel (Folds n) step st ∧ l = .slice lo up st := by
  rw [Folds, Fold.onExpr] at h
  obtain ⟨parts, hparts, hl⟩ := h.node
    (leaves_bind ((linked_leaves n).onOption lower) fun _ =>
      leaves_bind ((linked_leaves n).onOption upper) fun _ =>
      leaves_bind ((linked_leaves n).onOption step) fun _ => leaves_pure _)
  obtain ⟨lo, hlo, hparts⟩ := hparts.of_bind ((linked_leaves n).onOption lower)
  obtain ⟨up, hup, hparts⟩ := hparts.of_bind ((linked_leaves n).onOption upper)
  obtain ⟨st, hst, hparts⟩ := hparts.of_bind ((linked_leaves n).onOption step)
  obtain rfl := hparts.of_pure
  exact ⟨lo, up, st, Folds.option hlo, Folds.option hup, Folds.option hst, hl rfl⟩

/-- A call of something other than `eval`. -/
lemma Folds.call {func : Expr} {args : List Expr} {keywords : List Keyword}
    (h : Folds n (.call func args keywords) l) (hfunc : ¬Folds n func (.name "eval")) :
    ∃ f as ks, Folds n func f ∧ List.Forall₂ (Folds n) args as ∧ (ks = [] → keywords = []) ∧
      l = reduced (.call f as ks) := by
  rw [Folds, Fold.onExpr] at h
  obtain ⟨parts, hparts, hl⟩ := h.node
    (leaves_bind ((linked_leaves n).onExpr func) fun _ =>
      leaves_bind ((linked_leaves n).onExprs args) fun _ =>
      leaves_bind ((linked_leaves n).onKeywords keywords) fun _ => leaves_pure _)
  obtain ⟨f, hf, hparts⟩ := hparts.of_bind ((linked_leaves n).onExpr func)
  obtain ⟨as, has, hparts⟩ := hparts.of_bind ((linked_leaves n).onExprs args)
  obtain ⟨ks, hks, hparts⟩ := hparts.of_bind ((linked_leaves n).onKeywords keywords)
  obtain rfl := hparts.of_pure
  refine ⟨f, as, ks, hf, Folds.exprs has, fun hnone => keywords_nil (hnone ▸ hks), hl ?_⟩
  unfold evaluated?
  split
  · next heq =>
    cases heq
    exact absurd hf hfunc
  · rfl

lemma Folds.listComp {elt : Expr} {generators : List Comprehension}
    (h : Folds n (.listComp elt generators) l) :
    ∃ e gs, Folds n elt e ∧ List.Forall₂ (fun g r => Folds n g.iter r.iter) generators gs ∧
      l = reduced (.listComp e gs) := by
  rw [Folds, Fold.onExpr] at h
  obtain ⟨parts, hparts, hl⟩ := h.node
    (leaves_bind ((linked_leaves n).onComprehensions generators) fun _ =>
      leaves_bind ((linked_leaves n).onExpr elt) fun _ => leaves_pure _)
  obtain ⟨gs, hgs, hparts⟩ := hparts.of_bind ((linked_leaves n).onComprehensions generators)
  obtain ⟨e, he, hparts⟩ := hparts.of_bind ((linked_leaves n).onExpr elt)
  obtain rfl := hparts.of_pure
  exact ⟨e, gs, he, Folds.iters hgs, hl rfl⟩

section Reduced
open Value (ofExpr?)

variable {r s parts : Expr} {v : Value}

lemma reduce?_unary (op : UnaryOp) (r : Expr) : reduce? (.unary op r) =
    ((ofExpr? r).bind fun w => (w.unary op).toOption).map Value.toExpr := by
  simp only [reduce?, reduceUnary?, Option.bind_eq_bind, Option.pure_def, Option.map_eq_bind,
    Option.bind_assoc, Function.comp_def]

lemma reduce?_binary (r : Expr) (op : BinaryOp) (s : Expr) : reduce? (.binary r op s) =
    ((ofExpr? r).bind fun w => (ofExpr? s).bind fun x => (w.binary op x).toOption).map
      Value.toExpr := by
  simp only [reduce?, reduceBinary?, Option.bind_eq_bind, Option.pure_def, Option.map_eq_bind,
    Option.bind_assoc, Function.comp_def]

lemma reduce?_slice (r : Expr) (lower upper step : Option Expr) :
    reduce? (.subscript r (.slice lower upper step)) = ((ofExpr? r).bind fun w =>
      (bound? lower).bind fun a => (bound? upper).bind fun b => (bound? step).bind fun c =>
        (w.slice ⟨a, b, c⟩).toOption).map Value.toExpr := by
  simp only [reduce?, reduceSubscript?, Option.bind_eq_bind, Option.pure_def, Option.map_eq_bind,
    Option.bind_assoc, Function.comp_def]

lemma reduce?_item (r : Expr) {k : Expr} (hk : ∀ lower upper step, k ≠ .slice lower upper step) :
    reduce? (.subscript r k) = ((ofExpr? r).bind fun w => (ofExpr? k).bind fun x =>
      (w.index x).toOption).map Value.toExpr := by
  cases k with
  | slice => exact absurd rfl (hk _ _ _)
  | _ =>
    simp only [reduce?, reduceSubscript?, Option.bind_eq_bind, Option.pure_def,
      Option.map_eq_bind, Option.bind_assoc, Function.comp_def]

/-- A literal that comes of a node which is none itself is what the node is reduced to. -/
lemma reduce_of_literal (hparts : ofExpr? parts = none) (h : ofExpr? (reduced parts) = some v) :
    reduce? parts = some (reduced parts) := by
  unfold reduced at h ⊢
  cases hr : reduce? parts with
  | none =>
    rw [hr, Option.getD_none, hparts] at h
    contradiction
  | some r => rfl

/-- A node that is reduced to a value is a literal where there is a value. -/
lemma reduced_of_value {o : Option Value} (hreduce : reduce? parts = o.map Value.toExpr)
    (hparts : o = none → ofExpr? parts = none) (h : ofExpr? (reduced parts) = some v) :
    o = some v ∧ reduced parts = v.toExpr := by
  cases o with
  | none =>
    rw [reduced, hreduce, Option.map_none, Option.getD_none, hparts rfl] at h
    contradiction
  | some u =>
    have hreduced : reduced parts = u.toExpr := by
      rw [reduced, hreduce]
      rfl
    rw [hreduced, Value.ofExpr?_toExpr] at h
    cases h
    exact ⟨rfl, hreduced⟩

lemma literal_of_map {o : Option Value} (h : o.map Value.toExpr = some r) : (ofExpr? r).isSome := by
  obtain ⟨u, -, rfl⟩ := Option.map_eq_some_iff.mp h
  rw [Value.ofExpr?_toExpr]
  rfl

/-- A list of integers is a literal. -/
lemma toExpr_ints (ks : List Int) :
    (Value.list (ks.map Value.int)).toExpr = .list (ks.map Expr.int) := by
  have hrow (ks : List Int) : Value.toExprs (ks.map Value.int) = ks.map Expr.int := by
    induction ks with
    | nil => rfl
    | cons k ks ih => simp [Value.toExprs, Value.toExpr, Expr.int, ih]
  rw [Value.toExpr, hrow]

/-- A node that is reduced and is no call becomes a literal. -/
lemma literal_of_reduce (h : reduce? parts = some r)
    (hparts : ∀ f args keywords, parts ≠ .call f args keywords) : (ofExpr? r).isSome := by
  cases parts with
  | call => exact absurd rfl (hparts _ _ _)
  | unary => exact literal_of_map ((reduce?_unary _ _).symm.trans h)
  | binary => exact literal_of_map ((reduce?_binary _ _ _).symm.trans h)
  | subscript value key =>
    by_cases hkey : ∃ lower upper step, key = .slice lower upper step
    · obtain ⟨lower, upper, step, rfl⟩ := hkey
      exact literal_of_map ((reduce?_slice _ _ _ _).symm.trans h)
    · have hitem : ∀ lower upper step, key ≠ .slice lower upper step :=
        fun lower upper step heq => hkey ⟨lower, upper, step, heq⟩
      exact literal_of_map ((reduce?_item _ hitem).symm.trans h)
  | listComp elt generators =>
    change dottedQuads? elt generators = some r at h
    unfold dottedQuads? at h
    split at h
    · split at h
      · obtain ⟨numbers, -, rfl⟩ := Option.map_eq_some_iff.mp h
        rw [← toExpr_ints, Value.ofExpr?_toExpr]
        rfl
      · contradiction
    · contradiction
  | _ => contradiction

/-- A call of one of the three functions that is reduced becomes a literal. -/
lemma literal_of_named {f : String} {args : List Expr} (hf : f ∈ ["bytes", "list", "int"])
    (h : reduceNamed? f args = some r) : (ofExpr? r).isSome := by
  unfold reduceNamed? at h
  split at h
  · obtain ⟨w, -, h⟩ := Option.bind_eq_some_iff.mp h
    obtain ⟨b, -, rfl⟩ := Option.map_eq_some_iff.mp h
    rfl
  · split at h
    · next hw =>
      cases h
      rw [hw]
      rfl
    · contradiction
  · exact absurd hf (by decide)
  · contradiction

/-- A call of a method that is reduced becomes a literal. -/
lemma literal_of_method {object : Expr} {attr : String} {args : List Expr}
    (h : reduceCall? (.attribute object attr) args = some r) : (ofExpr? r).isSome := by
  unfold reduceCall? at h
  split at h
  · next heq => cases heq
  · obtain ⟨b, -, h⟩ := Option.bind_eq_some_iff.mp h
    split at h
    · obtain ⟨s, -, h⟩ := Option.bind_eq_some_iff.mp h
      cases h
      rfl
    · contradiction
  · obtain ⟨decode, -, h⟩ := Option.bind_eq_some_iff.mp h
    obtain ⟨w, -, h⟩ := Option.bind_eq_some_iff.mp h
    obtain ⟨data, -, h⟩ := Option.bind_eq_some_iff.mp h
    obtain ⟨b, -, h⟩ := Option.bind_eq_some_iff.mp h
    cases h
    rfl
  · contradiction

end Reduced

end Unmask.BlankObf
