import Unmask.Resolve.Program

/-!
# Statements about computations on sessions

A computation gives a session a result and moves it to another one. What is said of all its results
and what is said of all its moves can each be put together along the order of the steps.
What was found also tells of the parts it was found from: they were mocks.
-/
namespace Unmask.Resolving

variable {α β : Type}

/-- Every result of a computation has a property, whatever the session. -/
def Gives (x : Resolving α) (P : α → Prop) : Prop := ∀ s, P (x.run s).1

theorem Gives.pure {P : α → Prop} {a : α} (h : P a) : Gives (Pure.pure a) P := fun _ => h

theorem Gives.bind {x : Resolving α} {f : α → Resolving β} {P : α → Prop} {Q : β → Prop}
    (hx : Gives x P) (hf : ∀ a, P a → Gives (f a) Q) : Gives (x >>= f) Q :=
  fun s => hf _ (hx s) _

/-- A step of which only the effect counts does not change what is given behind it. -/
theorem Gives.after {x : Resolving α} {y : Resolving β} {Q : β → Prop} (hy : Gives y Q) :
    Gives (x >>= fun _ => y) Q :=
  fun s => hy (x.run s).2

theorem Gives.reading {f : Session → Resolving β} {Q : β → Prop} (h : ∀ t, Gives (f t) Q) :
    Gives (get >>= f) Q :=
  fun s => h s s

end Unmask.Resolving

namespace Unmask.Resolved

theorem mock?_eq_some {r : Resolved} {m : Mock} : r.mock? = some m ↔ r = .mock m := by
  cases r <;> simp [mock?]

theorem eq_mock_of_value {r : Resolved} {v : Value} (h : r.value? = some v) :
    ∃ name, r = .mock (.value name v) := by
  unfold value? at h
  split at h
  · cases h
    exact ⟨_, rfl⟩
  · cases h

theorem intLike_spec {r : Resolved} {v : Value} (h : r.intLike? = some v) :
    r.value? = some v ∧ ∃ n, v.asInt? = some n := by
  unfold intLike? at h
  split at h
  · next hv =>
    cases h
    exact ⟨hv, _, rfl⟩
  · next hv =>
    cases h
    exact ⟨hv, _, rfl⟩
  · cases h

/-- An integer or truth value that was found is a mock. -/
theorem eq_mock_of_intLike {r : Resolved} (h : r.intLike?.isSome) :
    ∃ name v, r = .mock (.value name v) := by
  obtain ⟨v, hv⟩ := Option.isSome_iff_exists.mp h
  obtain ⟨name, hr⟩ := eq_mock_of_value (intLike_spec hv).1
  exact ⟨name, v, hr⟩

end Unmask.Resolved

namespace Unmask.Resolve

/-- The literal of a text is known. -/
theorem expr_str (within : Option Expansion) (text : String) :
    expr within (.str text) = pure (.mock (.value "str" (.str text))) := by
  rw [Expr.str, expr]
  rfl

/-- A name is read from the table of names. -/
theorem name_run (within : Option Expansion) (s : Session) (id : String) :
    (expr within (.name id)).run s =
      (match s.names.get? id with
        | some m => .mock m
        | none => .expr (.name id), s) := by
  rw [expr]
  unfold name
  show (match s.names.get? id with
    | some m => pure (.mock m)
    | none => pure (.expr (.name id)) : Resolving Resolved).run s = _
  split
  · rfl
  · rfl

/-- A subscript that is no slice. -/
theorem expr_subscript {within : Option Expansion} {value key : Expr}
    (h : ∀ lower upper step, key ≠ .slice lower upper step) :
    expr within (.subscript value key) = (do
      let object ← expr within value
      subscript object (← expr within key)) := by
  rw [expr]
  exact h

/-- What is bound is a mock, under the text that the key is, to an item of a mock. -/
theorem binding?_spec {container key stored : Resolved} {name : String} {m : Mock}
    (h : binding? container key stored = some (name, m)) :
    (∃ c, container = .mock c) ∧ (∃ k, key = .mock k ∧ k.text? = some name) ∧
      stored = .mock m := by
  unfold binding? at h
  split at h
  · next c k bound =>
    split at h
    · obtain ⟨text, htext, hpair⟩ := Option.map_eq_some_iff.mp h
      obtain ⟨rfl, rfl⟩ := Prod.mk.inj hpair
      exact ⟨⟨c, rfl⟩, ⟨k, rfl, htext⟩, rfl⟩
    · contradiction
  · contradiction

/-- A row that is found is found item by item. -/
theorem exists_of_mapM {α β : Type} {f : α → Option β} {as : List α} {bs : List β}
    (h : as.mapM f = some bs) :
    (∀ a ∈ as, ∃ b, f a = some b) ∧ ∀ b ∈ bs, ∃ a ∈ as, f a = some b := by
  induction as generalizing bs with
  | nil =>
    cases h
    exact ⟨nofun, nofun⟩
  | cons a rest ih =>
    simp only [List.mapM_cons, Option.bind_eq_bind, Option.bind_eq_some_iff] at h
    obtain ⟨b, hb, rest', hrest, hbs⟩ := h
    cases hbs
    obtain ⟨hforth, hback⟩ := ih hrest
    refine ⟨fun c hc => ?_, fun d hd => ?_⟩
    · rcases List.mem_cons.mp hc with rfl | hc
      · exact ⟨b, hb⟩
      · exact hforth c hc
    · rcases List.mem_cons.mp hd with rfl | hd
      · exact ⟨a, List.mem_cons_self, hb⟩
      · obtain ⟨c, hc, hd⟩ := hback d hd
        exact ⟨c, List.mem_cons_of_mem _ hc, hd⟩

/-- A row that is found is what it was found from. -/
theorem mapM_eq_some_iff {α β : Type} {f : α → Option β} {g : β → α}
    (h : ∀ a b, f a = some b ↔ a = g b) (as : List α) (bs : List β) :
    as.mapM f = some bs ↔ as = bs.map g := by
  induction as generalizing bs with
  | nil => cases bs <;> simp
  | cons a rest ih =>
    simp only [List.mapM_cons, Option.bind_eq_bind, Option.bind_eq_some_iff, h, ih]
    constructor
    · rintro ⟨b, rfl, rest, rfl, hbs⟩
      cases hbs
      rfl
    · intro heq
      cases bs with
      | nil => contradiction
      | cons b bs =>
        obtain ⟨ha, hrest⟩ := List.cons.inj heq
        exact ⟨b, ha, bs, hrest, rfl⟩

theorem namedMock?_eq_some {k : NamedArgument} {n : String × Mock} :
    namedMock? k = some n ↔ k = (some n.1, .mock n.2) := by
  obtain ⟨name, r⟩ := k
  obtain ⟨shown, m⟩ := n
  cases name <;> cases r <;> simp [namedMock?, Resolved.mock?]

/-- Arguments that are known are mocks, the named ones under plain names. -/
theorem arguments?_eq_some {args : List Resolved} {named : List NamedArgument} {a : Arguments} :
    arguments? args named = some a ↔
      args = a.positional.map .mock ∧ named = a.named.map fun n => (some n.1, .mock n.2) := by
  have hargs := mapM_eq_some_iff (fun _ _ => Resolved.mock?_eq_some) args
  have hnamed := mapM_eq_some_iff (fun _ _ => namedMock?_eq_some) named
  unfold arguments?
  constructor
  · intro h
    split at h
    · next positional keywords hpositional hkeywords =>
      cases h
      exact ⟨(hargs _).mp hpositional, (hnamed _).mp hkeywords⟩
    · contradiction
  · rintro ⟨hpositional, hkeywords⟩
    rw [(hargs _).mpr hpositional, (hnamed _).mpr hkeywords]

/-- A bound that is given is an integer or a truth value. -/
theorem intLike_of_bound {r : Resolved} {b : Option Int} (h : bound? (some r) = some b) :
    ∃ v, r.intLike? = some v := by
  obtain ⟨n, hn, -⟩ := Option.map_eq_some_iff.mp h
  obtain ⟨v, hv, -⟩ := Option.bind_eq_some_iff.mp hn
  exact ⟨v, hv⟩

theorem exists_of_bounds {lower upper step : Option Resolved} {b : Value.Bounds}
    (h : bounds? lower upper step = some b) :
    (∃ l, bound? lower = some l) ∧ (∃ u, bound? upper = some u) ∧ ∃ d, bound? step = some d := by
  unfold bounds? at h
  split at h
  · next l u d hl hu hd => exact ⟨⟨l, hl⟩, ⟨u, hu⟩, ⟨d, hd⟩⟩
  · contradiction

/-- The operand that decides is one of them. -/
theorem mem_of_deciding {op : BoolOp} {rs : List Resolved} {r : Resolved}
    (h : deciding? op rs = some r) : r ∈ rs := by
  induction rs using deciding?.induct op with
  | case1 => cases h
  | case2 last =>
    cases h
    exact List.mem_singleton_self _
  | case3 first rest hne hdecides =>
    rw [deciding?, if_pos hdecides] at h
    · cases h
      exact List.mem_cons_self
    · exact hne
  | case4 first rest hne hdecides ih =>
    rw [deciding?, if_neg hdecides] at h
    · exact List.mem_cons_of_mem _ (ih h)
    · exact hne

variable (within : Option Expansion)

theorem onExpr_fold (e : Expr) :
    (fold within).onExpr e = (do return (← expr within e).toExpr) := by
  cases e <;> simp only [Fold.onExpr, fold]

theorem run_present {α : Type} (f : Option Expansion → Resolving α) (s : Session) :
    (present >>= f).run s = (f (expansion (maxNesting - s.depth))).run s := rfl

theorem resolve_eq_run (s : Session) (e : Expr) :
    s.resolve e = (expr (expansion (maxNesting - s.depth)) e).run s :=
  run_present (fun within => expr within e) s

theorem transform_eq_run (s : Session) (m : Module) :
    s.transform m = ((fold (expansion (maxNesting - s.depth))).onBody m).run s :=
  run_present (fun within => (fold within).onBody m) s

/-- A program of one statement. -/
theorem transform_single (s : Session) (stmt : Stmt) :
    s.transform [stmt] =
      (((fold (expansion (maxNesting - s.depth))).onStmt stmt).run s).map (· ++ []) id := by
  rw [transform_eq_run, Fold.onBody, Fold.onBody]
  rfl

end Unmask.Resolve
