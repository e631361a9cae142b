import Unmask.Proofs.FoldSoundness
import Unmask.Proofs.TypedEvaluation

/-!
# Expressions without tuples

An expression in which no tuple is displayed evaluates to a datum without tuples, and a datum
without tuples is known by the value that it is taken for.
-/
namespace Unmask.Typed
open Evaluation (mem_of_at)
open Resolve (exists_of_mapM)

/-- A datum that neither is a tuple nor has one in it. -/
inductive Plain : Datum → Prop where
  | none : Plain .none
  | bool (b : Bool) : Plain (.bool b)
  | int (n : Int) : Plain (.int n)
  | float (x : Float) : Plain (.float x)
  | str (s : String) : Plain (.str s)
  | bytes (b : Bytes) : Plain (.bytes b)
  | list {items : List Datum} (h : ∀ d ∈ items, Plain d) : Plain (.list items)
  | ellipsis : Plain .ellipsis

/-- An expression none of whose parts is a tuple display. -/
def Tupleless (e : Expr) : Prop := Built (fun e => ∀ items, e ≠ .tuple items) e

variable {floats : Datum.Floats} {op : BinaryOp} {d e r : Datum} {v : Value} {env inner : Env}

/-- A datum without tuples is what the literal of its value evaluates to. -/
theorem Plain.ofValue_eq (hd : Plain d) (hv : d.value? = some v) : Datum.ofValue v = d := by
  induction hd generalizing v with
  | @list items hitems ih =>
    obtain ⟨vs, hvs, rfl⟩ := Option.map_eq_some_iff.mp hv
    have hrow : ∀ ds vs, (∀ d ∈ ds, d ∈ items) → Datum.values? ds = some vs →
        Datum.ofValues vs = ds := by
      intro ds
      induction ds with
      | nil =>
        intro vs _ hvs
        cases hvs
        rfl
      | cons d ds ihrow =>
        intro vs hmem hvs
        obtain ⟨w, hw, hvs⟩ := Option.bind_eq_some_iff.mp hvs
        obtain ⟨ws, hws, rfl⟩ := Option.map_eq_some_iff.mp hvs
        rw [Datum.ofValues, ih d (hmem d List.mem_cons_self) hw,
          ihrow ws (fun e he => hmem e (List.mem_cons_of_mem _ he)) hws]
    rw [Datum.ofValue, hrow items vs (fun _ h => h) hvs]
  | ellipsis => cases hv
  | _ =>
    cases hv
    rfl

lemma Plain.mem {items : List Datum} (h : Plain (.list items)) (hd : d ∈ items) : Plain d := by
  cases h with
  | list hitems => exact hitems d hd

lemma Tupleless.items {items : List Expr} (h : Tupleless (.list items)) :
    ∀ e ∈ items, Tupleless e := by
  cases h with
  | list hitems => exact hitems

lemma not_tupleless_tuple (items : List Expr) : ¬Tupleless (.tuple items) := by
  intro h
  cases h with
  | tuple _ h => exact h items rfl

lemma Tupleless.arguments {f : String} {args : List Expr} {keywords : List Keyword}
    (h : Tupleless (.call (.name f) args keywords)) : ∀ e ∈ args, Tupleless e := by
  cases h with
  | call _ hargs => exact hargs

lemma plain_ofConstant (c : Constant) : Plain (.ofConstant c) := by
  cases c <;> constructor

lemma plain_unary {op : UnaryOp} (h : d.unary op = some r) : Plain r := by
  unfold Datum.unary at h
  split at h <;> cases h <;> constructor

lemma plain_arithmetic {a b : Number} (h : Datum.arithmetic floats op a b = some r) : Plain r := by
  have hfloat {x : Option Float} (h : x.map Datum.float = some r) : Plain r := by
    obtain ⟨x, -, rfl⟩ := Option.map_eq_some_iff.mp h
    exact .float x
  unfold Datum.arithmetic at h
  split at h
  · split at h
    · exact hfloat h
    · split at h
      · cases h
        exact .int _
      · exact hfloat h
    · obtain ⟨n, -, rfl⟩ := Option.map_eq_some_iff.mp h
      exact .int n
  · exact hfloat h

lemma plain_numeric (h : Datum.numeric floats op d e = some r) : Plain r := by
  obtain ⟨a, -, h⟩ := Option.bind_eq_some_iff.mp h
  obtain ⟨b, -, h⟩ := Option.bind_eq_some_iff.mp h
  exact plain_arithmetic h

lemma plain_logical (h : Datum.logical op d e = some r) : Plain r := by
  unfold Datum.logical at h
  split at h
  · obtain ⟨b, -, rfl⟩ := Option.map_eq_some_iff.mp h
    exact .bool b
  · contradiction

lemma plain_joined (hd : Plain d) (he : Plain e) (h : Datum.joined d e = some r) : Plain r := by
  unfold Datum.joined at h
  split at h
  · cases h
    exact .str _
  · cases h
    exact .bytes _
  · cases h
    exact .list fun x hx => (List.mem_append.mp hx).elim hd.mem he.mem
  · cases hd
  · contradiction

lemma plain_repeated (hd : Plain d) (h : d.repeated e = some r) : Plain r := by
  obtain ⟨n, -, h⟩ := Option.bind_eq_some_iff.mp h
  split at h
  · cases h
    exact .str _
  · cases h
    exact .bytes _
  · cases h
    refine .list fun x hx => ?_
    obtain ⟨row, hrow, hx⟩ := List.mem_flatten.mp hx
    rw [List.eq_of_mem_replicate hrow] at hx
    exact hd.mem hx
  · cases hd
  · contradiction

lemma plain_binary (hd : Plain d) (he : Plain e) (h : d.binary floats op e = some r) :
    Plain r := by
  unfold Datum.binary at h
  split at h
  · obtain h | ⟨-, h⟩ := Option.or_eq_some_iff.mp h
    · exact plain_joined hd he h
    · exact plain_numeric h
  · obtain h | ⟨-, h⟩ := Option.or_eq_some_iff.mp h
    · obtain h | ⟨-, h⟩ := Option.or_eq_some_iff.mp h
      · exact plain_repeated hd h
      · exact plain_repeated he h
    · exact plain_numeric h
  · obtain h | ⟨-, h⟩ := Option.or_eq_some_iff.mp h
    · exact plain_logical h
    · exact plain_numeric h

lemma plain_item (hd : Plain d) (h : d.item e = some r) : Plain r := by
  obtain ⟨n, -, h⟩ := Option.bind_eq_some_iff.mp h
  split at h
  · obtain ⟨c, -, rfl⟩ := Option.map_eq_some_iff.mp h
    exact .str _
  · obtain ⟨o, -, rfl⟩ := Option.map_eq_some_iff.mp h
    exact .int _
  · exact hd.mem (mem_of_at h)
  · cases hd
  · contradiction

lemma plain_slice {lower upper step : Option Int} (hd : Plain d)
    (h : d.slice lower upper step = some r) : Plain r := by
  unfold Datum.slice at h
  dsimp only at h
  split at h
  · contradiction
  · split at h
    · obtain ⟨cs, -, rfl⟩ := Option.map_eq_some_iff.mp h
      exact .str _
    · obtain ⟨b, -, rfl⟩ := Option.map_eq_some_iff.mp h
      exact .bytes b
    · obtain ⟨ds, hds, rfl⟩ := Option.map_eq_some_iff.mp h
      refine .list fun x hx => ?_
      obtain ⟨place, -, hplace⟩ := (exists_of_mapM hds).2 x hx
      exact hd.mem (mem_of_at hplace)
    · cases hd
    · contradiction

lemma plain_items {items : List Datum} (hd : Plain d) (h : d.items? = some items) :
    ∀ x ∈ items, Plain x := by
  intro x hx
  unfold Datum.items? at h
  split at h
  · cases h
    obtain ⟨c, -, rfl⟩ := List.mem_map.mp hx
    exact .str _
  · cases h
    obtain ⟨o, -, rfl⟩ := List.mem_map.mp hx
    exact .int _
  · cases h
    exact hd.mem hx
  · cases hd
  · contradiction

lemma plain_call {f : String} {args : List Datum} (hargs : ∀ d ∈ args, Plain d)
    (h : call f args = some r) : Plain r := by
  unfold call at h
  split at h
  · cases h
    exact .bytes _
  · obtain ⟨b, -, rfl⟩ := Option.map_eq_some_iff.mp h
    exact .bytes b
  · obtain ⟨b, -, rfl⟩ := Option.map_eq_some_iff.mp h
    exact .bytes b
  · obtain ⟨items, hitems, rfl⟩ := Option.map_eq_some_iff.mp h
    exact .list (plain_items (hargs _ List.mem_cons_self) hitems)
  · obtain ⟨n, -, rfl⟩ := Option.map_eq_some_iff.mp h
    exact .int n
  · obtain ⟨n, -, rfl⟩ := Option.map_eq_some_iff.mp h
    exact .int n
  · contradiction

lemma plain_callMethod {name : String} {args : List Datum} (h : callMethod name d args = some r) :
    Plain r := by
  unfold callMethod at h
  split at h
  · split at h
    · obtain ⟨s, -, rfl⟩ := Option.map_eq_some_iff.mp h
      exact .str s
    · contradiction
  · split at h
    · cases h
      refine .list fun x hx => ?_
      obtain ⟨cs, -, rfl⟩ := List.mem_map.mp hx
      exact .str _
    · contradiction
  · contradiction

/-- Names that stand for data without tuples. -/
def PlainEnv (env : Env) : Prop := ∀ entry ∈ env, ∀ d, entry.2 = some d → Plain d

/-- Whatever plain data names stand for, the expression evaluates to no tuple. -/
def GivesPlain (floats : Datum.Floats) (e : Expr) : Prop :=
  ∀ env d, PlainEnv env → eval floats env e = some d → Plain d

lemma PlainEnv.nil : PlainEnv [] := nofun

lemma PlainEnv.bound {id : String} (henv : PlainEnv env) (hd : Plain d) :
    PlainEnv ((id, some d) :: env) := by
  refine List.forall_mem_cons.mpr ⟨fun x hx => ?_, henv⟩
  cases hx
  exact hd

lemma PlainEnv.local (henv : PlainEnv env) (names : List String) :
    PlainEnv (names.map (·, none) ++ env) := by
  intro entry hentry
  obtain hentry | hentry := List.mem_append.mp hentry
  · obtain ⟨name, -, rfl⟩ := List.mem_map.mp hentry
    nofun
  · exact henv entry hentry

lemma plain_evalAll {items : List Expr} {ds : List Datum} (henv : PlainEnv env)
    (hitems : ∀ e ∈ items, GivesPlain floats e) (h : evalAll floats env items = some ds) :
    ∀ d ∈ ds, Plain d := by
  induction items generalizing ds with
  | nil =>
    cases h
    nofun
  | cons e rest ih =>
    obtain ⟨d, hd, h⟩ := Option.bind_eq_some_iff.mp h
    obtain ⟨others, hothers, rfl⟩ := Option.map_eq_some_iff.mp h
    exact List.forall_mem_cons.mpr ⟨hitems e List.mem_cons_self env d henv hd,
      ih (fun e he => hitems e (List.mem_cons_of_mem _ he)) hothers⟩

/-- Loops over plain data give plain elements. -/
lemma plain_evalClauses {elt : Expr} {generators : List Comprehension} {ds : List Datum}
    (henv : PlainEnv env) (hinner : PlainEnv inner) (helt : GivesPlain floats elt)
    (hiters : ∀ g ∈ generators, GivesPlain floats g.iter)
    (h : evalClauses floats env inner (fun inner => eval floats inner elt) generators = some ds) :
    ∀ d ∈ ds, Plain d := by
  induction generators generalizing env inner ds with
  | nil =>
    obtain ⟨d, hd, rfl⟩ := Option.map_eq_some_iff.mp h
    exact List.forall_mem_singleton.mpr (helt inner d hinner hd)
  | cons g rest ih =>
    unfold evalClauses at h
    split at h
    · contradiction
    · next id iter ifs rest' heq =>
      cases heq
      obtain ⟨d, hd, h⟩ := Option.bind_eq_some_iff.mp h
      obtain ⟨items, hitems, h⟩ := Option.bind_eq_some_iff.mp h
      obtain ⟨rows, hrows, rfl⟩ := Option.map_eq_some_iff.mp h
      have hplain := plain_items (hiters _ List.mem_cons_self env d henv hd) hitems
      intro x hx
      obtain ⟨row, hrow, hx⟩ := List.mem_flatten.mp hx
      obtain ⟨item, hitem, hrow⟩ := (exists_of_mapM hrows).2 row hrow
      obtain ⟨passed, -, hrow⟩ := Option.bind_eq_some_iff.mp hrow
      split at hrow
      · have hbound : PlainEnv ((id, some item) :: inner) := hinner.bound (hplain item hitem)
        exact ih hbound hbound (fun g hg => hiters g (List.mem_cons_of_mem _ hg)) hrow x hx
      · cases hrow
        contradiction
    · contradiction

/-- An expression without tuple displays evaluates to no tuple, and to nothing with one in it. -/
theorem Tupleless.givesPlain {e : Expr} (he : Tupleless e) : GivesPlain floats e := by
  induction he with
  | constant =>
    intro env d _ h
    cases h
    exact plain_ofConstant _
  | name =>
    intro env d henv h
    obtain ⟨before, after, rfl, -⟩ := List.lookup_eq_some_iff.mp (Option.join_eq_some_iff.mp h)
    exact henv _ (List.mem_append_right _ List.mem_cons_self) d rfl
  | list _ _ ih =>
    intro env d henv h
    obtain ⟨ds, hds, rfl⟩ := Option.map_eq_some_iff.mp h
    exact .list (plain_evalAll henv ih hds)
  | tuple _ h => exact absurd rfl (h _)
  | unary _ _ ih =>
    intro env d henv h
    obtain ⟨x, -, h⟩ := Option.bind_eq_some_iff.mp h
    exact plain_unary h
  | binary _ _ _ ihleft ihright =>
    intro env d henv h
    obtain ⟨x, hx, h⟩ := Option.bind_eq_some_iff.mp h
    obtain ⟨y, hy, h⟩ := Option.bind_eq_some_iff.mp h
    exact plain_binary (ihleft env x henv hx) (ihright env y henv hy) h
  | item _ hkey _ ihvalue =>
    intro env d henv h
    rw [eval_item hkey] at h
    obtain ⟨x, hx, h⟩ := Option.bind_eq_some_iff.mp h
    obtain ⟨y, -, h⟩ := Option.bind_eq_some_iff.mp h
    exact plain_item (ihvalue env x henv hx) h
  | slice _ _ _ _ _ ihvalue =>
    intro env d henv h
    obtain ⟨x, hx, h⟩ := Option.bind_eq_some_iff.mp h
    obtain ⟨_, -, h⟩ := Option.bind_eq_some_iff.mp h
    obtain ⟨_, -, h⟩ := Option.bind_eq_some_iff.mp h
    obtain ⟨_, -, h⟩ := Option.bind_eq_some_iff.mp h
    exact plain_slice (ihvalue env x henv hx) h
  | @call f args keywords _ _ _ ih =>
    intro env d henv h
    cases keywords with
    | cons => cases h
    | nil =>
      unfold eval at h
      split at h
      · obtain ⟨ds, hds, h⟩ := Option.bind_eq_some_iff.mp h
        exact plain_call (plain_evalAll henv ih hds) h
      · contradiction
  | @method object attr args keywords =>
    intro env d henv h
    cases keywords with
    | cons => cases h
    | nil =>
      obtain ⟨x, -, h⟩ := Option.bind_eq_some_iff.mp h
      obtain ⟨ds, -, h⟩ := Option.bind_eq_some_iff.mp h
      exact plain_callMethod h
  | listComp _ _ _ ihelt ihiters =>
    intro env d henv h
    unfold eval at h
    dsimp only at h
    split at h
    · obtain ⟨ds, hds, rfl⟩ := Option.map_eq_some_iff.mp h
      exact .list (plain_evalClauses henv (henv.local _) ihelt ihiters hds)
    · contradiction

end Unmask.Typed
