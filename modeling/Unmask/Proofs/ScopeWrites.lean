import Mathlib.Data.List.Induction
import Unmask.Proofs.Nesting

/-!
# Writes to a scope

A straight program writes items of a scope and calls functions that are not known. A write whose
value is known vanishes into the table of names. One whose value is not known stays in the program
and leaves the table as it is, so a name may go on to stand for what it was bound to before. The
table is right just as long as this happens to no name that is bound.
-/
namespace Unmask.ScopeWrites
open Resolve

/-- A line of a straight program. -/
inductive Line where
  /-- `globals()['key'] = value` -/
  | write (key : String) (value : Expr)
  /-- `func(arg)` -/
  | call (func arg : String)

def Line.stmt : Line → Stmt
  | .write key value => .assign [.subscript (.apply (.name "globals") []) (.str key)] value
  | .call func arg => .expr (.apply (.name func) [.name arg])

def program (lines : List Line) : Module := lines.map Line.stmt

/-- The session after a program in a fresh one. -/
def after (lines : List Line) : Session :=
  ((Session.start .empty).transform (program lines)).2

/-- What becomes of a line behind others. -/
def outcome (before : List Line) (line : Line) : Module :=
  ((after before).transform [line.stmt]).1

/-- A function that is called refers to nothing where it is called. -/
def Unbound (lines : List Line) : Prop :=
  ∀ before func arg rest, lines = before ++ .call func arg :: rest →
    (after before).names.get? func = none

/-- The last write to a key, with the lines before it. -/
def LastWrite (lines : List Line) (key : String) (before : List Line) (value : Expr) : Prop :=
  ∃ rest, lines = before ++ .write key value :: rest ∧ ∀ other, .write key other ∉ rest

/-- What a key is bound to is what the last write to it stored. -/
def Current (lines : List Line) : Prop :=
  ∀ key m, (after lines).names.local? key = some m →
    ∃ before value, LastWrite lines key before value ∧
      ((after before).resolve value).1 = .mock m

/-- A write that leaves the table right: it vanishes into it, or its key is not bound, or its key
is bound to what it stores anyway. -/
def Tracked (before : List Line) (key : String) (value : Expr) : Prop :=
  outcome before (.write key value) = [] ∨ (after before).names.local? key = none ∨
    ∃ m, ((after before).resolve value).1 = .mock m ∧
      (after before).names.local? key = some m

/-- A write vanishes and binds its key to what its value resolves to, or it stays and binds
nothing. -/
theorem write_spec (s : Session) (key : String) (value : Expr) :
    ((s.transform [(Line.write key value).stmt]).1 = [] ∧
        ∃ m, (s.resolve value).1 = .mock m ∧
          (s.transform [(Line.write key value).stmt]).2.names = s.names.bind key m) ∨
      (s.transform [(Line.write key value).stmt]).1 ≠ [] ∧
        (s.transform [(Line.write key value).stmt]).2.names = s.names := by
  let within := expansion (maxNesting - s.depth)
  have hnames := fun e => expr_holds (followed_names (maxNesting - s.depth)) e
  let stored := (expr within value).run s
  let container := (expr within (.apply (.name "globals") [])).run stored.2
  have hkept : container.2.names = s.names := (hnames _ stored.2).trans (hnames value s)
  have hresolve : (s.resolve value).1 = stored.1 := by rw [resolve_eq_run]
  have hrun : s.transform [(Line.write key value).stmt] =
      ((store container.1 (.mock (.value "str" (.str key))) stored.1).run container.2).map
        (· ++ []) id := by
    rw [transform_single]
    simp only [Line.stmt, Fold.onStmt, fold, assignStatement, expr_str, pure_bind]
    rfl
  rw [hrun, hresolve, store]
  split
  · next name m hbinding =>
    obtain ⟨-, ⟨k, hk, htext⟩, hstored⟩ := binding?_spec hbinding
    cases hk
    cases htext
    refine .inl ⟨rfl, m, hstored, ?_⟩
    rw [← hkept]
    rfl
  · exact .inr ⟨List.cons_ne_nil _ _, hkept⟩

/-- What a name is read as. -/
def reading (s : Session) (id : String) : Expr :=
  match s.names.get? id with
  | some m => m.revert
  | none => .name id

/-- A call of a function that is not known stays, with its argument read, and changes nothing. -/
theorem call_spec {s : Session} {func : String} (arg : String)
    (h : s.names.get? func = none) :
    s.transform [(Line.call func arg).stmt] =
      ([.expr (.apply (.name func) [reading s arg])], s) := by
  have hfunc : (expr (expansion (maxNesting - s.depth)) (.name func)).run s =
      (.expr (.name func), s) := by
    rw [name_run, h]
  have harg := name_run (expansion (maxNesting - s.depth)) s arg
  rw [transform_single]
  simp only [Line.stmt, Expr.apply, Fold.onStmt, fold, callStatement, exprs, namedArguments,
    StateT.run_bind, hfunc, bind_assoc, pure_bind]
  show ([Stmt.expr (.call (.name func)
    [((expr (expansion (maxNesting - s.depth)) (.name arg)).run s).1.toExpr] [])],
    ((expr (expansion (maxNesting - s.depth)) (.name arg)).run s).2) = _
  rw [harg, reading]
  cases s.names.get? arg with
  | some m => rfl
  | none => rfl

lemma after_append (lines : List Line) (line : Line) :
    after (lines ++ [line]) = ((after lines).transform [line.stmt]).2 := by
  unfold after program
  rw [List.map_append, Session.transform_append]
  rfl

lemma LastWrite.behind {lines before : List Line} {key : String} {value : Expr}
    (h : LastWrite lines key before value) {line : Line}
    (hline : ∀ other, line ≠ .write key other) :
    LastWrite (lines ++ [line]) key before value := by
  obtain ⟨rest, rfl, hrest⟩ := h
  refine ⟨rest ++ [line], by simp, fun other hmem => ?_⟩
  rcases List.mem_append.mp hmem with hmem | hmem
  · exact hrest other hmem
  · exact hline other (List.mem_singleton.mp hmem).symm

lemma lastWrite_end (lines : List Line) (key : String) (value : Expr) :
    LastWrite (lines ++ [.write key value]) key lines value :=
  ⟨[], rfl, fun _ => List.not_mem_nil⟩

lemma LastWrite.eq_end {lines before : List Line} {key : String} {value last : Expr}
    (h : LastWrite (lines ++ [.write key value]) key before last) :
    before = lines ∧ last = value := by
  obtain ⟨rest, heq, hrest⟩ := h
  rcases List.eq_nil_or_concat rest with rfl | ⟨rest, line, rfl⟩
  · obtain ⟨rfl, hline⟩ := List.append_inj' heq rfl
    cases hline
    exact ⟨rfl, rfl⟩
  · rw [List.concat_eq_append, ← List.cons_append, ← List.append_assoc] at heq
    obtain ⟨-, hline⟩ := List.append_inj' heq rfl
    have hmem : Line.write key value ∈ rest.concat line := by
      rw [List.concat_eq_append]
      exact List.mem_append_right _ (by rw [← hline]; exact List.mem_singleton_self _)
    exact absurd hmem (hrest value)

/-- A write keeps the table right if and only if it is tracked. -/
theorem current_write_iff {lines : List Line} (h : Current lines) (key : String) (value : Expr) :
    Current (lines ++ [.write key value]) ↔ Tracked lines key value := by
  have hspec := write_spec (after lines) key value
  constructor
  · intro hcurrent
    obtain ⟨hgone, -⟩ | ⟨-, hnames⟩ := hspec
    · exact .inl hgone
    · rw [← after_append] at hnames
      cases hlocal : (after lines).names.local? key with
      | none => exact .inr (.inl hlocal)
      | some m =>
        obtain ⟨before, last, hlast, hresolve⟩ := hcurrent key m (by rw [hnames, hlocal])
        obtain ⟨rfl, rfl⟩ := hlast.eq_end
        exact .inr (.inr ⟨m, hresolve, hlocal⟩)
  · intro htracked other m hm
    have hother (hne : other ≠ key) (hold : (after lines).names.local? other = some m) :
        ∃ before last, LastWrite (lines ++ [.write key value]) other before last ∧
          ((after before).resolve last).1 = .mock m := by
      obtain ⟨before, last, hlast, hresolve⟩ := h other m hold
      refine ⟨before, last, hlast.behind fun e heq => hne ?_, hresolve⟩
      exact (Line.write.inj heq).1.symm
    rw [after_append] at hm
    obtain ⟨-, stored, hresolve, hnames⟩ | ⟨hstays, hnames⟩ := hspec
    · rw [hnames, Namespace.local?_bind] at hm
      split at hm
      · next heq =>
        cases heq
        cases hm
        exact ⟨lines, value, lastWrite_end lines key value, hresolve⟩
      · next hne => exact hother hne hm
    · rw [hnames] at hm
      by_cases hkey : other = key
      · subst hkey
        obtain hgone | hnone | ⟨stored, hresolve, hlocal⟩ := htracked
        · exact absurd hgone hstays
        · rw [hnone] at hm
          contradiction
        · rw [hlocal] at hm
          cases hm
          exact ⟨lines, value, lastWrite_end lines other value, hresolve⟩
      · exact hother hkey hm

/-- A call leaves the table as right as it is. -/
theorem Current.call {lines : List Line} (h : Current lines) {func : String}
    (hfunc : (after lines).names.get? func = none) (arg : String) :
    Current (lines ++ [.call func arg]) := by
  intro key m hm
  rw [after_append, call_spec arg hfunc] at hm
  obtain ⟨before, value, hlast, hresolve⟩ := h key m hm
  exact ⟨before, value, hlast.behind fun _ => nofun, hresolve⟩

/-- The table is right at every line if and only if every write is tracked; and a name that is read
is replaced by what it stands for there. -/
theorem current_iff_tracked {lines : List Line} (h : Unbound lines) :
    ((∀ before, before <+: lines → Current before) ↔
      ∀ before key value rest, lines = before ++ .write key value :: rest →
        Tracked before key value) ∧
    ∀ before func arg rest, lines = before ++ .call func arg :: rest →
      outcome before (.call func arg) =
        [.expr (.apply (.name func) [reading (after before) arg])] := by
  refine ⟨⟨?_, ?_⟩, ?_⟩
  · intro hcurrent before key value rest hlines
    have hwrite : before ++ [.write key value] <+: lines := ⟨rest, by simp [hlines]⟩
    have hbefore := hcurrent before ((List.prefix_append _ _).trans hwrite)
    exact (current_write_iff hbefore key value).mp (hcurrent _ hwrite)
  · intro htracked before hprefix
    induction before using List.reverseRecOn with
    | nil => exact fun key m hm => by cases hm
    | append_singleton before line ih =>
      have hbefore := ih ((List.prefix_append _ _).trans hprefix)
      obtain ⟨rest, hlines⟩ := hprefix
      rw [List.append_assoc, List.singleton_append] at hlines
      cases line with
      | write key value =>
        exact (current_write_iff hbefore key value).mpr
          (htracked before key value rest hlines.symm)
      | call func arg => exact hbefore.call (h before func arg rest hlines.symm) arg
  · intro before func arg rest hlines
    rw [outcome, call_spec arg (h before func arg rest hlines)]

/-- `globals()['x'] = 1`, `f(x)`: the table is right, and the call becomes `f(1)`. -/
theorem current_read :
    let lines : List Line := [.write "x" (.int 1), .call "f" "x"]
    Unbound lines ∧ (∀ before, before <+: lines → Current before) ∧
      outcome [.write "x" (.int 1)] (.call "f" "x") =
        [.expr (.apply (.name "f") [.int 1])] := by
  intro lines
  have hunbound : Unbound lines := by
    intro before func arg rest hlines
    rcases before with - | ⟨first, - | ⟨second, before⟩⟩
    · simp [lines] at hlines
    · obtain ⟨rfl, ⟨rfl, -⟩, -⟩ : .write "x" (.int 1) = first ∧ ("f" = func ∧ "x" = arg) ∧
          [] = rest := by simpa [lines] using hlines
      rfl
    · simp [lines] at hlines
  obtain ⟨hiff, hread⟩ := current_iff_tracked hunbound
  refine ⟨hunbound, hiff.mpr ?_, hread [.write "x" (.int 1)] "f" "x" [] rfl⟩
  intro before key value rest hlines
  rcases before with - | ⟨first, - | ⟨second, before⟩⟩
  · obtain ⟨⟨rfl, rfl⟩, -⟩ : (key = "x" ∧ value = .int 1) ∧ rest = [.call "f" "x"] := by
      simpa [lines, eq_comm] using hlines
    exact .inr (.inl rfl)
  · simp [lines] at hlines
  · simp [lines] at hlines

/-- `globals()['x'] = 1`, `globals()['x'] = g()`, `f(x)`: the second write is not tracked. -/
def stale : List Line :=
  [.write "x" (.int 1), .write "x" (.apply (.name "g") []), .call "f" "x"]

lemma unbound_stale : Unbound stale := by
  intro before func arg rest hlines
  rcases before with - | ⟨first, - | ⟨second, - | ⟨third, before⟩⟩⟩
  · simp [stale] at hlines
  · simp [stale] at hlines
  · obtain ⟨rfl, rfl, ⟨rfl, -⟩, -⟩ : .write "x" (.int 1) = first ∧
        .write "x" (.apply (.name "g") []) = second ∧ ("f" = func ∧ "x" = arg) ∧ [] = rest := by
      simpa [stale] using hlines
    rfl
  · simp [stale] at hlines

theorem stale_not_current :
    Unbound stale ∧ ¬ ∀ before, before <+: stale → Current before := by
  refine ⟨unbound_stale, fun h => ?_⟩
  have hcurrent := h ([.write "x" (.int 1)] ++ [.write "x" (.apply (.name "g") [])])
    ⟨[.call "f" "x"], rfl⟩
  obtain ⟨before, value, hlast, hresolve⟩ := hcurrent "x" (.value "int" (.int 1)) rfl
  obtain ⟨rfl, rfl⟩ := hlast.eq_end
  cases hresolve

end Unmask.ScopeWrites
