import Unmask.Proofs.CallFree
import Unmask.Proofs.ExecTexts

/-!
# Programs that run programs

A program without calls may be written as a text that a program runs, that program as a text that
another one runs, and so on. Up to `maxNesting` times the run comes through to the program within
and makes of it what it makes of it alone; beyond that it stops at the call it may not follow.
-/
namespace Unmask
open Resolve

/-- A text within so many texts that run each other. -/
def nestedText (source : String) : Nat → String
  | 0 => source
  | n + 1 => execText (nestedText source n)

/-- The call that runs a text. -/
def execCall (text : String) : Stmt := .expr (.call (.name "exec") [.str text] [])

namespace Session

/-- A text that is run too deep is left as it is, with an issue. -/
def tooDeep : Issue := ⟨.invalidArguments "exec" .tooDeep, (Mock.builtin .exec).display⟩

lemma name_exec {s : Session} (h : s.names.local? "exec" = none) (within : Option Expansion) :
    (expr within (.name "exec")).run s = (.mock (.builtin .exec), s) := by
  have hread : s.names.get? "exec" = some (.builtin .exec) := by
    rw [Namespace.get?, h]
    rfl
  rw [name_run, hread]

/-- A call of `exec` on a text gives way to what the text becomes. -/
lemma callStatement_exec {s : Session} (h : s.names.local? "exec" = none)
    (within : Option Expansion) (text : String) :
    (callStatement within (.name "exec") [.str text] []).run s =
      match (expandExec within text).run s with
      | (.ok body, t) => (body, t)
      | (.error error, t) => ([execCall text], { t with issues := t.issues ++
          [⟨error, (Mock.builtin .exec).display⟩] }) := by
  have hname {α : Type} (f : Resolved → Resolving α) :
      (expr within (.name "exec") >>= f).run s = (f (.mock (.builtin .exec))).run s := by
    rw [StateT.run_bind, name_exec h]
    rfl
  have hsource : execSource? (.mock (.builtin .exec)) [.mock (.value "str" (.str text))] [] =
      some text := rfl
  simp only [callStatement, exprs, namedArguments, expr_str, pure_bind, hname, hsource,
    StateT.run_bind]
  cases (expandExec within text).run s with
  | mk r t => cases r <;> rfl

/-- A call of `exec` on a program runs the program. -/
lemma transform_execCall {s : Session} (h : s.names.local? "exec" = none)
    (hdepth : s.depth < maxNesting) {text : String} {m : Module}
    (hparse : Module.parse text = .ok m) :
    s.transform [execCall text] =
      ((s.inside.transform m).1, (s.inside.transform m).2.outside) := by
  rw [transform_single, execCall, Fold.onStmt, fold, callStatement_exec h, expandExec_run,
    if_pos hdepth, hparse]
  exact Prod.ext (List.append_nil _) rfl

/-- At the limit a call of `exec` stays, with an issue. -/
lemma transform_execCall_limit {s : Session} (h : s.names.local? "exec" = none)
    (hdepth : s.depth = maxNesting) (text : String) :
    s.transform [execCall text] =
      ([execCall text], { s with issues := s.issues ++ [tooDeep] }) := by
  rw [transform_single, execCall, Fold.onStmt, fold, callStatement_exec h, expandExec_run,
    if_neg (Nat.not_lt.mpr hdepth.ge)]
  rfl

section Nested

variable {source : String} {m : Module}

/-- Every nested text is a program: the one within, or a call that runs the next text. -/
lemma parse_nestedText (hparse : Module.parse source = .ok m) (n : Nat) :
    Module.parse (nestedText source n) =
      .ok (match n with
        | 0 => m
        | n + 1 => [execCall (nestedText source n)]) := by
  cases n with
  | zero => exact hparse
  | succ n => exact Module.parse_execText (nestedText source n)

/-- As long as the limit allows it, the program within becomes what it becomes alone. -/
lemma transform_nested (hparse : Module.parse source = .ok m) (hfree : NoCallNodes m.nodes)
    (n : Nat) {s : Session} (h : s.names.local? "exec" = none) (hdepth : s.depth + n ≤ maxNesting)
    {m' : Module} (hm' : Module.parse (nestedText source n) = .ok m') :
    (s.transform m').1 = (s.transform m).1 ∧ (s.transform m').2.Like (s.transform m).2 := by
  induction n generalizing s m' with
  | zero =>
    cases hparse.symm.trans hm'
    exact ⟨rfl, .refl _⟩
  | succ n ih =>
    cases (Module.parse_execText _).symm.trans hm'
    obtain ⟨inner, hinner⟩ : ∃ inner, Module.parse (nestedText source n) = .ok inner :=
      ⟨_, parse_nestedText hparse n⟩
    have hlimit : s.inside.depth + n ≤ maxNesting := by
      simp only [inside]
      omega
    obtain ⟨hbody, hlike⟩ := ih (s := s.inside) h hlimit hinner
    obtain ⟨hsame, hleft⟩ := transform_noCalls hfree s.like_inside
    have hrun : s.transform [execCall (nestedText source n)] = _ :=
      transform_execCall h (by omega) hinner
    rw [show s.transform [.expr (.call (.name "exec") [.str (nestedText source n)] [])] = _
      from hrun]
    refine ⟨hbody.trans hsame.symm, ?_⟩
    exact ⟨hlike.names.trans hleft.names.symm, hlike.issues.trans hleft.issues.symm⟩

/-- Beyond the limit the call stays that would be one too deep. -/
lemma transform_nested_limit (source : String) (k n : Nat) {s : Session}
    (h : s.names.local? "exec" = none) (hdepth : s.depth + n = maxNesting) :
    (s.transform [execCall (nestedText source (k + n))]).1 = [execCall (nestedText source k)] ∧
      (s.transform [execCall (nestedText source (k + n))]).2.issues = s.issues ++ [tooDeep] := by
  induction n generalizing s with
  | zero =>
    rw [transform_execCall_limit h hdepth]
    exact ⟨rfl, rfl⟩
  | succ n ih =>
    have hinner : Module.parse (nestedText source (k + (n + 1))) =
        .ok [execCall (nestedText source (k + n))] := Module.parse_execText _
    have hinside : s.inside.depth + n = maxNesting := by
      simp only [inside]
      omega
    rw [transform_execCall h (by omega) hinner]
    exact ih (s := s.inside) h hinside

end Nested

/-- A program without calls, written `n` times as the text that a program runs: up to `maxNesting`
times a fresh run makes of it what it makes of the program, with the same issues; beyond that one
call is left, of the text that would be run too deep, and one issue. -/
theorem transform_nestedText {source : String} {m : Module} (hparse : Module.parse source = .ok m)
    (hfree : ∀ func args keywords, .expr (.call func args keywords) ∉ m.nodes) (n : Nat) :
    ∃ m', Module.parse (nestedText source n) = .ok m' ∧
      let alone := (start .empty).transform m
      let nested := (start .empty).transform m'
      (n ≤ maxNesting → nested.1 = alone.1 ∧ nested.2.issues = alone.2.issues) ∧
      (maxNesting < n → nested.1 = [execCall (nestedText source (n - maxNesting - 1))] ∧
        nested.2.issues = [tooDeep]) := by
  obtain ⟨m', hm'⟩ : ∃ m', Module.parse (nestedText source n) = .ok m' :=
    ⟨_, parse_nestedText hparse n⟩
  refine ⟨m', hm', fun hle => ?_, fun hlt => ?_⟩
  · have hdepth : (start .empty).depth + n ≤ maxNesting := by
      simpa [start] using hle
    obtain ⟨hbody, hlike⟩ := transform_nested hparse (noCallNodes_iff.mpr hfree) n rfl hdepth hm'
    exact ⟨hbody, hlike.issues⟩
  · obtain ⟨k, rfl⟩ : ∃ k, n = k + maxNesting + 1 := ⟨n - maxNesting - 1, by omega⟩
    have hk : k + maxNesting + 1 - maxNesting - 1 = k := by omega
    have hcall : m' = [execCall (nestedText source (k + maxNesting))] :=
      Except.ok.inj (hm'.symm.trans (parse_nestedText hparse (k + maxNesting + 1)))
    have hdepth : (start .empty).depth + maxNesting = maxNesting := Nat.zero_add _
    rw [hk, hcall]
    exact transform_nested_limit source k maxNesting rfl hdepth

/-- A backslash, as a literal within forty texts: the run stops at the eighth of them. -/
theorem transform_nestedText_backslash :
    let source := Literal.quoteText "\\"
    ∃ m', Module.parse (nestedText source 40) = .ok m' ∧
      ((start .empty).transform m').1 = [execCall (nestedText source 7)] ∧
      ((start .empty).transform m').2.issues = [tooDeep] := by
  intro source
  have hparse : Module.parse source = .ok [.expr (.str "\\")] := Module.parse_quoteText "\\"
  have hfree : ∀ func args keywords,
      .expr (.call func args keywords) ∉ Module.nodes [.expr (.str "\\")] := by
    intro func args keywords
    simp [Module.nodes, Module.visited, Stmt.visitedList, Stmt.visited, Expr.str, Expr.visited,
      Node.ofExprs]
  obtain ⟨m', hm', -, hdeep⟩ := transform_nestedText hparse hfree 40
  exact ⟨m', hm', hdeep (by decide)⟩

end Session
end Unmask
