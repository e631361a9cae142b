import Mathlib.Data.List.Induction
import Unmask.Named
import Unmask.Proofs.EvalChains
import Unmask.Syntax.Visit

/-!
# Names that stand for constants

A straight program assigns to single names and calls functions. An assignment whose value folds to
a literal vanishes into the bindings, and the literal takes the place of the name. An assignment
that stays, and a value that is given to a name within an expression, leave the bindings as they
are, so a name may go on to stand for what it no longer holds. The bindings are right just as long
as this happens to no name that is bound.
-/
namespace Unmask.ConstantBindings
open BlankObf

/-- A line of a straight program. -/
inductive Line where
  /-- `id = value` -/
  | assign (id : String) (value : Expr)
  /-- `func(arg)` -/
  | call (func : String) (arg : Expr)

def Line.stmt : Line → Stmt
  | .assign id value => .assign [.name id] value
  | .call func arg => .expr (.apply (.name func) [arg])

def program (lines : List Line) : Module := lines.map Line.stmt

def isLambda : Expr → Bool
  | .lambda .. => true
  | _ => false

/-- The name to which `:=` gives a value. -/
def givenName? : Expr → Option String
  | .named target _ => some target
  | _ => none

/-- The names to which an expression gives values. The body of a lambda is left out: it is not run
where it stands, and its names are its own. -/
def givenNames (e : Expr) : List String := (e.visited (!isLambda ·)).filterMap givenName?

/-- The names whose values a line may change. -/
def Line.writes : Line → List String
  | .assign id value => id :: givenNames value
  | .call _ arg => givenNames arg

/-- The last line that may change a name is an assignment to it, with the lines before it. -/
def LastAssign (lines : List Line) (id : String) (before : List Line) (value : Expr) : Prop :=
  ∃ rest, lines = before ++ .assign id value :: rest ∧ ∀ line ∈ rest, id ∉ line.writes

/-- The bindings after a program of which texts are followed so many levels deep. -/
def after (n : Nat) (lines : List Line) : Option Bindings :=
  (foldWithin n (program lines)).map Prod.snd

/-- The literal that a value folds to behind some lines. -/
def constant? (n : Nat) (before : List Line) (value : Expr) : Option Value :=
  (after n before).bind fun bindings =>
    (((folder n).onExpr value).run bindings).bind fun r => Value.ofExpr? r.1

/-- What a name stands for is what the last line that may change it assigned. -/
def Current (n : Nat) (lines : List Line) : Prop :=
  ∀ bindings, after n lines = some bindings → ∀ id v, bindings.lookup id = some v →
    ∃ before value, LastAssign lines id before value ∧ constant? n before value = some v

/-- A line that leaves the bindings right: each name whose value it may change is not bound, or it
is assigned a literal. -/
def Tracked (n : Nat) (before : List Line) (line : Line) : Prop :=
  ∀ bindings, after n before = some bindings → (after n (before ++ [line])).isSome →
    ∀ id ∈ line.writes, bindings.lookup id = none ∨
      ∃ value, line = .assign id value ∧ (constant? n before value).isSome

/-- A computation leaves the bindings as they are. -/
def Leaves {α : Type} (x : StateT Bindings Option α) : Prop :=
  ∀ bindings r, x.run bindings = some r → r.2 = bindings

lemma leaves_linking : Linking (StateT Bindings Option) (StateT Bindings Option)
    (fun x _ => Leaves x) where
  pure a bindings r h := by
    cases h
    rfl
  bind {_ _ x _ f _} hx hf bindings r h := by
    rw [StateT.run_bind] at h
    obtain ⟨first, hfirst, hrest⟩ := Option.bind_eq_some_iff.mp h
    have hsame := hf first.1 first.2 r hrest
    rw [hx bindings first hfirst] at hsame
    exact hsame

lemma leaves_get : Leaves (get : StateT Bindings Option Bindings) := by
  intro bindings r h
  cases h
  rfl

lemma leaves_failure {α : Type} : Leaves (failure : StateT Bindings Option α) := by
  intro bindings r h
  cases h

lemma folding_leaves {nested : Expr → StateT Bindings Option Expr} (h : ∀ e, Leaves (nested e))
    (e : Expr) : Leaves ((folding nested).onExpr e) := by
  have hlinked : (folding nested).LinkedExprs (folding nested) (fun x _ => Leaves x) :=
    folding_linkedExprs leaves_linking leaves_get h
  exact hlinked.onExpr e

/-- Folding an expression leaves the bindings as they are. -/
theorem onExpr_leaves (n : Nat) (e : Expr) : Leaves ((folder n).onExpr e) := by
  induction n generalizing e with
  | zero => exact folding_leaves (fun _ => leaves_failure) e
  | succ n ih => exact folding_leaves ih e

/-- A name is replaced by the literal that it stands for, if there is one. -/
lemma name_run (n : Nat) (id : String) (bindings : Bindings) :
    ((folder n).onExpr (.name id)).run bindings =
      some (((bindings.lookup id).map Value.toExpr).getD (.name id), bindings) := by
  have hbound : boundLiteral? bindings (.name id) = (bindings.lookup id).map Value.toExpr := rfl
  cases n <;> cases hlookup : bindings.lookup id <;>
    simp [Fold.onExpr, folder, folding, foldExpr, hbound, hlookup, foldParts, evaluated?, reduce?]

section Line

variable {n : Nat} {lines before : List Line} {line : Line} {id : String} {value : Expr}

lemma after_append (n : Nat) (lines : List Line) (line : Line) :
    after n (lines ++ [line]) = (after n lines).bind fun bindings =>
      (((folder n).onStmt line.stmt).run bindings).map Prod.snd := by
  unfold after foldWithin program
  rw [List.map_append, Fold.onBody_append, StateT.run_bind]
  cases ((folder n).onBody (lines.map Line.stmt)).run [] with
  | none => rfl
  | some r =>
    simp only [List.map_cons, List.map_nil, Fold.onBody, bind_pure_comp, map_pure,
      bind_pure, List.append_nil, StateT.run_map, Option.map_eq_map, Option.bind_eq_bind,
      Option.bind_some,
      Option.map_map, Option.map_some]
    rfl

lemma folder_stmt (n : Nat) (s : Stmt) (walk : StateT Bindings Option Stmt) :
    (folder n).stmt s walk = walk >>= foldStmt := by
  cases n <;> rfl

/-- An assignment is folded after its value. -/
lemma onStmt_assign (n : Nat) (id : String) (value : Expr) :
    (folder n).onStmt (.assign [.name id] value) =
      (do foldStmt (.assign [.name id] (← (folder n).onExpr value))) := by
  simp [Fold.onStmt, folder_stmt, Fold.onTargets, Fold.onTarget]

/-- A call statement is folded after the call. -/
lemma onStmt_expr (n : Nat) (value : Expr) :
    (folder n).onStmt (.expr value) = (do return [.expr (← (folder n).onExpr value)]) := by
  simp [Fold.onStmt, folder_stmt, foldStmt, binding?]

/-- An assignment of a literal vanishes into the bindings, and any other line leaves them as they
are. -/
lemma line_spec {bindings next : Bindings} (h : after n lines = some bindings)
    (hnext : after n (lines ++ [line]) = some next) :
    (∃ id value v, line = .assign id value ∧ constant? n lines value = some v ∧
        next = (id, v) :: bindings) ∨
      next = bindings ∧ ∀ id value, line = .assign id value → constant? n lines value = none := by
  rw [after_append, h, Option.bind_some] at hnext
  obtain ⟨r, hrun, rfl⟩ := Option.map_eq_some_iff.mp hnext
  cases line with
  | assign id value =>
    rw [Line.stmt, onStmt_assign, StateT.run_bind] at hrun
    obtain ⟨folded, hfolded, hstmt⟩ := Option.bind_eq_some_iff.mp hrun
    have hsame : folded.2 = bindings := onExpr_leaves n value bindings folded hfolded
    have hconstant : constant? n lines value = Value.ofExpr? folded.1 := by
      rw [constant?, h, Option.bind_some, hfolded, Option.bind_some]
    have hbinding : binding? (.assign [.name id] folded.1) =
        (Value.ofExpr? folded.1).map fun v => (id, v) := rfl
    cases hvalue : Value.ofExpr? folded.1 with
    | some v =>
      rw [hvalue] at hbinding hconstant
      rw [foldStmt, hbinding] at hstmt
      cases hstmt
      exact .inl ⟨id, value, v, rfl, hconstant, by rw [← hsame]⟩
    | none =>
      rw [hvalue] at hbinding hconstant
      rw [foldStmt, hbinding] at hstmt
      cases hstmt
      refine .inr ⟨hsame, fun other e heq => ?_⟩
      cases heq
      exact hconstant
  | call func arg =>
    rw [Line.stmt, onStmt_expr, StateT.run_bind] at hrun
    obtain ⟨folded, hfolded, hstmt⟩ := Option.bind_eq_some_iff.mp hrun
    have hsame : folded.2 = bindings := onExpr_leaves n _ bindings folded hfolded
    cases hstmt
    exact .inr ⟨hsame, fun _ _ => nofun⟩

end Line

section LastAssign

variable {n : Nat} {lines before : List Line} {line : Line} {id : String} {value : Expr}

/-- A line that does not change a name leaves its last assignment as it is. -/
lemma LastAssign.behind (h : LastAssign lines id before value) (hline : id ∉ line.writes) :
    LastAssign (lines ++ [line]) id before value := by
  obtain ⟨rest, rfl, hrest⟩ := h
  refine ⟨rest ++ [line], by simp, fun other hother => ?_⟩
  rcases List.mem_append.mp hother with hmem | hmem
  · exact hrest other hmem
  · rwa [List.mem_singleton.mp hmem]

lemma lastAssign_end (lines : List Line) (id : String) (value : Expr) :
    LastAssign (lines ++ [.assign id value]) id lines value :=
  ⟨[], rfl, fun _ h => absurd h List.not_mem_nil⟩

/-- If a line may change a name, the last assignment is that line or there is none. -/
lemma LastAssign.eq_end (h : LastAssign (lines ++ [line]) id before value)
    (hline : id ∈ line.writes) : before = lines ∧ line = .assign id value := by
  obtain ⟨rest, heq, hrest⟩ := h
  rcases List.eq_nil_or_concat rest with rfl | ⟨rest, last, rfl⟩
  · obtain ⟨rfl, hlast⟩ := List.append_inj' heq rfl
    exact ⟨rfl, List.singleton_inj.mp hlast⟩
  · rw [List.concat_eq_append, ← List.cons_append, ← List.append_assoc] at heq
    obtain ⟨-, hlast⟩ := List.append_inj' heq rfl
    obtain rfl := List.singleton_inj.mp hlast
    exact absurd hline (hrest line (by simp))

end LastAssign

section Current

variable {n : Nat} {lines : List Line} {line : Line} {id : String} {v : Value}
  {bindings next : Bindings}

/-- A name that is bound stays bound. -/
lemma lookup_next (h : after n lines = some bindings)
    (hnext : after n (lines ++ [line]) = some next) (hv : bindings.lookup id = some v) :
    ∃ w, next.lookup id = some w := by
  obtain ⟨other, _, w, -, -, rfl⟩ | ⟨rfl, -⟩ := line_spec h hnext
  · rw [Named.lookup_entry]
    split
    · exact ⟨w, rfl⟩
    · exact ⟨v, hv⟩
  · exact ⟨v, hv⟩

/-- If the bindings are right behind a line that may change a name, and the name is bound there, the
line assigns it what it stands for. -/
lemma Current.assigned (h : Current n (lines ++ [line])) (hid : id ∈ line.writes)
    (hnext : after n (lines ++ [line]) = some next) (hv : next.lookup id = some v) :
    ∃ value, line = .assign id value ∧ constant? n lines value = some v := by
  obtain ⟨before, value, hlast, hconstant⟩ := h next hnext id v hv
  obtain ⟨rfl, hline⟩ := hlast.eq_end hid
  exact ⟨value, hline, hconstant⟩

/-- A line keeps the bindings right if and only if it is tracked. -/
theorem current_line_iff (h : Current n lines) :
    Current n (lines ++ [line]) ↔ Tracked n lines line := by
  constructor
  · intro hcurrent bindings hbindings hsome id hid
    obtain ⟨next, hnext⟩ := Option.isSome_iff_exists.mp hsome
    cases hbound : bindings.lookup id with
    | none => exact .inl rfl
    | some v =>
      obtain ⟨w, hw⟩ := lookup_next hbindings hnext hbound
      obtain ⟨value, hline, hconstant⟩ := hcurrent.assigned hid hnext hw
      exact .inr ⟨value, hline, by rw [hconstant]; rfl⟩
  · intro htracked next hnext id v hv
    obtain ⟨bindings, hbindings⟩ : ∃ bindings, after n lines = some bindings := by
      rw [after_append] at hnext
      obtain ⟨bindings, hbindings, -⟩ := Option.bind_eq_some_iff.mp hnext
      exact ⟨bindings, hbindings⟩
    have hright := htracked bindings hbindings (by rw [hnext]; rfl)
    -- What a name stood for before, it stands for rightly if the line does not bind it anew.
    have hbehind (hold : bindings.lookup id = some v)
        (hstays : ∀ value, line = .assign id value → constant? n lines value = none) :
        ∃ before value, LastAssign (lines ++ [line]) id before value ∧
          constant? n before value = some v := by
      have hline : id ∉ line.writes := by
        intro hid
        obtain hnone | ⟨value, hassign, hconstant⟩ := hright id hid
        · rw [hold] at hnone
          contradiction
        · rw [hstays value hassign] at hconstant
          contradiction
      obtain ⟨before, value, hlast, hconstant⟩ := h bindings hbindings id v hold
      exact ⟨before, value, hlast.behind hline, hconstant⟩
    obtain ⟨other, value, w, rfl, hconstant, rfl⟩ | ⟨rfl, hstays⟩ := line_spec hbindings hnext
    · rw [Named.lookup_entry] at hv
      split at hv
      · next heq =>
        cases heq
        cases hv
        exact ⟨lines, value, lastAssign_end lines id value, hconstant⟩
      · next hne => exact hbehind hv fun e heq => absurd (Line.assign.inj heq).1.symm hne
    · exact hbehind hv (hstays id)

end Current

section Program

variable {n : Nat} {lines : List Line}

lemma current_nil (n : Nat) : Current n [] := by
  intro bindings hbindings id v hv
  cases hbindings
  contradiction

/-- The bindings are right at every line if every line is tracked. -/
lemma current_of_tracked
    (h : ∀ before line rest, lines = before ++ line :: rest → Tracked n before line) :
    ∀ before, before <+: lines → Current n before := by
  intro before hprefix
  induction before using List.reverseRecOn with
  | nil => exact current_nil n
  | append_singleton before line ih =>
    have hbefore := ih ((List.prefix_append _ _).trans hprefix)
    obtain ⟨rest, hlines⟩ := hprefix
    rw [List.append_assoc, List.singleton_append] at hlines
    exact (current_line_iff hbefore).mpr (h before line rest hlines.symm)

/-- The bindings are right at every line of a program in which no name gets a value twice. -/
theorem current_of_nodup (h : (lines.flatMap Line.writes).Nodup) : Current n lines := by
  induction lines using List.reverseRecOn with
  | nil => exact current_nil n
  | append_singleton lines line ih =>
    rw [List.flatMap_append, List.flatMap_singleton, List.nodup_append] at h
    obtain ⟨hnodup, -, hdisjoint⟩ := h
    have hlines := ih hnodup
    refine (current_line_iff hlines).mpr fun bindings hbindings _ id hid => .inl ?_
    by_contra hbound
    obtain ⟨v, hv⟩ := Option.ne_none_iff_exists'.mp hbound
    obtain ⟨before, value, ⟨rest, rfl, -⟩, -⟩ := hlines bindings hbindings id v hv
    have hmem : id ∈ (before ++ .assign id value :: rest).flatMap Line.writes := by
      simp [Line.writes]
    exact hdisjoint id hmem id hid rfl

end Program

/-- The bindings are right at every line if and only if every line is tracked; a name that is read
is replaced by the literal that it stands for there; and where no text is evaluated the program is
folded at every depth. -/
theorem bindings_current_iff (n : Nat) (lines : List Line) :
    ((∀ before, before <+: lines → Current n before) ↔
      ∀ before line rest, lines = before ++ line :: rest → Tracked n before line) ∧
    (∀ id bindings, ((folder n).onExpr (.name id)).run bindings =
      some (((bindings.lookup id).map Value.toExpr).getD (.name id), bindings)) ∧
    ((∀ t, ¬ Evaluates (program lines) t) → (after n lines).isSome) := by
  refine ⟨⟨?_, current_of_tracked⟩, fun id bindings => name_run n id bindings, fun hnone => ?_⟩
  · intro hcurrent before line rest hlines
    have hline : before ++ [line] <+: lines := ⟨rest, by simp [hlines]⟩
    have hbefore := hcurrent before ((List.prefix_append _ _).trans hline)
    exact (current_line_iff hbefore).mp (hcurrent _ hline)
  · rw [after, Option.isSome_map]
    exact folded_of_no_text hnone n

/-- `x = 1`, `f(x)`: the bindings are right, and the call becomes `f(1)`. -/
theorem bindings_current_read :
    let lines : List Line := [.assign "x" (.int 1), .call "f" (.name "x")]
    (∀ before, before <+: lines → Current 0 before) ∧ (after 0 lines).isSome ∧
      (foldWithin 0 (program lines)).map Prod.fst =
        some [.expr (.apply (.name "f") [.int 1])] := by
  intro lines
  obtain ⟨hiff, -, hfolded⟩ := bindings_current_iff 0 lines
  have hdone : (asker.onBody (program lines)).run [] =
      .done ([.expr (.apply (.name "f") [.int 1])], [("x", .int 1)]) := rfl
  refine ⟨hiff.mpr ?_, hfolded fun t ht => ?_, rfl⟩
  · intro before line rest hlines bindings hbindings hsome id hid
    rcases before with - | ⟨first, - | ⟨second, before⟩⟩
    · cases hbindings
      exact .inl rfl
    · obtain ⟨-, rfl, -⟩ : .assign "x" (.int 1) = first ∧ .call "f" (.name "x") = line ∧
          [] = rest := by simpa [lines] using hlines
      contradiction
    · simp [lines] at hlines
  · rw [Evaluates, hdone] at ht
    cases ht

/-- A name stays bound behind a line that may change it and does not assign a literal to it. -/
lemma not_current {n : Nat} {lines : List Line} {line : Line} {id : String}
    (hid : id ∈ line.writes)
    (hbound : ((after n (lines ++ [line])).bind fun bindings => bindings.lookup id).isSome)
    (hline : ∀ value, line = .assign id value → constant? n lines value = none) :
    ¬ Current n (lines ++ [line]) := by
  intro hcurrent
  obtain ⟨v, hv⟩ := Option.isSome_iff_exists.mp hbound
  obtain ⟨next, hnext, hlookup⟩ := Option.bind_eq_some_iff.mp hv
  obtain ⟨value, hassign, hconstant⟩ := hcurrent.assigned hid hnext hlookup
  rw [hline value hassign] at hconstant
  contradiction

/-- `x = 1`, `x = g()`, `f(x)`: the second assignment stays, and the call becomes `f(1)`. -/
def reassigned : List Line :=
  [.assign "x" (.int 1), .assign "x" (.apply (.name "g") []), .call "f" (.name "x")]

/-- `x = b"'blankobfv2'"`,
`y = [int(x := 7) for ip in [a for a in ['1.2']] for n in ip.split('.')]`, `exec(x)`: the list is
folded without a look at the value that it gives to the name. -/
def hidden : List Line :=
  [.assign "x" (.bytes (Text.Utf8.encode "'blankobfv2'")),
    .assign "y" (.listComp (.apply (.name "int") [.named "x" (.int 7)])
      [⟨.name "ip", .listComp (.name "a") [⟨.name "a", .list [.str "1.2"], [], false⟩], [], false⟩,
        ⟨.name "n", .apply (.attribute (.name "ip") "split") [.str "."], [], false⟩]),
    .call "exec" (.name "x")]

theorem stale_bindings :
    ((¬ ∀ before, before <+: reassigned → Current 0 before) ∧
      (foldWithin 0 (program reassigned)).map Prod.fst =
        some [.assign [.name "x"] (.apply (.name "g") []), .expr (.apply (.name "f") [.int 1])]) ∧
    (¬ ∀ before, before <+: hidden → Current 0 before) ∧
      (foldWithin 0 (program hidden)).map Prod.fst =
        some [.expr (.apply (.name "exec") [.bytes (Text.Utf8.encode "'blankobfv2'")])] := by
  refine ⟨⟨?_, rfl⟩, ?_, rfl⟩
  · intro h
    have hcurrent := h ([reassigned[0]] ++ [reassigned[1]]) ⟨[reassigned[2]], rfl⟩
    have hid : "x" ∈ reassigned[1].writes := List.mem_cons_self
    refine not_current hid rfl (fun value hline => ?_) hcurrent
    cases hline
    rfl
  · intro h
    have hcurrent := h ([hidden[0]] ++ [hidden[1]]) ⟨[hidden[2]], rfl⟩
    have hid : "x" ∈ hidden[1].writes := by decide +kernel
    have hother (value : Expr) : hidden[1] ≠ .assign "x" value := by
      intro hline
      have hname : "y" = "x" := (Line.assign.inj hline).1
      contradiction
    have hbound : ((after 0 ([hidden[0]] ++ [hidden[1]])).bind fun bindings =>
        bindings.lookup "x").isSome := by decide +kernel
    exact not_current hid hbound (fun value hline => absurd hline (hother value)) hcurrent

end Unmask.ConstantBindings
