import Unmask.Disguise.BlankObf.Folding
import Unmask.Proofs.Asking
import Unmask.Proofs.LinkedFolds

/-!
# Texts that are evaluated without end

The fold of constants follows each text that is given to `eval`, with the names bound so far, and
nothing makes such a text smaller than the expression it stands in: a name may stand for the very
text in which it is evaluated. So a program is folded, at some depth, just if it does not begin a
chain of texts that goes on without an end.
-/
namespace Unmask.BlankObf

section Linked

variable {m n : Type → Type} [Monad m] [Monad n]
  {R : ∀ {α : Type}, StateT Bindings m α → StateT Bindings n α → Prop}
  {nested : Expr → StateT Bindings m Expr} {nested' : Expr → StateT Bindings n Expr}

/-- Folding an expression is related if folding the text given to `eval` is. -/
lemma folding_linkedExprs (hR : Linking (StateT Bindings m) (StateT Bindings n) R)
    (hget : R get get) (hnested : ∀ e, R (nested e) (nested' e)) :
    (folding nested).LinkedExprs (folding nested') R where
  toLinking := hR
  expr e x y h := by
    refine hR.bind hget fun bindings => ?_
    cases boundLiteral? bindings e with
    | some literal => exact hR.pure literal
    | none =>
      refine hR.bind h fun e => ?_
      unfold foldParts
      cases evaluated? e with
      | some inner => exact hnested inner
      | none => exact hR.pure _

/-- And so is folding a statement. -/
lemma folding_linked (hR : Linking (StateT Bindings m) (StateT Bindings n) R) (hget : R get get)
    (hmodify : ∀ f : Bindings → Bindings, R (modify f) (modify f))
    (hnested : ∀ e, R (nested e) (nested' e)) :
    (folding nested).Linked (folding nested') R where
  toLinkedExprs := folding_linkedExprs hR hget hnested
  stmt s x y h := by
    refine hR.bind h fun s => ?_
    unfold foldStmt
    cases binding? s with
    | some b => exact hR.bind (hmodify _) fun _ => hR.pure _
    | none => exact hR.pure _

end Linked

/-- An expression that `eval` has read from a text, and what the names stand for there. -/
abbrev EvalText := Expr × Bindings

/-- Asks for what a text is folded to. -/
def askFor (e : Expr) : StateT Bindings (Asking EvalText EvalText) Expr :=
  fun bindings => .ask (e, bindings) .done

/-- The fold that asks for what the texts given to `eval` are folded to. -/
def asker : Fold (StateT Bindings (Asking EvalText EvalText)) := folding askFor

/-- How a text is folded. -/
def plan (t : EvalText) : Asking EvalText EvalText EvalText := (asker.onExpr t.1).run t.2

/-- The text is evaluated when the program is folded. -/
def Evaluates (m : Module) (t : EvalText) : Prop := Asking.Asks plan ((asker.onBody m).run []) t

/-- When the first text is folded, the second is evaluated within it. -/
def Nests (t inner : EvalText) : Prop := Asking.Leads plan t inner

/-- A computation is one that asks, run with answers. -/
def Answers (answer : EvalText → Option EvalText) {α : Type}
    (x : StateT Bindings (Asking EvalText EvalText) α) (y : StateT Bindings Option α) : Prop :=
  ∀ bindings, y.run bindings = (x.run bindings).run? answer

lemma answers_linking (answer : EvalText → Option EvalText) :
    Linking (StateT Bindings (Asking EvalText EvalText)) (StateT Bindings Option)
      (Answers answer) where
  pure a bindings := rfl
  bind {_ _ x y f g} hx hf bindings := by
    rw [StateT.run_bind, StateT.run_bind, Asking.run?_bind, hx bindings]
    cases (x.run bindings).run? answer with
    | none => rfl
    | some r => exact hf r.1 r.2

/-- The fold to a depth is the one that asks, run with the answers from a lower depth. -/
lemma folder_linked (n : Nat) :
    asker.Linked (folder n) (Answers (Asking.answers plan n)) := by
  induction n with
  | zero => exact folding_linked (answers_linking _) (fun _ => rfl) (fun _ _ => rfl) fun _ _ => rfl
  | succ n ih =>
    refine folding_linked (answers_linking _) (fun _ => rfl) (fun _ _ => rfl) fun e bindings => ?_
    have hnested : ((folder n).onExpr e).run bindings = Asking.answers plan (n + 1) (e, bindings) :=
      ih.onExpr e bindings
    exact hnested.trans (Option.bind_fun_some _).symm

lemma foldWithin_eq (n : Nat) (m : Module) :
    foldWithin n m = ((asker.onBody m).run []).run? (Asking.answers plan n) :=
  (folder_linked n).onBody m []

/-- What a program is folded to does not depend on the depth, once it is enough. -/
theorem foldWithin_mono {n k : Nat} (hnk : n ≤ k) {m : Module} {r : Module × Bindings}
    (h : foldWithin n m = some r) : foldWithin k m = some r := by
  rw [foldWithin_eq] at h ⊢
  exact Asking.run?_mono (fun _ _ => Asking.answers_mono hnk) h

/-- A program is folded at some depth if and only if no chain of texts, each evaluated within the
one before, begins in it and goes on without an end. -/
theorem folded_iff_no_chain (m : Module) :
    (∃ n, (foldWithin n m).isSome) ↔
      ¬ ∃ chain : Nat → EvalText, Evaluates m (chain 0) ∧ ∀ i, Nests (chain i) (chain (i + 1)) := by
  simp only [foldWithin_eq]
  exact Asking.exists_result_iff _

/-- A program in which no text is evaluated is folded at every depth. -/
theorem folded_of_no_text {m : Module} (h : ∀ t, ¬ Evaluates m t) (n : Nat) :
    (foldWithin n m).isSome := by
  obtain ⟨r, hdone⟩ := Asking.exists_done h
  rw [foldWithin_eq, hdone]
  rfl

/-- A program in which a text is evaluated that is evaluated within itself has no result. -/
lemma endless {m : Module} {t : EvalText} (h : Evaluates m t) (hself : Nests t t) :
    ¬ ∃ n, (foldWithin n m).isSome := by
  rintro ⟨n, hsome⟩
  obtain ⟨r, hrun⟩ := Option.isSome_iff_exists.mp hsome
  rw [foldWithin_eq] at hrun
  obtain ⟨answer, hanswer⟩ := Asking.Asks.answer h hrun
  have hnone : Asking.answers plan n t = none :=
    Asking.answers_chain (fun _ => t) (fun _ => hself) n 0
  rw [hnone] at hanswer
  contradiction

/-- `eval(a)` -/
def evalName : Expr := .apply (.name "eval") [.name "a"]

/-- `a = 'text'`, `exec(eval(a))` -/
def evaluation (text : String) : Module :=
  [.assign [.name "a"] (.str text), .expr (.apply (.name "exec") [evalName])]

section Evaluation

variable {text : String} {e : Expr}

/-- `eval(a)` asks what the text that the name stands for is folded to. -/
lemma evalName_asks (h : Expr.parse text = .ok e) :
    (asker.onExpr evalName).run [("a", .str text)] = .ask (e, [("a", .str text)]) .done := by
  show (foldParts _ (.apply (.name "eval") [.str text])).run _ = _
  have hread : evaluated? (.apply (.name "eval") [.str text]) = some e := by
    show (Expr.parse text).toOption = some e
    rw [h]
    rfl
  rw [foldParts, hread]
  rfl

/-- A call is folded after its parts. -/
lemma call_run (func : Expr) (args : List Expr) (bindings : Bindings) :
    (asker.onExpr (.apply func args)).run bindings =
      ((do
        let func ← asker.onExpr func
        let args ← asker.onExprs args
        return Expr.call func args (← asker.onKeywords [])).run bindings >>=
          fun r => (foldParts askFor r.1).run r.2) := rfl

/-- A statement is folded after its expression. -/
lemma expr_run (value : Expr) (bindings : Bindings) :
    (asker.onStmt (.expr value)).run bindings =
      ((do return Stmt.expr (← asker.onExpr value)).run bindings >>=
        fun r => (foldStmt r.1).run r.2) := rfl

lemma evaluation_asks (h : Expr.parse text = .ok e) :
    Evaluates (evaluation text) (e, [("a", .str text)]) := by
  have hassign : (asker.onStmt (.assign [.name "a"] (.str text))).run [] =
      .done ([], [("a", .str text)]) := rfl
  have hname : (asker.onExpr (.name "exec")).run [("a", .str text)] =
      .done (.name "exec", [("a", .str text)]) := rfl
  have hargs : Asking.Asks plan ((asker.onExprs [evalName]).run [("a", .str text)])
      (e, [("a", .str text)]) := by
    rw [Fold.onExprs, StateT.run_bind, evalName_asks h, Asking.ask_bind]
    exact .now
  have hcall : Asking.Asks plan
      ((asker.onExpr (.apply (.name "exec") [evalName])).run [("a", .str text)])
      (e, [("a", .str text)]) := by
    rw [call_run, StateT.run_bind, hname, Asking.done_bind, StateT.run_bind]
    exact (hargs.andThen _).andThen _
  have hexec : Asking.Asks plan
      ((asker.onStmt (.expr (.apply (.name "exec") [evalName]))).run [("a", .str text)])
      (e, [("a", .str text)]) := by
    rw [expr_run, StateT.run_bind]
    exact (hcall.andThen _).andThen _
  have hbody : Asking.Asks plan
      ((asker.onBody [.expr (.apply (.name "exec") [evalName])]).run [("a", .str text)])
      (e, [("a", .str text)]) := by
    rw [Fold.onBody, StateT.run_bind]
    exact hexec.andThen _
  unfold Evaluates evaluation
  rw [Fold.onBody, StateT.run_bind, hassign, Asking.done_bind, StateT.run_bind]
  exact hbody.andThen _

end Evaluation

/-- Whether a text is a call of `eval` on the name. -/
def readsItself : Except SyntaxError Expr → Bool
  | .ok (.call (.name function) [.name id] []) => function == "eval" && id == "a"
  | _ => false

lemma parse_evalName : Expr.parse "eval(a)" = .ok evalName := by
  have hread : readsItself (Expr.parse "eval(a)") = true := by decide +kernel
  unfold readsItself at hread
  split at hread
  · next function id hparse =>
    obtain ⟨rfl, rfl⟩ : function = "eval" ∧ id = "a" := by simpa using hread
    rw [hparse]
    rfl
  · contradiction

/-- `a = 'eval(a)'`, `exec(eval(a))` has no result: within the text the same text is evaluated. -/
theorem evaluation_self_endless : ¬ ∃ n, (foldWithin n (evaluation "eval(a)")).isSome := by
  have hself : Nests (evalName, [("a", .str "eval(a)")]) (evalName, [("a", .str "eval(a)")]) := by
    unfold Nests Asking.Leads plan
    rw [evalName_asks parse_evalName]
    exact .now
  exact endless (evaluation_asks parse_evalName) hself

end Unmask.BlankObf
