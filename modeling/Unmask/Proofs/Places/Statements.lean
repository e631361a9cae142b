import Unmask.Proofs.Places.SimpleStatements
import Unmask.Syntax.Grammar.Statement

/-!
# Programs and their places

All constants of a compound statement are written where it is read. Each rule reads what is written
if the rules it refers back to do, and so all rules do: the constants of a program are all written
in its source.
-/
namespace Unmask

open Cursor Unmask.Expr

namespace Grammar

variable {src : List Char} {g : Rules} {p n : Nat} {c : Cursor}

lemma continuation?_goes (hc : c.Behind src p) (w : String) : Goes src p (continuation? c w) :=
  .ite (.some (afterWord_behind hc)) .none

lemma suite_yields (hg : g.Reads src) :
    Yields src (fun body => ∀ s ∈ body, Stmt.WrittenIn src s) (suite g) :=
  fun _ _ hc => Goes.join (.ite (.some (hc.advance 1)) .none) fun _ hc => hg.suite hc

lemma elseSuite_yields (hg : g.Reads src) :
    Yields src (fun body => ∀ s ∈ body, Stmt.WrittenIn src s) (elseSuite g) := by
  intro p c hc
  unfold elseSuite
  split
  · next c₁ h => exact suite_yields hg (continuation?_goes hc _ c₁ h)
  · exact .some (List.forall_mem_nil _) hc

lemma ifRest_yields (hg : g.Reads src) (n : Nat) :
    Yields src (Stmt.WrittenIn src) (ifRest g n) := by
  induction n with
  | zero => exact fun _ _ _ => .none
  | succ n ih =>
    intro p c hc
    refine (hg.expr .free hc).bind fun test c htest hc => ?_
    refine (suite_yields hg hc).bind fun body c hbody hc => ?_
    dsimp only
    split
    · next c₁ h =>
      refine (ih (continuation?_goes hc _ c₁ h)).bind fun rest c hrest hc => ?_
      have horelse := List.forall_mem_singleton.mpr hrest
      exact .some (Stmt.writtenIn_ite.mpr ⟨htest, hbody, horelse⟩) hc
    · exact (elseSuite_yields hg hc).bind fun orelse c horelse hc =>
        .some (Stmt.writtenIn_ite.mpr ⟨htest, hbody, horelse⟩) hc

lemma whileStatement_yields (hg : g.Reads src) :
    Yields src (Stmt.WrittenIn src) (whileStatement g) := by
  intro p c hc
  refine (keyword?_goes hc _).bind fun c hc => ?_
  refine (hg.expr .free hc).bind fun test c htest hc => ?_
  refine (suite_yields hg hc).bind fun body c hbody hc => ?_
  exact (elseSuite_yields hg hc).bind fun orelse c horelse hc =>
    .some (Stmt.writtenIn_whileLoop.mpr ⟨htest, hbody, horelse⟩) hc

lemma forStatement_yields (hg : g.Reads src) (n : Nat) (isAsync : Bool) :
    Yields src (Stmt.WrittenIn src) (forStatement g n isAsync) := by
  intro p c hc
  refine (keyword?_goes hc _).bind fun c hc => ?_
  refine (targetList_yields hg .free n hc).bind fun target c htarget hc => ?_
  refine (keyword?_goes hc _).bind fun c hc => ?_
  refine (expressionList_yields hg .free n hc).bind fun iter c hiter hc => ?_
  refine (suite_yields hg hc).bind fun body c hbody hc => ?_
  exact (elseSuite_yields hg hc).bind fun orelse c horelse hc =>
    .some ((Stmt.writtenIn_forLoop isAsync).mpr ⟨⟨htarget, hiter⟩, hbody, horelse⟩) hc

lemma caught_yields (hg : g.Reads src) (n : Nat) :
    Yields src (fun r => ∀ e ∈ r.1, Expr.WrittenIn src e) (caught g n) := by
  intro p c hc
  refine .ite (.some nofun hc) ?_
  refine (conditional_yields hg .free n hc).bind fun type c htype hc => ?_
  have hsome : ∀ e ∈ some type, Expr.WrittenIn src e := fun e he => Option.some.inj he ▸ htype
  dsimp -zeta only
  extract_lets rest
  have hrest {r : Option Cursor} (h : Goes src p r) :
      Lands src p (fun r => ∀ e ∈ r.1, Expr.WrittenIn src e) (r.map some >>= rest) := by
    cases r with
    | none => exact .none
    | some first =>
      exact (conditional_yields hg .free n (h first rfl)).bind fun _ stop _ hstop =>
        .some hsome hstop
  refine .ite (hrest (keyword?_goes hc _)) (.ite (hrest (operand?_goes hc 1)) ?_)
  exact .some hsome hc

lemma exceptClause_yields (hg : g.Reads src) (n : Nat) :
    Yields src (Handler.WrittenIn src) (exceptClause g n) := by
  intro p c hc
  refine (continuation?_goes hc _).bind fun c hc => ?_
  have hstar : (if c.isSymbol "*" then c.advance 1 else c).Behind src p := by
    split
    · exact hc.advance 1
    · exact hc
  refine (caught_yields hg n hstar).bind fun ⟨type, _⟩ c htype hc => ?_
  exact (suite_yields hg hc).bind fun body c hbody hc => .some ⟨htype, hbody⟩ hc

lemma tryStatement_yields (hg : g.Reads src) (n : Nat) :
    Yields src (Stmt.WrittenIn src) (tryStatement g n) := by
  intro p c hc
  refine (suite_yields hg (afterWord_behind hc)).bind fun body c hbody hc => ?_
  refine (many_nil (exceptClause_yields hg n) n hc).bind fun handlers c hhandlers hc => ?_
  refine (elseSuite_yields hg hc).bind fun orelse c horelse hc => ?_
  have hwhole {finalbody : List Stmt} (hfinal : ∀ s ∈ finalbody, s.WrittenIn src) :
      (Stmt.tryBlock body handlers orelse finalbody false).WrittenIn src :=
    (Stmt.writtenIn_tryBlock false).mpr ⟨⟨⟨hbody, hhandlers⟩, horelse⟩, hfinal⟩
  dsimp only
  split
  · next c₁ h =>
    exact (suite_yields hg (continuation?_goes hc _ c₁ h)).bind fun finalbody c hfinal hc =>
      .some (hwhole hfinal) hc
  · exact .some (hwhole (List.forall_mem_nil _)) hc

lemma withStatement_yields (hg : g.Reads src) (n : Nat) (isAsync : Bool) :
    Yields src (Stmt.WrittenIn src) (withStatement g n isAsync) := by
  intro p c hc
  refine (keyword?_goes hc _).bind fun first hfirst => ?_
  refine (hg.expr .free hfirst).bind fun e c he hc => ?_
  refine (elements_single (hg.expr .free) n he hc).bind fun _ stop _ hstop => ?_
  exact (suite_yields hg hstop).bind fun body c hbody hc =>
    .some ((Stmt.writtenIn_withBlock _ isAsync).mpr hbody) hc

lemma typeParameters?_passes (hg : g.Reads src) (n : Nat) (isGeneric : Bool)
    (hc : c.Behind src p) :
    Lands src p (fun _ => True) (if isGeneric then typeParameters g n c else some ((), c)) :=
  .ite (typeParameters_passes hg n hc) (.some trivial hc)

lemma functionRest_yields (hg : g.Reads src) (n : Nat) (first : Cursor) {decorators : List Expr}
    (hdecorators : ∀ e ∈ decorators, e.WrittenIn src) (isAsync : Bool) :
    Yields src (Stmt.WrittenIn src) (functionRest g n first decorators isAsync) := by
  intro p c hc
  refine (name?_lands (afterWord_behind hc)).bind fun name afterName _ hc => ?_
  refine Lands.join (typeParameters?_passes hg n _ hc) fun _ paramsStart _ hc => ?_
  refine (symbol?_goes hc _).bind fun inner hinner => ?_
  refine (parameters_passes hg true ")" n hinner).bind fun _ c _ hc => ?_
  refine (symbol?_goes hc _).bind fun paramsStop hparams => ?_
  extract_lets params rest
  have hrest (returns : Option String) (c : Cursor) (hc : c.Behind src p) :
      Lands src p (Stmt.WrittenIn src) (rest (returns, c)) := by
    refine (suite_yields hg hc).bind fun body stop hbody hstop => ?_
    refine .ite (written_lands first hstop) (.some ?_ hstop)
    exact (Stmt.writtenIn_functionDef ..).mpr ⟨hdecorators, hbody⟩
  refine .ite ?_ (hrest none paramsStop hparams)
  refine (operand?_goes hparams 2).bind fun typeStart hc => ?_
  exact (typeExpression_passes hg .free hc).bind fun _ typeStop _ hc => hrest _ typeStop hc

lemma classRest_yields (hg : g.Reads src) (n : Nat) (first : Cursor) {decorators : List Expr}
    (hdecorators : ∀ e ∈ decorators, e.WrittenIn src) :
    Yields src (Stmt.WrittenIn src) (classRest g n first decorators) := by
  intro p c hc
  refine (name?_lands (afterWord_behind hc)).bind fun name afterName _ hc => ?_
  refine Lands.join (typeParameters?_passes hg n _ hc) fun _ c _ hc => ?_
  have hbases : Lands src p (ArgumentsWritten src)
      (if c.isSymbol "(" then argumentList g n c else some (([], []), c)) :=
    .ite (argumentList_yields hg n hc) (.some ⟨nofun, nofun⟩ hc)
  refine Lands.join hbases fun ⟨bases, keywords⟩ c ⟨hbases, hkeywords⟩ hc => ?_
  refine (suite_yields hg hc).bind fun body stop hbody hstop => ?_
  refine .ite (written_lands first hstop) (.some ?_ hstop)
  exact (Stmt.writtenIn_classDef name).mpr ⟨⟨⟨hdecorators, hbases⟩, hkeywords⟩, hbody⟩

lemma definition_yields (hg : g.Reads src) (n : Nat) (first : Cursor) {decorators : List Expr}
    (hdecorators : ∀ e ∈ decorators, e.WrittenIn src) :
    Yields src (Stmt.WrittenIn src) (definition g n first decorators) := by
  intro p c hc
  refine .ite (functionRest_yields hg n first hdecorators false hc) ?_
  refine .ite (classRest_yields hg n first hdecorators hc) (.ite ?_ .none)
  exact functionRest_yields hg n first hdecorators true (afterWord_behind hc)

lemma decorator_yields (hg : g.Reads src) : Yields src (Expr.WrittenIn src) (decorator g) := by
  intro p c hc
  refine Goes.join (.ite (operand?_goes hc 1) .none) fun c hc => ?_
  exact (hg.expr .statement hc).bind fun e c he hc => .ite (.some he hc) .none

lemma decorated_yields (hg : g.Reads src) (n : Nat) :
    Yields src (Stmt.WrittenIn src) (decorated g n) := by
  intro p c hc
  exact (many_nil (decorator_yields hg) n hc).bind fun decorators c₁ hdecorators hc₁ =>
    definition_yields hg n c hdecorators hc₁

lemma caseClause_passes (hg : g.Reads src) (n indent : Nat) :
    Passes src (caseClause g n indent) := by
  intro p c hc
  unfold caseClause
  extract_lets body rest
  have hbody (c : Cursor) (hc : c.Behind src p) : Lands src p (fun _ => True) (body c) :=
    (suite_yields hg hc).bind fun _ c _ hc => .some trivial hc
  have hrest (c : Cursor) (hc : c.Behind src p) : Lands src p (fun _ => True) (rest c) := by
    refine (hg.pattern hc).bind fun _ c _ hc => ?_
    refine (elements_single hg.pattern n trivial hc).bind fun _ c _ hc => .ite ?_ (hbody c hc)
    refine (keyword?_goes hc _).bind fun c hc => ?_
    exact (hg.expr .free hc).goes.bind hbody
  split
  · exact .ite .none ((keyword?_goes hc _).bind hrest)
  · exact (keyword?_goes hc _).bind hrest

lemma matchStatement_yields (hg : g.Reads src) (n : Nat) :
    Yields src (Stmt.WrittenIn src) (matchStatement g n) := by
  intro p c hc
  refine (expressionList_yields hg .free n (afterWord_behind hc)).bind fun _ head _ hhead => ?_
  refine (symbol?_goes hhead _).bind fun head hhead => ?_
  refine Lands.given fun width => .ite (written_lands c hhead) ?_
  refine (many_nil (caseClause_passes hg n width) n (hhead.indented width)).bind
    fun cases stop _ hstop => ?_
  exact .ite .none (written_lands c (hstop.indented c.indent))

lemma compoundStatement_yields (hg : g.Reads src) (n : Nat) :
    Yields src (Stmt.WrittenIn src) (compoundStatement g n) := by
  intro p c hc
  have hafter := afterWord_behind hc
  have hdefinition := definition_yields hg n c (List.forall_mem_nil _) hc
  refine .ite ((keyword?_goes hc _).bind fun c hc => ifRest_yields hg n hc) ?_
  refine .ite (whileStatement_yields hg hc) ?_
  refine .ite (forStatement_yields hg n false hc) ?_
  refine .ite (tryStatement_yields hg n hc) ?_
  refine .ite (withStatement_yields hg n false hc) ?_
  refine .ite hdefinition ?_
  refine .ite (decorated_yields hg n hc) ?_
  -- what can follow `async`, and at last `match`
  refine .ite (.ite hdefinition (.ite ?_ (.ite ?_ .none))) (.ite ?_ .none)
  · exact forStatement_yields hg n true hafter
  · exact withStatement_yields hg n true hafter
  · exact matchStatement_yields hg n hc

lemma statement_yields (hg : g.Reads src) (n : Nat) :
    Yields src (fun body => ∀ s ∈ body, Stmt.WrittenIn src s) (statement g n) := by
  intro p c hc
  unfold statement
  split
  · next s c₁ h =>
    obtain ⟨hs, hc₁⟩ := compoundStatement_yields hg n hc s c₁ h
    exact .some (List.forall_mem_singleton.mpr hs) hc₁
  · exact simpleStatements_yields hg n (List.forall_mem_nil _) hc

lemma statements_yields (hg : g.Reads src) (n m : Nat) {done : List Stmt}
    (hdone : ∀ s ∈ done, s.WrittenIn src) :
    Yields src (fun body => ∀ s ∈ body, Stmt.WrittenIn src s) (statements g n m done) := by
  intro p c hc
  induction m generalizing done p c with
  | zero => exact .none
  | succ m ih =>
    refine .ite (.some (fun s hs => hdone s (List.mem_reverse.mp hs)) hc) ?_
    refine (statement_yields hg n hc).bind fun body c hbody hc => ih ?_ hc
    exact List.forall_mem_append.mpr ⟨fun s hs => hbody s (List.mem_reverse.mp hs), hdone⟩

lemma block_yields (hg : g.Reads src) (n : Nat) :
    Yields src (fun body => ∀ s ∈ body, Stmt.WrittenIn src s) (block g n) := by
  intro p c hc
  have hnil : ∀ s ∈ ([] : List Stmt), s.WrittenIn src := List.forall_mem_nil _
  unfold block
  split
  · exact simpleStatements_yields hg n hnil hc
  · next width _ =>
    refine .ite ?_ (.some hnil hc)
    exact (statements_yields hg n n hnil (hc.indented width)).map fun body stop hbody hstop =>
      ⟨hbody, hstop.indented c.indent⟩

end Grammar

/-- The rules read what is written, however many steps they may take. -/
theorem Rules.upTo_reads (src : List Char) (n : Nat) : (Rules.upTo n).Reads src := by
  induction n with
  | zero => exact ⟨nofun, nofun, nofun, nofun, nofun, nofun, nofun⟩
  | succ n ih =>
    exact
      { expr := fun f => Grammar.expr_yields ih f n
        unary := fun f => Grammar.unary_yields ih f n
        inversion := fun f => Grammar.inversion_yields ih f n
        target := fun f => Grammar.target_yields ih f n
        pattern := Grammar.pattern_passes ih n
        hole := Grammar.hole_passes ih n
        suite := Grammar.block_yields ih n }

lemma Module.written {chars : List Char} {m : Module} (h : Module.ofChars? chars = some m) :
    ∀ s ∈ m, s.WrittenIn (unifyLineEnds chars) := by
  unfold Module.ofChars? at h
  dsimp only at h
  split at h
  · next body c hread =>
    obtain ⟨-, heq⟩ := Option.ite_none_right_eq_some.mp h
    obtain rfl := Option.some.inj heq
    exact (Grammar.statements_yields (Rules.upTo_reads _ _) _ _ (List.forall_mem_nil _)
      (Cursor.behind_start _) body c hread).1
  · contradiction

/-- Every constant of a program is written in its source. -/
theorem Module.constants_written {source : String} {m : Module}
    (h : Module.parse source = .ok m) {k : Constant} (hk : .constant k ∈ Node.exprs m.nodes) :
    k.WrittenIn (unifyLineEnds source.toList) := by
  have hm : Module.ofChars? source.toList = some m := by
    unfold Module.parse at h
    split at h
    · next heq => exact Except.ok.inj h ▸ heq
    · contradiction
  exact Stmt.allWritten_body.mpr (Module.written hm) k hk

end Unmask
