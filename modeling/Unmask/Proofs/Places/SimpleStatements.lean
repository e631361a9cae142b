import Unmask.Proofs.Places.Expressions

/-!
# Simple statements and their places

All constants of a statement that is read in one line are written where it is read, by the rules for
assignments, imports and the statements that begin with a word. Patterns hold none that are kept.
-/
namespace Unmask

open Cursor Unmask.Expr

namespace Grammar

variable {src : List Char} {g : Rules} {f : Frame} {p n : Nat} {c : Cursor}

lemma dottedRest_passes (src : List Char) (n : Nat) (done : List String) :
    Passes src (dottedRest n done) := by
  intro p c hc
  induction n generalizing done p c with
  | zero => exact .none
  | succ n ih =>
    unfold dottedRest
    split
    · next id c₁ h =>
      obtain ⟨c₂, hpoint, hname⟩ := Option.bind_eq_some_iff.mp h
      exact ih _ (name?_lands (symbol?_goes hc _ c₂ hpoint) id c₁ hname).2
    · exact .some trivial hc

lemma dottedName_passes (src : List Char) (n : Nat) : Passes src (dottedName n) :=
  fun _ _ hc => (name?_lands hc).bind fun _ _ _ hc =>
    (dottedRest_passes src n _ hc).bind fun _ _ _ hc => .some trivial hc

lemma numberAtom_passes (src : List Char) : Passes src numberAtom :=
  fun _ _ hc => (numberAtom_yields src hc).imp fun _ _ => trivial

/-- Either of two symbols. -/
lemma symbols_goes (hc : c.Behind src p) (s t : String) :
    Goes src p ((c.symbol? s).or (c.symbol? t)) := by
  intro c' h
  rcases Option.or_eq_some_iff.mp h with h | ⟨-, h⟩
  · exact symbol?_goes hc s c' h
  · exact symbol?_goes hc t c' h

lemma signedNumber_passes (src : List Char) : Passes src signedNumber := by
  intro p c hc
  have hsign : ((c.symbol? "-").getD c).Behind src p := by
    cases h : c.symbol? "-" with
    | none => exact hc
    | some c₁ => exact symbol?_goes hc _ c₁ h
  exact (numberAtom_passes src hsign).bind fun _ c _ hc => .some trivial hc

lemma numberPattern_passes (src : List Char) : Passes src numberPattern := by
  intro p c hc
  refine (signedNumber_passes src hc).bind fun _ c _ hc => ?_
  dsimp only
  split
  · next right h =>
    exact (numberAtom_passes src (symbols_goes hc _ _ right h)).bind fun _ c _ hc =>
      .some trivial hc
  · exact .some trivial hc

lemma spreadPattern_passes (src : List Char) : Passes src spreadPattern :=
  fun _ _ hc => (symbols_goes hc _ _).bind fun _ hc =>
    (name?_lands hc).bind fun _ _ _ hc => .some trivial hc

lemma patternsUpTo_passes {rule : Rule Unit} (h : Passes src rule) (close : String) (n : Nat) :
    Passes src (patternsUpTo rule close n) := by
  intro p c hc
  unfold patternsUpTo
  split
  · next stop hstop => exact .some trivial (symbol?_goes hc _ stop hstop)
  · refine (h hc).bind fun _ c _ hc => ?_
    refine (elements_single h n trivial hc).bind fun _ c _ hc => ?_
    exact (symbol?_goes hc close).bind fun c hc => .some trivial hc

lemma namePattern_passes (hg : g.Reads src) (n : Nat) : Passes src (namePattern g n) := by
  intro p c hc
  refine (dottedName_passes src n hc).bind fun _ c _ hc => ?_
  dsimp only
  split
  · next inner h => exact patternsUpTo_passes hg.pattern ")" n (symbol?_goes hc _ inner h)
  · exact .some trivial hc

lemma closedPattern_passes (hg : g.Reads src) {pair : Rule Unit} (hpair : Passes src pair)
    (n : Nat) : Passes src (closedPattern g pair n) := by
  intro p c hc
  unfold closedPattern
  split
  · exact patternsUpTo_passes hg.pattern "]" n (hc.advance 1)
  split
  · exact patternsUpTo_passes hg.pattern ")" n (hc.advance 1)
  split
  · exact patternsUpTo_passes hpair "\x7d" n (hc.advance 1)
  split
  · exact spreadPattern_passes src hc
  split
  · exact (stringAtom_yields hg .free n hc).map fun _ c _ hc => ⟨trivial, hc⟩
  split
  · exact numberPattern_passes src hc
  split
  · exact .some trivial (afterWord_behind hc)
  · exact namePattern_passes hg n hc

lemma alternatives_passes {rule : Rule Unit} (h : Passes src rule) (n : Nat) :
    Passes src (alternatives rule n) := by
  intro p c hc
  induction n generalizing p c with
  | zero => exact .none
  | succ n ih =>
    unfold alternatives
    split
    · exact .some trivial hc
    · next c₁ h₁ => exact (h (symbol?_goes hc _ c₁ h₁)).bind fun _ c _ hc => ih hc

lemma patternNames_passes (src : List Char) (n : Nat) : Passes src (patternNames n) := by
  intro p c hc
  induction n generalizing p c with
  | zero => exact .none
  | succ n ih =>
    exact .ite ((name?_lands (afterWord_behind hc)).bind fun _ c _ hc => ih hc) (.some trivial hc)

lemma unionPattern_passes (hg : g.Reads src) {pair : Rule Unit} (hpair : Passes src pair)
    (n : Nat) : Passes src (unionPattern g pair n) :=
  fun _ _ hc => (closedPattern_passes hg hpair n hc).bind fun _ _ _ hc =>
    alternatives_passes (closedPattern_passes hg hpair n) n hc

lemma keywordPattern_passes (hg : g.Reads src) {pair : Rule Unit} (hpair : Passes src pair)
    (n : Nat) : Passes src (keywordPattern g pair n) :=
  fun _ _ hc => (name?_lands hc).bind fun _ _ _ hc =>
    (symbol?_goes hc _).bind fun _ hc => unionPattern_passes hg hpair n hc

lemma pairPattern_passes (hg : g.Reads src) (n : Nat) : Passes src (pairPattern g n) := by
  induction n with
  | zero => exact fun _ _ _ => .none
  | succ n ih =>
    intro p c hc
    refine .ite (spreadPattern_passes src hc) ?_
    refine (unionPattern_passes hg ih n hc).bind fun _ c _ hc => ?_
    exact (symbol?_goes hc _).bind fun c hc => hg.pattern hc

lemma pattern_passes (hg : g.Reads src) (n : Nat) : Passes src (pattern g n) := by
  intro p c hc
  have hpair := pairPattern_passes hg n
  have heither : Lands src p (fun _ => True)
      ((keywordPattern g (pairPattern g n) n c).or (unionPattern g (pairPattern g n) n c)) := by
    intro x c' h
    rcases Option.or_eq_some_iff.mp h with h | ⟨-, h⟩
    · exact keywordPattern_passes hg hpair n hc x c' h
    · exact unionPattern_passes hg hpair n hc x c' h
  exact heither.bind fun _ c _ hc => patternNames_passes src n hc

/-- What the right side of an assignment holds. -/
def RightSide.WrittenIn (src : List Char) : RightSide → Prop
  | .value e => e.WrittenIn src
  | .assigned targets e => (∀ t ∈ targets, t.WrittenIn src) ∧ e.WrittenIn src
  | .yielded | .mixed => True

lemma assignmentTarget_yields (hg : g.Reads src) (n : Nat) (symbol : List Char) :
    Yields src (Expr.WrittenIn src) (assignmentTarget g n symbol) := by
  intro p c hc
  refine (targetList_yields hg .statement n hc).bind fun target c htarget hc => ?_
  exact .ite ((operand?_goes hc _).bind fun c hc => .some htarget hc) .none

lemma typeExpression_passes (hg : g.Reads src) (f : Frame) : Passes src (typeExpression g f) := by
  intro p c hc
  unfold typeExpression
  extract_lets rest
  have hrest (c : Cursor) (hc : c.Behind src p) : Lands src p (fun _ => True) (rest c) :=
    (hg.expr f hc).bind fun _ c _ hc => .some trivial hc
  refine .ite ((operand?_goes hc 1).bind hrest) (.ite ((operand?_goes hc 2).bind hrest) ?_)
  exact hrest c hc

lemma annotation_passes (hg : g.Reads src) {right : Rule RightSide} (hright : Passes src right) :
    Passes src <| annotation g right := by
  intro p c hc
  refine (typeExpression_passes hg .statement hc).bind fun _ c _ hc => .ite ?_ (.some trivial hc)
  refine (operand?_goes hc 1).bind fun c hc => ?_
  exact (hright hc).bind fun _ c _ hc => .some trivial hc

lemma rightSide_yields (hg : g.Reads src) (n m : Nat) :
    Yields src (RightSide.WrittenIn src) (rightSide g n m) := by
  intro p c hc
  induction m generalizing p c with
  | zero => exact .none
  | succ m ih =>
    refine .ite ((yield_passes hg .statement n hc).map fun _ c _ hc => ⟨trivial, hc⟩) ?_
    refine (expressionList_yields hg .statement n hc).bind fun value stop hvalue hstop => ?_
    refine .ite (.some hvalue hstop) (.ite ?_ (.ite ?_ ?_))
    · refine (assignmentTarget_yields hg n ['='] hc).bind fun target c htarget hc => ?_
      refine (ih hc).bind fun right c hright hc => ?_
      dsimp only
      split
      · exact .some ⟨List.forall_mem_singleton.mpr htarget, hright⟩ hc
      · exact .some ⟨List.forall_mem_cons.mpr ⟨htarget, hright.1⟩, hright.2⟩ hc
      · exact .some trivial hc
    · refine (assignmentTarget_yields hg n [':'] hc).bind fun _ c _ hc => ?_
      have hright : Passes src (rightSide g n m) := fun _ _ hc => (ih hc).imp fun _ _ => trivial
      exact (annotation_passes hg hright hc).bind fun _ c _ hc => .some trivial hc
    · split
      · next symbol _ =>
        refine (assignmentTarget_yields hg n symbol hc).bind fun _ c _ hc => ?_
        exact (ih hc).bind fun _ c _ hc => .some trivial hc
      · exact .some hvalue hstop

lemma rightSide_passes (hg : g.Reads src) (n m : Nat) : Passes src (rightSide g n m) :=
  fun _ _ hc => (rightSide_yields hg n m hc).imp fun _ _ => trivial

lemma written_lands (first : Cursor) (hc : c.Behind src p) :
    Lands src p (Stmt.WrittenIn src) (some (written first c)) :=
  .some (Stmt.writtenIn_verbatim _) hc

lemma assignment_yields (hg : g.Reads src) (n : Nat) (first : Cursor) {target : Expr}
    (htarget : target.WrittenIn src) :
    Yields src (Stmt.WrittenIn src) (assignment g n first target) := by
  intro p c hc
  refine (rightSide_yields hg n n hc).bind fun right stop hright hstop => ?_
  dsimp only
  split
  · exact .some (Stmt.writtenIn_assign.mpr ⟨List.forall_mem_singleton.mpr htarget, hright⟩) hstop
  · next targets e =>
    obtain ⟨htargets, he⟩ := hright
    exact .some (Stmt.writtenIn_assign.mpr ⟨List.forall_mem_cons.mpr ⟨htarget, htargets⟩, he⟩) hstop
  · exact written_lands first hstop

lemma augmentedAssignment_yields (hg : g.Reads src) (n : Nat) (first : Cursor) {target : Expr}
    (htarget : target.WrittenIn src) (symbol : List Char) :
    Yields src (Stmt.WrittenIn src) (augmentedAssignment g n first target symbol) := by
  intro p c hc
  refine (rightSide_yields hg n n hc).bind fun right stop hright hstop => ?_
  refine Lands.given fun op => ?_
  split
  · exact .some ((Stmt.writtenIn_augAssign op).mpr ⟨htarget, hright⟩) hstop
  · exact written_lands first hstop
  · exact .some ((Stmt.writtenIn_augAssign op).mpr ⟨htarget, writtenIn_verbatim _⟩) hstop

lemma expressionStatement_yields (hg : g.Reads src) (n : Nat) :
    Yields src (Stmt.WrittenIn src) (expressionStatement g n) := by
  intro p c hc
  refine .ite ?_ ?_
  · exact (yield_passes hg .statement n hc).map fun _ stop _ hstop =>
      ⟨Stmt.writtenIn_verbatim _, hstop⟩
  refine (hg.expr .statement hc).bind fun first c₁ hfirst hc₁ => ?_
  refine (elements_single (within_yields (hg.expr .statement) .statement) n hfirst hc₁).bind
    fun ⟨items, _⟩ stop hitems hstop => ?_
  dsimp -zeta only
  extract_lets value
  have hvalue : value.WrittenIn src := by
    dsimp only [value]
    split
    · exact Stmt.writtenIn_expr.mpr (hitems _ List.mem_cons_self)
    · exact Stmt.writtenIn_expr.mpr (writtenIn_tuple.mpr hitems)
  refine .ite (.some hvalue hstop) (.ite ?_ (.ite ?_ ?_))
  · exact (assignmentTarget_yields hg n ['='] hc).bind fun target c₂ htarget hc₂ =>
      assignment_yields hg n c htarget hc₂
  · refine (assignmentTarget_yields hg n [':'] hc).bind fun _ c₂ _ hc₂ => ?_
    exact (annotation_passes hg (rightSide_passes hg n n) hc₂).bind fun _ stop _ hstop =>
      written_lands c hstop
  · split
    · next symbol _ =>
      exact (assignmentTarget_yields hg n symbol hc).bind fun target c₂ htarget hc₂ =>
        augmentedAssignment_yields hg n c htarget symbol hc₂
    · exact .some hvalue hstop

lemma importedName_passes (src : List Char) (n : Nat) : Passes src (importedName n) := by
  intro p c hc
  refine (dottedName_passes src n hc).bind fun _ c _ hc => .ite ?_ (.some trivial hc)
  exact (name?_lands (afterWord_behind hc)).bind fun _ c _ hc => .some trivial hc

lemma importedNames_passes {rule : Rule Alias} (h : Passes src rule) (n : Nat) :
    Passes src (importedNames n rule) := by
  intro p c hc
  refine (h hc).bind fun _ c _ hc => ?_
  exact (elements_single h n trivial hc).bind fun _ c _ hc => .some trivial hc

lemma importStatement_yields (src : List Char) (n : Nat) :
    Yields src (Stmt.WrittenIn src) (importStatement n) := by
  intro p c hc
  have hnames := importedNames_passes (within_yields (importedName_passes src n) .statement) n
  exact (hnames (afterWord_behind hc)).bind fun names c _ hc =>
    .some (Stmt.writtenIn_alone rfl) hc

lemma leadingPoints_behind (hc : c.Behind src p) (n level : Nat) :
    (leadingPoints n level c).2.Behind src p := by
  induction n generalizing level c with
  | zero => exact hc
  | succ n ih =>
    unfold leadingPoints
    split
    · exact ih (hc.advance 3) _
    split
    · exact ih (hc.advance 1) _
    · exact hc

lemma importFrom_yields (src : List Char) (n : Nat) :
    Yields src (Stmt.WrittenIn src) (importFrom n) := by
  intro p c hc
  have hpoints := leadingPoints_behind (afterWord_behind hc) n 0
  unfold importFrom
  generalize leadingPoints n 0 c.afterWord = points at hpoints
  obtain ⟨level, c₁⟩ := points
  dsimp -zeta only
  extract_lets rest
  have hrest (module : Option String) (c : Cursor) (hc : c.Behind src p) :
      Lands src p (Stmt.WrittenIn src) (rest (module, c)) := by
    refine (keyword?_goes hc _).bind fun c hc => ?_
    refine .ite (.some (Stmt.writtenIn_alone rfl) (hc.advance 1)) ?_
    split
    · next c₂ h =>
      refine (importedNames_passes (importedName_passes src n) n (symbol?_goes hc _ c₂ h)).bind
        fun names c _ hc => ?_
      exact (symbol?_goes hc _).bind fun c hc => .some (Stmt.writtenIn_alone rfl) hc
    · have hnames := importedNames_passes (within_yields (importedName_passes src n) .statement) n
      exact (hnames hc).bind fun names c _ hc => .some (Stmt.writtenIn_alone rfl) hc
  split
  · next id c₂ h => exact hrest (some id) c₂ (dottedName_passes src n hpoints id c₂ h).2
  · split
    · exact .none
    · exact hrest none c₁ hpoints

/-- What a rule reads behind a comma in the same line. -/
lemma behindComma_yields {α : Type} {P : α → Prop} {rule : Rule α} (h : Yields src P rule) :
    Yields src P (fun c => do
      let c ← if !Frame.statement.stops c && c.isSymbol "," then c.operand? 1 else none
      rule c) :=
  fun _ _ hc => Goes.join (.ite (operand?_goes hc 1) .none) fun _ hc => h hc

lemma commaSeparated_yields (hg : g.Reads src) (n : Nat) :
    Yields src (fun es => ∀ e ∈ es, Expr.WrittenIn src e) (commaSeparated g n) := by
  intro p c hc
  refine (hg.expr .statement hc).bind fun first c hfirst hc => ?_
  exact (many_nil (behindComma_yields (hg.expr .statement)) n hc).bind fun rest c hrest hc =>
    .some (List.forall_mem_cons.mpr ⟨hfirst, hrest⟩) hc

lemma assertStatement_yields (hg : g.Reads src) (n : Nat) :
    Yields src (Stmt.WrittenIn src) (assertStatement g n) := by
  intro p c hc
  refine (keyword?_goes hc _).bind fun operand hoperand => ?_
  refine (commaSeparated_yields hg n hoperand).bind fun parts stop hparts hstop => ?_
  dsimp only
  split
  · next test => exact .some (Stmt.writtenIn_assert.mpr ⟨hparts test (by simp), nofun⟩) hstop
  · next test msg =>
    refine .some (Stmt.writtenIn_assert.mpr ⟨hparts test (by simp), fun e he => ?_⟩) hstop
    exact Option.some.inj he ▸ hparts msg (by simp)
  · exact written_lands c hstop

lemma returnStatement_yields (hg : g.Reads src) (n : Nat) :
    Yields src (Stmt.WrittenIn src) (returnStatement g n) := by
  intro p c hc
  have hafter := afterWord_behind hc
  refine .ite (.some (Stmt.writtenIn_ret.mpr nofun) hafter) ?_
  refine (expressionList_yields hg .statement n hafter).bind fun value stop hvalue hstop => ?_
  exact .some (Stmt.writtenIn_ret.mpr fun e he => Option.some.inj he ▸ hvalue) hstop

lemma deleteStatement_yields (hg : g.Reads src) (n : Nat) :
    Yields src (Stmt.WrittenIn src) (deleteStatement g n) := by
  intro p c hc
  refine (keyword?_goes hc _).bind fun c hc => ?_
  refine (hg.expr .statement hc).bind fun first c hfirst hc => ?_
  exact (elements_single (within_yields (hg.expr .statement) .statement) n hfirst hc).bind
    fun ⟨items, _⟩ c hitems hc => .some (Stmt.writtenIn_delete.mpr hitems) hc

lemma raiseStatement_yields (hg : g.Reads src) (n : Nat) :
    Yields src (Stmt.WrittenIn src) (raiseStatement g n) := by
  intro p c hc
  have hafter := afterWord_behind hc
  refine Lands.join (Q := fun o => ∀ e ∈ o, Expr.WrittenIn src e) (.ite (.some nofun hafter) ?_)
    fun exc c hexc hc => .ite ?_ (.some (Stmt.writtenIn_raise.mpr ⟨hexc, nofun⟩) hc)
  · exact (expressionList_yields hg .statement n hafter).map fun e c he hc =>
      ⟨fun e' he' => Option.some.inj he' ▸ he, hc⟩
  refine (keyword?_goes hc _).bind fun c hc => ?_
  refine (hg.expr .statement hc).bind fun cause c hcause hc => ?_
  exact .some (Stmt.writtenIn_raise.mpr ⟨hexc, fun e he => Option.some.inj he ▸ hcause⟩) hc

lemma declaredNames_passes (src : List Char) (n : Nat) : Passes src (declaredNames n) := by
  intro p c hc
  have hname : Passes src Cursor.name? := fun _ _ hc => name?_lands hc
  refine (name?_lands (afterWord_behind hc)).bind fun first c _ hc => ?_
  exact (many_nil (behindComma_yields hname) n hc).bind fun rest c _ hc => .some trivial hc

lemma toEnd_yields {α : Type} {P : α → Prop} {rule : Rule α} (h : Yields src P rule) :
    Yields src P (toEnd rule) :=
  fun _ _ hc => (h hc).bind fun _ _ hx hc => .ite (.some hx hc) .none

lemma printStatement_yields (hg : g.Reads src) (n : Nat) :
    Yields src (Stmt.WrittenIn src) (printStatement g n) := by
  intro p c hc
  have hafter := afterWord_behind hc
  refine Goes.join (.ite (operand?_goes hafter 2) (.some hafter)) fun first hfirst => ?_
  refine (hg.expr .statement hfirst).bind fun e c₁ he hc₁ => ?_
  exact (elements_single (within_yields (hg.expr .statement) .statement) n he hc₁).bind
    fun _ stop _ hstop => written_lands c hstop

lemma execStatement_yields (hg : g.Reads src) (n : Nat) :
    Yields src (Stmt.WrittenIn src) (execStatement g n) := by
  intro p c hc
  have hafter := afterWord_behind hc
  unfold execStatement
  dsimp -zeta only
  extract_lets after rest
  have hrest (c₁ : Cursor) (hc₁ : c₁.Behind src p) :
      Lands src p (Stmt.WrittenIn src) (rest c₁) := by
    refine .ite ?_ (written_lands c hc₁)
    refine (keyword?_goes hc₁ _).bind fun c₂ hc₂ => ?_
    exact (commaSeparated_yields hg n hc₂).bind fun _ stop _ hstop => written_lands c hstop
  split
  · next text c₁ h => exact hrest c₁ (string_passes hg n hafter text c₁ h).2
  · exact (name?_lands hafter).goes.bind hrest

lemma typeParameter_passes (hg : g.Reads src) : Passes src (typeParameter g) := by
  intro p c hc
  refine (typeExpression_passes hg .free hc).bind fun _ c _ hc => .ite ?_ (.some trivial hc)
  exact (operand?_goes hc 1).bind fun c hc => typeExpression_passes hg .free hc

lemma typeParameters_passes (hg : g.Reads src) (n : Nat) : Passes src (typeParameters g n) := by
  intro p c hc
  refine (symbol?_goes hc _).bind fun c hc => ?_
  refine (typeParameter_passes hg hc).bind fun _ c _ hc => ?_
  refine (elements_single (typeParameter_passes hg) n trivial hc).bind fun _ c _ hc => ?_
  exact (symbol?_goes hc _).bind fun c hc => .some trivial hc

lemma typeStatement_yields (hg : g.Reads src) (n : Nat) :
    Yields src (Stmt.WrittenIn src) (typeStatement g n) := by
  intro p c hc
  have hleft := afterWord_behind hc
  unfold typeStatement
  extract_lets left aliasName takesValue rest
  have hvalue {r : Option (Unit × Cursor)} (h : Lands src p (fun _ => True) r) :
      Goes src p (r.bind takesValue) := by
    intro right heq
    obtain ⟨⟨x, c₁⟩, hx, heq⟩ := Option.bind_eq_some_iff.mp heq
    exact Goes.ite (operand?_goes (h x c₁ hx).2 1) .none right heq
  have halias : Passes src aliasName := fun _ _ hc => (name?_lands hc).bind fun _ _ _ hc =>
    .ite (typeParameters_passes hg n hc) (.some trivial hc)
  have hrest (right : Cursor) (hright : right.Behind src p) :
      Lands src p (Stmt.WrittenIn src) (rest right) :=
    (typeExpression_passes hg .statement hright).bind fun _ stop _ hstop => written_lands c hstop
  split
  · next right h => exact hrest right (hvalue (halias hleft) right h)
  · exact (hvalue (typeExpression_passes hg .free hleft)).bind hrest

lemma softStatement_yields (hg : g.Reads src) (n : Nat) :
    Yields src (Stmt.WrittenIn src) (softStatement g n) := by
  intro p c hc
  have hplain := expressionStatement_yields hg n
  unfold softStatement
  extract_lets plain or
  have hor {first second : Rule Stmt} (hfirst : Yields src (Stmt.WrittenIn src) first)
      (hsecond : Yields src (Stmt.WrittenIn src) second) :
      Lands src p (Stmt.WrittenIn src) (or first second) := by
    dsimp only [or]
    split
    · next r h => exact fun s stop heq => toEnd_yields hfirst hc s stop (h.trans heq)
    · exact hsecond hc
  refine .ite (hplain hc) (.ite (.ite ?_ ?_) (.ite ?_ (.ite ?_ (hplain hc))))
  · exact printStatement_yields hg n hc
  · exact hor hplain (printStatement_yields hg n)
  · exact hor hplain (execStatement_yields hg n)
  · exact hor (typeStatement_yields hg n) hplain

lemma simpleStatement_yields (hg : g.Reads src) (n : Nat) :
    Yields src (Stmt.WrittenIn src) (simpleStatement g n) := by
  intro p c hc
  have hafter := afterWord_behind hc
  have hnames := declaredNames_passes src n hc
  -- the words `pass`, `break` and `continue`, and then one rule for each word
  refine .ite (.some (Stmt.writtenIn_alone rfl) hafter) ?_
  refine .ite (.some (Stmt.writtenIn_alone rfl) hafter) ?_
  refine .ite (.some (Stmt.writtenIn_alone rfl) hafter) ?_
  refine .ite (importStatement_yields src n hc) ?_
  refine .ite (importFrom_yields src n hc) ?_
  refine .ite (returnStatement_yields hg n hc) ?_
  refine .ite (deleteStatement_yields hg n hc) ?_
  refine .ite (raiseStatement_yields hg n hc) ?_
  refine .ite (assertStatement_yields hg n hc) ?_
  refine .ite (hnames.map fun _ _ _ hc => ⟨Stmt.writtenIn_alone rfl, hc⟩) ?_
  refine .ite (hnames.map fun _ _ _ hc => ⟨Stmt.writtenIn_alone rfl, hc⟩) ?_
  exact softStatement_yields hg n hc

lemma simpleStatements_yields (hg : g.Reads src) (n : Nat) {done : List Stmt}
    (hdone : ∀ s ∈ done, s.WrittenIn src) :
    Yields src (fun body => ∀ s ∈ body, Stmt.WrittenIn src s) (simpleStatements g n done) := by
  intro p c hc
  induction n generalizing done p c with
  | zero => exact .none
  | succ n ih =>
    refine (simpleStatement_yields hg n hc).bind fun s c hs hc => ?_
    have hall : ∀ s' ∈ s :: done, s'.WrittenIn src := List.forall_mem_cons.mpr ⟨hs, hdone⟩
    have hrow : ∀ s' ∈ (s :: done).reverse, s'.WrittenIn src :=
      fun s' hs' => hall s' (List.mem_reverse.mp hs')
    refine .ite (.some hrow hc) ?_
    exact (symbol?_goes hc _).bind fun c hc => .ite (.some hrow hc) (ih hall hc)

end Grammar
end Unmask
