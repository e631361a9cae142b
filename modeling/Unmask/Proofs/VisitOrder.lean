import Unmask.Proofs.TreeWalks
import Unmask.Proofs.WrittenNames

/-!
# Names are visited as they are written

The printer and the visits go through the same parts of every expression and every statement, and
through most of them in the same order. A conditional is written with its test behind its body and
visited with the test first; a dictionary display is written pair by pair and visited with all keys
first. These are all: where they have names in one of the two parts only, the names of a program are
visited in the order in which they are written.
-/
namespace Unmask

section Printed

open Printer

variable {es : List Expr}

/-- However an expression is printed, its names are written like this. -/
def Expr.Prints (e : Expr) : Prop :=
  ∀ context, Spells (fun s => expr context (e.mapNames s)) e.all

lemma spells_option (mark : List Char) {o : Option Expr} (h : ∀ e ∈ o, e.Prints) :
    Spells (fun s => option mark (Expr.mapNamesOption s o))
      (Expr.visitedOption (fun _ => true) o) := by
  cases o with
  | none => exact .text []
  | some e => exact (h e rfl .test).after mark

lemma spells_exprs (context : Level) (h : ∀ e ∈ es, e.Prints) :
    SpellsRow (fun s => exprs context (Expr.mapNamesList s es)) (Expr.allOf es) := by
  induction es with
  | nil => exact .nil
  | cons e rest ih =>
    obtain ⟨he, hrest⟩ := List.forall_mem_cons.mp h
    exact .cons (he context) (ih hrest)

/-- Expressions one behind the other, each with something around it. -/
lemma spells_flatMap (context : Level) {f : List Char → List Char}
    (hf : ∀ {print es}, Spells print es → Spells (fun s => f (print s)) es)
    (h : ∀ e ∈ es, e.Prints) :
    Spells (fun s => (exprs context (Expr.mapNamesList s es)).flatMap f) (Expr.allOf es) := by
  induction es with
  | nil => exact .text []
  | cons e rest ih =>
    obtain ⟨he, hrest⟩ := List.forall_mem_cons.mp h
    exact (hf (he context)).append (ih hrest)

lemma spells_comparisons (context : Level) {ops : List CompareOp}
    (hlength : ops.length = es.length) (h : ∀ e ∈ es, e.Prints) :
    Spells (fun s => comparisons ops (exprs context (Expr.mapNamesList s es)))
      (Expr.allOf es) := by
  induction es generalizing ops with
  | nil =>
    obtain rfl := List.length_eq_zero_iff.mp hlength
    exact .text []
  | cons e rest ih =>
    obtain ⟨he, hrest⟩ := List.forall_mem_cons.mp h
    cases ops with
    | nil => contradiction
    | cons op ops =>
      exact (((he context).after [' ']).after (' ' :: op.symbol.toList)).append
        (ih (Nat.succ_inj.mp hlength) hrest)

lemma spells_keyword {k : Keyword} (h : k.value.Prints) :
    Spells (fun s => keyword (k.mapNames s)) (k.visited fun _ => true) := by
  obtain ⟨_ | arg, value⟩ := k
  · exact (h .bitOr).after ['*', '*']
  · exact ((h .test).after ['=']).after arg.toList

lemma spells_keywords {ks : List Keyword} (h : ∀ k ∈ ks, k.value.Prints) :
    SpellsRow (fun s => keywords (Keyword.mapNamesList s ks))
      (Keyword.visitedList (fun _ => true) ks) := by
  induction ks with
  | nil => exact .nil
  | cons k rest ih =>
    obtain ⟨hk, hrest⟩ := List.forall_mem_cons.mp h
    exact .cons (spells_keyword hk) (ih hrest)

/-- The parts of a clause of a comprehension are printed so. -/
structure Comprehension.Prints (g : Comprehension) : Prop where
  target : g.target.Prints
  iter : g.iter.Prints
  ifs : ∀ e ∈ g.ifs, e.Prints

lemma spells_clause {g : Comprehension} (h : g.Prints) :
    Spells (fun s => clause (g.mapNames s)) (g.visited fun _ => true) := by
  obtain ⟨target, iter, ifs, isAsync⟩ := g
  have htarget := (h.target .tuple).after (if isAsync then " async for ".toList else " for ".toList)
  exact ((htarget.before " in ".toList).append (h.iter Level.test.next)).append
    (spells_flatMap Level.test.next (.after " if ".toList) h.ifs)

lemma spells_clauses {gs : List Comprehension} (h : ∀ g ∈ gs, g.Prints) :
    Spells (fun s => clauses (Comprehension.mapNamesList s gs))
      (Comprehension.visitedList (fun _ => true) gs) := by
  induction gs with
  | nil => exact .text []
  | cons g rest ih =>
    obtain ⟨hg, hrest⟩ := List.forall_mem_cons.mp h
    exact (spells_clause hg).append (ih hrest)

/-- A pair of a dictionary display. -/
def pairText : Option (List Char) × List Char → List Char
  | (some key, value) => key ++ [':', ' '] ++ value
  | (none, value) => '*' :: '*' :: value

lemma pairs_eq (keys : List (Option (List Char))) (values : List (List Char)) :
    pairs keys values = Printer.join comma ((keys.zip values).map pairText) := by
  unfold pairs
  congr 2

lemma keys_cons (o : Option Expr) (os : List (Option Expr)) :
    keys (o :: os) = o.map (expr .test) :: keys os := by
  cases o <;> rfl

/-- What is written of a key. -/
lemma spells_key {o : Option Expr} (h : ∀ e ∈ o, e.Prints) :
    ∃ print, (∀ s value, pairText ((Expr.mapNamesOption s o).map (expr .test), value) =
      print s ++ value) ∧ Spells print (Expr.visitedOption (fun _ => true) o) := by
  cases o with
  | none => exact ⟨fun _ => ['*', '*'], fun _ _ => rfl, .text _⟩
  | some e => exact ⟨_, fun _ _ => rfl, (h e rfl .test).before [':', ' ']⟩

/-- Keys and values in turns are visited as all keys and all values. -/
lemma spells_pairs {os : List (Option Expr)} (hlength : os.length = es.length)
    (hkeys : ∀ o ∈ os, ∀ e ∈ o, e.Prints) (hvalues : ∀ e ∈ es, e.Prints)
    (hpaired : ∀ e ∈ Expr.visitedOptions (fun _ => true) os ++ Expr.allOf es, e.Paired) :
    ∃ ts : List Template, (fun s => ((keys (Expr.mapNamesOptions s os)).zip
        (dictValues (os.map Option.isSome) (Expr.mapNamesList s es))).map pairText) =
        (fun s => ts.map (Template.fill s)) ∧
      InStep (ts.flatMap Template.names)
        (namesOf (Expr.visitedOptions (fun _ => true) os ++ Expr.allOf es))
        (KeysFirst os es ∧
          ∀ e ∈ Expr.visitedOptions (fun _ => true) os ++ Expr.allOf es, e.KeepsOrder) := by
  induction os generalizing es with
  | nil =>
    obtain rfl := List.length_eq_zero_iff.mp hlength.symm
    exact ⟨[], rfl, .refl [] (by simp [KeysFirst, Expr.visitedOptions, Expr.visitedList])⟩
  | cons o os ih =>
    cases es with
    | nil => contradiction
    | cons e es =>
      obtain ⟨ho, hos⟩ := List.forall_mem_cons.mp hkeys
      obtain ⟨he, hes⟩ := List.forall_mem_cons.mp hvalues
      simp only [Expr.visitedOptions, Expr.visitedList, List.forall_mem_append] at hpaired ih ⊢
      obtain ⟨⟨hpo, hpos⟩, hpe, hpes⟩ := hpaired
      obtain ⟨print, hprint, hkey⟩ := spells_key ho
      obtain ⟨t, rfl, hstep⟩ := hkey hpo
      obtain ⟨t', ht', hstep'⟩ := he (if o.isSome then .test else .bitOr) hpe
      obtain ⟨ts, hts, hsteps⟩ := ih (Nat.succ_inj.mp hlength) hos hes ⟨hpos, hpes⟩
      refine ⟨(t ++ t') :: ts, funext fun s => ?_, ?_⟩
      · have hvalue : expr _ (e.mapNames s) = t'.fill s := congrFun ht' s
        have hpair : pairText ((Expr.mapNamesOption s o).map (expr .test),
            expr (if o.isSome then .test else .bitOr) (e.mapNames s)) = (t ++ t').fill s := by
          rw [hprint, hvalue, Template.fill_append]
        rw [Expr.mapNamesOptions, keys_cons]
        exact congrArg₂ List.cons hpair (congrFun hts s)
      · rw [namesOf_append] at hsteps
        rw [List.flatMap_cons, Template.names_append, List.append_assoc, namesOf_append,
          namesOf_append, namesOf_append, List.append_assoc]
        refine (hstep.append (hstep'.delay hsteps)).congr ⟨?_, ?_⟩
        · rintro ⟨ho, hfirst, he, hkeys, hos, hes⟩
          exact ⟨⟨hfirst, hkeys⟩, ⟨ho, hos⟩, he, hes⟩
        · rintro ⟨⟨hfirst, hkeys⟩, ⟨ho, hos⟩, he, hes⟩
          exact ⟨ho, hfirst, he, hkeys, hos, hes⟩

lemma Spells.name (id : String) : Spells (fun s => (s id).toList) [.name id] := by
  refine fun _ => ⟨[.name id], funext fun s => (List.append_nil _).symm, .refl [id] ?_⟩
  simp [Expr.KeepsOrder]

/-- A tuple with parentheses where they are needed. -/
lemma Spells.tuple {print : (String → String) → List Char} (h : Spells print es)
    (items : List Expr) (context : Level) :
    Spells (fun s =>
      if (Expr.mapNamesList s items).isEmpty || Level.tuple < context then '(' :: print s ++ [')']
      else print s) es := by
  have hempty (s : String → String) : (Expr.mapNamesList s items).isEmpty = items.isEmpty := by
    cases items <;> rfl
  simp only [hempty]
  split
  · exact (h.after ['(']).before [')']
  · exact h

lemma isIntLiteral_mapNames (e : Expr) (s : String → String) :
    isIntLiteral (e.mapNames s) = isIntLiteral e := by
  cases e <;> rfl

lemma mapNamesOptions_isSome (os : List (Option Expr)) (s : String → String) :
    (Expr.mapNamesOptions s os).map Option.isSome = os.map Option.isSome := by
  induction os with
  | nil => rfl
  | cons o rest ih =>
    rw [Expr.mapNamesOptions, List.map_cons, List.map_cons, ih]
    cases o <;> rfl

lemma prints_dict {os : List (Option Expr)} (hkeys : ∀ o ∈ os, ∀ e ∈ o, e.Prints)
    (hvalues : ∀ e ∈ es, e.Prints) : (Expr.dict os es).Prints := by
  refine fun context => .of_parts rfl fun hlength hparts => ?_
  obtain ⟨ts, hts, hsteps⟩ := spells_pairs hlength hkeys hvalues hparts
  refine ⟨.text ['\x7b'] :: (Template.join comma ts ++ [.text ['\x7d']]), funext fun s => ?_, ?_⟩
  · have hpairs : _ = ts.map (Template.fill s) := congrFun hts s
    rw [Template.fill_text, Template.fill_append, Template.fill_join, ← hpairs, Expr.mapNames, expr,
      pairs_eq, mapNamesOptions_isSome]
    rfl
  · show InStep (Template.names (Template.join comma ts ++ _)) _ _
    rw [Template.names_append, Template.names_join]
    exact (List.append_nil _).symm ▸ hsteps

/-- The body of a conditional is written before the test. -/
lemma prints_conditional {test body orelse : Expr} (htest : test.Prints) (hbody : body.Prints)
    (horelse : orelse.Prints) : (Expr.conditional test body orelse).Prints := by
  intro context
  have hwritten : Spells (fun s => expr Level.test.next (body.mapNames s) ++ " if ".toList ++
      expr Level.test.next (test.mapNames s) ++ " else ".toList ++ expr .test (orelse.mapNames s))
      (Expr.conditional test body orelse).all := by
    refine .of_parts rfl fun _ hparts => ?_
    obtain ⟨hparts, horelseParts⟩ := List.forall_mem_append.mp hparts
    obtain ⟨htestParts, hbodyParts⟩ := List.forall_mem_append.mp hparts
    obtain ⟨t, ht, hbody⟩ := (hbody Level.test.next).before " if ".toList hbodyParts
    obtain ⟨t', ht', htest⟩ := (htest Level.test.next).before " else ".toList htestParts
    obtain ⟨t'', ht'', horelse⟩ := horelse .test horelseParts
    refine ⟨t ++ (t' ++ t''), funext fun s => ?_, ?_⟩
    · rw [Template.fill_append, Template.fill_append, ← congrFun ht s, ← congrFun ht' s,
        ← congrFun ht'' s]
      simp only [List.append_assoc]
    · show InStep _ (namesOf (test.all ++ body.all ++ orelse.all))
        (_ ∧ ∀ e ∈ test.all ++ body.all ++ orelse.all, e.KeepsOrder)
      rw [Template.names_append, Template.names_append, namesOf_append, namesOf_append,
        List.append_assoc, List.forall_mem_append, List.forall_mem_append]
      refine (hbody.delay (htest.append horelse)).congr ⟨?_, ?_⟩
      · rintro ⟨hkeeps, hb, ht, ho⟩
        exact ⟨hkeeps, ⟨ht, hb⟩, ho⟩
      · rintro ⟨hkeeps, ⟨ht, hb⟩, ho⟩
        exact ⟨hkeeps, hb, ht, ho⟩
  exact hwritten.wrapped .test context

mutual

theorem prints_expr (e : Expr) : e.Prints := by
  intro context
  cases e with
  | name id => exact .name id
  | constant c => exact .node rfl trivial fun _ => .text (constant context c)
  | verbatim text => exact .node rfl trivial fun _ => .text (verbatim text)
  | «attribute» value attr =>
    have hvalue := (prints_expr value .atom).before (if isIntLiteral value then [' '] else [])
    refine .node rfl trivial fun _ => ?_
    simp only [Expr.mapNames, expr, isIntLiteral_mapNames]
    exact hvalue.before ('.' :: attr.toList)
  | subscript value slice =>
    have hvalue := prints_expr value .atom
    have hslice := prints_expr slice .tuple
    cases slice with
    | tuple items =>
      cases items with
      | nil => exact .node rfl trivial fun _ => (hvalue.append (hslice.after ['['])).before [']']
      | cons item rest =>
        have hitems := (spells_exprs .test (prints_exprs (item :: rest))).tupleItems
        have hslice : Spells _ (Expr.tuple (item :: rest)).all := .node rfl trivial fun _ => hitems
        exact .node rfl trivial fun _ => (hvalue.append (hslice.after ['['])).before [']']
    | _ => exact .node rfl trivial fun _ => (hvalue.append (hslice.after ['['])).before [']']
  | slice lower upper step =>
    have hlower := spells_option [] (prints_option lower)
    have hupper := (spells_option [] (prints_option upper)).after [':']
    have hstep := spells_option [':'] (prints_option step)
    exact .node rfl trivial fun _ => (hlower.append hupper).append hstep
  | call func args keywords =>
    have hargs := (spells_exprs .test (prints_exprs args)).append
      (spells_keywords (prints_keywords keywords))
    have hall := (prints_expr func .atom).append ((hargs.join comma).after ['('])
    rw [← List.append_assoc] at hall
    exact .node rfl trivial fun _ => hall.before [')']
  | binary left op right =>
    have hleft := (prints_expr left (operandLevels op).1).before (' ' :: op.symbol.toList)
    have hright := (prints_expr right (operandLevels op).2).after [' ']
    exact .node rfl trivial fun _ => (hleft.append hright).wrapped op.level context
  | unary op operand =>
    have hoperand := (prints_expr operand op.level).after
      (op.symbol.toList ++ if op == .not then [' '] else [])
    exact .node rfl trivial fun _ => hoperand.wrapped op.level context
  | bool op values =>
    have hvalues := (spells_exprs op.level.next (prints_exprs values)).join
      (' ' :: op.symbol.toList ++ [' '])
    exact .node rfl trivial fun _ => hvalues.wrapped op.level context
  | compare left ops comparators =>
    have hleft := prints_expr left Level.comparison.next
    have hcomparators := prints_exprs comparators
    exact .node rfl trivial fun hlength =>
      (hleft.append (spells_comparisons _ hlength hcomparators)).wrapped .comparison context
  | conditional test body orelse =>
    exact prints_conditional (prints_expr test) (prints_expr body) (prints_expr orelse) context
  | lambda params body =>
    have hbody := (prints_expr body .test).after ("lambda".toList ++
      (if params.isEmpty then [] else [' ']) ++ params.toList ++ [':', ' '])
    exact .node rfl trivial fun _ => hbody.wrapped .test context
  | named target value =>
    have hvalue := (prints_expr value .atom).after (target.toList ++ " := ".toList)
    exact .node rfl trivial fun _ => hvalue.wrapped .named context
  | list items =>
    have hitems := (spells_exprs .test (prints_exprs items)).join comma
    exact .node rfl trivial fun _ => (hitems.after ['[']).before [']']
  | tuple items =>
    have hitems := (spells_exprs .test (prints_exprs items)).tupleItems
    exact .node rfl trivial fun _ => hitems.tuple items context
  | «set» items =>
    cases items with
    | nil => exact .node rfl trivial fun _ => .text "\x7b*()\x7d".toList
    | cons item rest =>
      have hitems := (spells_exprs .test (prints_exprs (item :: rest))).join comma
      exact .node rfl trivial fun _ => (hitems.after ['\x7b']).before ['\x7d']
  | dict keys values => exact prints_dict (prints_options keys) (prints_exprs values) context
  | starred value => exact .node rfl trivial fun _ => (prints_expr value .bitOr).after ['*']
  | listComp elt gs =>
    have hall := (prints_expr elt .test).append (spells_clauses (prints_clauses gs))
    exact .node rfl trivial fun _ => (hall.after ['[']).before [']']
  | setComp elt gs =>
    have hall := (prints_expr elt .test).append (spells_clauses (prints_clauses gs))
    exact .node rfl trivial fun _ => (hall.after ['\x7b']).before ['\x7d']
  | generator elt gs =>
    have hall := (prints_expr elt .test).append (spells_clauses (prints_clauses gs))
    exact .node rfl trivial fun _ => (hall.after ['(']).before [')']
  | dictComp key value gs =>
    have hpair := (prints_expr key .test).append ((prints_expr value .test).after [':', ' '])
    have hall := hpair.append (spells_clauses (prints_clauses gs))
    exact .node rfl trivial fun _ => (hall.after ['\x7b']).before ['\x7d']
  | await value =>
    exact .node rfl trivial fun _ => ((prints_expr value .atom).after "await ".toList).wrapped _ _

theorem prints_exprs (es : List Expr) : ∀ e ∈ es, e.Prints := by
  cases es with
  | nil => exact List.forall_mem_nil _
  | cons e rest => exact List.forall_mem_cons.mpr ⟨prints_expr e, prints_exprs rest⟩

theorem prints_option (o : Option Expr) : ∀ e ∈ o, e.Prints := by
  cases o with
  | none => exact fun _ h => nomatch h
  | some e =>
    rintro _ ⟨⟩
    exact prints_expr e

theorem prints_options (os : List (Option Expr)) : ∀ o ∈ os, ∀ e ∈ o, e.Prints := by
  cases os with
  | nil => exact List.forall_mem_nil _
  | cons o rest => exact List.forall_mem_cons.mpr ⟨prints_option o, prints_options rest⟩

theorem prints_keywords (ks : List Keyword) : ∀ k ∈ ks, k.value.Prints := by
  cases ks with
  | nil => exact List.forall_mem_nil _
  | cons k rest =>
    obtain ⟨_, value⟩ := k
    exact List.forall_mem_cons.mpr ⟨prints_expr value, prints_keywords rest⟩

theorem prints_clauses (gs : List Comprehension) : ∀ g ∈ gs, g.Prints := by
  cases gs with
  | nil => exact List.forall_mem_nil _
  | cons g rest =>
    obtain ⟨target, iter, ifs, _⟩ := g
    exact List.forall_mem_cons.mpr
      ⟨⟨prints_expr target, prints_expr iter, prints_exprs ifs⟩, prints_clauses rest⟩

end

/-- The same of lines and of the expressions among nodes. -/
def SpellsLines (row : (String → String) → List (List Char)) (nodes : List Node) : Prop :=
  SpellsRow row (Node.exprs nodes)

namespace SpellsLines

variable {print : (String → String) → List Char} {row row' : (String → String) → List (List Char)}
  {nodes nodes' : List Node}

lemma stmt {stmt : Stmt} (h : SpellsLines row nodes) : SpellsLines row (.stmt stmt :: nodes) := h

lemma ofExprs (h : SpellsRow row es) : SpellsLines row (Node.ofExprs es) := by
  rwa [SpellsLines, Node.exprs_ofExprs]

lemma append (h : SpellsLines row nodes) (h' : SpellsLines row' nodes') :
    SpellsLines (fun s => row s ++ row' s) (nodes ++ nodes') := by
  rw [SpellsLines, Node.exprs, List.filterMap_append]
  exact SpellsRow.append h h'

/-- One line, with what is printed in it. -/
lemma line (depth : Nat) (h : Spells print es) :
    SpellsLines (fun s => [Printer.line depth (print s)]) (Node.ofExprs es) :=
  ofExprs (.single (h.after _))

lemma text (depth : Nat) (chars : List Char) :
    SpellsLines (fun _ => [Printer.line depth chars]) [] := SpellsRow.single (.text _)

lemma rows (rows : List (List Char)) : SpellsLines (fun _ => rows) [] := by
  induction rows with
  | nil => exact SpellsRow.nil
  | cons line rest ih => exact SpellsRow.cons (.text line) ih

end SpellsLines

/-- However a statement is printed, its names are written like this. -/
def Stmt.Prints (stmt : Stmt) : Prop :=
  ∀ depth keyword started, SpellsLines (fun s => lines depth keyword started (stmt.mapNames s))
    (stmt.visited fun _ => true)

/-- However a row of statements is printed, its names are written like this. -/
def BodyPrints (m : List Stmt) : Prop :=
  ∀ depth keyword started,
    SpellsLines (fun s => blockLines depth keyword started (Stmt.mapNamesList s m)) (Stmt.allOf m)

variable {m : List Stmt}

lemma spells_block (depth : Nat) (h : BodyPrints m) :
    SpellsLines (fun s => block depth (Stmt.mapNamesList s m)) (Stmt.allOf m) := by
  cases m with
  | nil => exact .text _ _
  | cons stmt rest => exact h (depth + 1) "if" true

lemma spells_elseBlock (depth : Nat) (h : BodyPrints m) :
    SpellsLines (fun s => elseBlock depth (Stmt.mapNamesList s m)) (Stmt.allOf m) := by
  cases m with
  | nil => exact SpellsRow.nil
  | cons stmt rest =>
    exact (SpellsLines.text depth "else:".toList).append (h (depth + 1) "if" true)

lemma isElif_mapNames (m : List Stmt) (s : String → String) :
    isElif (Stmt.mapNamesList s m) = isElif m := by
  match m with
  | [] => rfl
  | [stmt] => cases stmt <;> rfl
  | _ :: _ :: _ => rfl

/-- What stands behind the branch of a conditional. -/
lemma spells_orelse (depth : Nat) (h : BodyPrints m) :
    SpellsLines (fun s =>
      if isElif (Stmt.mapNamesList s m) then blockLines depth "elif" true (Stmt.mapNamesList s m)
      else elseBlock depth (Stmt.mapNamesList s m)) (Stmt.allOf m) := by
  simp only [isElif_mapNames]
  split
  · exact h depth "elif" true
  · exact spells_elseBlock depth h

lemma spells_finally (depth : Nat) (h : BodyPrints m) :
    SpellsLines (fun s =>
      if (Stmt.mapNamesList s m).isEmpty then []
      else line depth "finally:".toList :: block depth (Stmt.mapNamesList s m)) (Stmt.allOf m) := by
  cases m with
  | nil => exact SpellsRow.nil
  | cons stmt rest =>
    exact (SpellsLines.text depth "finally:".toList).append (spells_block depth h)

lemma spells_decorators (depth : Nat) (started : Bool) (es : List Expr) :
    SpellsRow (fun s => decorators depth started (Expr.mapNamesList s es)) (Expr.allOf es) := by
  have hexprs : SpellsRow (fun s => (Expr.mapNamesList s es).map fun e =>
      line depth ('@' :: expr .test e)) (Expr.allOf es) := by
    induction es with
    | nil => exact .nil
    | cons e rest ih => exact .cons (((prints_expr e .test).after ['@']).after _) ih
  exact SpellsRow.append (SpellsLines.rows _) hexprs

lemma spells_parents (bases : List Expr) (ks : List Keyword) :
    Spells (fun s =>
      if (Expr.mapNamesList s bases).isEmpty && (Keyword.mapNamesList s ks).isEmpty then []
      else '(' :: arguments (exprs .test (Expr.mapNamesList s bases))
        (keywords (Keyword.mapNamesList s ks)) ++ [')'])
      (Expr.allOf bases ++ Keyword.visitedList (fun _ => true) ks) := by
  have hall := ((spells_exprs .test (prints_exprs bases)).append
    (spells_keywords (prints_keywords ks))).join comma
  cases bases with
  | nil =>
    cases ks with
    | nil => exact .text []
    | cons k rest => exact (hall.after ['(']).before [')']
  | cons base rest => exact (hall.after ['(']).before [')']

mutual

theorem prints_stmt (stmt : Stmt) : stmt.Prints := by
  intro depth keyword started
  cases stmt with
  | pass | breakLoop | continueLoop | «global» | «nonlocal» | importNames | importFrom
  | verbatim => exact .stmt (.rows _)
  | expr value => exact .stmt (.line depth (prints_expr value .yield))
  | assign targets value =>
    have htargets := spells_flatMap .tuple (f := (· ++ " = ".toList)) (.before · _)
      (prints_exprs targets)
    exact .stmt (.line depth (htargets.append (prints_expr value .test)))
  | augAssign target op value =>
    have htarget := (prints_expr target .tuple).before (' ' :: op.symbol.toList)
    exact .stmt (.line depth ((htarget.before "= ".toList).append (prints_expr value .test)))
  | ret value =>
    cases value with
    | none => exact .stmt (.rows _)
    | some value => exact .stmt (.line depth ((prints_expr value .test).after "return ".toList))
  | delete targets =>
    have htargets := (spells_exprs .test (prints_exprs targets)).join comma
    exact .stmt (.line depth (htargets.after "del ".toList))
  | raise exc cause =>
    have hexc := (spells_option [' '] (prints_option exc)).after "raise".toList
    exact .stmt (.line depth (hexc.append (spells_option " from ".toList (prints_option cause))))
  | assert test msg =>
    have htest := (prints_expr test .test).after "assert ".toList
    exact .stmt (.line depth (htest.append (spells_option comma (prints_option msg))))
  | ite test body orelse =>
    have htest := (((prints_expr test .test).after [' ']).after keyword.toList).before [':']
    have hbody := spells_block depth (prints_body body)
    exact ((SpellsLines.line depth htest).stmt.append hbody).append
      (spells_orelse depth (prints_body orelse))
  | whileLoop test body orelse =>
    have htest := ((prints_expr test .test).after "while ".toList).before [':']
    have hbody := spells_block depth (prints_body body)
    exact ((SpellsLines.line depth htest).stmt.append hbody).append
      (spells_elseBlock depth (prints_body orelse))
  | forLoop target iter body orelse isAsync =>
    have htarget := (prints_expr target .tuple).after (async isAsync ++ "for ".toList)
    have hhead := ((htarget.before " in ".toList).append (prints_expr iter .test)).before [':']
    have hbody := spells_block depth (prints_body body)
    exact ((SpellsLines.line depth hhead).stmt.append hbody).append
      (spells_elseBlock depth (prints_body orelse))
  | tryBlock body handlers orelse finalbody isStar =>
    have hbody := (SpellsLines.text depth "try:".toList).append
      (spells_block depth (prints_body body))
    exact ((hbody.stmt.append (prints_handlers handlers depth isStar)).append
      (spells_elseBlock depth (prints_body orelse))).append
      (spells_finally depth (prints_body finalbody))
  | withBlock items body isAsync =>
    exact .stmt ((SpellsLines.text depth _).append (spells_block depth (prints_body body)))
  | functionDef name params returns body decorators isAsync =>
    have hbody := spells_block depth (prints_body body)
    exact (SpellsLines.ofExprs (spells_decorators depth started decorators)).stmt.append
      ((SpellsLines.text depth _).append hbody)
  | classDef name bases keywords body decorators =>
    have hparents := (spells_parents bases keywords).after ("class ".toList ++ name.toList)
    have hbody := (SpellsLines.line depth (hparents.before [':'])).append
      (spells_block depth (prints_body body))
    have hdecorators := SpellsLines.ofExprs (spells_decorators depth started decorators)
    have hnodes : (Stmt.classDef name bases keywords body decorators).visited (fun _ => true) =
        .stmt (.classDef name bases keywords body decorators) ::
          Node.ofExprs (Expr.allOf decorators) ++
            (Node.ofExprs (Expr.allOf bases ++ Keyword.visitedList (fun _ => true) keywords) ++
              Stmt.allOf body) := by
      simp [Stmt.visited, Node.ofExprs]
    rw [hnodes]
    exact hdecorators.stmt.append hbody

theorem prints_body (m : List Stmt) : BodyPrints m := by
  intro depth keyword started
  cases m with
  | nil => exact SpellsRow.nil
  | cons stmt rest =>
    exact (prints_stmt stmt depth keyword started).append (prints_body rest depth "if" true)

theorem prints_handler (h : Handler) (depth : Nat) (isStar : Bool) :
    SpellsLines (fun s => handler depth isStar (h.mapNames s)) (h.visited fun _ => true) := by
  obtain ⟨type, name, body⟩ := h
  have htype := (spells_option [' '] (prints_option type)).after
    (if isStar then "except*" else "except").toList
  exact (SpellsLines.line depth ((htype.before _).before [':'])).append
    (spells_block depth (prints_body body))

theorem prints_handlers (hs : List Handler) (depth : Nat) (isStar : Bool) :
    SpellsLines (fun s => handlers depth isStar (Handler.mapNamesList s hs))
      (Handler.visitedList (fun _ => true) hs) := by
  cases hs with
  | nil => exact SpellsRow.nil
  | cons h rest => exact (prints_handler h depth isStar).append (prints_handlers rest depth isStar)

end

end Printed

/-- A program with all names replaced that are expressions. -/
def Module.mapNames (s : String → String) (m : Module) : Module := Stmt.mapNamesList s m

/-- The names of a program in the order in which they are visited. -/
def Module.visitedNames (m : Module) : List String := namesOf (Node.exprs m.nodes)

/-- The names that are expressions are written in some order: the text of the program has them as
gaps in that order, whatever they are replaced by. -/
def Module.WritesNames (m : Module) (ids : List String) : Prop :=
  ∃ t : Template, t.names = ids ∧ m.chars = t.fill id ∧ ∀ s, (m.mapNames s).chars = t.fill s

/-- Names are written in one order only. -/
theorem Module.WritesNames.unique {m : Module} {ids ids' : List String} (h : m.WritesNames ids)
    (h' : m.WritesNames ids') : ids = ids' := by
  obtain ⟨t, rfl, -, ht⟩ := h
  obtain ⟨t', rfl, -, ht'⟩ := h'
  exact Template.names_eq fun s => (ht s).symm.trans (ht' s)

/-- All names of a program are written that are visited, each once, in one order. It is the order
of the visits if no conditional and no dictionary display has names in two parts that trade places,
and if no name repeats, only then. -/
theorem Module.written_order (m : Module) (hpaired : ∀ e ∈ Node.exprs m.nodes, e.Paired) :
    ∃ ids, (∀ ids', m.WritesNames ids' ↔ ids' = ids) ∧ ids.Perm m.visitedNames ∧
      ((∀ e ∈ Node.exprs m.nodes, e.KeepsOrder) → ids = m.visitedNames) ∧
      (m.visitedNames.Nodup → ids = m.visitedNames → ∀ e ∈ Node.exprs m.nodes, e.KeepsOrder) := by
  obtain ⟨t, ht, hsteps⟩ := SpellsRow.join ['\n'] (prints_body m 0 "if" false) hpaired
  have hfill (s : String → String) : (m.mapNames s).chars = t.fill s := congrFun ht s
  have hwritten : m.WritesNames t.names := by
    refine ⟨t, rfl, ?_, hfill⟩
    rw [← hfill, mapNames, Stmt.mapNamesList_id]
  refine ⟨t.names, fun ids' => ⟨fun h => h.unique hwritten, fun h => h ▸ hwritten⟩, hsteps.perm,
    hsteps.eq, hsteps.only⟩

theorem Module.writesNames_display :
    let m : Module := [.expr (.compare (.dict [some (.name "a"), some (.name "b")]
      [.int 1, .name "c"]) [.eq] [.name "d"])]
    (∀ e ∈ Node.exprs m.nodes, e.Paired) ∧ m.WritesNames ["a", "b", "c", "d"] := by
  intro m
  have hpaired : ∀ e ∈ Node.exprs m.nodes, e.Paired := by
    show ∀ e ∈ [_, _, _, _, _, _, _], Expr.Paired e
    simp [Expr.Paired]
  have hkeeps : ∀ e ∈ Node.exprs m.nodes, e.KeepsOrder := by
    show ∀ e ∈ [_, _, _, _, _, _, _], Expr.KeepsOrder e
    simp [Expr.KeepsOrder, KeysFirst, namesOf, Expr.visited, Expr.visitedOptions, Expr.name?,
      Expr.int]
  obtain ⟨ids, hwrites, -, heq, -⟩ := Module.written_order m hpaired
  exact ⟨hpaired, (hwrites _).mpr (heq hkeeps).symm⟩

/-- A conditional is visited from its test, and a dictionary display from its keys. -/
theorem Module.visited_order_differs :
    let m : Module := [.expr (.conditional (.name "b") (.name "a") (.name "c"))]
    let m' : Module := [.expr (.dict [some (.name "a"), some (.name "c")] [.name "b", .name "d"])]
    m.text = "a if b else c" ∧ m.visitedNames = ["b", "a", "c"] ∧ m.WritesNames ["a", "b", "c"] ∧
    ¬ m.WritesNames m.visitedNames ∧
    m'.text = "\x7ba: b, c: d\x7d" ∧ m'.visitedNames = ["a", "c", "b", "d"] ∧
    ¬ m'.WritesNames m'.visitedNames := by
  intro m m'
  have hwrites : m.WritesNames ["a", "b", "c"] := by
    refine ⟨[.name "a", .text " if ".toList, .name "b", .text " else ".toList, .name "c"], rfl, rfl,
      fun s => ?_⟩
    show (s "a").toList ++ " if ".toList ++ (s "b").toList ++ " else ".toList ++ (s "c").toList = _
    simp [Template.fill, Piece.fill]
  have hwrites' : m'.WritesNames ["a", "b", "c", "d"] := by
    refine ⟨[.text ['\x7b'], .name "a", .text [':', ' '], .name "b", .text Printer.comma, .name "c",
      .text [':', ' '], .name "d", .text ['\x7d']], rfl, rfl, fun s => ?_⟩
    show '\x7b' :: ((s "a").toList ++ [':', ' '] ++ (s "b").toList ++ Printer.comma ++
      ((s "c").toList ++ [':', ' '] ++ (s "d").toList)) ++ ['\x7d'] = _
    simp [Template.fill, Piece.fill]
  refine ⟨by rfl, by rfl, hwrites, fun h => ?_, by rfl, by rfl, fun h => ?_⟩
  · exact absurd (h.unique hwrites) (by decide)
  · exact absurd (h.unique hwrites') (by decide)

end Unmask
