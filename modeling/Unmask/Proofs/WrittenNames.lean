import Mathlib.Data.List.Nodup
import Unmask.Proofs.Templates
import Unmask.Syntax.Printer
import Unmask.Syntax.Visit

/-!
# Where names are written

A name that is an expression is written where the text of a tree changes with the name. So what is
printed of a tree, as it depends on what its names are replaced by, is a template, and the names of
the template are those that are written, in their order. They are the names that are visited; in
the order of the visits, too, unless some expression writes its parts in another order.
-/
namespace Unmask

mutual

/-- An expression with all names replaced, those that are read and those that are not. -/
def Expr.mapNames (s : String → String) : Expr → Expr
  | .name id => .name (s id)
  | .constant c => .constant c
  | .attribute value attr => .attribute (value.mapNames s) attr
  | .subscript value slice => .subscript (value.mapNames s) (slice.mapNames s)
  | .slice lower upper step =>
    .slice (Expr.mapNamesOption s lower) (Expr.mapNamesOption s upper) (Expr.mapNamesOption s step)
  | .call func args keywords =>
    .call (func.mapNames s) (Expr.mapNamesList s args) (Keyword.mapNamesList s keywords)
  | .binary left op right => .binary (left.mapNames s) op (right.mapNames s)
  | .unary op operand => .unary op (operand.mapNames s)
  | .bool op values => .bool op (Expr.mapNamesList s values)
  | .compare left ops comparators =>
    .compare (left.mapNames s) ops (Expr.mapNamesList s comparators)
  | .conditional test body orelse =>
    .conditional (test.mapNames s) (body.mapNames s) (orelse.mapNames s)
  | .lambda params body => .lambda params (body.mapNames s)
  | .named target value => .named target (value.mapNames s)
  | .list items => .list (Expr.mapNamesList s items)
  | .tuple items => .tuple (Expr.mapNamesList s items)
  | .set items => .set (Expr.mapNamesList s items)
  | .dict keys values => .dict (Expr.mapNamesOptions s keys) (Expr.mapNamesList s values)
  | .starred value => .starred (value.mapNames s)
  | .listComp elt generators => .listComp (elt.mapNames s) (Comprehension.mapNamesList s generators)
  | .setComp elt generators => .setComp (elt.mapNames s) (Comprehension.mapNamesList s generators)
  | .generator elt generators =>
    .generator (elt.mapNames s) (Comprehension.mapNamesList s generators)
  | .dictComp key value generators =>
    .dictComp (key.mapNames s) (value.mapNames s) (Comprehension.mapNamesList s generators)
  | .await value => .await (value.mapNames s)
  | .verbatim text => .verbatim text

def Expr.mapNamesOption (s : String → String) : Option Expr → Option Expr
  | none => none
  | some e => some (e.mapNames s)

def Expr.mapNamesOptions (s : String → String) : List (Option Expr) → List (Option Expr)
  | [] => []
  | e :: rest => Expr.mapNamesOption s e :: Expr.mapNamesOptions s rest

def Expr.mapNamesList (s : String → String) : List Expr → List Expr
  | [] => []
  | e :: rest => e.mapNames s :: Expr.mapNamesList s rest

def Keyword.mapNames (s : String → String) : Keyword → Keyword
  | ⟨arg, value⟩ => ⟨arg, value.mapNames s⟩

def Keyword.mapNamesList (s : String → String) : List Keyword → List Keyword
  | [] => []
  | k :: rest => k.mapNames s :: Keyword.mapNamesList s rest

def Comprehension.mapNames (s : String → String) : Comprehension → Comprehension
  | ⟨target, iter, ifs, isAsync⟩ =>
    ⟨target.mapNames s, iter.mapNames s, Expr.mapNamesList s ifs, isAsync⟩

def Comprehension.mapNamesList (s : String → String) : List Comprehension → List Comprehension
  | [] => []
  | g :: rest => g.mapNames s :: Comprehension.mapNamesList s rest

end

mutual

/-- A statement with all names replaced that are expressions. -/
def Stmt.mapNames (s : String → String) : Stmt → Stmt
  | .expr value => .expr (value.mapNames s)
  | .assign targets value => .assign (Expr.mapNamesList s targets) (value.mapNames s)
  | .augAssign target op value => .augAssign (target.mapNames s) op (value.mapNames s)
  | .ret value => .ret (Expr.mapNamesOption s value)
  | .delete targets => .delete (Expr.mapNamesList s targets)
  | .raise exc cause => .raise (Expr.mapNamesOption s exc) (Expr.mapNamesOption s cause)
  | .assert test msg => .assert (test.mapNames s) (Expr.mapNamesOption s msg)
  | .ite test body orelse =>
    .ite (test.mapNames s) (Stmt.mapNamesList s body) (Stmt.mapNamesList s orelse)
  | .whileLoop test body orelse =>
    .whileLoop (test.mapNames s) (Stmt.mapNamesList s body) (Stmt.mapNamesList s orelse)
  | .forLoop target iter body orelse isAsync =>
    .forLoop (target.mapNames s) (iter.mapNames s) (Stmt.mapNamesList s body)
      (Stmt.mapNamesList s orelse) isAsync
  | .tryBlock body handlers orelse finalbody isStar =>
    .tryBlock (Stmt.mapNamesList s body) (Handler.mapNamesList s handlers)
      (Stmt.mapNamesList s orelse) (Stmt.mapNamesList s finalbody) isStar
  | .withBlock items body isAsync => .withBlock items (Stmt.mapNamesList s body) isAsync
  | .functionDef name params returns body decorators isAsync =>
    .functionDef name params returns (Stmt.mapNamesList s body) (Expr.mapNamesList s decorators)
      isAsync
  | .classDef name bases keywords body decorators =>
    .classDef name (Expr.mapNamesList s bases) (Keyword.mapNamesList s keywords)
      (Stmt.mapNamesList s body) (Expr.mapNamesList s decorators)
  | other => other

def Stmt.mapNamesList (s : String → String) : List Stmt → List Stmt
  | [] => []
  | stmt :: rest => stmt.mapNames s :: Stmt.mapNamesList s rest

def Handler.mapNames (s : String → String) : Handler → Handler
  | ⟨type, name, body⟩ => ⟨Expr.mapNamesOption s type, name, Stmt.mapNamesList s body⟩

def Handler.mapNamesList (s : String → String) : List Handler → List Handler
  | [] => []
  | h :: rest => h.mapNames s :: Handler.mapNamesList s rest

end

mutual

/-- Names for themselves change nothing. -/
theorem Expr.mapNames_id (e : Expr) : e.mapNames id = e := by
  cases e <;> simp only [Expr.mapNames, id_eq, Expr.mapNames_id, Expr.mapNamesOption_id,
    Expr.mapNamesOptions_id, Expr.mapNamesList_id, Keyword.mapNamesList_id,
    Comprehension.mapNamesList_id]

theorem Expr.mapNamesOption_id (o : Option Expr) : Expr.mapNamesOption id o = o := by
  cases o <;> simp only [Expr.mapNamesOption, Expr.mapNames_id]

theorem Expr.mapNamesOptions_id (os : List (Option Expr)) : Expr.mapNamesOptions id os = os := by
  cases os <;> simp only [Expr.mapNamesOptions, Expr.mapNamesOption_id, Expr.mapNamesOptions_id]

theorem Expr.mapNamesList_id (es : List Expr) : Expr.mapNamesList id es = es := by
  cases es <;> simp only [Expr.mapNamesList, Expr.mapNames_id, Expr.mapNamesList_id]

theorem Keyword.mapNamesList_id (ks : List Keyword) : Keyword.mapNamesList id ks = ks := by
  cases ks with
  | nil => rfl
  | cons k rest =>
    obtain ⟨arg, value⟩ := k
    simp only [Keyword.mapNamesList, Keyword.mapNames, Expr.mapNames_id, Keyword.mapNamesList_id]

theorem Comprehension.mapNamesList_id (gs : List Comprehension) :
    Comprehension.mapNamesList id gs = gs := by
  cases gs with
  | nil => rfl
  | cons g rest =>
    obtain ⟨target, iter, ifs, isAsync⟩ := g
    simp only [Comprehension.mapNamesList, Comprehension.mapNames, Expr.mapNames_id,
      Expr.mapNamesList_id, Comprehension.mapNamesList_id]

end

mutual

theorem Stmt.mapNames_id (stmt : Stmt) : stmt.mapNames id = stmt := by
  cases stmt <;> simp only [Stmt.mapNames, Expr.mapNames_id, Expr.mapNamesOption_id,
    Expr.mapNamesList_id, Keyword.mapNamesList_id, Stmt.mapNamesList_id, Handler.mapNamesList_id]

theorem Stmt.mapNamesList_id (m : List Stmt) : Stmt.mapNamesList id m = m := by
  cases m <;> simp only [Stmt.mapNamesList, Stmt.mapNames_id, Stmt.mapNamesList_id]

theorem Handler.mapNamesList_id (hs : List Handler) : Handler.mapNamesList id hs = hs := by
  cases hs with
  | nil => rfl
  | cons h rest =>
    obtain ⟨type, name, body⟩ := h
    simp only [Handler.mapNamesList, Handler.mapNames, Expr.mapNamesOption_id,
      Stmt.mapNamesList_id, Handler.mapNamesList_id]

end

variable {w w' v v' later later' : List String} {P P' : Prop}

/-- Names in the order in which they are written and in the order in which they are visited: the
same names, and where a condition holds in one order, and only there if no name repeats. -/
structure InStep (written visited : List String) (P : Prop) : Prop where
  perm : written.Perm visited
  eq : P → written = visited
  only : visited.Nodup → written = visited → P

namespace InStep

lemma refl (v : List String) (hP : P) : InStep v v P := ⟨.refl v, fun _ => rfl, fun _ _ => hP⟩

lemma congr (h : InStep w v P) (hP : P ↔ P') : InStep w v P' :=
  ⟨h.perm, fun p => h.eq (hP.mpr p), fun hv hw => hP.mp (h.only hv hw)⟩

lemma append (h : InStep w v P) (h' : InStep w' v' P') :
    InStep (w ++ w') (v ++ v') (P ∧ P') where
  perm := h.perm.append h'.perm
  eq := fun ⟨p, p'⟩ => by rw [h.eq p, h'.eq p']
  only := fun hv hw => by
    obtain ⟨hleft, hright⟩ := List.append_inj hw h.perm.length_eq
    exact ⟨h.only hv.of_append_left hleft, h'.only hv.of_append_right hright⟩

/-- Names that are written before others but visited behind them. -/
lemma delay (h : InStep w v P) (hrest : InStep w' (later ++ v') P') :
    InStep (w ++ w') (later ++ (v ++ v')) ((v = [] ∨ later = []) ∧ P ∧ P') where
  perm := (h.perm.append hrest.perm).trans (List.perm_append_comm_assoc ..)
  eq := by
    rintro ⟨rfl | rfl, p, p'⟩
    · rw [h.eq p, hrest.eq p']
      rfl
    · rw [h.eq p, hrest.eq p']
      rfl
  only := fun hv hw => by
    have hrestNodup : (later ++ v').Nodup :=
      ((List.perm_append_comm_assoc v later v').nodup_iff.mpr hv).of_append_right
    cases w with
    | nil =>
      obtain rfl := h.perm.symm.eq_nil
      exact ⟨.inl rfl, h.only .nil rfl, hrest.only hrestNodup hw⟩
    | cons id w =>
      cases later with
      | nil => exact ⟨.inr rfl, (h.append hrest).only hv hw⟩
      | cons first later =>
        -- The first name is written before others, so it would be among them.
        obtain rfl : id = first := (List.cons.inj hw).1
        have hmem : id ∈ v ++ v' :=
          List.mem_append_left _ (h.perm.mem_iff.mp List.mem_cons_self)
        have hdistinct := (List.nodup_append.mp hv).2.2 id List.mem_cons_self id hmem
        contradiction

end InStep

/-- The names among expressions. -/
def namesOf (es : List Expr) : List String := es.filterMap Expr.name?

lemma namesOf_append (es es' : List Expr) : namesOf (es ++ es') = namesOf es ++ namesOf es' :=
  List.filterMap_append

/-- Operators and operands, and keys and values, go together. -/
def Expr.Paired : Expr → Prop
  | .compare _ ops comparators => ops.length = comparators.length
  | .dict keys values => keys.length = values.length
  | _ => True

/-- No value with names stands before a key with names. -/
def KeysFirst : List (Option Expr) → List Expr → Prop
  | _ :: keys, value :: values =>
    (namesOf value.all = [] ∨ namesOf (Expr.visitedOptions (fun _ => true) keys) = []) ∧
      KeysFirst keys values
  | _, _ => True

/-- The names in the parts of an expression are visited in the order in which they are written. -/
def Expr.KeepsOrder : Expr → Prop
  | .conditional test body _ => namesOf body.all = [] ∨ namesOf test.all = []
  | .dict keys values => KeysFirst keys values
  | _ => True

/-- What is printed with names replaced is a text with gaps, and its names are those of the
expressions, in the order in which these are visited where they keep the order. -/
def Spells (print : (String → String) → List Char) (es : List Expr) : Prop :=
  (∀ e ∈ es, e.Paired) → ∃ t : Template, print = (fun s => t.fill s) ∧
    InStep t.names (namesOf es) (∀ e ∈ es, e.KeepsOrder)

/-- The same of texts in a row. -/
def SpellsRow (print : (String → String) → List (List Char)) (es : List Expr) : Prop :=
  (∀ e ∈ es, e.Paired) → ∃ ts : List Template, print = (fun s => ts.map (Template.fill s)) ∧
    InStep (ts.flatMap Template.names) (namesOf es) (∀ e ∈ es, e.KeepsOrder)

variable {es es' : List Expr}

lemma inStep_append (h : InStep w (namesOf es) (∀ e ∈ es, e.KeepsOrder))
    (h' : InStep w' (namesOf es') (∀ e ∈ es', e.KeepsOrder)) :
    InStep (w ++ w') (namesOf (es ++ es')) (∀ e ∈ es ++ es', e.KeepsOrder) := by
  rw [namesOf_append]
  exact (h.append h').congr List.forall_mem_append.symm

namespace Spells

variable {print print' : (String → String) → List Char}

lemma text (chars : List Char) : Spells (fun _ => chars) [] :=
  fun _ => ⟨[.text chars], funext fun _ => (List.append_nil chars).symm, .refl [] (by simp)⟩

lemma append (h : Spells print es) (h' : Spells print' es') :
    Spells (fun s => print s ++ print' s) (es ++ es') := by
  intro hpaired
  obtain ⟨hleft, hright⟩ := List.forall_mem_append.mp hpaired
  obtain ⟨t, rfl, hsteps⟩ := h hleft
  obtain ⟨t', rfl, hsteps'⟩ := h' hright
  refine ⟨t ++ t', funext fun s => Template.fill_append.symm, ?_⟩
  rw [Template.names_append]
  exact inStep_append hsteps hsteps'

lemma after (chars : List Char) (h : Spells print es) :
    Spells (fun s => chars ++ print s) es := (text chars).append h

lemma before (h : Spells print es) (chars : List Char) :
    Spells (fun s => print s ++ chars) es := by
  have hboth := h.append (text chars)
  rwa [List.append_nil] at hboth

/-- A node before its parts, which it may write in another order. -/
lemma of_parts {e : Expr} (hname : e.name? = none)
    (h : e.Paired → (∀ e ∈ es, e.Paired) → ∃ t : Template, print = (fun s => t.fill s) ∧
      InStep t.names (namesOf es) (e.KeepsOrder ∧ ∀ e ∈ es, e.KeepsOrder)) :
    Spells print (e :: es) := by
  intro hpaired
  obtain ⟨he, hes⟩ := List.forall_mem_cons.mp hpaired
  obtain ⟨t, rfl, hsteps⟩ := h he hes
  refine ⟨t, rfl, ?_⟩
  rw [namesOf, List.filterMap_cons_none hname]
  exact hsteps.congr List.forall_mem_cons.symm

/-- A node before its parts in their order. -/
lemma node {e : Expr} (hname : e.name? = none) (hkeeps : e.KeepsOrder)
    (h : e.Paired → Spells print es) : Spells print (e :: es) := by
  refine of_parts hname fun he hes => ?_
  obtain ⟨t, ht, hsteps⟩ := h he hes
  exact ⟨t, ht, hsteps.congr (and_iff_right hkeeps).symm⟩

lemma wrapped (own context : Level) (h : Spells print es) :
    Spells (fun s => Printer.wrapped own context (print s)) es := by
  by_cases hlevel : own < context
  · simp only [Printer.wrapped, if_pos hlevel]
    exact (h.after ['(']).before [')']
  · simp only [Printer.wrapped, if_neg hlevel]
    exact h

end Spells

/-- Templates in a row with a separator between them. -/
def Template.join (separator : List Char) : List Template → Template
  | [] => []
  | [t] => t
  | t :: rest => t ++ .text separator :: Template.join separator rest

lemma Template.fill_join (separator : List Char) (ts : List Template) (s : String → String) :
    (Template.join separator ts).fill s = Printer.join separator (ts.map (Template.fill s)) := by
  fun_induction Template.join separator ts with
  | case1 => rfl
  | case2 => rfl
  | case3 t rest hrest ih =>
    rw [fill_append, fill_text, ih, List.map_cons, Printer.join, List.append_assoc]
    simpa using hrest

lemma Template.names_join (separator : List Char) (ts : List Template) :
    (Template.join separator ts).names = ts.flatMap Template.names := by
  fun_induction Template.join separator ts with
  | case1 => rfl
  | case2 => simp
  | case3 t rest _ ih =>
    rw [names_append, List.flatMap_cons, ← ih]
    rfl

/-- Templates of the items of a tuple. -/
def Template.tupleItems : List Template → Template
  | [t] => t ++ [.text [',']]
  | ts => Template.join Printer.comma ts

namespace SpellsRow

variable {print : (String → String) → List Char} {row row' : (String → String) → List (List Char)}

lemma nil : SpellsRow (fun _ => []) [] := fun _ => ⟨[], rfl, .refl [] (by simp)⟩

lemma append (h : SpellsRow row es) (h' : SpellsRow row' es') :
    SpellsRow (fun s => row s ++ row' s) (es ++ es') := by
  intro hpaired
  obtain ⟨hleft, hright⟩ := List.forall_mem_append.mp hpaired
  obtain ⟨ts, rfl, hsteps⟩ := h hleft
  obtain ⟨ts', rfl, hsteps'⟩ := h' hright
  refine ⟨ts ++ ts', funext fun s => List.map_append.symm, ?_⟩
  rw [List.flatMap_append]
  exact inStep_append hsteps hsteps'

lemma single (h : Spells print es) : SpellsRow (fun s => [print s]) es := by
  intro hpaired
  obtain ⟨t, rfl, hsteps⟩ := h hpaired
  refine ⟨[t], rfl, ?_⟩
  rwa [List.flatMap_singleton]

lemma cons (h : Spells print es) (hrow : SpellsRow row es') :
    SpellsRow (fun s => print s :: row s) (es ++ es') := (single h).append hrow

/-- A row of texts that is put together to one. -/
lemma collect {f : List (List Char) → List Char} (g : List Template → Template)
    (hfill : ∀ ts s, (g ts).fill s = f (ts.map (Template.fill s)))
    (hnames : ∀ ts, (g ts).names = ts.flatMap Template.names) (h : SpellsRow row es) :
    Spells (fun s => f (row s)) es := by
  intro hpaired
  obtain ⟨ts, rfl, hsteps⟩ := h hpaired
  exact ⟨g ts, funext fun s => (hfill ts s).symm, hnames ts ▸ hsteps⟩

lemma join (separator : List Char) (h : SpellsRow row es) :
    Spells (fun s => Printer.join separator (row s)) es :=
  h.collect (Template.join separator) (Template.fill_join separator) (Template.names_join separator)

lemma tupleItems (h : SpellsRow row es) : Spells (fun s => Printer.tupleItems (row s)) es := by
  refine h.collect Template.tupleItems (fun ts s => ?_) (fun ts => ?_)
  · match ts with
    | [t] => exact Template.fill_append
    | [] => rfl
    | t :: t' :: rest => exact Template.fill_join Printer.comma (t :: t' :: rest) s
  · match ts with
    | [t] => simp [Template.tupleItems, Template.names, Piece.name?]
    | [] => rfl
    | t :: t' :: rest => exact Template.names_join Printer.comma (t :: t' :: rest)

end SpellsRow

end Unmask
