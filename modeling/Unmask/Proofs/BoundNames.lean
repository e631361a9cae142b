import Mathlib.Data.List.Forall2
import Unmask.Proofs.CleaningTwice
import Unmask.Proofs.References

/-!
# Bound names

A comprehension binds the names of its targets, and a lambda its parameters. The parts of an
expression that are read are numbered, so that a place in it is a row of numbers; a name that is
read at a place is bound there if some expression on the way to it binds the name for what it
holds. A name stays where it is bound if the names on the way and the row of the parts stay, and
the name itself does.
-/
namespace Unmask

mutual

/-- The names that a target binds. -/
def Expr.boundNames : Expr → List String
  | .name id => [id]
  | .tuple items => Expr.boundNamesList items
  | .list items => Expr.boundNamesList items
  | .starred value => value.boundNames
  | _ => []

def Expr.boundNamesList : List Expr → List String
  | [] => []
  | e :: rest => e.boundNames ++ Expr.boundNamesList rest

end

mutual

/-- The parts of a target that are read. -/
def Expr.targetParts : Expr → List Expr
  | .tuple items => Expr.targetPartsList items
  | .list items => Expr.targetPartsList items
  | .starred value => value.targetParts
  | .subscript value key => [value, key]
  | .attribute value _ => [value]
  | _ => []

def Expr.targetPartsList : List Expr → List Expr
  | [] => []
  | e :: rest => e.targetParts ++ Expr.targetPartsList rest

end

/-- The pieces of a parameter list between the commas outside of brackets and literals: `nesting`
brackets are open, `quote` opened a literal, and `piece` is read backwards so far. -/
def parameterPieces (nesting : Nat) (quote : Option Char) (piece : List Char) :
    List Char → List (List Char)
  | [] => [piece.reverse]
  | c :: rest =>
    match quote with
    | some q =>
      match c, rest with
      | '\\', d :: rest => parameterPieces nesting (some q) (d :: c :: piece) rest
      | c, rest =>
        parameterPieces nesting (if c == q then none else some q) (c :: piece) rest
    | none =>
      if c == ',' && nesting == 0 then piece.reverse :: parameterPieces 0 none [] rest
      else if Literal.isQuote c then parameterPieces nesting (some c) (c :: piece) rest
      else if ['(', '[', '\x7b'].contains c then
        parameterPieces (nesting + 1) none (c :: piece) rest
      else if [')', ']', '\x7d'].contains c then
        parameterPieces (nesting - 1) none (c :: piece) rest
      else parameterPieces nesting none (c :: piece) rest

/-- The names of a parameter list; a default stands behind an equals sign. -/
def parameterNames (params : String) : List String :=
  (parameterPieces 0 none [] params.toList).flatMap fun piece =>
    words (String.ofList (piece.takeWhile (· != '=')))

example : parameterNames "x, y=f(a, ','), *args, z=1, **kw" = ["x", "y", "args", "z", "kw"] := by
  decide +kernel

/-- A part of an expression, with the names that the expression binds for it. -/
abbrev Part := List String × Expr

/-- Parts for which nothing is bound. -/
def plainParts (es : List Expr) : List Part := es.map fun e => ([], e)

/-- The parts of a clause of a comprehension but for the row that it goes through. -/
def Comprehension.innerParts (g : Comprehension) : List Expr := g.target.targetParts ++ g.ifs

/-- The parts of the clauses of a comprehension that binds some names. The row that the first clause
goes through is read outside of the comprehension. -/
def Comprehension.partsList (bound : List String) : List Comprehension → List Part
  | [] => []
  | g :: rest =>
    ([], g.iter) :: (g.innerParts ++ rest.flatMap fun g => g.iter :: g.innerParts).map fun e =>
      (bound, e)

/-- The names that the clauses of a comprehension bind. -/
def Comprehension.namesList (gs : List Comprehension) : List String :=
  gs.flatMap fun g => g.target.boundNames

/-- The parts of a comprehension with its elements. -/
def comprehensionParts (elements : List Expr) (gs : List Comprehension) : List Part :=
  (elements.map fun e => (Comprehension.namesList gs, e)) ++
    Comprehension.partsList (Comprehension.namesList gs) gs

/-- The parts of an expression that are read. -/
def Expr.parts : Expr → List Part
  | .name _ => []
  | .constant _ => []
  | .attribute value _ => plainParts [value]
  | .subscript value key => plainParts [value, key]
  | .slice lower upper step => plainParts (lower.toList ++ upper.toList ++ step.toList)
  | .call func args keywords => plainParts (func :: (args ++ keywords.map Keyword.value))
  | .binary left _ right => plainParts [left, right]
  | .unary _ operand => plainParts [operand]
  | .bool _ values => plainParts values
  | .compare left _ comparators => plainParts (left :: comparators)
  | .conditional test body orelse => plainParts [test, body, orelse]
  | .lambda params body => [(parameterNames params, body)]
  | .named _ value => plainParts [value]
  | .list items => plainParts items
  | .tuple items => plainParts items
  | .set items => plainParts items
  | .dict keys values => plainParts (keys.flatMap Option.toList ++ values)
  | .starred value => plainParts [value]
  | .listComp elt generators => comprehensionParts [elt] generators
  | .setComp elt generators => comprehensionParts [elt] generators
  | .generator elt generators => comprehensionParts [elt] generators
  | .dictComp key value generators => comprehensionParts [key, value] generators
  | .await value => plainParts [value]
  | .verbatim _ => []

/-- A name is read at a place of an expression. -/
inductive ReadAt (id : String) : Expr → List Nat → Prop where
  | name : ReadAt id (.name id) []
  | part {e : Expr} {i : Nat} {part : Part} {place : List Nat} (h : e.parts[i]? = some part)
      (hread : ReadAt id part.2 place) : ReadAt id e (i :: place)

/-- A name is read at a place of an expression and is bound there by an expression around it. -/
inductive BoundAt (id : String) : Expr → List Nat → Prop where
  | here {e : Expr} {i : Nat} {part : Part} {place : List Nat} (h : e.parts[i]? = some part)
      (hid : id ∈ part.1) (hread : ReadAt id part.2 place) : BoundAt id e (i :: place)
  | part {e : Expr} {i : Nat} {part : Part} {place : List Nat} (h : e.parts[i]? = some part)
      (hbound : BoundAt id part.2 place) : BoundAt id e (i :: place)

variable {id : String} {e e' : Expr}

lemma BoundAt.readAt {place : List Nat} (h : BoundAt id e place) : ReadAt id e place := by
  induction h with
  | here h _ hread => exact .part h hread
  | part h _ ih => exact .part h ih

/-- Where a name is read and where it is bound, it is so in another expression. -/
structure Keeps (id : String) (e e' : Expr) : Prop where
  read : ∀ place, ReadAt id e place → ReadAt id e' place
  bound : ∀ place, BoundAt id e place → BoundAt id e' place

/-- A name is read nowhere in an expression. -/
def Absent (id : String) (e : Expr) : Prop := ∀ place, ¬ ReadAt id e place

lemma Absent.of_parts (hname : e.name? = none) (h : ∀ part ∈ e.parts, Absent id part.2) :
    Absent id e := by
  intro place hread
  cases hread with
  | name => contradiction
  | part ha hread => exact h _ (List.mem_of_getElem? ha) _ hread

namespace Keeps

lemma refl (id : String) (e : Expr) : Keeps id e e := ⟨fun _ h => h, fun _ h => h⟩

lemma of_absent (h : Absent id e) (e' : Expr) : Keeps id e e' :=
  ⟨fun place hread => absurd hread (h place), fun place hbound => absurd hbound.readAt (h place)⟩

/-- The parts of one expression are kept by those of another one, with the same names bound. -/
abbrev Parts (id : String) : List Part → List Part → Prop :=
  List.Forall₂ fun a b => b.1 = a.1 ∧ Keeps id a.2 b.2

/-- An expression keeps a name if its parts do. -/
theorem of_parts (hname : e.name? = none) (h : Parts id e.parts e'.parts) : Keeps id e e' := by
  have hpart {i : Nat} {a : Part} (ha : e.parts[i]? = some a) :
      ∃ b, e'.parts[i]? = some b ∧ b.1 = a.1 ∧ Keeps id a.2 b.2 := by
    obtain ⟨hi, rfl⟩ := List.getElem?_eq_some_iff.mp ha
    obtain ⟨hlength, hget⟩ := List.forall₂_iff_get.mp h
    exact ⟨_, List.getElem?_eq_getElem (hlength ▸ hi), hget i hi (hlength ▸ hi)⟩
  refine ⟨fun place hread => ?_, fun place hbound => ?_⟩
  · cases hread with
    | name => contradiction
    | part ha hread =>
      obtain ⟨b, hb, -, hkeeps⟩ := hpart ha
      exact .part hb (hkeeps.read _ hread)
  · cases hbound with
    | here ha hid hread =>
      obtain ⟨b, hb, hnames, hkeeps⟩ := hpart ha
      exact .here hb (hnames ▸ hid) (hkeeps.read _ hread)
    | part ha hbound =>
      obtain ⟨b, hb, -, hkeeps⟩ := hpart ha
      exact .part hb (hkeeps.bound _ hbound)

/-- Expressions one by one. -/
abbrev Row (id : String) : List Expr → List Expr → Prop := List.Forall₂ (Keeps id)

variable {es es' : List Expr}

lemma bind (names : List String) (h : Row id es es') :
    Parts id (es.map fun e => (names, e)) (es'.map fun e => (names, e)) :=
  List.forall₂_map_left_iff.mpr (List.forall₂_map_right_iff.mpr (h.imp fun _ _ h => ⟨rfl, h⟩))

/-- Where nothing is bound, the parts need only be kept one by one. -/
lemma of_row (hname : e.name? = none) (hparts : e.parts = plainParts es)
    (hparts' : e'.parts = plainParts es') (h : Row id es es') : Keeps id e e' := by
  refine of_parts hname ?_
  rw [hparts, hparts']
  exact bind [] h

/-- What a target binds and reads is kept. -/
structure Goal (id : String) (goal goal' : Expr) : Prop where
  names : goal'.boundNames = goal.boundNames
  parts : Row id goal.targetParts goal'.targetParts

/-- What a row of targets binds and reads is kept. -/
structure Goals (id : String) (goals goals' : List Expr) : Prop where
  names : Expr.boundNamesList goals' = Expr.boundNamesList goals
  parts : Row id (Expr.targetPartsList goals) (Expr.targetPartsList goals')

/-- What a clause binds and reads is kept. -/
structure Clause (id : String) (g g' : Comprehension) : Prop where
  target : Goal id g.target g'.target
  iter : Keeps id g.iter g'.iter
  ifs : Row id g.ifs g'.ifs

variable {gs gs' : List Comprehension}

lemma Clause.inner {g g' : Comprehension} (h : Clause id g g') :
    Row id g.innerParts g'.innerParts :=
  List.rel_append h.target.parts h.ifs

lemma namesList (h : List.Forall₂ (Clause id) gs gs') :
    Comprehension.namesList gs' = Comprehension.namesList gs := by
  induction h with
  | nil => rfl
  | cons hg _ ih =>
    simp only [Comprehension.namesList, List.flatMap_cons] at ih ⊢
    rw [hg.target.names, ih]

/-- A comprehension keeps what its elements and clauses keep. -/
lemma comprehension (hes : Row id es es') (hgs : List.Forall₂ (Clause id) gs gs') :
    Parts id (comprehensionParts es gs) (comprehensionParts es' gs') := by
  unfold comprehensionParts
  rw [namesList hgs]
  refine List.rel_append (bind _ hes) ?_
  cases hgs with
  | nil => exact .nil
  | cons hg hrest =>
    refine .cons ⟨rfl, hg.iter⟩ (bind _ (List.rel_append hg.inner ?_))
    exact List.rel_flatMap hrest fun _ _ h => .cons h.iter h.inner

end Keeps

section Substituting

open Fold

variable {σ : String → Expr}

mutual

/-- A substitution that leaves a name alone keeps it everywhere. -/
theorem substituting_keeps (h : σ id = .name id) (e : Expr) :
    Keeps id e ((substituting σ).onExpr e) := by
  cases e with
  | name name =>
    by_cases hname : name = id
    · subst hname
      show Keeps name _ (σ name)
      rw [h]
      exact .refl name _
    · refine .of_absent ?_ _
      rintro place (_ | ⟨hpart, -⟩)
      · contradiction
      · cases hpart
  | constant | verbatim => exact .refl id _
  | «attribute» value _ | unary _ value | named _ value | starred value | await value =>
    exact .of_row rfl rfl rfl (.cons (substituting_keeps h value) .nil)
  | lambda params body =>
    exact .of_parts rfl (.cons ⟨rfl, substituting_keeps h body⟩ .nil)
  | subscript left right | binary left _ right =>
    exact .of_row rfl rfl rfl
      (.cons (substituting_keeps h left) (.cons (substituting_keeps h right) .nil))
  | slice lower upper step =>
    have hbounds := List.rel_append (List.rel_append (substitutingOption_keeps h lower)
      (substitutingOption_keeps h upper)) (substitutingOption_keeps h step)
    exact .of_row rfl rfl rfl hbounds
  | call func args keywords =>
    have hargs := List.rel_append (substitutingList_keeps h args)
      (substitutingKeywords_keeps h keywords)
    exact .of_row rfl rfl rfl (.cons (substituting_keeps h func) hargs)
  | bool _ values | list values | tuple values | «set» values =>
    exact .of_row rfl rfl rfl (substitutingList_keeps h values)
  | compare left _ comparators =>
    exact .of_row rfl rfl rfl
      (.cons (substituting_keeps h left) (substitutingList_keeps h comparators))
  | conditional test body orelse =>
    exact .of_row rfl rfl rfl (.cons (substituting_keeps h test)
      (.cons (substituting_keeps h body) (.cons (substituting_keeps h orelse) .nil)))
  | dict keys values =>
    exact .of_row rfl rfl rfl
      (List.rel_append (substitutingOptions_keeps h keys) (substitutingList_keeps h values))
  | listComp elt gs | setComp elt gs | generator elt gs =>
    exact .of_parts rfl (Keeps.comprehension (.cons (substituting_keeps h elt) .nil)
      (substitutingClauses_keeps h gs))
  | dictComp key value gs =>
    exact .of_parts rfl (Keeps.comprehension
      (.cons (substituting_keeps h key) (.cons (substituting_keeps h value) .nil))
      (substitutingClauses_keeps h gs))

theorem substitutingGoal_keeps (h : σ id = .name id) (goal : Expr) :
    Keeps.Goal id goal ((substituting σ).onTarget goal) := by
  cases goal with
  | tuple items | list items =>
    have hitems := substitutingGoals_keeps h items
    exact ⟨hitems.names, hitems.parts⟩
  | starred value =>
    have hvalue := substitutingGoal_keeps h value
    exact ⟨hvalue.names, hvalue.parts⟩
  | subscript value key =>
    exact ⟨rfl, .cons (substituting_keeps h value) (.cons (substituting_keeps h key) .nil)⟩
  | «attribute» value _ => exact ⟨rfl, .cons (substituting_keeps h value) .nil⟩
  | _ => exact ⟨rfl, .nil⟩

theorem substitutingGoals_keeps (h : σ id = .name id) (goals : List Expr) :
    Keeps.Goals id goals ((substituting σ).onTargets goals) := by
  cases goals with
  | nil => exact ⟨rfl, .nil⟩
  | cons goal rest =>
    have hgoal := substitutingGoal_keeps h goal
    have hrest := substitutingGoals_keeps h rest
    exact ⟨congrArg₂ (· ++ ·) hgoal.names hrest.names, List.rel_append hgoal.parts hrest.parts⟩

theorem substitutingOption_keeps (h : σ id = .name id) (o : Option Expr) :
    Keeps.Row id o.toList ((substituting σ).onOption o).toList := by
  cases o with
  | none => exact .nil
  | some e => exact .cons (substituting_keeps h e) .nil

theorem substitutingOptions_keeps (h : σ id = .name id) (os : List (Option Expr)) :
    Keeps.Row id (os.flatMap Option.toList)
      (((substituting σ).onOptions os).flatMap Option.toList) := by
  cases os with
  | nil => exact .nil
  | cons o rest =>
    exact List.rel_append (substitutingOption_keeps h o) (substitutingOptions_keeps h rest)

theorem substitutingList_keeps (h : σ id = .name id) (es : List Expr) :
    Keeps.Row id es ((substituting σ).onExprs es) := by
  cases es with
  | nil => exact .nil
  | cons e rest => exact .cons (substituting_keeps h e) (substitutingList_keeps h rest)

theorem substitutingKeyword_keeps (h : σ id = .name id) (k : Keyword) :
    Keeps id k.value ((substituting σ).onKeyword k).value := by
  obtain ⟨_, value⟩ := k
  exact substituting_keeps h value

theorem substitutingKeywords_keeps (h : σ id = .name id) (ks : List Keyword) :
    Keeps.Row id (ks.map Keyword.value) (((substituting σ).onKeywords ks).map Keyword.value) := by
  cases ks with
  | nil => exact .nil
  | cons k rest =>
    exact .cons (substitutingKeyword_keeps h k) (substitutingKeywords_keeps h rest)

theorem substitutingClause_keeps (h : σ id = .name id) (g : Comprehension) :
    Keeps.Clause id g ((substituting σ).onComprehension g) := by
  obtain ⟨goal, iter, ifs, _⟩ := g
  exact ⟨substitutingGoal_keeps h goal, substituting_keeps h iter, substitutingList_keeps h ifs⟩

theorem substitutingClauses_keeps (h : σ id = .name id) (gs : List Comprehension) :
    List.Forall₂ (Keeps.Clause id) gs ((substituting σ).onComprehensions gs) := by
  cases gs with
  | nil => exact .nil
  | cons g rest => exact .cons (substitutingClause_keeps h g) (substitutingClauses_keeps h rest)

end

end Substituting

end Unmask
