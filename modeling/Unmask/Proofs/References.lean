import Mathlib.Tactic.Lemma
import Unmask.Syntax.Visit
import Unmask.Text.Basic

/-!
# References

The names that a tree refers to: the names that are read, which every fold is shown, and the names
in what no fold looks into, the texts that are kept as written and the targets that are neither
names nor put together of targets. Names that are bound or declared are no references.
-/
namespace Unmask

/-- The words of a text. -/
def words (text : String) : List String :=
  ((text.toList.splitOnP fun c => !Text.isIdentifierContinue c).filter (· ≠ [])).map
    String.ofList

/-- A name that is referred to: one that is read, or one in what is kept as written. -/
inductive Reference where
  | read (id : String)
  | kept (id : String)
  deriving DecidableEq

def Reference.id : Reference → String
  | .read id => id
  | .kept id => id

/-- The names in a text that is kept as written. -/
def keptWords (text : String) : List Reference := (words text).map Reference.kept

/-- The names that a node of an expression refers to by itself. -/
def Expr.ownNames : Expr → List String
  | .name id => [id]
  | .lambda params _ => words params
  | .verbatim text => words text
  | _ => []

mutual

/-- The references in an expression that is read. -/
def Expr.references : Expr → List Reference
  | .name id => [.read id]
  | .constant _ => []
  | .attribute value _ => value.references
  | .subscript value slice => value.references ++ slice.references
  | .slice lower upper step =>
    Expr.referencesOption lower ++ Expr.referencesOption upper ++ Expr.referencesOption step
  | .call func args keywords =>
    func.references ++ Expr.referencesList args ++ Keyword.referencesList keywords
  | .binary left _ right => left.references ++ right.references
  | .unary _ operand => operand.references
  | .bool _ values => Expr.referencesList values
  | .compare left _ comparators => left.references ++ Expr.referencesList comparators
  | .conditional test body orelse => test.references ++ body.references ++ orelse.references
  | .lambda params body => keptWords params ++ body.references
  | .named _ value => value.references
  | .list items => Expr.referencesList items
  | .tuple items => Expr.referencesList items
  | .set items => Expr.referencesList items
  | .dict keys values => Expr.referencesOptions keys ++ Expr.referencesList values
  | .starred value => value.references
  | .listComp elt generators => elt.references ++ Comprehension.referencesList generators
  | .setComp elt generators => elt.references ++ Comprehension.referencesList generators
  | .generator elt generators => elt.references ++ Comprehension.referencesList generators
  | .dictComp key value generators =>
    key.references ++ value.references ++ Comprehension.referencesList generators
  | .await value => value.references
  | .verbatim text => keptWords text

/-- The references in a target. -/
def Expr.targetReferences : Expr → List Reference
  | .name _ => []
  | .tuple items => Expr.targetReferencesList items
  | .list items => Expr.targetReferencesList items
  | .starred value => value.targetReferences
  | .subscript value slice => value.references ++ slice.references
  | .attribute value _ => value.references
  | other => ((other.visited fun _ => true).flatMap Expr.ownNames).map Reference.kept

def Expr.referencesOption : Option Expr → List Reference
  | none => []
  | some e => e.references

def Expr.referencesOptions : List (Option Expr) → List Reference
  | [] => []
  | e :: rest => Expr.referencesOption e ++ Expr.referencesOptions rest

def Expr.referencesList : List Expr → List Reference
  | [] => []
  | e :: rest => e.references ++ Expr.referencesList rest

def Expr.targetReferencesList : List Expr → List Reference
  | [] => []
  | e :: rest => e.targetReferences ++ Expr.targetReferencesList rest

def Keyword.references : Keyword → List Reference
  | ⟨_, value⟩ => value.references

def Keyword.referencesList : List Keyword → List Reference
  | [] => []
  | k :: rest => k.references ++ Keyword.referencesList rest

def Comprehension.references : Comprehension → List Reference
  | ⟨target, iter, ifs, _⟩ =>
    target.targetReferences ++ iter.references ++ Expr.referencesList ifs

def Comprehension.referencesList : List Comprehension → List Reference
  | [] => []
  | g :: rest => g.references ++ Comprehension.referencesList rest

end

mutual

/-- The references in a statement. -/
def Stmt.references : Stmt → List Reference
  | .expr value => value.references
  | .assign targets value => Expr.targetReferencesList targets ++ value.references
  | .augAssign target _ value => target.targetReferences ++ value.references
  | .ret value => Expr.referencesOption value
  | .delete targets => Expr.targetReferencesList targets
  | .raise exc cause => Expr.referencesOption exc ++ Expr.referencesOption cause
  | .assert test msg => test.references ++ Expr.referencesOption msg
  | .ite test body orelse =>
    test.references ++ Stmt.referencesList body ++ Stmt.referencesList orelse
  | .whileLoop test body orelse =>
    test.references ++ Stmt.referencesList body ++ Stmt.referencesList orelse
  | .forLoop target iter body orelse _ =>
    target.targetReferences ++ iter.references ++ Stmt.referencesList body ++
      Stmt.referencesList orelse
  | .tryBlock body handlers orelse finalbody _ =>
    Stmt.referencesList body ++ Handler.referencesList handlers ++ Stmt.referencesList orelse ++
      Stmt.referencesList finalbody
  | .withBlock items body _ => keptWords items ++ Stmt.referencesList body
  | .functionDef _ params returns body decorators _ =>
    Expr.referencesList decorators ++ keptWords params ++ (returns.map keptWords).getD [] ++
      Stmt.referencesList body
  | .classDef _ bases keywords body decorators =>
    Expr.referencesList decorators ++ Expr.referencesList bases ++
      Keyword.referencesList keywords ++ Stmt.referencesList body
  | .verbatim text => keptWords text
  | _ => []

/-- The references in statements. -/
def Stmt.referencesList : List Stmt → List Reference
  | [] => []
  | s :: rest => s.references ++ Stmt.referencesList rest

def Handler.references : Handler → List Reference
  | ⟨type, _, body⟩ => Expr.referencesOption type ++ Stmt.referencesList body

def Handler.referencesList : List Handler → List Reference
  | [] => []
  | h :: rest => h.references ++ Handler.referencesList rest

end

/-- The references in a program. -/
def Module.references (m : Module) : List Reference := Stmt.referencesList m

/-- A program refers to a name. -/
def Module.RefersTo (m : Module) (id : String) : Prop := ∃ r ∈ m.references, r.id = id

lemma referencesList_append (m rest : List Stmt) :
    Stmt.referencesList (m ++ rest) = Stmt.referencesList m ++ Stmt.referencesList rest := by
  induction m with
  | nil => rfl
  | cons s m ih =>
    rw [List.cons_append, Stmt.referencesList, Stmt.referencesList, ih, List.append_assoc]

/-- A program refers to a name where it reads it or in what it keeps as written. -/
theorem Module.refersTo_iff {m : Module} {id : String} :
    m.RefersTo id ↔ .read id ∈ m.references ∨ .kept id ∈ m.references := by
  constructor
  · rintro ⟨r | r, hr, rfl⟩
    · exact .inl hr
    · exact .inr hr
  · rintro (h | h)
    · exact ⟨_, h, rfl⟩
    · exact ⟨_, h, rfl⟩

end Unmask
