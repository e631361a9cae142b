import Unmask.Syntax.Tree

/-!
# Equality of trees

Two trees are the same when they have the same shape and the same leaves. Floats are compared as
numbers, so a tree that holds a NaN is not the same as itself, and the two zeros are the same.
-/
namespace Unmask

def Constant.same : Constant → Constant → Bool
  | .none, .none => true
  | .bool a, .bool b => a == b
  | .int a, .int b => a == b
  | .float a, .float b => a == b
  | .str a, .str b => a == b
  | .bytes a, .bytes b => a == b
  | .ellipsis, .ellipsis => true
  | _, _ => false

mutual

def Expr.same : Expr → Expr → Bool
  | .name a, .name b => a == b
  | .constant a, .constant b => a.same b
  | .attribute v a, .attribute w b => v.same w && a == b
  | .subscript v s, .subscript w t => v.same w && s.same t
  | .slice l u s, .slice l' u' s' =>
    Expr.sameOption l l' && Expr.sameOption u u' && Expr.sameOption s s'
  | .call f a k, .call g b l => f.same g && Expr.sameList a b && Keyword.sameList k l
  | .binary l o r, .binary l' o' r' => l.same l' && o == o' && r.same r'
  | .unary o e, .unary o' e' => o == o' && e.same e'
  | .bool o v, .bool o' v' => o == o' && Expr.sameList v v'
  | .compare l o c, .compare l' o' c' => l.same l' && o == o' && Expr.sameList c c'
  | .conditional t b o, .conditional t' b' o' => t.same t' && b.same b' && o.same o'
  | .lambda p b, .lambda p' b' => p == p' && b.same b'
  | .named t v, .named t' v' => t == t' && v.same v'
  | .list a, .list b => Expr.sameList a b
  | .tuple a, .tuple b => Expr.sameList a b
  | .set a, .set b => Expr.sameList a b
  | .dict k v, .dict k' v' => Expr.sameOptions k k' && Expr.sameList v v'
  | .starred a, .starred b => a.same b
  | .listComp e g, .listComp e' g' => e.same e' && Comprehension.sameList g g'
  | .setComp e g, .setComp e' g' => e.same e' && Comprehension.sameList g g'
  | .generator e g, .generator e' g' => e.same e' && Comprehension.sameList g g'
  | .dictComp k v g, .dictComp k' v' g' => k.same k' && v.same v' && Comprehension.sameList g g'
  | .await a, .await b => a.same b
  | .verbatim a, .verbatim b => a == b
  | _, _ => false

def Expr.sameOption : Option Expr → Option Expr → Bool
  | none, none => true
  | some a, some b => a.same b
  | _, _ => false

def Expr.sameList : List Expr → List Expr → Bool
  | [], [] => true
  | a :: r, b :: s => a.same b && Expr.sameList r s
  | _, _ => false

def Expr.sameOptions : List (Option Expr) → List (Option Expr) → Bool
  | [], [] => true
  | a :: r, b :: s => Expr.sameOption a b && Expr.sameOptions r s
  | _, _ => false

def Keyword.same : Keyword → Keyword → Bool
  | ⟨a, v⟩, ⟨b, w⟩ => a == b && v.same w

def Keyword.sameList : List Keyword → List Keyword → Bool
  | [], [] => true
  | a :: r, b :: s => a.same b && Keyword.sameList r s
  | _, _ => false

def Comprehension.same : Comprehension → Comprehension → Bool
  | ⟨t, i, c, a⟩, ⟨t', i', c', a'⟩ => t.same t' && i.same i' && Expr.sameList c c' && a == a'

def Comprehension.sameList : List Comprehension → List Comprehension → Bool
  | [], [] => true
  | a :: r, b :: s => a.same b && Comprehension.sameList r s
  | _, _ => false

end

mutual

def Stmt.same : Stmt → Stmt → Bool
  | .expr a, .expr b => a.same b
  | .assign t v, .assign t' v' => Expr.sameList t t' && v.same v'
  | .augAssign t o v, .augAssign t' o' v' => t.same t' && o == o' && v.same v'
  | .ret a, .ret b => Expr.sameOption a b
  | .delete a, .delete b => Expr.sameList a b
  | .raise e c, .raise e' c' => Expr.sameOption e e' && Expr.sameOption c c'
  | .assert t m, .assert t' m' => t.same t' && Expr.sameOption m m'
  | .pass, .pass => true
  | .breakLoop, .breakLoop => true
  | .continueLoop, .continueLoop => true
  | .global a, .global b => a == b
  | .nonlocal a, .nonlocal b => a == b
  | .importNames a, .importNames b => a == b
  | .importFrom m l n, .importFrom m' l' n' => m == m' && l == l' && n == n'
  | .ite t b o, .ite t' b' o' => t.same t' && Stmt.sameList b b' && Stmt.sameList o o'
  | .whileLoop t b o, .whileLoop t' b' o' => t.same t' && Stmt.sameList b b' && Stmt.sameList o o'
  | .forLoop t i b o a, .forLoop t' i' b' o' a' =>
    t.same t' && i.same i' && Stmt.sameList b b' && Stmt.sameList o o' && a == a'
  | .tryBlock b h o f s, .tryBlock b' h' o' f' s' =>
    Stmt.sameList b b' && Handler.sameList h h' && Stmt.sameList o o' && Stmt.sameList f f' &&
      s == s'
  | .withBlock i b a, .withBlock i' b' a' => i == i' && Stmt.sameList b b' && a == a'
  | .functionDef n p r b d a, .functionDef n' p' r' b' d' a' =>
    n == n' && p == p' && r == r' && Stmt.sameList b b' && Expr.sameList d d' && a == a'
  | .classDef n s k b d, .classDef n' s' k' b' d' =>
    n == n' && Expr.sameList s s' && Keyword.sameList k k' && Stmt.sameList b b' &&
      Expr.sameList d d'
  | .verbatim a, .verbatim b => a == b
  | _, _ => false

def Stmt.sameList : List Stmt → List Stmt → Bool
  | [], [] => true
  | a :: r, b :: s => a.same b && Stmt.sameList r s
  | _, _ => false

def Handler.same : Handler → Handler → Bool
  | ⟨t, n, b⟩, ⟨t', n', b'⟩ => Expr.sameOption t t' && n == n' && Stmt.sameList b b'

def Handler.sameList : List Handler → List Handler → Bool
  | [], [] => true
  | a :: r, b :: s => a.same b && Handler.sameList r s
  | _, _ => false

end

def Module.same (a b : Module) : Bool := Stmt.sameList a b

end Unmask
