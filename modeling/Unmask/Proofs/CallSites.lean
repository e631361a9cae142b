import Mathlib.Tactic.Lemma
import Unmask.Proofs.TreeWalks

/-!
# Calls of a name

The calls of a plain name in a tree, in the order in which they are written. What is bound is not
folded, so a call that stands as a target is told from one that is read: `del f(x)` is a target,
`del f(x).y` reads one.
-/
namespace Unmask

/-- A call, and whether it is read or stands as a target. -/
inductive Site where
  | read (call : Expr)
  | target (call : Expr)

def Site.call : Site → Expr
  | .read call => call
  | .target call => call

/-- The calls of a name among expressions. -/
def callsAmong (id : String) (es : List Expr) : List Expr := es.filter (Expr.isCallOf id)

/-- The calls of a name among nodes. -/
def Node.calls (id : String) (nodes : List Node) : List Expr := callsAmong id (Node.exprs nodes)

/-- All calls of a name in a program. -/
def Module.callsOf (id : String) (m : Module) : List Expr := Node.calls id m.nodes

/-- A call that is read, if it is one of the name. -/
def siteOf (id : String) (call : Expr) : List Site :=
  if call.isCallOf id then [.read call] else []

mutual

/-- The calls of a name in an expression that is read. -/
def Expr.sites (id : String) : Expr → List Site
  | .name _ => []
  | .constant _ => []
  | .attribute value _ => value.sites id
  | .subscript value slice => value.sites id ++ slice.sites id
  | .slice lower upper step =>
    Expr.sitesOption id lower ++ Expr.sitesOption id upper ++ Expr.sitesOption id step
  | .call func args keywords =>
    siteOf id (.call func args keywords) ++
      (func.sites id ++ Expr.sitesList id args ++ Keyword.sitesList id keywords)
  | .binary left _ right => left.sites id ++ right.sites id
  | .unary _ operand => operand.sites id
  | .bool _ values => Expr.sitesList id values
  | .compare left _ comparators => left.sites id ++ Expr.sitesList id comparators
  | .conditional test body orelse => test.sites id ++ body.sites id ++ orelse.sites id
  | .lambda _ body => body.sites id
  | .named _ value => value.sites id
  | .list items => Expr.sitesList id items
  | .tuple items => Expr.sitesList id items
  | .set items => Expr.sitesList id items
  | .dict keys values => Expr.sitesOptions id keys ++ Expr.sitesList id values
  | .starred value => value.sites id
  | .listComp elt generators => elt.sites id ++ Comprehension.sitesList id generators
  | .setComp elt generators => elt.sites id ++ Comprehension.sitesList id generators
  | .generator elt generators => elt.sites id ++ Comprehension.sitesList id generators
  | .dictComp key value generators =>
    key.sites id ++ value.sites id ++ Comprehension.sitesList id generators
  | .await value => value.sites id
  | .verbatim _ => []

/-- The calls of a name in a target. -/
def Expr.targetSites (id : String) : Expr → List Site
  | .tuple items => Expr.targetSitesList id items
  | .list items => Expr.targetSitesList id items
  | .starred value => value.targetSites id
  | .subscript value slice => value.sites id ++ slice.sites id
  | .attribute value _ => value.sites id
  | bound => (callsAmong id (bound.visited fun _ => true)).map Site.target

def Expr.sitesOption (id : String) : Option Expr → List Site
  | none => []
  | some e => e.sites id

def Expr.sitesOptions (id : String) : List (Option Expr) → List Site
  | [] => []
  | e :: rest => Expr.sitesOption id e ++ Expr.sitesOptions id rest

def Expr.sitesList (id : String) : List Expr → List Site
  | [] => []
  | e :: rest => e.sites id ++ Expr.sitesList id rest

def Expr.targetSitesList (id : String) : List Expr → List Site
  | [] => []
  | e :: rest => e.targetSites id ++ Expr.targetSitesList id rest

def Keyword.sites (id : String) : Keyword → List Site
  | ⟨_, value⟩ => value.sites id

def Keyword.sitesList (id : String) : List Keyword → List Site
  | [] => []
  | k :: rest => k.sites id ++ Keyword.sitesList id rest

def Comprehension.sites (id : String) : Comprehension → List Site
  | ⟨target, iter, ifs, _⟩ => target.targetSites id ++ iter.sites id ++ Expr.sitesList id ifs

def Comprehension.sitesList (id : String) : List Comprehension → List Site
  | [] => []
  | g :: rest => g.sites id ++ Comprehension.sitesList id rest

end

mutual

/-- The calls of a name in a statement. -/
def Stmt.sites (id : String) : Stmt → List Site
  | .expr value => value.sites id
  | .assign targets value => Expr.targetSitesList id targets ++ value.sites id
  | .augAssign target _ value => target.targetSites id ++ value.sites id
  | .ret value => Expr.sitesOption id value
  | .delete targets => Expr.targetSitesList id targets
  | .raise exc cause => Expr.sitesOption id exc ++ Expr.sitesOption id cause
  | .assert test msg => test.sites id ++ Expr.sitesOption id msg
  | .ite test body orelse =>
    test.sites id ++ Stmt.sitesList id body ++ Stmt.sitesList id orelse
  | .whileLoop test body orelse =>
    test.sites id ++ Stmt.sitesList id body ++ Stmt.sitesList id orelse
  | .forLoop target iter body orelse _ =>
    target.targetSites id ++ iter.sites id ++ Stmt.sitesList id body ++ Stmt.sitesList id orelse
  | .tryBlock body handlers orelse finalbody _ =>
    Stmt.sitesList id body ++ Handler.sitesList id handlers ++ Stmt.sitesList id orelse ++
      Stmt.sitesList id finalbody
  | .withBlock _ body _ => Stmt.sitesList id body
  | .functionDef _ _ _ body decorators _ =>
    Expr.sitesList id decorators ++ Stmt.sitesList id body
  | .classDef _ bases keywords body decorators =>
    Expr.sitesList id decorators ++ Expr.sitesList id bases ++ Keyword.sitesList id keywords ++
      Stmt.sitesList id body
  | _ => []

/-- The calls of a name in statements. -/
def Stmt.sitesList (id : String) : List Stmt → List Site
  | [] => []
  | s :: rest => s.sites id ++ Stmt.sitesList id rest

def Handler.sites (id : String) : Handler → List Site
  | ⟨type, _, body⟩ => Expr.sitesOption id type ++ Stmt.sitesList id body

def Handler.sitesList (id : String) : List Handler → List Site
  | [] => []
  | h :: rest => h.sites id ++ Handler.sitesList id rest

end

lemma callsAmong_append (id : String) (es rest : List Expr) :
    callsAmong id (es ++ rest) = callsAmong id es ++ callsAmong id rest :=
  List.filter_append es rest

/-- A node that is no call leaves the calls to what is in it. -/
lemma callsAmong_visit {id : String} {e : Expr} (h : e.isCallOf id = false)
    (within : List Expr) :
    callsAmong id (visit (fun _ => true) e within) = callsAmong id within := by
  simp [callsAmong, visit, h]

lemma callsAmong_call (id : String) (func : Expr) (args : List Expr) (keywords : List Keyword)
    (within : List Expr) :
    callsAmong id (visit (fun _ => true) (.call func args keywords) within) =
      (siteOf id (.call func args keywords)).map Site.call ++ callsAmong id within := by
  unfold siteOf
  by_cases h : (Expr.call func args keywords).isCallOf id
  · simp [callsAmong, visit, h, Site.call]
  · simp [callsAmong, visit, h]

lemma map_call_target (calls : List Expr) : (calls.map Site.target).map Site.call = calls := by
  simp [Function.comp_def, Site.call]

mutual

/-- The sites in an expression are its calls, in the order of its nodes. -/
theorem Expr.sites_call (id : String) (e : Expr) :
    (e.sites id).map Site.call = callsAmong id (e.visited fun _ => true) := by
  cases e with
  | name | constant | verbatim => rfl
  | call func args keywords =>
    rw [Expr.sites, Expr.visited, callsAmong_call]
    simp only [List.map_append, callsAmong_append, Expr.sites_call id func,
      Expr.sitesList_call id args, Keyword.sitesList_call id keywords]
  | «attribute» value _ | unary _ value | lambda _ value | named _ value | starred value
  | await value =>
    rw [Expr.sites, Expr.visited, callsAmong_visit rfl]
    exact Expr.sites_call id value
  | subscript left right | binary left _ right =>
    rw [Expr.sites, Expr.visited, callsAmong_visit rfl]
    simp only [List.map_append, callsAmong_append, Expr.sites_call id left,
      Expr.sites_call id right]
  | slice lower upper step =>
    rw [Expr.sites, Expr.visited, callsAmong_visit rfl]
    simp only [List.map_append, callsAmong_append, Expr.sitesOption_call id lower,
      Expr.sitesOption_call id upper, Expr.sitesOption_call id step]
  | bool _ items | list items | tuple items | «set» items =>
    rw [Expr.sites, Expr.visited, callsAmong_visit rfl]
    exact Expr.sitesList_call id items
  | compare left _ comparators =>
    rw [Expr.sites, Expr.visited, callsAmong_visit rfl]
    simp only [List.map_append, callsAmong_append, Expr.sites_call id left,
      Expr.sitesList_call id comparators]
  | conditional test body orelse =>
    rw [Expr.sites, Expr.visited, callsAmong_visit rfl]
    simp only [List.map_append, callsAmong_append, Expr.sites_call id test,
      Expr.sites_call id body, Expr.sites_call id orelse]
  | dict keys values =>
    rw [Expr.sites, Expr.visited, callsAmong_visit rfl]
    simp only [List.map_append, callsAmong_append, Expr.sitesOptions_call id keys,
      Expr.sitesList_call id values]
  | listComp elt generators | setComp elt generators | generator elt generators =>
    rw [Expr.sites, Expr.visited, callsAmong_visit rfl]
    simp only [List.map_append, callsAmong_append, Expr.sites_call id elt,
      Comprehension.sitesList_call id generators]
  | dictComp key value generators =>
    rw [Expr.sites, Expr.visited, callsAmong_visit rfl]
    simp only [List.map_append, callsAmong_append, Expr.sites_call id key,
      Expr.sites_call id value, Comprehension.sitesList_call id generators]

theorem Expr.targetSites_call (id : String) (e : Expr) :
    (e.targetSites id).map Site.call = callsAmong id (e.visited fun _ => true) := by
  cases e with
  | tuple items | list items =>
    rw [Expr.targetSites, Expr.visited, callsAmong_visit rfl]
    exact Expr.targetSitesList_call id items
  | starred value =>
    rw [Expr.targetSites, Expr.visited, callsAmong_visit rfl]
    exact Expr.targetSites_call id value
  | subscript value slice =>
    rw [Expr.targetSites, Expr.visited, callsAmong_visit rfl]
    simp only [List.map_append, callsAmong_append, Expr.sites_call id value,
      Expr.sites_call id slice]
  | «attribute» value _ =>
    rw [Expr.targetSites, Expr.visited, callsAmong_visit rfl]
    exact Expr.sites_call id value
  | _ => exact map_call_target _

theorem Expr.sitesOption_call (id : String) (o : Option Expr) :
    (Expr.sitesOption id o).map Site.call =
      callsAmong id (Expr.visitedOption (fun _ => true) o) := by
  cases o with
  | none => rfl
  | some e => exact Expr.sites_call id e

theorem Expr.sitesOptions_call (id : String) (os : List (Option Expr)) :
    (Expr.sitesOptions id os).map Site.call =
      callsAmong id (Expr.visitedOptions (fun _ => true) os) := by
  cases os with
  | nil => rfl
  | cons o rest =>
    rw [Expr.sitesOptions, Expr.visitedOptions, List.map_append, callsAmong_append,
      Expr.sitesOption_call id o, Expr.sitesOptions_call id rest]

theorem Expr.sitesList_call (id : String) (es : List Expr) :
    (Expr.sitesList id es).map Site.call =
      callsAmong id (Expr.visitedList (fun _ => true) es) := by
  cases es with
  | nil => rfl
  | cons e rest =>
    rw [Expr.sitesList, Expr.visitedList, List.map_append, callsAmong_append,
      Expr.sites_call id e, Expr.sitesList_call id rest]

theorem Expr.targetSitesList_call (id : String) (es : List Expr) :
    (Expr.targetSitesList id es).map Site.call =
      callsAmong id (Expr.visitedList (fun _ => true) es) := by
  cases es with
  | nil => rfl
  | cons e rest =>
    rw [Expr.targetSitesList, Expr.visitedList, List.map_append, callsAmong_append,
      Expr.targetSites_call id e, Expr.targetSitesList_call id rest]

theorem Keyword.sites_call (id : String) (k : Keyword) :
    (k.sites id).map Site.call = callsAmong id (k.visited fun _ => true) := by
  obtain ⟨_, value⟩ := k
  exact Expr.sites_call id value

theorem Keyword.sitesList_call (id : String) (ks : List Keyword) :
    (Keyword.sitesList id ks).map Site.call =
      callsAmong id (Keyword.visitedList (fun _ => true) ks) := by
  cases ks with
  | nil => rfl
  | cons k rest =>
    rw [Keyword.sitesList, Keyword.visitedList, List.map_append, callsAmong_append,
      Keyword.sites_call id k, Keyword.sitesList_call id rest]

theorem Comprehension.sites_call (id : String) (g : Comprehension) :
    (g.sites id).map Site.call = callsAmong id (g.visited fun _ => true) := by
  obtain ⟨target, iter, ifs, _⟩ := g
  rw [Comprehension.sites, Comprehension.visited]
  simp only [List.map_append, callsAmong_append, Expr.targetSites_call id target,
    Expr.sites_call id iter, Expr.sitesList_call id ifs]

theorem Comprehension.sitesList_call (id : String) (gs : List Comprehension) :
    (Comprehension.sitesList id gs).map Site.call =
      callsAmong id (Comprehension.visitedList (fun _ => true) gs) := by
  cases gs with
  | nil => rfl
  | cons g rest =>
    rw [Comprehension.sitesList, Comprehension.visitedList, List.map_append, callsAmong_append,
      Comprehension.sites_call id g, Comprehension.sitesList_call id rest]

end

lemma Node.calls_append (id : String) (nodes rest : List Node) :
    Node.calls id (nodes ++ rest) = Node.calls id nodes ++ Node.calls id rest := by
  simp [Node.calls, Node.exprs, callsAmong_append]

lemma Node.calls_stmt (id : String) (s : Stmt) (nodes : List Node) :
    Node.calls id (.stmt s :: nodes) = Node.calls id nodes := rfl

lemma Node.calls_ofExprs (id : String) (es : List Expr) :
    Node.calls id (Node.ofExprs es) = callsAmong id es := by
  rw [Node.calls, Node.exprs_ofExprs]

mutual

/-- The sites in a statement are its calls, in the order of its nodes. -/
theorem Stmt.sites_call (id : String) (s : Stmt) :
    (s.sites id).map Site.call = Node.calls id (s.visited fun _ => true) := by
  cases s with
  | pass | breakLoop | continueLoop | «global» | «nonlocal» | importNames | importFrom
  | verbatim => rfl
  | ite _ body orelse | whileLoop _ body orelse =>
    rw [Stmt.sites, Stmt.visited]
    simp only [List.cons_append, Node.calls_stmt, Node.calls_append, Node.calls_ofExprs,
      List.map_append, Expr.sites_call, Stmt.sitesList_call id body,
      Stmt.sitesList_call id orelse]
  | forLoop _ _ body orelse _ =>
    rw [Stmt.sites, Stmt.visited]
    simp only [List.cons_append, Node.calls_stmt, Node.calls_append, Node.calls_ofExprs,
      List.map_append, callsAmong_append, Expr.sites_call, Expr.targetSites_call,
      Stmt.sitesList_call id body, Stmt.sitesList_call id orelse]
  | tryBlock body handlers orelse finalbody _ =>
    rw [Stmt.sites, Stmt.visited]
    simp only [List.cons_append, Node.calls_stmt, Node.calls_append, List.map_append,
      Stmt.sitesList_call id body, Handler.sitesList_call id handlers,
      Stmt.sitesList_call id orelse, Stmt.sitesList_call id finalbody]
  | withBlock _ body _ =>
    rw [Stmt.sites, Stmt.visited, Node.calls_stmt]
    exact Stmt.sitesList_call id body
  | functionDef _ _ _ body _ _ =>
    rw [Stmt.sites, Stmt.visited]
    simp only [List.cons_append, Node.calls_stmt, Node.calls_append, Node.calls_ofExprs,
      List.map_append, Expr.sitesList_call, Stmt.sitesList_call id body]
  | classDef _ _ _ body _ =>
    rw [Stmt.sites, Stmt.visited]
    simp only [List.cons_append, Node.calls_stmt, Node.calls_append, Node.calls_ofExprs,
      callsAmong_append, List.map_append, Expr.sitesList_call, Keyword.sitesList_call,
      Stmt.sitesList_call id body]
  | _ =>
    rw [Stmt.sites, Stmt.visited]
    simp only [Node.calls_stmt, Node.calls_ofExprs, callsAmong_append, List.map_append,
      Expr.sites_call, Expr.sitesOption_call, Expr.targetSites_call, Expr.targetSitesList_call]

theorem Stmt.sitesList_call (id : String) (m : List Stmt) :
    (Stmt.sitesList id m).map Site.call = Node.calls id (Stmt.visitedList (fun _ => true) m) := by
  cases m with
  | nil => rfl
  | cons s rest =>
    rw [Stmt.sitesList, Stmt.visitedList, List.map_append, Node.calls_append,
      Stmt.sites_call id s, Stmt.sitesList_call id rest]

theorem Handler.sites_call (id : String) (h : Handler) :
    (h.sites id).map Site.call = Node.calls id (h.visited fun _ => true) := by
  obtain ⟨type, _, body⟩ := h
  rw [Handler.sites, Handler.visited, List.map_append, Node.calls_append, Node.calls_ofExprs,
    Expr.sitesOption_call id type, Stmt.sitesList_call id body]

theorem Handler.sitesList_call (id : String) (hs : List Handler) :
    (Handler.sitesList id hs).map Site.call =
      Node.calls id (Handler.visitedList (fun _ => true) hs) := by
  cases hs with
  | nil => rfl
  | cons h rest =>
    rw [Handler.sitesList, Handler.visitedList, List.map_append, Node.calls_append,
      Handler.sites_call id h, Handler.sitesList_call id rest]

end

/-- The sites of a program are its calls. -/
theorem Module.sites_call (id : String) (m : Module) :
    (Stmt.sitesList id m).map Site.call = m.callsOf id :=
  Stmt.sitesList_call id m

section Places

variable {σ : Type} (after : σ → List Stmt → σ) (id : String)

mutual

/-- The calls of a name in a statement, each with the state in which the statement that it is a
part of is come to, if one comes to this one in a state and `after` leads on behind statements. -/
def Stmt.places (n : σ) : Stmt → List (σ × Site)
  | .ite test body orelse =>
    (test.sites id).map (n, ·) ++ Stmt.placesList n body ++ Stmt.placesList (after n body) orelse
  | .whileLoop test body orelse =>
    (test.sites id).map (n, ·) ++ Stmt.placesList n body ++ Stmt.placesList (after n body) orelse
  | .forLoop target iter body orelse _ =>
    (target.targetSites id ++ iter.sites id).map (n, ·) ++ Stmt.placesList n body ++
      Stmt.placesList (after n body) orelse
  | .tryBlock body handlers orelse finalbody _ =>
    let handled := handlers.foldl (fun n h => after n h.body) (after n body)
    Stmt.placesList n body ++ Handler.placesList (after n body) handlers ++
      Stmt.placesList handled orelse ++ Stmt.placesList (after handled orelse) finalbody
  | .withBlock _ body _ => Stmt.placesList n body
  | .functionDef _ _ _ body decorators _ =>
    (Expr.sitesList id decorators).map (n, ·) ++ Stmt.placesList n body
  | .classDef _ bases keywords body decorators =>
    (Expr.sitesList id decorators ++ Expr.sitesList id bases ++
      Keyword.sitesList id keywords).map (n, ·) ++ Stmt.placesList n body
  | s => (s.sites id).map (n, ·)

/-- The calls of a name in statements, each with the state in which it is come to. -/
def Stmt.placesList (n : σ) : List Stmt → List (σ × Site)
  | [] => []
  | s :: rest => s.places n ++ Stmt.placesList (after n [s]) rest

def Handler.places (n : σ) : Handler → List (σ × Site)
  | ⟨type, _, body⟩ => (Expr.sitesOption id type).map (n, ·) ++ Stmt.placesList n body

def Handler.placesList (n : σ) : List Handler → List (σ × Site)
  | [] => []
  | h :: rest => h.places n ++ Handler.placesList (after n h.body) rest

end

lemma map_snd_placed (n : σ) (sites : List Site) :
    (sites.map (n, ·)).map Prod.snd = sites := by
  simp [Function.comp_def]

mutual

/-- Each call has one place. -/
theorem Stmt.places_snd (n : σ) (s : Stmt) : (s.places after id n).map Prod.snd = s.sites id := by
  cases s with
  | ite _ body orelse | whileLoop _ body orelse | forLoop _ _ body orelse =>
    simp only [Stmt.places, Stmt.sites, List.map_append, map_snd_placed, List.append_assoc,
      Stmt.placesList_snd _ body, Stmt.placesList_snd _ orelse]
  | tryBlock body handlers orelse finalbody =>
    simp only [Stmt.places, Stmt.sites, List.map_append, Stmt.placesList_snd _ body,
      Handler.placesList_snd _ handlers, Stmt.placesList_snd _ orelse,
      Stmt.placesList_snd _ finalbody]
  | withBlock _ body => exact Stmt.placesList_snd n body
  | functionDef _ _ _ body | classDef _ _ _ body =>
    simp only [Stmt.places, Stmt.sites, List.map_append, map_snd_placed, Stmt.placesList_snd n body]
  | _ => exact map_snd_placed n _

theorem Stmt.placesList_snd (n : σ) (m : List Stmt) :
    (Stmt.placesList after id n m).map Prod.snd = Stmt.sitesList id m := by
  cases m with
  | nil => rfl
  | cons s rest =>
    rw [Stmt.placesList, Stmt.sitesList, List.map_append, Stmt.places_snd n s,
      Stmt.placesList_snd _ rest]

theorem Handler.places_snd (n : σ) (h : Handler) :
    (h.places after id n).map Prod.snd = h.sites id := by
  obtain ⟨type, _, body⟩ := h
  rw [Handler.places, Handler.sites, List.map_append, map_snd_placed, Stmt.placesList_snd n body]

theorem Handler.placesList_snd (n : σ) (hs : List Handler) :
    (Handler.placesList after id n hs).map Prod.snd = Handler.sitesList id hs := by
  cases hs with
  | nil => rfl
  | cons h rest =>
    rw [Handler.placesList, Handler.sitesList, List.map_append, Handler.places_snd n h,
      Handler.placesList_snd _ rest]

end

end Places

/-- What becomes of a call where expressions are folded: one that is read has its arguments folded,
and one that is a target stays. -/
def Site.folded (fold : Expr → Expr) : Site → Site
  | .read (.call func args keywords) =>
    .read (.call func (args.map fold) (keywords.map fun k => ⟨k.arg, fold k.value⟩))
  | site => site

/-- What becomes of calls at their places. -/
def foldedSites {σ : Type} (fold : σ → Expr → Expr) (places : List (σ × Site)) : List Site :=
  places.map fun p => p.2.folded (fold p.1)

/-- Row by row, sites become sites. -/
def Alike (fold : Expr → Expr) (as bs : List Site) : Prop := bs = as.map (Site.folded fold)

section Alike

variable {id : String} {fold : Expr → Expr} {as bs as' bs' : List Site}

theorem Alike.nil : Alike fold [] [] := rfl

theorem Alike.append (h : Alike fold as bs) (h' : Alike fold as' bs') :
    Alike fold (as ++ as') (bs ++ bs') := by
  rw [Alike, List.map_append, ← h, ← h']

theorem Alike.targets (calls : List Expr) :
    Alike fold (calls.map Site.target) (calls.map Site.target) := by
  simp [Alike, Function.comp_def, Site.folded]

/-- Calls that are come to in one state. -/
theorem Alike.placed {σ : Type} {folds : σ → Expr → Expr} {n : σ} (h : Alike (folds n) as bs) :
    bs = foldedSites folds (as.map (n, ·)) := by
  simp only [foldedSites, List.map_map]
  exact h

lemma foldedSites_append {σ : Type} (folds : σ → Expr → Expr) (places rest : List (σ × Site)) :
    foldedSites folds (places ++ rest) = foldedSites folds places ++ foldedSites folds rest :=
  List.map_append

lemma isCallOf_iff {func : Expr} {args : List Expr} {keywords : List Keyword} :
    (Expr.call func args keywords).isCallOf id ↔ func = .name id := by
  cases func <;> simp [Expr.isCallOf]

/-- A call of the name stays one, and no other call becomes one. -/
theorem Alike.site {func func' : Expr} {args : List Expr} {keywords : List Keyword}
    (hfunc : func' = .name id ↔ func = .name id) :
    Alike fold (siteOf id (.call func args keywords)) (siteOf id
      (.call func' (args.map fold) (keywords.map fun k => ⟨k.arg, fold k.value⟩))) := by
  unfold siteOf
  by_cases h : func = .name id
  · have h' := hfunc.mpr h
    subst h h'
    rw [if_pos (isCallOf_iff.mpr rfl), if_pos (isCallOf_iff.mpr rfl)]
    rfl
  · rw [if_neg (mt isCallOf_iff.mp h), if_neg (mt isCallOf_iff.mp (mt hfunc.mp h))]
    exact .nil

end Alike

lemma sitesList_append (id : String) (m rest : List Stmt) :
    Stmt.sitesList id (m ++ rest) = Stmt.sitesList id m ++ Stmt.sitesList id rest := by
  induction m with
  | nil => rfl
  | cons s m ih =>
    rw [List.cons_append, Stmt.sitesList, Stmt.sitesList, ih, List.append_assoc]

end Unmask
