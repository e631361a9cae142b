import Unmask.Proofs.CallNodes

/-!
# Resolving keeps calls

In a quiet run every expression keeps its calls of the foreign name, and so does every program: a
call statement is rebuilt, and an assignment vanishes only if everything in it is known.
-/
namespace Unmask.Resolve
open Resolving

variable {id : String} {s t : Session} {ns : Namespace} {becomes : Expr → Expr}

/-- An expression is resolved with the names that there are. -/
lemma Reading.found {e : Expr}
    (h : (reading id s t ns).Holds (expr (within s) e) (Kept id (s.foldedWith ns) e)) :
    (reading id s t ns).Holds (expr (within s) e) (Found id (s.foldedWith ns) e) := by
  refine ⟨h.1, fun u hu ht => ⟨h.2 u hu ht, ?_⟩⟩
  rw [← resolve_naming hu.names hu.depth, resolve_eq_run, hu.depth]

lemma options_alike {os : List (Option Expr)} {rs : List (Option Resolved)}
    (h : List.Forall₂ (Option.Rel (Found id (s.foldedWith ns))) os rs) :
    Alike (s.foldedWith ns) (Expr.sitesOptions id os)
      (Expr.sitesOptions id (rs.map (·.map Resolved.toExpr))) := by
  induction h with
  | nil => exact .nil
  | cons h _ ih => exact (sitesOption_alike h).append ih

mutual

/-- Every expression is found with its calls of the foreign name. -/
theorem expr_found (h : Quiet id s t) (e : Expr) :
    (reading id s t ns).Holds (expr (within s) e) (Found id (s.foldedWith ns) e) := by
  have hid := h.foreign
  refine Reading.found ?_
  cases e with
  | constant c => exact (reading id s t ns).pure (constant_kept hid c)
  | name name => exact name_kept h name
  | subscript value key =>
    cases key with
    | slice lower upper step =>
      rw [expr]
      have ihvalue := expr_found h value
      have ihlower := option_found h lower
      have ihupper := option_found h upper
      have ihstep := option_found h step
      exact (reading id s t ns).bind ihvalue fun object =>
        (reading id s t ns).bind ihlower fun l =>
          (reading id s t ns).bind ihupper fun u =>
            (reading id s t ns).bind ihstep fun d =>
              slice_kept hid value lower upper step object l u d
    | _ =>
      have ihvalue := expr_found h value
      rw [expr_subscript]
      · exact (reading id s t ns).bind ihvalue fun object =>
          (reading id s t ns).bind (expr_found h _) fun k => subscript_kept hid value _ object k
      · nofun
  | unary op operand =>
    rw [expr]
    have ihoperand := expr_found h operand
    exact (reading id s t ns).bind ihoperand fun r => unary_kept hid op operand r
  | binary left op right =>
    rw [expr]
    have ihleft := expr_found h left
    have ihright := expr_found h right
    exact (reading id s t ns).bind ihleft fun l =>
      (reading id s t ns).bind ihright fun r => binary_kept hid left op right l r
  | bool op values =>
    rw [expr]
    have ihvalues := exprs_found h values
    exact (reading id s t ns).bind ihvalues fun rs =>
      (reading id s t ns).pure (chain_kept hid op)
  | «attribute» value attr =>
    rw [expr]
    have ihvalue := expr_found h value
    exact (reading id s t ns).bind ihvalue fun object =>
      member_kept hid value object attr
  | call func args keywords =>
    rw [expr]
    have ihfunc := expr_found h func
    have ihargs := exprs_found h args
    have ihkeywords := namedArguments_found h keywords
    refine (reading id s t ns).bind ihfunc fun callee =>
      (reading id s t ns).bind ihargs fun rs =>
        (reading id s t ns).bind ihkeywords fun named => ?_
    exact Reading.imp (call_kept h func args keywords) fun b hb hnamed hargs hcallee =>
      hb ⟨hcallee, hargs, hnamed⟩
  | list items =>
    rw [expr]
    have ihitems := exprs_found h items
    exact (reading id s t ns).bind ihitems fun rs =>
      (reading id s t ns).pure (list_kept hid)
  | lambda params body =>
    rw [expr]
    have ihbody := expr_found h body
    exact (reading id s t ns).bind ihbody fun r =>
      (reading id s t ns).pure (lambda_kept hid params)
  | slice lower upper step =>
    rw [expr]
    have ihlower := option_found h lower
    have ihupper := option_found h upper
    have ihstep := option_found h step
    refine (reading id s t ns).bind ihlower fun l =>
      (reading id s t ns).bind ihupper fun u =>
        (reading id s t ns).bind ihstep fun d =>
          (reading id s t ns).pure fun hd hu hl => ?_
    have hbounds := (sitesOption_alike hl).append (sitesOption_alike hu)
    exact .residual (hbounds.append (sitesOption_alike hd)) nofun nofun
  | compare left ops comparators =>
    rw [expr]
    have ihleft := expr_found h left
    have ihcomparators := exprs_found h comparators
    exact (reading id s t ns).bind ihleft fun l =>
      (reading id s t ns).bind ihcomparators fun rs =>
        (reading id s t ns).pure fun hrs hl =>
          .residual (hl.alike.append (sitesList_alike hrs)) nofun nofun
  | conditional test body orelse =>
    rw [expr]
    have ihtest := expr_found h test
    have ihbody := expr_found h body
    have ihorelse := expr_found h orelse
    exact (reading id s t ns).bind ihtest fun a =>
      (reading id s t ns).bind ihbody fun b =>
        (reading id s t ns).bind ihorelse fun c =>
          (reading id s t ns).pure fun hc hb ha =>
            .residual ((ha.alike.append hb.alike).append hc.alike) nofun nofun
  | named _ value | starred value | await value =>
    rw [expr]
    have ihvalue := expr_found h value
    exact (reading id s t ns).bind ihvalue fun r =>
      (reading id s t ns).pure fun hr => .residual hr.alike nofun nofun
  | tuple items | «set» items =>
    rw [expr]
    have ihitems := exprs_found h items
    exact (reading id s t ns).bind ihitems fun rs =>
      (reading id s t ns).pure fun hrs => .residual (sitesList_alike hrs) nofun nofun
  | dict keys values =>
    rw [expr]
    have ihkeys := options_found h keys
    have ihvalues := exprs_found h values
    exact (reading id s t ns).bind ihkeys fun ks =>
      (reading id s t ns).bind ihvalues fun vs =>
        (reading id s t ns).pure fun hvs hks =>
          .residual ((options_alike hks).append (sitesList_alike hvs)) nofun nofun
  | listComp elt generators | setComp elt generators | generator elt generators =>
    rw [expr]
    have ihgenerators := comprehensions_found h generators
    have ihelt := expr_found h elt
    exact (reading id s t ns).bind ihgenerators fun gs =>
      (reading id s t ns).bind ihelt fun r =>
        (reading id s t ns).pure fun hr hgs =>
          .residual (hr.alike.append hgs) nofun nofun
  | dictComp key value generators =>
    rw [expr]
    have ihgenerators := comprehensions_found h generators
    have ihkey := expr_found h key
    have ihvalue := expr_found h value
    exact (reading id s t ns).bind ihgenerators fun gs =>
      (reading id s t ns).bind ihkey fun k =>
        (reading id s t ns).bind ihvalue fun r =>
          (reading id s t ns).pure fun hr hk hgs =>
            .residual ((hk.alike.append hr.alike).append hgs) nofun nofun
  | verbatim text =>
    rw [expr]
    exact (reading id s t ns).pure (.residual .nil nofun nofun)

theorem option_found (h : Quiet id s t) (o : Option Expr) :
    (reading id s t ns).Holds (option (within s) o)
      (Option.Rel (Found id (s.foldedWith ns)) o) := by
  cases o with
  | none => exact (reading id s t ns).pure .none
  | some e =>
    rw [option]
    exact (reading id s t ns).bind (expr_found h e) fun r => (reading id s t ns).pure .some

theorem options_found (h : Quiet id s t) (os : List (Option Expr)) :
    (reading id s t ns).Holds (options (within s) os)
      (List.Forall₂ (Option.Rel (Found id (s.foldedWith ns))) os) := by
  cases os with
  | nil => exact (reading id s t ns).pure .nil
  | cons o rest =>
    rw [options]
    exact (reading id s t ns).bind (option_found h o) fun r =>
      (reading id s t ns).bind (options_found h rest) fun rs =>
        (reading id s t ns).pure fun hrs hr => .cons hr hrs

theorem exprs_found (h : Quiet id s t) (es : List Expr) :
    (reading id s t ns).Holds (exprs (within s) es)
      (List.Forall₂ (Found id (s.foldedWith ns)) es) := by
  cases es with
  | nil => exact (reading id s t ns).pure .nil
  | cons e rest =>
    rw [exprs]
    exact (reading id s t ns).bind (expr_found h e) fun r =>
      (reading id s t ns).bind (exprs_found h rest) fun rs =>
        (reading id s t ns).pure fun hrs hr => .cons hr hrs

theorem namedArgument_found (h : Quiet id s t) (k : Keyword) :
    (reading id s t ns).Holds (namedArgument (within s) k)
      (FoundKeyword id (s.foldedWith ns) k) := by
  obtain ⟨arg, value⟩ := k
  rw [namedArgument]
  exact (reading id s t ns).bind (expr_found h value) fun r =>
    (reading id s t ns).pure fun hr => ⟨rfl, hr⟩

theorem namedArguments_found (h : Quiet id s t) (ks : List Keyword) :
    (reading id s t ns).Holds (namedArguments (within s) ks)
      (List.Forall₂ (FoundKeyword id (s.foldedWith ns)) ks) := by
  cases ks with
  | nil => exact (reading id s t ns).pure .nil
  | cons k rest =>
    rw [namedArguments]
    exact (reading id s t ns).bind (namedArgument_found h k) fun a =>
      (reading id s t ns).bind (namedArguments_found h rest) fun named =>
        (reading id s t ns).pure fun hnamed ha => .cons ha hnamed

theorem target_found (h : Quiet id s t) (goal : Expr) :
    (reading id s t ns).Holds (target (within s) goal) fun goal' =>
      Alike (s.foldedWith ns) (goal.targetSites id) (goal'.targetSites id) := by
  cases goal with
  | tuple items | list items =>
    rw [target]
    exact (reading id s t ns).bind (targets_found h items) fun goals =>
      (reading id s t ns).pure fun hgoals => hgoals
  | starred value =>
    rw [target]
    exact (reading id s t ns).bind (target_found h value) fun goal =>
      (reading id s t ns).pure fun hgoal => hgoal
  | subscript value slice =>
    rw [target]
    exact (reading id s t ns).bind (expr_found h value) fun r =>
      (reading id s t ns).bind (expr_found h slice) fun k =>
        (reading id s t ns).pure fun hk hr => hr.alike.append hk.alike
  | «attribute» value attr =>
    rw [target]
    exact (reading id s t ns).bind (expr_found h value) fun r =>
      (reading id s t ns).pure fun hr => hr.alike
  | _ => exact (reading id s t ns).pure (Alike.targets _)

theorem targets_found (h : Quiet id s t) (goals : List Expr) :
    (reading id s t ns).Holds (targets (within s) goals) fun goals' =>
      Alike (s.foldedWith ns) (Expr.targetSitesList id goals) (Expr.targetSitesList id goals') := by
  cases goals with
  | nil => exact (reading id s t ns).pure .nil
  | cons goal rest =>
    rw [targets]
    exact (reading id s t ns).bind (target_found h goal) fun goal' =>
      (reading id s t ns).bind (targets_found h rest) fun rest' =>
        (reading id s t ns).pure fun hrest hgoal => hgoal.append hrest

theorem comprehension_found (h : Quiet id s t) (g : Comprehension) :
    (reading id s t ns).Holds (comprehension (within s) g) fun g' =>
      Alike (s.foldedWith ns) (g.sites id) (g'.sites id) := by
  obtain ⟨goal, iter, ifs, isAsync⟩ := g
  rw [comprehension]
  exact (reading id s t ns).bind (expr_found h iter) fun r =>
    (reading id s t ns).bind (target_found h goal) fun goal' =>
      (reading id s t ns).bind (exprs_found h ifs) fun rs =>
        (reading id s t ns).pure fun hrs hgoal hr =>
          (hgoal.append hr.alike).append (sitesList_alike hrs)

theorem comprehensions_found (h : Quiet id s t) (gs : List Comprehension) :
    (reading id s t ns).Holds (comprehensions (within s) gs) fun gs' =>
      Alike (s.foldedWith ns) (Comprehension.sitesList id gs)
        (Comprehension.sitesList id gs') := by
  cases gs with
  | nil => exact (reading id s t ns).pure .nil
  | cons g rest =>
    rw [comprehensions]
    exact (reading id s t ns).bind (comprehension_found h g) fun g' =>
      (reading id s t ns).bind (comprehensions_found h rest) fun gs' =>
        (reading id s t ns).pure fun hgs hg => hg.append hgs

end

end Unmask.Resolve
