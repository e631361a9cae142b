import Unmask.Proofs.ForeignNames
import Unmask.Proofs.Nesting

/-!
# Quiet runs

What an expression resolves to depends on the names and the depth of the session alone, and so does
what is bound behind statements. A run is quiet for a foreign name if it begins no text and never
binds the name. What holds of the results in such a run is put together along its steps: in every
session that it comes to, it has begun no text and not bound the name either.
-/
namespace Unmask

namespace Session

/-- A session with other names. -/
def naming (s : Session) (ns : Namespace) : Session := { s with names := ns }

/-- The names behind statements that a run from `s` comes to with some names bound. -/
def namesAfter (s : Session) (ns : Namespace) (m : Module) : Namespace :=
  ((s.naming ns).transform m).2.names

/-- What an expression is folded to that a run from `s` comes to with some names bound. -/
def foldedWith (s : Session) (ns : Namespace) (e : Expr) : Expr :=
  ((s.naming ns).resolve e).1.toExpr

end Session

namespace Resolve
open Resolving

variable {α β : Type} {id : String} {s t u v : Session} {ns : Namespace}

/-- How code is resolved in a session. -/
abbrev within (s : Session) : Option Expansion := expansion (maxNesting - s.depth)

/-- Results and names depend on the names that there are. -/
theorem run_names (n : Nat) :
    Run (Respects (fun s t => s.names = t.names) ·) (expansion n) := by
  have hclosed : Closed (Respects (fun s t => s.names = t.names) ·) :=
    respects_closed (fun _ _ h => h) fun _ _ _ h => h
  have hbind : ∀ name m, Respects (fun s t => s.names = t.names) (Resolving.bind name m) :=
    fun name m _ _ h => ⟨rfl, congrArg (·.bind name m) h⟩
  induction n with
  | zero => exact ⟨⟨hclosed, nofun⟩, nofun, hbind⟩
  | succ n ih =>
    refine ⟨⟨hclosed, ?_⟩, ?_, hbind⟩
    · rintro x ⟨⟩ e s t h
      exact expr_holds ih.toFollowed e s.inside t.inside h
    · rintro x ⟨⟩ m s t h
      exact onBody_holds ih m s.inside t.inside h

lemma resolve_naming (hnames : u.names = ns) (hdepth : u.depth = s.depth) (e : Expr) :
    (u.resolve e).1.toExpr = s.foldedWith ns e := by
  rw [Session.foldedWith, resolve_eq_run, resolve_eq_run, hdepth]
  exact congrArg _ (expr_holds (run_names _).toFollowed e u (s.naming ns) hnames).1

/-- A run from one session to another that begins no text, and a foreign name that it does not
bind. -/
structure Quiet (id : String) (s t : Session) : Prop where
  foreign : Foreign id
  unbound : t.names.local? id = none
  descents : t.descents = s.descents

/-- A session that a run from `s` comes to with these names, none of them bound to an unknown object
that goes by the foreign name. -/
structure Reached (id : String) (s : Session) (ns : Namespace) (u : Session) : Prop where
  names : u.names = ns
  depth : u.depth = s.depth
  descents : s.descents <+: u.descents
  spared : ∀ name, ns.local? name ≠ some (.unknown id)

/-- A session grows and keeps its names. -/
def Stays (s t : Session) : Prop := s.Grown t ∧ t.names = s.names

lemma stays_course : Course Stays where
  refl s := ⟨.refl s, rfl⟩
  trans _ _ _ hst htu := ⟨hst.1.trans htu.1, htu.2.trans hst.2⟩
  record s issue := ⟨.record s issue, rfl⟩

/-- Resolving expressions keeps the names. -/
lemma followed_stays (n : Nat) : Followed (Along Stays ·) (expansion n) where
  closed := stays_course.closed
  expand x hx e s := ⟨(run_grown n).expand x hx e s, (followed_names n).expand x hx e s⟩

lemma Reached.stays (hu : Reached id s ns u) (h : Stays u v) : Reached id s ns v where
  names := h.2.trans hu.names
  depth := h.1.depth.trans hu.depth
  descents := hu.descents.trans h.1.descents
  spared := hu.spared

/-- A text that is begun would be among the texts of the run. -/
lemma Quiet.not_begun (h : Quiet id s t) {x : Resolving β} (hu : Reached id s ns u)
    (hx : Along Session.Grown x) (ht : ((Resolving.deeper x).run u).2.Grown t) : False := by
  have hbegun : (u.descents ++ [u.depth + 1]).length ≤ t.descents.length :=
    ((hx u.inside).descents.trans ht.descents).length_le
  have hfirst := hu.descents.length_le
  rw [h.descents, List.length_append, List.length_singleton] at hbegun
  omega

/-- What holds of what expressions come to with these names, as long as it leads to where the run
ends. -/
def reading (id : String) (s t : Session) (ns : Namespace) : Judgement Resolving where
  Holds x Q := Along Stays x ∧ ∀ u, Reached id s ns u → (x.run u).2.Grown t → Q (x.run u).1
  pure h := ⟨.pure stays_course _, fun _ _ _ => h⟩
  bind hx hf := by
    refine ⟨.bind stays_course hx.1 fun a => (hf a).1, fun u hu ht => ?_⟩
    have hP := hx.2 u hu (((hf _).1 _).1.trans ht)
    exact (hf _).2 _ (hu.stays (hx.1 u)) ht hP

namespace Reading

variable {Q : β → Prop}

lemma record {b : β} (error : MockError) (node : Resolved) (h : Q b) :
    (reading id s t ns).Holds (Resolving.record error node >>= fun _ => pure b) Q :=
  ⟨.recorded stays_course _ _ _, fun _ _ _ => h⟩

lemma imp {x : Resolving β} {P : β → Prop} (hx : (reading id s t ns).Holds x P)
    (h : ∀ b, P b → Q b) : (reading id s t ns).Holds x Q :=
  ⟨hx.1, fun u hu ht => h _ (hx.2 u hu ht)⟩

/-- What is read is a session on the way. -/
lemma get {f : Session → Resolving β}
    (h : ∀ u, (reading id s t ns).Holds (f u) fun b => Reached id s ns u → u.Grown t → Q b) :
    (reading id s t ns).Holds (MonadState.get >>= f) Q :=
  ⟨.reading fun u => (h u).1, fun u hu ht => (h u).2 u hu ht hu (((h u).1 u).1.trans ht)⟩

lemma not_deeper (h : Quiet id s t) {x : Resolving β} (hx : Along Stays x) :
    (reading id s t ns).Holds (Resolving.deeper x) Q := by
  refine ⟨fun u => ⟨(hx u.inside).1.outside, (hx u.inside).2⟩, fun u hu ht => ?_⟩
  exact (h.not_begun hu (fun u => (hx u).1) ht).elim

end Reading

/-- What holds along a run, from the names it comes to a step with to those it leaves it with. -/
def following (id : String) (s t : Session) : Thread Resolving Namespace where
  reads := reading id s t
  Holds ns x Q := Along Session.Grown x ∧ ∀ u, Reached id s ns u → (x.run u).2.Grown t →
    Reached id s (x.run u).2.names (x.run u).2 ∧ Q (x.run u).1 (x.run u).2.names
  pure h := by
    refine ⟨.pure grown_course _, fun u hu _ => ?_⟩
    obtain rfl := hu.names
    exact ⟨hu, h⟩
  read hx hf := by
    refine ⟨.bind grown_course (fun u => (hx.1 u).1) fun a => (hf a).1, fun u hu ht => ?_⟩
    have hP := hx.2 u hu (((hf _).1 _).trans ht)
    exact ((hf _).2 _ (hu.stays (hx.1 u)) ht).imp_right fun hQ => hQ hP
  bind {_ _ ns} _ _ _ _ hx hf := by
    refine ⟨.bind grown_course hx.1 fun a => (hf a ns).1, fun u hu ht => ?_⟩
    obtain ⟨hreached, hP⟩ := hx.2 u hu (((hf _ ns).1 _).trans ht)
    exact ((hf _ _).2 _ hreached ht).imp_right fun hQ => hQ hP

namespace Following

variable {Q : β → Namespace → Prop}

lemma record {b : β} (error : MockError) (node : Resolved) (h : Q b ns) :
    (following id s t).Holds ns (Resolving.record error node >>= fun _ => pure b) Q := by
  refine ⟨.recorded grown_course _ _ _, fun u hu _ => ?_⟩
  obtain rfl := hu.names
  exact ⟨hu.stays ⟨.record u _, rfl⟩, h⟩

lemma imp {x : Resolving β} {P : β → Namespace → Prop} (hx : (following id s t).Holds ns x P)
    (h : ∀ b k, P b k → Q b k) : (following id s t).Holds ns x Q :=
  ⟨hx.1, fun u hu ht => (hx.2 u hu ht).imp_right (h _ _)⟩

lemma not_deeper (h : Quiet id s t) {x : Resolving β} (hx : Along Session.Grown x) :
    (following id s t).Holds ns (Resolving.deeper x) Q :=
  ⟨fun u => (hx u.inside).outside, fun _ hu ht => (h.not_begun hu hx ht).elim⟩

end Following

end Resolve
end Unmask
