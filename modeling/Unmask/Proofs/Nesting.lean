import Unmask.Proofs.Courses

/-!
# Depth of nesting

Whatever a program makes of itself, a run stays within `maxNesting` texts that run each other. It
comes back to the depth at which it began, takes no issue back and no name. Resolving an expression
binds nothing at all.
-/
namespace Unmask

namespace Namespace

/-- Binds names one after the other. -/
def bindAll (ns : Namespace) (row : Named Mock) : Namespace :=
  row.foldl (fun ns entry => ns.bind entry.1 entry.2) ns

theorem bindAll_append (ns : Namespace) (row rest : Named Mock) :
    ns.bindAll (row ++ rest) = (ns.bindAll row).bindAll rest := by
  simp [bindAll, List.foldl_append]

/-- A name that is bound stays bound. -/
theorem isSome_bindAll {ns : Namespace} {name : String} (row : Named Mock)
    (h : (ns.local? name).isSome) : ((ns.bindAll row).local? name).isSome := by
  induction row generalizing ns with
  | nil => exact h
  | cons entry rest ih =>
    have hentry : ((ns.bind entry.1 entry.2).local? name).isSome := by
      rw [local?_bind]
      split
      · rfl
      · exact h
    exact ih hentry

end Namespace

namespace Session

/-- A session within which one more text is run. -/
def inside (s : Session) : Session :=
  { s with depth := s.depth + 1, descents := s.descents ++ [s.depth + 1] }

/-- A session after that text. -/
def outside (s : Session) : Session := { s with depth := s.depth - 1 }

end Session

theorem Resolving.deeper_run {α : Type} (x : Resolving α) (s : Session) :
    (deeper x).run s = ((x.run s.inside).1, (x.run s.inside).2.outside) := rfl

/-- What can have become of a session in a run that began in it. -/
structure Session.Grown (s t : Session) : Prop where
  names : ∃ row, t.names = s.names.bindAll row
  issues : s.issues <+: t.issues
  depth : t.depth = s.depth
  descents : s.descents <+: t.descents

namespace Session.Grown

theorem refl (s : Session) : s.Grown s :=
  ⟨⟨[], rfl⟩, List.prefix_refl _, rfl, List.prefix_refl _⟩

theorem trans {s t u : Session} (hst : s.Grown t) (htu : t.Grown u) : s.Grown u := by
  obtain ⟨row, hrow⟩ := hst.names
  obtain ⟨rest, hrest⟩ := htu.names
  refine ⟨⟨row ++ rest, ?_⟩, hst.issues.trans htu.issues, htu.depth.trans hst.depth,
    hst.descents.trans htu.descents⟩
  rw [hrest, hrow, Namespace.bindAll_append]

theorem record (s : Session) (issue : Issue) :
    s.Grown { s with issues := s.issues ++ [issue] } :=
  ⟨⟨[], rfl⟩, List.prefix_append _ _, rfl, List.prefix_refl _⟩

theorem bind (s : Session) (name : String) (m : Mock) :
    s.Grown { s with names := s.names.bind name m } :=
  ⟨⟨[(name, m)], rfl⟩, List.prefix_refl _, rfl, List.prefix_refl _⟩

/-- A text within another is run and left. -/
theorem outside {s t : Session} (h : s.inside.Grown t) : s.Grown t.outside := by
  have hdepth : t.depth = s.depth + 1 := h.depth
  refine ⟨h.names, h.issues, ?_, (List.prefix_append _ [s.depth + 1]).trans h.descents⟩
  simp only [Session.outside]
  omega

/-- A name that is bound stays bound. -/
theorem isSome_local? {s t : Session} (h : s.Grown t) {name : String}
    (hname : (s.names.local? name).isSome) : (t.names.local? name).isSome := by
  obtain ⟨row, hrow⟩ := h.names
  rw [hrow]
  exact Namespace.isSome_bindAll row hname

end Session.Grown

namespace Session

/-- The texts begun between two sessions are no deeper than allowed. -/
def Shallow (s t : Session) : Prop :=
  ∃ row, t.descents = s.descents ++ row ∧ ∀ depth ∈ row, depth ≤ maxNesting

theorem Shallow.refl (s : Session) : s.Shallow s := ⟨[], by simp, nofun⟩

theorem Shallow.trans {s t u : Session} (hst : s.Shallow t) (htu : t.Shallow u) :
    s.Shallow u := by
  obtain ⟨row, hrow, hle⟩ := hst
  obtain ⟨rest, hrest, hle'⟩ := htu
  refine ⟨row ++ rest, by rw [hrest, hrow, List.append_assoc], fun depth hmem => ?_⟩
  rcases List.mem_append.mp hmem with hmem | hmem
  · exact hle depth hmem
  · exact hle' depth hmem

theorem shallow_inside {s : Session} (h : s.depth < maxNesting) : s.Shallow s.inside :=
  ⟨[s.depth + 1], rfl, fun depth hmem => by rw [List.mem_singleton.mp hmem]; exact h⟩

end Session

namespace Resolve
open Resolving

/-- A session grows, and where so many texts can still be run within each other it does not go
deeper than allowed. -/
def Left (n : Nat) (s t : Session) : Prop :=
  s.Grown t ∧ (s.depth + n = maxNesting → s.Shallow t)

lemma left_course (n : Nat) : Course (Left n) where
  refl s := ⟨.refl s, fun _ => .refl s⟩
  trans s t u hst htu := by
    refine ⟨hst.1.trans htu.1, fun hs => (hst.2 hs).trans (htu.2 ?_)⟩
    rw [hst.1.depth, hs]
  record s issue := ⟨.record s issue, fun _ => .refl s⟩

/-- Running a text within another takes one from what is left and gives it back. -/
lemma deeper_left {α : Type} {n : Nat} {x : Resolving α} (h : Along (Left n) x) :
    Along (Left (n + 1)) (deeper x) := by
  intro s
  obtain ⟨hgrown, hshallow⟩ := h s.inside
  rw [deeper_run]
  refine ⟨hgrown.outside, fun hs => ?_⟩
  have hinside : s.inside.depth = s.depth + 1 := rfl
  exact (Session.shallow_inside (by omega)).trans (hshallow (by omega))

/-- Every level of expansion keeps to what is left. -/
theorem run_left (n : Nat) : Run (Along (Left n) ·) (expansion n) := by
  have hbind : ∀ k name m, Along (Left k) (Resolving.bind name m) :=
    fun _ name m s => ⟨.bind s name m, fun _ => .refl s⟩
  induction n with
  | zero =>
    refine ⟨⟨(left_course 0).closed, ?_⟩, ?_, hbind 0⟩
    · rintro x ⟨⟩
    · rintro x ⟨⟩
  | succ n ih =>
    refine ⟨⟨(left_course (n + 1)).closed, ?_⟩, ?_, hbind (n + 1)⟩
    · rintro x ⟨⟩ e
      exact deeper_left (expr_holds ih.toFollowed e)
    · rintro x ⟨⟩ m
      exact deeper_left (onBody_holds ih m)

theorem grown_course : Course Session.Grown :=
  ⟨.refl, fun _ _ _ hst htu => hst.trans htu, .record⟩

/-- Every level of expansion makes sessions grow. -/
theorem run_grown (n : Nat) : Run (Along Session.Grown ·) (expansion n) where
  closed := grown_course.closed
  expand x hx e s := ((run_left n).expand x hx e s).1
  expandBody x hx m s := ((run_left n).expandBody x hx m s).1
  binding name m s := .bind s name m

/-- Resolving expressions binds no names. -/
theorem followed_names (n : Nat) :
    Followed (Along (fun s t => t.names = s.names) ·) (expansion n) := by
  have hcourse : Course (fun s t => t.names = s.names) :=
    ⟨fun _ => rfl, fun _ _ _ hst htu => htu.trans hst, fun _ _ => rfl⟩
  induction n with
  | zero =>
    refine ⟨hcourse.closed, ?_⟩
    rintro x ⟨⟩
  | succ n ih =>
    refine ⟨hcourse.closed, ?_⟩
    rintro x ⟨⟩ e s
    exact expr_holds ih e s.inside

end Resolve

namespace Session
open Resolve

theorem resolve_names (s : Session) (e : Expr) : (s.resolve e).2.names = s.names := by
  rw [resolve_eq_run]
  exact expr_holds (followed_names _) e s

theorem resolve_grown (s : Session) (e : Expr) : s.Grown (s.resolve e).2 := by
  rw [resolve_eq_run]
  exact expr_holds (run_grown _).toFollowed e s

theorem transform_grown (s : Session) (m : Module) : s.Grown (s.transform m).2 := by
  rw [transform_eq_run]
  exact onBody_holds (run_grown _) m s

theorem resolve_shallow {s : Session} (h : s.depth ≤ maxNesting) (e : Expr) :
    s.Shallow (s.resolve e).2 := by
  rw [resolve_eq_run]
  exact (expr_holds (run_left _).toFollowed e s).2 (by omega)

theorem transform_shallow {s : Session} (h : s.depth ≤ maxNesting) (m : Module) :
    s.Shallow (s.transform m).2 := by
  rw [transform_eq_run]
  exact (onBody_holds (run_left _) m s).2 (by omega)

/-- A program in two parts is transformed part by part. -/
theorem transform_append (s : Session) (m rest : Module) :
    s.transform (m ++ rest) =
      ((s.transform m).1 ++ ((s.transform m).2.transform rest).1,
        ((s.transform m).2.transform rest).2) := by
  have hdepth := (transform_grown s m).depth
  rw [transform_eq_run _ rest, hdepth]
  simp only [transform_eq_run, Fold.onBody_append]
  rfl

/-- What is left of the levels in a session that is not at the limit. -/
lemma expansion_inside {s : Session} (h : s.depth < maxNesting) :
    expansion (maxNesting - s.depth) =
      some ⟨expr (expansion (maxNesting - s.inside.depth)),
        (fold (expansion (maxNesting - s.inside.depth))).onBody⟩ := by
  have hleft : maxNesting - s.depth = maxNesting - s.inside.depth + 1 := by
    simp only [inside]
    omega
  rw [hleft, expansion]

/-- `exec` runs its text as the session within does, unless the session is at the limit. -/
theorem expandExec_run (s : Session) (source : String) :
    (expandExec (expansion (maxNesting - s.depth)) source).run s =
      if s.depth < maxNesting then
        match Module.parse source with
        | .error error => (.error (.invalidArguments Builtin.exec.name (.badSource error)), s)
        | .ok m => (.ok (s.inside.transform m).1, (s.inside.transform m).2.outside)
      else (.error (.invalidArguments Builtin.exec.name .tooDeep), s) := by
  split
  · next h =>
    rw [expansion_inside h, expandExec]
    cases hparse : Module.parse source with
    | error error => rfl
    | ok m =>
      simp only [transform_eq_run]
      rfl
  · next h =>
    have hnone : maxNesting - s.depth = 0 := by omega
    rw [hnone]
    rfl

/-- A run from a depth that is allowed ends at that depth, notes issues behind those that are
there, begins no text deeper than allowed, and keeps the names: all of them as they are when it
resolves an expression, all of them bound when it transforms a program. -/
theorem run_within_nesting (s : Session) (h : s.depth ≤ maxNesting) :
    (∀ e, (s.resolve e).2.names = s.names ∧ (s.resolve e).2.depth = s.depth ∧
      s.issues <+: (s.resolve e).2.issues ∧ s.Shallow (s.resolve e).2) ∧
    ∀ m, (s.transform m).2.depth = s.depth ∧ s.issues <+: (s.transform m).2.issues ∧
      (∀ name, (s.names.local? name).isSome → ((s.transform m).2.names.local? name).isSome) ∧
      s.Shallow (s.transform m).2 := by
  constructor
  · intro e
    have hgrown := resolve_grown s e
    exact ⟨resolve_names s e, hgrown.depth, hgrown.issues, resolve_shallow h e⟩
  · intro m
    have hgrown := transform_grown s m
    exact ⟨hgrown.depth, hgrown.issues, fun name => hgrown.isSome_local?, transform_shallow h m⟩

/-- A session in which `s` names the text `exec(s)` and one more text can be run. -/
def itself : Session :=
  ⟨Namespace.empty.bind "s" (.value "str" (.str "exec(s)")), [], 31, []⟩

theorem itself_within_nesting :
    let m := [Stmt.expr (.apply (.name "exec") [.name "s"])]
    itself.depth ≤ maxNesting ∧ (itself.transform m).2.depth = itself.depth ∧
      ((itself.transform m).2.names.local? "s").isSome ∧
      itself.Shallow (itself.transform m).2 := by
  intro m
  have hdepth : itself.depth ≤ maxNesting := by decide
  obtain ⟨hback, -, hnames, hshallow⟩ := (run_within_nesting itself hdepth).2 m
  exact ⟨hdepth, hback, hnames "s" rfl, hshallow⟩

end Session
end Unmask
