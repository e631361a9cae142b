import Unmask.Proofs.Places.Constants

/-!
# Expressions and their places

All constants of an expression that is read are written where it is read, by the rules for string
literals, atoms, primaries, operators and whole expressions.
-/
namespace Unmask

open Cursor Grammar Unmask.Expr

/-- The rules that the grammar refers back to read what is written, and pass over the rest. -/
structure Rules.Reads (src : List Char) (g : Rules) : Prop where
  expr (f : Frame) : Yields src (Expr.WrittenIn src) (g.expr f)
  unary (f : Frame) : Yields src (Expr.WrittenIn src) (g.unary f)
  inversion (f : Frame) : Yields src (Expr.WrittenIn src) (g.inversion f)
  target (f : Frame) : Yields src (Expr.WrittenIn src) (g.target f)
  pattern : Passes src g.pattern
  hole : Passes src g.hole
  suite : Yields src (fun body => ∀ s ∈ body, Stmt.WrittenIn src s) g.suite

namespace Grammar

variable {src : List Char} {g : Rules} {f : Frame} {p n : Nat} {c stop : Cursor}

section Strings

variable {text : List Char} {parts done : List (List Char)}

lemma formatSpec_passes (hg : g.Reads src) (n : Nat) : Passes src (formatSpec g n) := by
  intro p c hc
  induction n generalizing p c with
  | zero => exact .none
  | succ n ih =>
    unfold formatSpec
    split
    · next k _ => exact .some trivial (hc.step k)
    · next k _ => exact (hg.hole (hc.step k)).bind fun _ _ _ hc => ih hc
    · exact .none

/-- The end of a literal is the end of its last token, and a gap follows. -/
lemma stringBody_closes (hg : g.Reads src) {s : Token.StringStart} (hc : c.Behind src p)
    (h : stringBody g s n c = some ((), stop)) :
    ∃ q, p ≤ q ∧ stop.lastEnd = q ∧ stop.rest = afterGap (src.drop q) ∧ stop.Behind src q := by
  induction n generalizing c with
  | zero => contradiction
  | succ n ih =>
    rw [stringBody] at h
    split at h
    · next k _ =>
      obtain rfl : c.advance k = stop := congrArg Prod.snd (Option.some.inj h)
      refine ⟨c.pos + k, Nat.le_trans hc.le (Nat.le_add_right _ _), lastEnd_advance c k, ?_, ?_⟩
      · rw [rest_advance, hc.rest, List.drop_drop]
      · exact behind_skip _ _ .plain false 0 _ (by rw [hc.rest, List.drop_drop])
    · next k _ =>
      obtain ⟨⟨x, c₁⟩, hhole, h⟩ := Option.bind_eq_some_iff.mp h
      exact ih (hg.hole (hc.step k) x c₁ hhole).2 h
    · contradiction

/-- A literal stands at the front, and a gap behind it. -/
lemma string_reads (hg : g.Reads src) (hc : c.Behind src p)
    (h : string g n c = some (text, stop)) :
    stop.Behind src p ∧ ∃ behind, c.rest = text ++ behind ∧
      (Token.stringStart? c.rest).isSome ∧ stop.rest = afterGap behind := by
  obtain ⟨s, hs, h⟩ := Option.bind_eq_some_iff.mp h
  obtain ⟨⟨x, stop'⟩, hbody, h⟩ := Option.bind_eq_some_iff.mp h
  obtain ⟨rfl, rfl⟩ := Prod.mk.inj (Option.some.inj h)
  obtain ⟨q, hle, hend, hgap, hstop⟩ := stringBody_closes hg (hc.itself.step s.length) hbody
  refine ⟨hstop.weaken (Nat.le_trans hc.le hle), src.drop q, ?_, by rw [hs]; rfl, hgap⟩
  have hdrop : c.rest.drop (q - c.pos) = src.drop q := by
    rw [hc.rest, List.drop_drop, Nat.add_sub_cancel' hle]
  rw [textTo, hend, ← hdrop, List.take_append_drop]

lemma string_passes (hg : g.Reads src) (n : Nat) : Passes src (string g n) :=
  fun _ _ hc _ _ h => ⟨trivial, (string_reads hg hc h).1⟩

lemma strings_reads (hg : g.Reads src) {m : Nat} (hc : c.Behind src p)
    (h : strings g f n m done c = some (parts, stop)) :
    stop.Behind src p ∧ ∃ more, parts = done.reverse ++ more ∧ InRow c.rest more := by
  induction m generalizing done c with
  | zero => contradiction
  | succ m ih =>
    rw [strings] at h
    split at h
    · obtain ⟨rfl, rfl⟩ := Prod.mk.inj (Option.some.inj h)
      exact ⟨hc, [], (List.append_nil _).symm, .nil⟩
    · next text c₁ hfirst =>
      obtain ⟨-, hfirst⟩ := Option.ite_none_left_eq_some.mp hfirst
      obtain ⟨hc₁, behind, hrest, hstart, hgap⟩ := string_reads hg hc hfirst
      obtain ⟨hstop, more, rfl, hrow⟩ := ih hc₁ h
      refine ⟨hstop, text :: more, by simp, ?_⟩
      rw [hrest] at hstart ⊢
      exact .cons hstart (hgap ▸ hrow)

lemma stringAtom_yields (hg : g.Reads src) (f : Frame) (n : Nat) :
    Yields src (Expr.WrittenIn src) (stringAtom g f n) := by
  intro p c hc e stop h
  obtain ⟨⟨first, c₁⟩, hfirst, h⟩ := Option.bind_eq_some_iff.mp h
  obtain ⟨⟨parts, c₂⟩, hmore, h⟩ := Option.bind_eq_some_iff.mp h
  obtain ⟨hc₁, behind, hrest, hstart, hgap⟩ := string_reads hg hc hfirst
  obtain ⟨hc₂, more, rfl, hrow⟩ := strings_reads hg hc₁ hmore
  dsimp only at h
  split at h
  · next value hvalue =>
    obtain ⟨rfl, rfl⟩ := Prod.mk.inj (Option.some.inj h)
    have hall : InRow (src.drop c.pos) (first :: more) := by
      rw [← hc.rest]
      rw [hrest] at hstart ⊢
      exact .cons hstart (hgap ▸ hrow)
    exact ⟨writtenIn_constant.mpr ⟨c.pos, .strings (List.cons_ne_nil _ _) hall hvalue⟩, hc₂⟩
  · obtain ⟨rfl, rfl⟩ := Prod.mk.inj (Option.some.inj h)
    exact ⟨writtenIn_verbatim _, hc₂⟩

end Strings

lemma numberAtom_yields (src : List Char) : Yields src (Expr.WrittenIn src) numberAtom := by
  intro p c hc e stop h
  obtain ⟨⟨n, isFloat⟩, hnumber, h⟩ := Option.bind_eq_some_iff.mp h
  rw [hc.rest] at hnumber h
  dsimp only at h
  split at h
  · next value hvalue =>
    obtain ⟨rfl, rfl⟩ := Prod.mk.inj (Option.some.inj h)
    refine ⟨writtenIn_constant.mpr ⟨c.pos, ?_⟩, hc.advance n⟩
    cases isFloat with
    | true =>
      obtain ⟨x, hx, rfl⟩ := Option.map_eq_some_iff.mp hvalue
      exact .float hnumber hx
    | false =>
      obtain ⟨x, hx, rfl⟩ := Option.map_eq_some_iff.mp hvalue
      exact .int hnumber hx
  · obtain ⟨rfl, rfl⟩ := Prod.mk.inj (Option.some.inj h)
    exact ⟨writtenIn_verbatim _, hc.advance n⟩

lemma wordAtom_yields (src : List Char) : Yields src (Expr.WrittenIn src) wordAtom := by
  intro p c hc
  have hword {w : String} {k : Constant}
      (hk : (w, k) ∈ [("None", Constant.none), ("True", .bool true), ("False", .bool false)])
      (h : c.isWord w) : Lands src p (Expr.WrittenIn src) (some (.constant k, c.afterWord)) := by
    refine .some (writtenIn_constant.mpr ⟨c.pos, .word hk ?_⟩) (afterWord_behind hc)
    rw [← hc.rest]
    exact beq_iff_eq.mp h
  unfold wordAtom
  split
  · next h => exact hword (by simp) h
  split
  · next h => exact hword (by simp) h
  split
  · next h => exact hword (by simp) h
  · exact (name?_lands hc).map fun id _ _ hc => ⟨writtenIn_name id, hc⟩

lemma expressionList_yields (hg : g.Reads src) (f : Frame) (n : Nat) :
    Yields src (Expr.WrittenIn src) (expressionList g f n) := by
  intro p c hc
  refine (hg.expr f hc).bind fun first c hfirst hc => ?_
  refine (elements_single (within_yields (hg.expr f) f) n hfirst hc).bind
    fun ⟨items, comma⟩ c hitems hc => .some ?_ hc
  cases comma
  · exact hfirst
  · exact writtenIn_tuple.mpr hitems

lemma yield_passes (hg : g.Reads src) (f : Frame) (n : Nat) : Passes src (yield g f n) := by
  intro p c hc
  refine Goes.join (.ite (.some (afterWord_behind hc)) .none) fun c hc => ?_
  refine .ite (.some trivial hc) (.ite ?_ ?_)
  · refine (keyword?_goes hc _).bind fun c hc => ?_
    exact (hg.expr f hc).bind fun _ c _ hc => .some trivial hc
  · split
    · next e c₁ h => exact .some trivial (expressionList_yields hg f n hc e c₁ h).2
    · exact .some trivial hc

lemma element_yields (hg : g.Reads src) (n : Nat) :
    Yields src (Expr.WrittenIn src) (element g n) := by
  intro p c hc
  refine .ite ?_ (.ite ?_ (hg.expr .free hc))
  · exact (yield_passes hg .free n hc).map fun _ _ _ hstop => ⟨writtenIn_verbatim _, hstop⟩
  · refine (operand?_goes hc 1).bind fun inner hinner => ?_
    exact (hg.expr .free hinner).bind fun e _ he hstop => .some (writtenIn_starred.mpr he) hstop

lemma clauseSources_written {items : List Expr} (h : ∀ e ∈ items, e.WrittenIn src) :
    (clauseSources items).WrittenIn src := by
  unfold clauseSources
  split
  · exact writtenIn_tuple.mpr h
  · next item => exact h item List.mem_cons_self
  · next item rest _ =>
    obtain ⟨hitem, hrest⟩ := List.forall_mem_cons.mp h
    refine writtenIn_tuple.mpr (List.forall_mem_cons.mpr ⟨hitem, fun e he => ?_⟩)
    obtain ⟨x, hx, he⟩ := List.mem_flatMap.mp he
    simp only [List.mem_cons, List.not_mem_nil, or_false] at he
    rcases he with rfl | rfl
    · exact writtenIn_verbatim _
    · exact hrest e hx

lemma targetList_yields (hg : g.Reads src) (f : Frame) (n : Nat) :
    Yields src (Expr.WrittenIn src) (targetList g f n) := by
  intro p c hc
  refine (hg.target f hc).bind fun first c hfirst hc => ?_
  refine (elements_single (within_yields (hg.target f) f) n hfirst hc).bind
    fun ⟨items, comma⟩ c hitems hc => .some ?_ hc
  cases comma
  · exact hfirst
  · exact writtenIn_tuple.mpr hitems

lemma condition_yields (hg : g.Reads src) : Yields src (Expr.WrittenIn src) (condition g) :=
  fun _ _ hc => (keyword?_goes hc _).bind fun _ hc => hg.expr .clause hc

lemma clause_yields (hg : g.Reads src) (n : Nat) :
    Yields src (Comprehension.WrittenIn src) (clause g n) := by
  intro p c hc
  have hfor : (if c.isWord "async" then c.afterWord else c).Behind src p := by
    split
    · exact afterWord_behind hc
    · exact hc
  refine (keyword?_goes hfor _).bind fun c hc => ?_
  refine (targetList_yields hg .free n hc).bind fun goal c hgoal hc => ?_
  refine (keyword?_goes hc _).bind fun c hc => ?_
  refine (hg.expr .clause hc).bind fun first c hfirst hc => ?_
  refine (elements_single (hg.expr .clause) n hfirst hc).bind fun ⟨items, _⟩ c hitems hc => ?_
  refine (many_nil (condition_yields hg) n hc).bind fun ifs c hifs hc => .some ?_ hc
  exact ⟨hgoal, clauseSources_written hitems, hifs⟩

lemma clauses_yields (hg : g.Reads src) (n : Nat) (close : String) :
    Yields src (fun gs => ∀ x ∈ gs, Comprehension.WrittenIn src x) (clauses g n close) := by
  intro p c hc
  refine (many_nil (clause_yields hg n) n hc).bind fun gs c hgs hc => ?_
  exact (symbol?_goes hc close).bind fun c hc => .some hgs hc

lemma parens_yields (hg : g.Reads src) (n : Nat) :
    Yields src (Expr.WrittenIn src) (parens g n) := by
  intro p c hc
  refine (symbol?_goes hc _).bind fun inner hinner => ?_
  split
  · next stop hstop => exact .some (writtenIn_tuple.mpr nofun) (symbol?_goes hinner _ stop hstop)
  refine (element_yields hg n hinner).bind fun first c₁ hfirst hc₁ => .ite ?_ ?_
  · refine (clauses_yields hg n ")" hc₁).bind fun gs stop hgs hstop => ?_
    exact .some (writtenIn_generator.mpr ⟨hfirst, hgs⟩) hstop
  · refine (elements_single (element_yields hg n) n hfirst hc₁).bind
      fun ⟨items, comma⟩ c₂ hitems hc₂ => ?_
    refine (symbol?_goes hc₂ _).bind fun stop hstop => .ite ?_ (.ite ?_ ?_)
    · exact .some (writtenIn_tuple.mpr hitems) hstop
    · exact .some (writtenIn_verbatim _) hstop
    · exact .some hfirst hstop

lemma brackets_yields (hg : g.Reads src) (n : Nat) :
    Yields src (Expr.WrittenIn src) (brackets g n) := by
  intro p c hc
  refine (symbol?_goes hc _).bind fun inner hinner => ?_
  split
  · next stop hstop => exact .some (writtenIn_list.mpr nofun) (symbol?_goes hinner _ stop hstop)
  refine (element_yields hg n hinner).bind fun first c₁ hfirst hc₁ => .ite ?_ ?_
  · refine (clauses_yields hg n "]" hc₁).bind fun gs stop hgs hstop => ?_
    exact .some (writtenIn_listComp.mpr ⟨hfirst, hgs⟩) hstop
  · refine (elements_single (element_yields hg n) n hfirst hc₁).bind
      fun ⟨items, comma⟩ c₂ hitems hc₂ => ?_
    exact (symbol?_goes hc₂ _).bind fun stop hstop => .some (writtenIn_list.mpr hitems) hstop

/-- The key and the value of a pair. -/
def PairWritten (src : List Char) (pair : Option Expr × Expr) : Prop :=
  (∀ e ∈ pair.1, e.WrittenIn src) ∧ pair.2.WrittenIn src

lemma pair_yields (hg : g.Reads src) : Yields src (PairWritten src) (pair g) := by
  intro p c hc
  refine .ite ?_ ?_
  · refine (operand?_goes hc 2).bind fun c hc => ?_
    exact (hg.expr .free hc).bind fun value c hvalue hc => .some ⟨nofun, hvalue⟩ hc
  · refine (hg.expr .free hc).bind fun key c hkey hc => ?_
    refine Goes.join (.ite (operand?_goes hc 1) .none) fun c hc => ?_
    refine (hg.expr .free hc).bind fun value c hvalue hc => .some ⟨?_, hvalue⟩ hc
    exact fun e he => Option.some.inj he ▸ hkey

lemma dictRest_yields (hg : g.Reads src) (n : Nat) {first : Option Expr × Expr}
    (hfirst : PairWritten src first) : Yields src (Expr.WrittenIn src) (dictRest g n first) := by
  intro p c hc
  refine (elements_single (pair_yields hg) n hfirst hc).bind fun ⟨items, _⟩ c hitems hc => ?_
  refine (symbol?_goes hc _).bind fun stop hstop => .some (writtenIn_dict.mpr ⟨?_, ?_⟩) hstop
  · exact List.forall_mem_map.mpr fun pair hpair => (hitems pair hpair).1
  · exact List.forall_mem_map.mpr fun pair hpair => (hitems pair hpair).2

lemma braces_yields (hg : g.Reads src) (n : Nat) :
    Yields src (Expr.WrittenIn src) (braces g n) := by
  intro p c hc
  have hempty : (dict [] []).WrittenIn src := writtenIn_dict.mpr ⟨nofun, nofun⟩
  refine (symbol?_goes hc _).bind fun inner hinner => ?_
  split
  · next stop hstop => exact .some hempty (symbol?_goes hinner _ stop hstop)
  split
  · next stop hstop =>
    have hcomma := (symbol?_goes hinner ",").step fun c hc => symbol?_goes hc "\x7d"
    exact .some hempty (hcomma stop hstop)
  refine .ite ?_ ?_
  · exact (pair_yields hg hinner).bind fun first c₁ hfirst hc₁ => dictRest_yields hg n hfirst hc₁
  refine (element_yields hg n hinner).bind fun first c₁ hfirst hc₁ => .ite ?_ (.ite ?_ ?_)
  · refine (operand?_goes hc₁ 1).bind fun c₂ hc₂ => ?_
    refine (hg.expr .free hc₂).bind fun value c₃ hvalue hc₃ => .ite ?_ ?_
    · refine (clauses_yields hg n "\x7d" hc₃).bind fun gs stop hgs hstop => ?_
      exact .some (writtenIn_dictComp.mpr ⟨hfirst, hvalue, hgs⟩) hstop
    · refine dictRest_yields hg n ⟨fun e he => ?_, hvalue⟩ hc₃
      exact Option.some.inj he ▸ hfirst
  · refine (clauses_yields hg n "\x7d" hc₁).bind fun gs stop hgs hstop => ?_
    exact .some (writtenIn_setComp.mpr ⟨hfirst, hgs⟩) hstop
  · refine (elements_single (element_yields hg n) n hfirst hc₁).bind
      fun ⟨items, _⟩ c₂ hitems hc₂ => ?_
    exact (symbol?_goes hc₂ _).bind fun stop hstop => .some (writtenIn_set.mpr hitems) hstop

/-- What an argument holds. -/
def Argument.WrittenIn (src : List Char) : Argument → Prop
  | .positional e => e.WrittenIn src
  | .keyword k => k.WrittenIn src

/-- What the arguments of a call hold. -/
def ArgumentsWritten (src : List Char) (r : List Expr × List Keyword) : Prop :=
  (∀ e ∈ r.1, e.WrittenIn src) ∧ ∀ k ∈ r.2, Keyword.WrittenIn src k

lemma argument_yields (hg : g.Reads src) : Yields src (Argument.WrittenIn src) (argument g) := by
  intro p c hc
  refine .ite ?_ (.ite ?_ ?_)
  · refine (operand?_goes hc 1).bind fun c hc => ?_
    exact (hg.expr .free hc).bind fun e c he hc => .some (writtenIn_starred.mpr he) hc
  · refine (operand?_goes hc 2).bind fun c hc => ?_
    exact (hg.expr .free hc).bind fun e c he hc => .some he hc
  · extract_lets named
    have hnamed : Lands src p (fun _ => True) named :=
      (name?_lands hc).bind fun id c _ hc =>
        Goes.join (.ite (operand?_goes hc 1) .none) fun c hc => .some trivial hc
    clear_value named
    rcases named with _ | ⟨id, c₁⟩
    · exact (hg.expr .free hc).map fun e c he hc => ⟨he, hc⟩
    · exact (hg.expr .free (hnamed id c₁ rfl).2).map fun e c he hc => ⟨he, hc⟩

lemma argumentsRest_yields (hg : g.Reads src) (n : Nat) {first : Argument}
    (hfirst : first.WrittenIn src) :
    Yields src (ArgumentsWritten src) (argumentsRest g n first) := by
  intro p c hc
  refine (elements_single (argument_yields hg) n hfirst hc).bind fun ⟨items, _⟩ c hitems hc => ?_
  refine (symbol?_goes hc _).bind fun stop hstop => .some ⟨fun e he => ?_, fun k hk => ?_⟩ hstop
  · obtain ⟨a, ha, he⟩ := List.mem_filterMap.mp he
    cases a with
    | positional e' => exact Option.some.inj he ▸ hitems _ ha
    | keyword => contradiction
  · obtain ⟨a, ha, hk⟩ := List.mem_filterMap.mp hk
    cases a with
    | positional => contradiction
    | keyword k' => exact Option.some.inj hk ▸ hitems _ ha

lemma noArguments_goes (hc : c.Behind src p) : Goes src p (noArguments c) := by
  unfold noArguments
  split
  · next stop hstop => exact .some (symbol?_goes hc _ stop hstop)
  · exact (symbol?_goes hc _).step fun c hc => symbol?_goes hc _

lemma argumentList_yields (hg : g.Reads src) (n : Nat) :
    Yields src (ArgumentsWritten src) (argumentList g n) := by
  intro p c hc
  refine (symbol?_goes hc _).bind fun inner hinner => ?_
  split
  · next stop hstop => exact .some ⟨nofun, nofun⟩ (noArguments_goes hinner stop hstop)
  · exact (argument_yields hg hinner).bind fun first c hfirst hc =>
      argumentsRest_yields hg n hfirst hc

lemma callArguments_yields (hg : g.Reads src) (n : Nat) :
    Yields src (ArgumentsWritten src) (callArguments g n) := by
  intro p c hc
  refine (symbol?_goes hc _).bind fun inner hinner => ?_
  split
  · next stop hstop => exact .some ⟨nofun, nofun⟩ (noArguments_goes hinner stop hstop)
  refine (argument_yields hg hinner).bind fun first c hfirst hc => ?_
  dsimp only
  split
  · refine (clauses_yields hg n ")" hc).bind fun gs stop hgs hstop => .some ⟨?_, nofun⟩ hstop
    exact List.forall_mem_singleton.mpr (writtenIn_generator.mpr ⟨hfirst, hgs⟩)
  · exact argumentsRest_yields hg n hfirst hc

lemma bound_yields (hg : g.Reads src) :
    Yields src (fun o => ∀ e ∈ o, Expr.WrittenIn src e) (bound g) := by
  intro p c hc
  refine .ite (.some nofun hc) ((hg.expr .free hc).map fun e c he hc => ⟨?_, hc⟩)
  exact fun e' he' => Option.some.inj he' ▸ he

lemma index_yields (hg : g.Reads src) : Yields src (Expr.WrittenIn src) (index g) := by
  intro p c hc
  refine (bound_yields hg hc).bind fun lower c hlower hc => ?_
  dsimp only
  split
  · intro e stop h
    obtain ⟨e', rfl, heq⟩ := Option.map_eq_some_iff.mp h
    obtain ⟨rfl, rfl⟩ := Prod.mk.inj heq
    exact ⟨hlower e' rfl, hc⟩
  · next c₁ hc₁ =>
    refine (bound_yields hg (symbol?_goes hc _ c₁ hc₁)).bind fun upper c hupper hc => ?_
    dsimp only
    split
    · exact .some (writtenIn_slice.mpr ⟨hlower, hupper, nofun⟩) hc
    · next c₂ hc₂ =>
      exact (bound_yields hg (symbol?_goes hc _ c₂ hc₂)).bind fun step c hstep hc =>
        .some (writtenIn_slice.mpr ⟨hlower, hupper, hstep⟩) hc

lemma subscript_yields (hg : g.Reads src) (n : Nat) :
    Yields src (Expr.WrittenIn src) (subscript g n) := by
  intro p c hc
  refine (symbol?_goes hc _).bind fun inner hinner => ?_
  refine (index_yields hg hinner).bind fun first c hfirst hc => ?_
  refine (elements_single (index_yields hg) n hfirst hc).bind fun ⟨items, _⟩ c hitems hc => ?_
  refine (symbol?_goes hc _).bind fun stop hstop => ?_
  split
  · exact .some (hitems _ List.mem_cons_self) hstop
  · exact .some (writtenIn_tuple.mpr hitems) hstop

lemma member_passes (src : List Char) : Passes src member :=
  fun _ _ hc => (symbol?_goes hc _).bind fun _ hc => name?_lands hc

lemma members_yields (hg : g.Reads src) (f : Frame) (n m : Nat) {e : Expr}
    (he : e.WrittenIn src) : Yields src (Expr.WrittenIn src) (members g f n m e) := by
  intro p c hc
  induction m generalizing e p c with
  | zero => exact .none
  | succ m ih =>
    refine .ite (.some he hc) (.ite ?_ (.ite ?_ (.some he hc)))
    · exact (member_passes src hc).bind fun id c _ hc => ih ((writtenIn_attribute id).mpr he) hc
    · exact (subscript_yields hg n hc).bind fun i c hi hc =>
        ih (writtenIn_subscript.mpr ⟨he, hi⟩) hc

lemma postfixes_yields (hg : g.Reads src) (f : Frame) (n m : Nat) {e : Expr}
    (he : e.WrittenIn src) : Yields src (Expr.WrittenIn src) (postfixes g f n m e) := by
  intro p c hc
  induction m generalizing e p c with
  | zero => exact .none
  | succ m ih =>
    refine .ite (.some he hc) (.ite ?_ (.ite ?_ (.ite ?_ (.some he hc))))
    · exact (member_passes src hc).bind fun id c _ hc => ih ((writtenIn_attribute id).mpr he) hc
    · exact (subscript_yields hg n hc).bind fun i c hi hc =>
        ih (writtenIn_subscript.mpr ⟨he, hi⟩) hc
    · exact (callArguments_yields hg n hc).bind fun ⟨args, keywords⟩ c hargs hc =>
        ih (writtenIn_call.mpr ⟨he, hargs.1, hargs.2⟩) hc

lemma spread_yields (hg : g.Reads src) (f : Frame) (n : Nat) :
    Yields src (Expr.WrittenIn src) (spread g f n) := by
  intro p c hc
  refine Goes.join (.ite (operand?_goes hc 1) .none) fun inner hinner => ?_
  refine (name?_lands hinner).bind fun id c₁ _ hc₁ => ?_
  exact (members_yields hg f n n (writtenIn_name id) hc₁).bind fun e stop he hstop =>
    .some (writtenIn_starred.mpr he) hstop

lemma atom_yields (hg : g.Reads src) (f : Frame) (n : Nat) :
    Yields src (Expr.WrittenIn src) (atom g f n) := by
  intro p c hc
  unfold atom
  split
  · exact stringAtom_yields hg f n hc
  split
  · exact numberAtom_yields src hc
  split
  · exact parens_yields hg n hc
  split
  · exact brackets_yields hg n hc
  split
  · exact braces_yields hg n hc
  split
  · next h =>
    refine .some (writtenIn_constant.mpr ⟨c.pos, .ellipsis ?_⟩) (hc.advance 3)
    rw [← hc.rest]
    exact beq_iff_eq.mp h
  split
  · exact spread_yields hg f n hc
  · exact wordAtom_yields src hc

lemma primary_yields (hg : g.Reads src) (f : Frame) (n : Nat) :
    Yields src (Expr.WrittenIn src) (primary g f n) :=
  fun _ _ hc => (atom_yields hg f n hc).bind fun _ _ he hc => postfixes_yields hg f n n he hc

lemma leftAssoc_yields {operator : Cursor → Option BinaryOp} {operand : Rule Expr}
    (h : Yields src (Expr.WrittenIn src) operand) (f : Frame) (n : Nat) {left : Expr}
    (hleft : left.WrittenIn src) :
    Yields src (Expr.WrittenIn src) (leftAssoc f operator operand n left) := by
  intro p c hc
  induction n generalizing left p c with
  | zero => exact .none
  | succ n ih =>
    unfold leftAssoc
    split
    · exact .some hleft hc
    · next op _ =>
      refine (operand?_goes hc _).bind fun c hc => ?_
      exact (h hc).bind fun right c hright hc =>
        ih ((writtenIn_binary op).mpr ⟨hleft, hright⟩) hc

/-- A row of operands, read from the left. -/
lemma row_yields {operator : Cursor → Option BinaryOp} {operand : Rule Expr}
    (h : Yields src (Expr.WrittenIn src) operand) (f : Frame) (n : Nat) :
    Yields src (Expr.WrittenIn src)
      (fun c => (operand c).bind fun r => leftAssoc f operator operand n r.1 r.2) :=
  fun _ _ hc => (h hc).bind fun _ _ hleft hc => leftAssoc_yields h f n hleft hc

lemma power_yields (hg : g.Reads src) (f : Frame) (n : Nat) :
    Yields src (Expr.WrittenIn src) (power g f n) := by
  intro p c hc
  refine (primary_yields hg f n hc).bind fun base c hbase hc => .ite ?_ (.some hbase hc)
  refine (operand?_goes hc 2).bind fun c hc => ?_
  exact (hg.unary f hc).bind fun exponent c hexponent hc =>
    .some ((writtenIn_binary .pow).mpr ⟨hbase, hexponent⟩) hc

lemma unary_yields (hg : g.Reads src) (f : Frame) (n : Nat) :
    Yields src (Expr.WrittenIn src) (unary g f n) := by
  intro p c hc
  unfold unary
  split
  · next op _ =>
    refine (operand?_goes hc 1).bind fun c hc => ?_
    exact (hg.unary f hc).bind fun e c he hc => .some ((writtenIn_unary op).mpr he) hc
  · refine .ite ?_ (power_yields hg f n hc)
    exact (hg.unary f (afterWord_behind hc)).bind fun e c he hc =>
      .some (writtenIn_await.mpr he) hc

lemma term_yields (hg : g.Reads src) (f : Frame) (n : Nat) :
    Yields src (Expr.WrittenIn src) (term g f n) := row_yields (unary_yields hg f n) f n

lemma arith_yields (hg : g.Reads src) (f : Frame) (n : Nat) :
    Yields src (Expr.WrittenIn src) (arith g f n) := row_yields (term_yields hg f n) f n

lemma shift_yields (hg : g.Reads src) (f : Frame) (n : Nat) :
    Yields src (Expr.WrittenIn src) (shift g f n) := row_yields (arith_yields hg f n) f n

lemma bitXor_yields (hg : g.Reads src) (f : Frame) (n : Nat) :
    Yields src (Expr.WrittenIn src) (bitXor g f n) := row_yields (shift_yields hg f n) f n

lemma bitAnd_yields (hg : g.Reads src) (f : Frame) (n : Nat) :
    Yields src (Expr.WrittenIn src) (bitAnd g f n) := row_yields (bitXor_yields hg f n) f n

lemma bitOr_yields (hg : g.Reads src) (f : Frame) (n : Nat) :
    Yields src (Expr.WrittenIn src) (bitOr g f n) := row_yields (bitAnd_yields hg f n) f n

lemma compareSymbol?_lands (hc : c.Behind src p) :
    Lands src p (fun _ => True) (compareSymbol? c) := by
  have htwo (first second : String) : Lands src p (fun _ => True)
      (if c.isWord first && c.afterWord.isWord second then do
        let c₂ ← c.afterWord.operand? second.length
        return (String.ofList (c.textTo c₂), c₂)
      else none) :=
    .ite ((operand?_goes (afterWord_behind hc) _).bind fun c hc => .some trivial hc) .none
  have hword {r : Option Cursor} (h : Goes src p r) (s : String) :
      Lands src p (fun _ => True) (r.map fun c => (s, c)) := by
    intro s' stop heq
    obtain ⟨c, hc, heq⟩ := Option.map_eq_some_iff.mp heq
    obtain ⟨-, rfl⟩ := Prod.mk.inj heq
    exact ⟨trivial, h c hc⟩
  unfold compareSymbol?
  dsimp only
  split
  · exact hword (operand?_goes hc _) _
  split
  · exact hword (keyword?_goes hc _) _
  split
  · exact htwo "not" "in"
  split
  · split
    · exact htwo "is" "not"
    · exact hword (keyword?_goes hc _) _
  · exact .none

lemma comparisons_yields (hg : g.Reads src) (f : Frame) (n m : Nat)
    {done : List (Option CompareOp × Expr)} (hdone : ∀ link ∈ done, link.2.WrittenIn src) :
    Yields src (fun links => ∀ link ∈ links, link.2.WrittenIn src) (comparisons g f n m done) := by
  intro p c hc
  induction m generalizing done p c with
  | zero => exact .none
  | succ m ih =>
    unfold comparisons
    split
    · exact .some (by simpa using hdone) hc
    · next symbol c₁ h =>
      obtain ⟨-, h⟩ := Option.ite_none_left_eq_some.mp h
      refine (bitOr_yields hg f n (compareSymbol?_lands hc symbol c₁ h).2).bind
        fun right c hright hc => ?_
      exact ih (List.forall_mem_cons.mpr ⟨hright, hdone⟩) hc

lemma comparison_yields (hg : g.Reads src) (f : Frame) (n : Nat) :
    Yields src (Expr.WrittenIn src) (comparison g f n) := by
  intro p c hc
  refine (bitOr_yields hg f n hc).bind fun left c₁ hleft hc₁ => ?_
  refine (comparisons_yields hg f n n (List.forall_mem_nil _) hc₁).bind
    fun links stop hlinks hstop => ?_
  refine .ite (.some hleft hstop) ?_
  split
  · next ops _ =>
    refine .some ((writtenIn_compare ops).mpr ⟨hleft, ?_⟩) hstop
    exact List.forall_mem_map.mpr hlinks
  · exact .some (writtenIn_verbatim _) hstop

lemma parameter_passes (hg : g.Reads src) (typed : Bool) (n : Nat) :
    Passes src (parameter g typed n) := by
  intro p c hc
  unfold parameter
  -- the default, and the type and the default, behind whatever names the parameter
  extract_lets value rest first
  have hvalue (c : Cursor) (hc : c.Behind src p) : Lands src p (fun _ => True) (value c) := by
    refine .ite ?_ (.some trivial hc)
    refine (operand?_goes hc 1).bind fun c hc => ?_
    exact (hg.expr .free hc).bind fun _ c _ hc => .some trivial hc
  have hrest (c : Cursor) (hc : c.Behind src p) : Lands src p (fun _ => True) (rest c) := by
    have htype : Goes src p ((c.operand? 1).bind fun c => (element g n c).map Prod.snd) :=
      (operand?_goes hc 1).step fun c hc => (element_yields hg n hc).goes
    exact Goes.join (.ite htype (.some hc)) hvalue
  split
  · split
    · next id c₁ h => exact hrest c₁ (name?_lands (hc.advance 1) id c₁ h).2
    · exact hrest _ (hc.advance 1)
  split
  · have hspread := (operand?_goes hc 2).step fun c hc => (name?_lands hc).goes
    rw [Option.map_bind]
    exact hspread.bind hrest
  split
  · exact hrest _ (hc.advance 1)
  split
  · exact (hg.target .free hc).goes.bind hrest
  · exact (name?_lands hc).goes.bind hrest

lemma parameters_passes (hg : g.Reads src) (typed : Bool) (close : String) (n : Nat) :
    Passes src (parameters g typed close n) := by
  intro p c hc
  refine .ite (.some trivial hc) ?_
  refine (parameter_passes hg typed n hc).bind fun _ c _ hc => ?_
  exact (elements_single (parameter_passes hg typed n) n trivial hc).bind
    fun _ c _ hc => .some trivial hc

lemma lambda_yields (hg : g.Reads src) (f : Frame) (n : Nat) :
    Yields src (Expr.WrittenIn src) (lambda g f n) := by
  intro p c hc
  refine Goes.join (.ite (.some (afterWord_behind hc)) .none) fun first hfirst => ?_
  refine (parameters_passes hg false ":" n hfirst).bind fun _ stop _ hstop => ?_
  refine Goes.join (.ite (operand?_goes hstop 1) .none) fun c hc => ?_
  exact (hg.expr f hc).bind fun body c hbody hc => .some ((writtenIn_lambda _).mpr hbody) hc

lemma named_yields (hg : g.Reads src) (f : Frame) :
    Yields src (Expr.WrittenIn src) (named g f) := by
  intro p c hc
  refine (name?_lands hc).bind fun target c _ hc => ?_
  refine Goes.join (.ite (operand?_goes hc 2) .none) fun c hc => ?_
  exact (hg.expr _ hc).bind fun value c hvalue hc => .some ((writtenIn_named target).mpr hvalue) hc

lemma inversion_yields (hg : g.Reads src) (f : Frame) (n : Nat) :
    Yields src (Expr.WrittenIn src) (inversion g f n) := by
  intro p c hc
  refine .ite (lambda_yields hg f n hc) (.ite ?_ ?_)
  · refine (keyword?_goes hc _).bind fun c hc => ?_
    exact (hg.inversion f hc).bind fun e c he hc => .some ((writtenIn_unary .not).mpr he) hc
  · split
    · next r h => exact fun e stop heq => named_yields hg f hc e stop (h.trans heq)
    · exact comparison_yields hg f n hc

lemma operands_yields {operand : Rule Expr} (h : Yields src (Expr.WrittenIn src) operand)
    (f : Frame) (op : BoolOp) (n : Nat) {done : List Expr} (hdone : ∀ e ∈ done, e.WrittenIn src) :
    Yields src (fun es => ∀ e ∈ es, Expr.WrittenIn src e) (operands f op operand n done) := by
  intro p c hc
  induction n generalizing done p c with
  | zero => exact .none
  | succ n ih =>
    refine .ite ?_ (.some (by simpa using hdone) hc)
    refine (keyword?_goes hc _).bind fun c hc => ?_
    exact (h hc).bind fun e c he hc => ih (List.forall_mem_cons.mpr ⟨he, hdone⟩) hc

lemma chain_yields {operand : Rule Expr} (h : Yields src (Expr.WrittenIn src) operand)
    (f : Frame) (op : BoolOp) (n : Nat) :
    Yields src (Expr.WrittenIn src) (chain f op operand n) := by
  intro p c hc
  refine (h hc).bind fun first c hfirst hc => ?_
  refine (operands_yields h f op n (List.forall_mem_singleton.mpr hfirst) hc).bind
    fun values c hvalues hc => ?_
  dsimp only
  split
  · exact .some (hvalues _ List.mem_cons_self) hc
  · exact .some ((writtenIn_bool op).mpr hvalues) hc

lemma conjunction_yields (hg : g.Reads src) (f : Frame) (n : Nat) :
    Yields src (Expr.WrittenIn src) (conjunction g f n) :=
  chain_yields (inversion_yields hg f n) f .and n

lemma disjunction_yields (hg : g.Reads src) (f : Frame) (n : Nat) :
    Yields src (Expr.WrittenIn src) (disjunction g f n) :=
  chain_yields (conjunction_yields hg f n) f .or n

lemma conditional_yields (hg : g.Reads src) (f : Frame) (n : Nat) :
    Yields src (Expr.WrittenIn src) (conditional g f n) := by
  intro p c hc
  refine (disjunction_yields hg f n hc).bind fun body c hbody hc => .ite ?_ (.some hbody hc)
  refine (keyword?_goes hc _).bind fun c hc => ?_
  refine (hg.expr .free hc).bind fun test c htest hc => ?_
  refine (keyword?_goes hc _).bind fun c hc => ?_
  exact (hg.expr f hc).bind fun orelse c horelse hc =>
    .some (writtenIn_conditional.mpr ⟨htest, hbody, horelse⟩) hc

lemma asTargets_yields (hg : g.Reads src) (f : Frame) (n : Nat) (first : Cursor) (m : Nat)
    {e : Expr} (he : e.WrittenIn src) :
    Yields src (Expr.WrittenIn src) (asTargets g f n first m e) := by
  intro p c hc
  induction m generalizing e p c with
  | zero => exact .none
  | succ m ih =>
    refine .ite ?_ (.some he hc)
    refine (keyword?_goes hc _).bind fun c hc => ?_
    exact (disjunction_yields hg f n hc).bind fun _ stop _ hstop =>
      ih (writtenIn_verbatim _) hstop

lemma expr_yields (hg : g.Reads src) (f : Frame) (n : Nat) :
    Yields src (Expr.WrittenIn src) (expr g f n) :=
  fun _ c hc => (conditional_yields hg f n hc).bind fun _ _ he hstop =>
    asTargets_yields hg f n c n he hstop

lemma targetGroup_yields (hg : g.Reads src) (f : Frame) (n : Nat) (left right : String) :
    Yields src (fun items => ∀ e ∈ items, Expr.WrittenIn src e) (targetGroup g f n left right) := by
  intro p c hc
  refine (symbol?_goes hc left).bind fun inner hinner => ?_
  have hclose (items : List Expr) (c : Cursor) (hitems : ∀ e ∈ items, e.WrittenIn src)
      (hc : c.Behind src p) : Lands src p (fun items => ∀ e ∈ items, Expr.WrittenIn src e) (do
        let stop ← c.symbol? right
        if !f.stops stop && ["(", "[", "."].any stop.isSymbol then none
        else some (items, stop)) :=
    (symbol?_goes hc right).bind fun stop hstop => .ite .none (.some hitems hstop)
  refine .ite (hclose [] inner (List.forall_mem_nil _) hinner) ?_
  refine (hg.target .free hinner).bind fun first c hfirst hc => ?_
  exact (elements_single (hg.target .free) n hfirst hc).bind
    fun ⟨items, _⟩ c hitems hc => hclose items c hitems hc

lemma target_yields (hg : g.Reads src) (f : Frame) (n : Nat) :
    Yields src (Expr.WrittenIn src) (target g f n) := by
  intro p c hc
  refine .ite (spread_yields hg f n hc) ?_
  split
  · next items stop h =>
    obtain ⟨hitems, hstop⟩ := targetGroup_yields hg f n "(" ")" hc items stop h
    exact .some (writtenIn_tuple.mpr hitems) hstop
  split
  · next items stop h =>
    obtain ⟨hitems, hstop⟩ := targetGroup_yields hg f n "[" "]" hc items stop h
    exact .some (writtenIn_list.mpr hitems) hstop
  · exact (primary_yields hg f n hc).bind fun e stop he hstop => .ite (.some he hstop) .none

lemma hole_passes (hg : g.Reads src) (n : Nat) : Passes src (hole g n) := by
  intro p c hc
  refine (symbol?_goes hc _).bind fun c hc => ?_
  refine Goes.join
    (.ite (yield_passes hg .free n hc).goes (expressionList_yields hg .free n hc).goes)
    fun c hc => ?_
  dsimp -zeta only
  extract_lets equals value
  have hequals : equals.Behind src p := by
    dsimp only [equals]
    split
    · exact hc.advance 1
    · exact hc
  have hvalue : value.Behind src p := by
    dsimp only [value]
    split
    · split
      · exact hequals.advance 2
      · exact hequals
    · exact hequals
  refine Lands.join (.ite (formatSpec_passes hg n (hvalue.step 1)) (.some trivial hvalue))
    fun _ c _ hc => ?_
  exact .ite (.some trivial (hc.step 1)) .none

end Grammar
end Unmask
