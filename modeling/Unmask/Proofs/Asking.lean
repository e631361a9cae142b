import Mathlib.Logic.Function.Iterate
import Mathlib.Order.Nat
import Mathlib.Tactic.Choose

/-!
# Recursion by questions

A function without a measure to recurse on can be told as a plan for each of its arguments: a
computation that is done, or that asks for the value at another argument and goes on with the
answer. Followed so many levels deep, a plan gives a value or nothing. It gives one at some depth
just if it does not lead to a question, and the plan of that question to another one, without end.
-/
namespace Unmask

/-- A computation that asks questions of type `ι` and gets answers of type `ρ`. -/
inductive Asking (ι ρ α : Type) where
  | done (a : α)
  | ask (question : ι) (next : ρ → Asking ι ρ α)

namespace Asking

variable {ι ρ α β : Type}

/-- Goes on with the result once a computation is done. -/
def andThen : Asking ι ρ α → (α → Asking ι ρ β) → Asking ι ρ β
  | .done a, f => f a
  | .ask question next, f => .ask question fun r => (next r).andThen f

instance : Monad (Asking ι ρ) where
  pure := .done
  bind := .andThen

lemma done_bind (a : α) (f : α → Asking ι ρ β) : (done a >>= f) = f a := rfl

lemma ask_bind (question : ι) (next : ρ → Asking ι ρ α) (f : α → Asking ι ρ β) :
    (ask question next >>= f) = ask question fun r => next r >>= f := rfl

/-- What a computation comes to with the given answers, if none is missing. -/
def run? (answer : ι → Option ρ) : Asking ι ρ α → Option α
  | .done a => some a
  | .ask question next => (answer question).bind fun r => (next r).run? answer

lemma run?_bind (answer : ι → Option ρ) (x : Asking ι ρ α) (f : α → Asking ι ρ β) :
    (x >>= f).run? answer = (x.run? answer).bind fun a => (f a).run? answer := by
  induction x with
  | done a => rfl
  | ask question next ih =>
    simp only [ask_bind, run?, ih, Option.bind_assoc]

/-- More answers do not change what a computation comes to. -/
lemma run?_mono {answer answer' : ι → Option ρ}
    (hmore : ∀ question r, answer question = some r → answer' question = some r)
    {x : Asking ι ρ α} {a : α} (h : x.run? answer = some a) : x.run? answer' = some a := by
  induction x with
  | done _ => exact h
  | ask question next ih =>
    obtain ⟨r, hr, hnext⟩ := Option.bind_eq_some_iff.mp h
    exact Option.bind_eq_some_iff.mpr ⟨r, hmore question r hr, ih r hnext⟩

variable (plan : ι → Asking ι ρ ρ)

/-- The answers from plans that are followed so many levels deep. -/
def answers : Nat → ι → Option ρ
  | 0, _ => none
  | n + 1, question => (plan question).run? (answers n)

/-- A question has an answer at some depth. -/
def Answered (question : ι) (r : ρ) : Prop := ∃ n, answers plan n question = some r

/-- A computation comes to a question: those before it have answers. -/
inductive Asks : Asking ι ρ α → ι → Prop where
  | now {question : ι} {next : ρ → Asking ι ρ α} : Asks (.ask question next) question
  | later {question other : ι} {r : ρ} {next : ρ → Asking ι ρ α} :
    Answered plan question r → Asks (next r) other → Asks (.ask question next) other

/-- The plan of a question comes to another one. -/
def Leads (question other : ι) : Prop := Asks plan (plan question) other

variable {plan}

/-- What a computation asks, it asks whatever follows. -/
lemma Asks.andThen {x : Asking ι ρ α} {other : ι} (h : Asks plan x other)
    (f : α → Asking ι ρ β) : Asks plan (x >>= f) other := by
  induction h with
  | now => exact .now
  | later hanswer _ ih => exact .later hanswer ih

/-- An answer stays when plans are followed deeper. -/
lemma answers_mono {n k : Nat} (hnk : n ≤ k) {question : ι} {r : ρ}
    (h : answers plan n question = some r) : answers plan k question = some r := by
  induction n generalizing k question r with
  | zero => cases h
  | succ n ih =>
    cases k with
    | zero => exact absurd hnk (Nat.not_succ_le_zero n)
    | succ k => exact run?_mono (fun _ _ => ih (Nat.le_of_succ_le_succ hnk)) h

lemma Answered.unique {question : ι} {r r' : ρ} (h : Answered plan question r)
    (h' : Answered plan question r') : r = r' := by
  obtain ⟨n, hn⟩ := h
  obtain ⟨k, hk⟩ := h'
  have hr := answers_mono (Nat.le_max_left n k) hn
  rw [answers_mono (Nat.le_max_right n k) hk] at hr
  exact (Option.some.inj hr).symm

/-- A computation that has a result at some depth has answers there to all that it asks. -/
lemma Asks.answer {x : Asking ι ρ α} {other : ι} (h : Asks plan x other) {n : Nat} {a : α}
    (hrun : x.run? (answers plan n) = some a) : ∃ r, answers plan n other = some r := by
  induction h with
  | now =>
    obtain ⟨r, hr, -⟩ := Option.bind_eq_some_iff.mp hrun
    exact ⟨r, hr⟩
  | later hanswer _ ih =>
    obtain ⟨r, hr, hnext⟩ := Option.bind_eq_some_iff.mp hrun
    obtain rfl := Answered.unique ⟨n, hr⟩ hanswer
    exact ih hnext

/-- A computation has a result at some depth if all that it asks is answered at some depth. -/
lemma exists_run? {x : Asking ι ρ α} (h : ∀ other, Asks plan x other → ∃ r, Answered plan other r) :
    ∃ n a, x.run? (answers plan n) = some a := by
  induction x with
  | done a => exact ⟨0, a, rfl⟩
  | ask question next ih =>
    obtain ⟨r, n, hn⟩ := h question .now
    obtain ⟨k, a, hk⟩ := ih r fun other hother => h other (.later ⟨n, hn⟩ hother)
    have hanswer := answers_mono (Nat.le_max_left n k) hn
    have hnext := run?_mono (fun _ _ => answers_mono (Nat.le_max_right n k)) hk
    exact ⟨max n k, a, Option.bind_eq_some_iff.mpr ⟨r, hanswer, hnext⟩⟩

/-- A computation that asks nothing is done. -/
lemma exists_done {x : Asking ι ρ α} (h : ∀ other, ¬ Asks plan x other) : ∃ a, x = .done a := by
  cases x with
  | done a => exact ⟨a, rfl⟩
  | ask question next => exact absurd .now (h question)

/-- A computation without a result at any depth asks something that has no answer. -/
lemma exists_unanswered {x : Asking ι ρ α} (h : ∀ n, x.run? (answers plan n) = none) :
    ∃ other, Asks plan x other ∧ ∀ r, ¬ Answered plan other r := by
  by_contra hall
  push Not at hall
  obtain ⟨n, a, hrun⟩ := exists_run? hall
  rw [h n] at hrun
  contradiction

/-- On a chain without an end there are no answers. -/
lemma answers_chain (chain : Nat → ι) (h : ∀ i, Leads plan (chain i) (chain (i + 1)))
    (n i : Nat) : answers plan n (chain i) = none := by
  induction n generalizing i with
  | zero => rfl
  | succ n ih =>
    by_contra hsome
    obtain ⟨r, hr⟩ := Option.ne_none_iff_exists'.mp hsome
    obtain ⟨r', hr'⟩ := (h i).answer hr
    rw [ih (i + 1)] at hr'
    contradiction

/-- A computation has a result at some depth if and only if no chain of questions begins with one
that it asks and goes on without an end. -/
theorem exists_result_iff (x : Asking ι ρ α) :
    (∃ n, (x.run? (answers plan n)).isSome) ↔
      ¬ ∃ chain : Nat → ι, Asks plan x (chain 0) ∧ ∀ i, Leads plan (chain i) (chain (i + 1)) := by
  constructor
  · rintro ⟨n, hsome⟩ ⟨chain, hfirst, hleads⟩
    obtain ⟨a, hrun⟩ := Option.isSome_iff_exists.mp hsome
    obtain ⟨r, hr⟩ := hfirst.answer hrun
    rw [answers_chain chain hleads n 0] at hr
    contradiction
  · intro hchain
    by_contra hnone
    have hrun (n : Nat) : x.run? (answers plan n) = none := by
      by_contra hsome
      exact hnone ⟨n, Option.isSome_iff_ne_none.mpr hsome⟩
    obtain ⟨first, hfirst, hopen⟩ := exists_unanswered hrun
    -- The chain goes on from each question without an answer to another one.
    have hnext (question : { q // ∀ r, ¬ Answered plan q r }) :
        ∃ other : { q // ∀ r, ¬ Answered plan q r }, Leads plan question.1 other.1 := by
      have hplan (n : Nat) : (plan question.1).run? (answers plan n) = none := by
        by_contra hsome
        obtain ⟨r, hr⟩ := Option.ne_none_iff_exists'.mp hsome
        exact question.2 r ⟨n + 1, hr⟩
      obtain ⟨other, hleads, hother⟩ := exists_unanswered hplan
      exact ⟨⟨other, hother⟩, hleads⟩
    choose next hleads using hnext
    refine hchain ⟨fun i => (next^[i] ⟨first, hopen⟩).1, hfirst, fun i => ?_⟩
    simp only [Function.iterate_succ_apply']
    exact hleads _

end Asking
end Unmask
