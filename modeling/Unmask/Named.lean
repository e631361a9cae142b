/-!
# Things by name

Rows of things with names, in the order in which the names first came up. Putting a thing under a
name replaces what is there and keeps its place. Looking a name up then gives the thing for this
name and what it gave before for every other (`lookup_put`), and the row of names grows by a name
that was not in it (`names_put`).
-/
namespace Unmask

abbrev Named (α : Type) := List (String × α)

namespace Named

variable {α : Type}

/-- Replaces what is under a name, or adds a thing at the end. -/
def put (row : Named α) (name : String) (a : α) : Named α :=
  match row with
  | [] => [(name, a)]
  | (n, old) :: rest => if n == name then (name, a) :: rest else (n, old) :: put rest name a

def names (row : Named α) : List String := row.map Prod.fst

theorem lookup_entry (n : String) (a : α) (rest : Named α) (name : String) :
    List.lookup name ((n, a) :: rest) = if name = n then some a else rest.lookup name := by
  by_cases h : name = n
  · simp [h]
  · simp [List.lookup_cons, beq_false_of_ne h, h]

theorem lookup_put (row : Named α) (name : String) (a : α) (other : String) :
    (row.put name a).lookup other = if other = name then some a else row.lookup other := by
  induction row with
  | nil => simp [put, lookup_entry]
  | cons entry rest ih =>
    obtain ⟨n, old⟩ := entry
    by_cases hn : n = name <;> by_cases h : other = n <;> simp_all [put, lookup_entry]

theorem names_put (row : Named α) (name : String) (a : α) :
    (row.put name a).names = if name ∈ row.names then row.names else row.names ++ [name] := by
  induction row with
  | nil => simp [put, names]
  | cons entry rest ih =>
    obtain ⟨n, old⟩ := entry
    by_cases hn : n = name <;> grind [put, names]

end Named
end Unmask
