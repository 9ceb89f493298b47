/-!
# Tables by name

A table maps names to values and lists them in increasing order of the names.
-/

namespace BankedMemory

abbrev Table (α : Type) := List (String × α)

namespace Table

variable {α : Type}

def get? (table : Table α) (name : String) : Option α := table.lookup name

/-- Sets the value of a name, in the place that the order gives it. -/
def put (name : String) (value : α) : Table α → Table α
  | [] => [(name, value)]
  | entry :: rest =>
    if name = entry.1 then (name, value) :: rest
    else if name < entry.1 then (name, value) :: entry :: rest
    else entry :: put name value rest

/-- Later entries win over earlier ones of the same name. -/
def ofList (entries : List (String × α)) : Table α :=
  entries.foldl (fun table entry => table.put entry.1 entry.2) []

theorem get?_cons (name : String) (entry : String × α) (rest : Table α) :
    get? (entry :: rest) name = if name = entry.1 then some entry.2 else get? rest name := by
  unfold get?
  rw [show entry = (entry.1, entry.2) from rfl, List.lookup_cons]
  by_cases h : name = entry.1
  · simp [h]
  · simp [h, beq_eq_false_iff_ne.mpr h]

theorem get?_put_self (name : String) (value : α) (table : Table α) :
    (put name value table).get? name = some value := by
  induction table with
  | nil => simp [put, get?_cons]
  | cons entry rest ih =>
    unfold put
    split
    · simp [get?_cons]
    · split
      · simp [get?_cons]
      · simp_all [get?_cons]

theorem get?_put_of_ne {name other : String} (h : other ≠ name) (value : α) (table : Table α) :
    (put name value table).get? other = table.get? other := by
  induction table with
  | nil => simp [put, get?_cons, h]
  | cons entry rest ih =>
    unfold put
    split
    · rename_i heq
      simp [get?_cons, h, ← heq]
    · split
      · simp [get?_cons, h]
      · simp [get?_cons, ih]

end Table

end BankedMemory
