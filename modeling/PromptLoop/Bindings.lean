set_option autoImplicit false

namespace PromptLoop

abbrev Bindings (α : Type) := List (String × α)

namespace Bindings
variable {α : Type}

def get? (name : String) : Bindings α → Option α
  | [] => none
  | (key, value) :: rest => if key = name then some value else get? name rest

def contains (name : String) (b : Bindings α) : Bool :=
  b.any (·.1 == name)

def names (b : Bindings α) : List String :=
  b.map (·.1)

def insert (name : String) (value : α) : Bindings α → Bindings α
  | [] => [(name, value)]
  | (key, old) :: rest =>
    if key = name then (key, value) :: rest else (key, old) :: insert name value rest

def erase (name : String) (b : Bindings α) : Bindings α :=
  match b.findIdx? (·.1 == name), b.getLast? with
  | some i, some last => (b.set i last).dropLast
  | _, _ => b

def extend (b others : Bindings α) : Bindings α :=
  others.foldl (fun b entry => b.insert entry.1 entry.2) b

/-- The bindings of a list in which a name may stand more than once. -/
def ofList (entries : List (String × α)) : Bindings α :=
  extend [] entries

theorem get?_insert_self (name : String) (value : α) (b : Bindings α) :
    get? name (b.insert name value) = some value := by
  induction b with
  | nil => simp [insert, get?]
  | cons entry rest ih =>
    by_cases h : entry.1 = name <;> simp [insert, get?, h, ih]

theorem get?_insert_of_ne {name other : String} (h : other ≠ name) (value : α) (b : Bindings α) :
    get? other (b.insert name value) = get? other b := by
  induction b with
  | nil => simp [insert, get?, h.symm]
  | cons entry rest ih =>
    by_cases hk : entry.1 = name
    · simp [insert, get?, hk, h.symm]
    · simp [insert, get?, hk, ih]

theorem names_insert (name : String) (value : α) (b : Bindings α) :
    (b.insert name value).names = if name ∈ b.names then b.names else b.names ++ [name] := by
  induction b with
  | nil => simp [insert, names]
  | cons entry rest ih =>
    have ih : List.map (·.1) (insert name value rest) = _ := ih
    by_cases hk : entry.1 = name
    · simp [insert, names, hk]
    · have hk' : name ≠ entry.1 := fun h => hk h.symm
      by_cases hm : name ∈ List.map (·.1) rest <;>
        simp_all [insert, names]

end Bindings
end PromptLoop
