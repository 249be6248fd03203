import MeteredScript.Value

/-!
Associations in insertion order, of the keys of a map with values or of names with what they stand
for. What is stored under a key that is there keeps its place; a new key goes to the end.
-/

namespace MeteredScript.Entries

def put {κ α : Type} [DecidableEq κ] (k : κ) (v : α) : List (κ × α) → List (κ × α)
  | [] => [(k, v)]
  | (k', w) :: rest => if k' = k then (k, v) :: rest else (k', w) :: put k v rest

def erase (k : Key) (pairs : List (Key × Value)) : List (Key × Value) :=
  pairs.eraseP (·.1 = k)

def keys (pairs : List (Key × Value)) : List Key := pairs.map (·.1)

/-- Adds a key to the group of another, which is opened at the end if it is new. -/
def addToGroup (group : Key) (member : Value) : List (Key × List Value) → List (Key × List Value)
  | [] => [(group, [member])]
  | (g, members) :: rest =>
    if g = group then (g, members ++ [member]) :: rest
    else (g, members) :: addToGroup group member rest

/-- For each key of a value, in order of its first occurrence, the keys that hold it. -/
def inverseGroups (pairs : List (Key × Value)) : Except Fault (List (Key × List Value)) :=
  pairs.foldlM (fun groups (k, v) => return addToGroup (← Key.ofValue v) k.toValue groups) []

theorem keys_put_of_mem {k : Key} {v : Value} {pairs : List (Key × Value)} (h : k ∈ keys pairs) :
    keys (put k v pairs) = keys pairs := by
  induction pairs with
  | nil => simp [keys] at h
  | cons p rest ih =>
    obtain ⟨k', w⟩ := p
    by_cases hk : k' = k
    · simp [put, keys, hk]
    · have hr : k ∈ keys rest := by simpa [keys, Ne.symm hk] using h
      have := ih hr
      simp_all [put, keys]

theorem keys_put_of_not_mem {k : Key} {v : Value} {pairs : List (Key × Value)}
    (h : k ∉ keys pairs) : keys (put k v pairs) = keys pairs ++ [k] := by
  induction pairs with
  | nil => rfl
  | cons p rest ih =>
    obtain ⟨k', w⟩ := p
    have hk : ¬ k' = k := fun e => h (by simp [keys, e])
    have hr : k ∉ keys rest := fun e => h (by simp [keys] at e ⊢; exact .inr e)
    have := ih hr
    simp_all [put, keys]

end MeteredScript.Entries
