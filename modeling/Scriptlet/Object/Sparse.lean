/-!
# Entries by index, in ascending order

A list of entries with at most one entry for each index, the lowest index first. Indices
between them are holes.
-/

namespace Scriptlet

/-- Values by index, in ascending order of the indices. -/
abbrev Sparse (α : Type) := List (Nat × α)

namespace Sparse

variable {α : Type}

/-- The value at an index. -/
def get? (sparse : Sparse α) (index : Nat) : Option α :=
  (sparse.find? (·.1 == index)).map (·.2)

/-- Puts a value at an index. -/
def put : Sparse α → Nat → α → Sparse α
  | [], index, value => [(index, value)]
  | entry :: rest, index, value =>
    if index < entry.1 then (index, value) :: entry :: rest
    else if index = entry.1 then (index, value) :: rest
    else entry :: put rest index value

/-- Leaves a hole at an index. -/
def remove (sparse : Sparse α) (index : Nat) : Sparse α :=
  sparse.eraseP (·.1 == index)

/-- One more than the highest index, or zero if there is none. -/
def length (sparse : Sparse α) : Nat :=
  match sparse.getLast? with
  | some (index, _) => index + 1
  | none => 0

/-- The place after another one, if 32 bits have room for it. -/
def nextPlace? (place : UInt32) : Option UInt32 :=
  if place = 4294967295 then none else some (place + 1)

/-- Adds the items of a list to `entries`, at the places of a count that starts with `place`. An
absent item leaves a hole. The count runs one ahead of the place that is given out, so there
has to be a next one. -/
def numberFrom (entries : Array (Nat × α)) (place : UInt32) : List (Option α) → Option (Sparse α)
  | [] => some entries.toList
  | item :: rest =>
    match nextPlace? place with
    | none => none
    | some next =>
      numberFrom (item.elim entries fun value => entries.push (place.toNat, value)) next rest

/-- The items of a list at the places of a count of 32 bits, unless it overflows. -/
def ofList? (items : List (Option α)) : Option (Sparse α) :=
  numberFrom #[] 0 items

/-- The items of a list at their places, whether 32 bits have room for them or not. -/
def ofList (items : List (Option α)) : Sparse α :=
  items.zipIdx.filterMap fun (item, index) => item.map (index, ·)

theorem numberFrom_eq (entries : Array (Nat × α)) (place : UInt32) (items : List (Option α)) :
    numberFrom entries place items =
      if place.toNat + items.length ≤ 4294967295 then
        some (entries.toList ++
          (items.zipIdx place.toNat).filterMap fun (item, index) => item.map (index, ·))
      else none := by
  induction items generalizing entries place with
  | nil =>
    have below := place.toNat_lt
    simp [numberFrom, Nat.le_of_lt_succ below]
  | cons item rest ih =>
    rw [numberFrom, nextPlace?]
    by_cases last : place = 4294967295
    · have full : place.toNat = 4294967295 := by rw [last]; rfl
      rw [if_pos last, if_neg (by rw [List.length_cons]; omega)]
    · have below := place.toNat_lt
      have notLast : place.toNat ≠ 4294967295 := fun full => last (UInt32.toNat_inj.mp full)
      have next : (place + 1).toNat = place.toNat + 1 := by
        rw [UInt32.toNat_add, UInt32.toNat_one]
        exact Nat.mod_eq_of_lt (by omega)
      simp only [if_neg last, ih, next, List.length_cons, List.zipIdx_cons]
      have sum : place.toNat + 1 + rest.length = place.toNat + (rest.length + 1) := by omega
      rw [sum]
      cases item <;> simp

/-- The count overflows from `2 ^ 32` items on. -/
theorem ofList?_eq (items : List (Option α)) :
    ofList? items = if items.length ≤ 4294967295 then some (ofList items) else none := by
  rw [ofList?, numberFrom_eq]
  simp [ofList]

/-- Every place up to the last entry, after the places of `items`; a hole gives
`absent`. -/
def fillFrom (absent : α) (items : Array α) : Sparse α → Array α
  | [] => items
  | (index, value) :: rest =>
    fillFrom absent
      ((items ++ Array.replicate (index - items.size) absent).push value) rest

/-- Every place up to the last entry; a hole gives `absent`. -/
def toList (sparse : Sparse α) (absent : α) : List α :=
  (fillFrom absent #[] sparse).toList

end Sparse
end Scriptlet
