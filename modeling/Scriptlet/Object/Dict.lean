/-!
# Entries by name, in the order of their arrival

A list of entries with at most one entry for each name. Putting a name that is there
replaces its value in place; a new name goes to the end.
-/

namespace Scriptlet

/-- Values by name, in the order in which the names arrived. -/
abbrev Dict (α : Type) := List (String × α)

namespace Dict

variable {α : Type}

/-- The value of a name. -/
def get? (dict : Dict α) (name : String) : Option α :=
  (dict.find? (·.1 == name)).map (·.2)

/-- Gives a name a value. -/
def put : Dict α → String → α → Dict α
  | [], name, value => [(name, value)]
  | entry :: rest, name, value =>
    if entry.1 == name then (name, value) :: rest else entry :: put rest name value

/-- Takes a name out. -/
def remove (dict : Dict α) (name : String) : Dict α :=
  dict.eraseP (·.1 == name)

end Dict
end Scriptlet
