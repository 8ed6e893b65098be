/-!
# Prefix trees

A prefix tree holds a value for each of a set of words and finds the longest of the words
that a text begins with.
-/

namespace Scriptlet
namespace Text

/-- A prefix tree: the value of the word that ends here, and a subtree for each character
that a longer word can go on with. -/
inductive Trie (α : Type) where
  | node (value : Option α) (children : List (Char × Trie α))

namespace Trie

variable {α : Type}

/-- The tree without words. -/
def empty : Trie α := .node none []

/-- The subtree that `char` leads to. -/
def child? : Trie α → Char → Option (Trie α)
  | .node _ children, char => (children.find? (·.1 == char)).map (·.2)

/-- Puts `subtree` in the place that `char` leads to. -/
def setChild (children : List (Char × Trie α)) (char : Char) (subtree : Trie α) :
    List (Char × Trie α) :=
  match children with
  | [] => [(char, subtree)]
  | (key, old) :: rest =>
    if key == char then (key, subtree) :: rest else (key, old) :: setChild rest char subtree

/-- Adds a word with its value; a word that is already there gets the new value. -/
def insert (word : List Char) (value : α) (trie : Trie α) : Trie α :=
  match word, trie with
  | [], .node _ children => .node (some value) children
  | char :: rest, .node here children =>
    let subtree := ((Trie.node here children).child? char).getD empty
    .node here (setChild children char (insert rest value subtree))

/-- The tree of a table of words. -/
def ofTable (table : List (String × α)) : Trie α :=
  table.foldl (fun trie entry => trie.insert entry.1.toList entry.2) empty

/-- The value of the longest word that `text` begins with, and the text after it. -/
def longest? : Trie α → List Char → Option (α × List Char)
  | .node value _, [] => value.map (·, [])
  | trie@(.node value _), char :: rest =>
    match trie.child? char with
    | some subtree => (longest? subtree rest).or (value.map (·, char :: rest))
    | none => value.map (·, char :: rest)

/-- The characters at the beginning of `text` that lead through the tree, and the text
after them. -/
def walk : Trie α → List Char → List Char × List Char
  | _, [] => ([], [])
  | trie, char :: rest =>
    match trie.child? char with
    | some subtree =>
      let (walked, after) := walk subtree rest
      (char :: walked, after)
    | none => ([], char :: rest)

end Trie
end Text
end Scriptlet
