import Mathlib.Algebra.GroupWithZero.Nat
import Scriptlet.Proofs.Canonical
import Scriptlet.Store.Display

/-!
# Elements and holes in the text of an array

The text of an array is a row of segments. A segment is an element or a run of holes, and together
the segments account for every index below the length once: an element for its own index, a run
for as many indices as it says. The runs are as long as they can be, for each one stands right
before an element and begins at the start or right after an element.

* `segments`: the segments of an array, read off its entries;
* `Accounts`: what it means that segments account for every index;
* `checkedTexts`: the same loop on words of 32 bits, which stops where a difference or a
  successor leaves them.
-/

namespace Scriptlet

/-! ## Segments -/

/-- A segment of the text of an array: an element with its index, or a run of holes. -/
inductive Segment where
  | element (index : Nat) (value : Value)
  | holes (count : Nat)

namespace Segment

/-- A segment as text. -/
def text (written : Value → String) : Segment → String
  | .element _ value => written value
  | .holes count => holesText count

/-- What is at the indices that a segment accounts for. -/
def contents : Segment → List (Option Value)
  | .element _ value => [some value]
  | .holes count => List.replicate count none

/-- The entry that a segment shows. -/
def stored? : Segment → Option (Nat × Value)
  | .element index value => some (index, value)
  | .holes _ => none

@[simp] theorem stored?_element (index : Nat) (value : Value) :
    (element index value).stored? = some (index, value) := rfl

@[simp] theorem stored?_holes (count : Nat) : (holes count).stored? = none := rfl

/-- How many holes a segment stands for. -/
def holeCount : Segment → Nat
  | .element _ _ => 0
  | .holes count => count

/-- How many indices a segment accounts for. -/
def width : Segment → Nat
  | .element _ _ => 1
  | .holes count => count

/-- Every index that segments account for has an element or is a hole. -/
theorem length_contents (row : List Segment) :
    (row.flatMap contents).length =
      (row.filterMap stored?).length + (row.map holeCount).sum := by
  induction row with
  | nil => rfl
  | cons first rest ih =>
    rw [List.flatMap_cons, List.length_append, ih]
    cases first with
    | element index value =>
      simp [contents, holeCount]
      omega
    | holes count =>
      rw [List.filterMap_cons_none (stored?_holes count)]
      simp [contents, holeCount]
      omega

end Segment

/-- The holes from index `next` up to, but not including, another index. -/
def gap (next index : Nat) : List Segment :=
  if next < index then [.holes (index - next)] else []

/-- The segments of an array from index `next` on. -/
def segments : Nat → Sparse Value → List Segment
  | _, [] => []
  | next, (index, value) :: rest =>
    gap next index ++ .element index value :: segments (index + 1) rest

theorem elementTexts_eq_map_segments (written : Value → String) (next : Nat)
    (sparse : Sparse Value) :
    elementTexts written next sparse = (segments next sparse).map (Segment.text written) := by
  induction sparse generalizing next with
  | nil => rfl
  | cons entry rest ih =>
    obtain ⟨index, value⟩ := entry
    simp only [elementTexts, segments, gap, ih]
    split <;> rfl

/-! ## Gaps -/

section

variable {next index count : Nat} {value : Value} {front back row : List Segment}

theorem contents_gap (next index : Nat) :
    (gap next index).flatMap Segment.contents = List.replicate (index - next) none := by
  unfold gap
  split
  · simp [Segment.contents]
  · next above =>
    rw [Nat.sub_eq_zero_of_le (Nat.le_of_not_lt above)]
    rfl

theorem width_gap (next index : Nat) :
    ((gap next index).map Segment.width).sum = index - next := by
  unfold gap
  split
  · simp [Segment.width]
  · next above =>
    rw [Nat.sub_eq_zero_of_le (Nat.le_of_not_lt above)]
    rfl

theorem filterMap_gap (next index : Nat) : (gap next index).filterMap Segment.stored? = [] := by
  unfold gap
  split <;> rfl

/-- An element in a row that begins with a gap and an element is that one or comes later. -/
theorem element_after_gap {at_ : Nat} {there : Value}
    (split : gap next index ++ .element index value :: row = front ++ .element at_ there :: back) :
    front = gap next index ∧ at_ = index ∨
      ∃ later, front = gap next index ++ .element index value :: later ∧
        row = later ++ .element at_ there :: back := by
  rcases List.append_eq_append_iff.mp split with ⟨more, isFront, tail⟩ | ⟨more, isGap, tail⟩
  · cases more with
    | nil =>
      obtain ⟨same, -⟩ := List.cons.inj tail
      cases same
      exact .inl ⟨by simpa using isFront, rfl⟩
    | cons first later =>
      obtain ⟨rfl, isRow⟩ := List.cons.inj tail
      exact .inr ⟨later, isFront, isRow⟩
  · cases more with
    | nil =>
      obtain ⟨same, -⟩ := List.cons.inj tail
      cases same
      exact .inl ⟨by simpa using isGap.symm, rfl⟩
    | cons first later =>
      -- a gap has no elements
      obtain ⟨rfl, -⟩ := List.cons.inj tail
      have none := filterMap_gap next index
      rw [isGap] at none
      simp at none

/-- A run in a row that begins with a gap and an element is the gap or comes later. -/
theorem holes_after_gap
    (split : gap next index ++ .element index value :: row = front ++ .holes count :: back) :
    next < index ∧ count = index - next ∧ back = .element index value :: row ∨
      ∃ later, row = later ++ .holes count :: back := by
  unfold gap at split
  split at split
  · next below =>
    cases front with
    | nil =>
      obtain ⟨same, isBack⟩ := List.cons.inj split
      cases same
      exact .inl ⟨below, rfl, isBack.symm⟩
    | cons first front =>
      have tail := (List.cons.inj split).2
      cases front with
      | nil => cases (List.cons.inj tail).1
      | cons second front => exact .inr ⟨front, (List.cons.inj tail).2⟩
  · cases front with
    | nil => cases (List.cons.inj split).1
    | cons first front => exact .inr ⟨front, (List.cons.inj split).2⟩

end

/-! ## What segments account for -/

/-- Whether segments account for every index of an array below its length, for each of them
once. -/
structure Accounts (object : Object) (row : List Segment) : Prop where
  /-- Written out, the segments are what the array has at each index. -/
  contents : row.flatMap Segment.contents =
    (List.range object.length).map fun index => object.getKey? (.index index)
  /-- The elements are those of the array, in ascending order. -/
  elements : row.filterMap Segment.stored? = object.indexed
  ascending : (row.filterMap Segment.stored?).Pairwise fun one next => one.1 < next.1
  /-- The segments before an element account for as many indices as its own says. -/
  places : ∀ front index value back, row = front ++ .element index value :: back →
    (front.map Segment.width).sum = index
  /-- A run is not empty, and an element follows it, neither another run nor the end. -/
  runs : ∀ front count back, row = front ++ .holes count :: back →
    0 < count ∧ ∃ index value rest, back = .element index value :: rest
  /-- Elements side by side are adjacent. -/
  adjacent : ∀ front index value index' value' back,
    row = front ++ .element index value :: .element index' value' :: back → index' = index + 1
  /-- Elements with a run between them are as far apart as it says. -/
  apart : ∀ front index value count index' value' back,
    row = front ++ .element index value :: .holes count :: .element index' value' :: back →
    index' = index + 1 + count
  total : (row.filterMap Segment.stored?).length + (row.map Segment.holeCount).sum = object.length

section

variable {sparse : Sparse Value} {next : Nat}

theorem filterMap_segments (next : Nat) (sparse : Sparse Value) :
    (segments next sparse).filterMap Segment.stored? = sparse := by
  induction sparse generalizing next with
  | nil => rfl
  | cons entry rest ih =>
    obtain ⟨index, value⟩ := entry
    simp [segments, filterMap_gap, ih]

/-- The segments from an index on, written out, are what the array has from that index on. -/
theorem contents_segments (ascending : sparse.Pairwise fun one next => one.1 < next.1)
    (start : ∀ entry ∈ sparse, next ≤ entry.1) :
    (segments next sparse).flatMap Segment.contents = sparse.contentsFrom next := by
  induction sparse generalizing next with
  | nil => exact (Sparse.contentsFrom_nil next).symm
  | cons entry rest ih =>
    obtain ⟨index, value⟩ := entry
    obtain ⟨above, ascending⟩ := List.pairwise_cons.mp ascending
    have le : next ≤ index := start _ List.mem_cons_self
    have later : (segments (index + 1) rest).flatMap Segment.contents =
        Sparse.contentsFrom rest (index + 1) := ih ascending above
    rw [segments, List.flatMap_append, contents_gap, List.flatMap_cons, later,
      Sparse.contentsFrom_cons above le]
    rfl

/-- The segments before an element account for the indices below its own. -/
theorem places_segments (ascending : sparse.Pairwise fun one next => one.1 < next.1)
    (start : ∀ entry ∈ sparse, next ≤ entry.1) {front back : List Segment} {index : Nat}
    {value : Value} (split : segments next sparse = front ++ .element index value :: back) :
    next + (front.map Segment.width).sum = index := by
  induction sparse generalizing next front with
  | nil => simp [segments] at split
  | cons entry rest ih =>
    obtain ⟨first, there⟩ := entry
    obtain ⟨above, ascending⟩ := List.pairwise_cons.mp ascending
    have le : next ≤ first := start _ List.mem_cons_self
    rcases element_after_gap split with ⟨rfl, rfl⟩ | ⟨later, rfl, isLater⟩
    · rw [width_gap]
      omega
    · have sum : first + 1 + (later.map Segment.width).sum = index := ih ascending above isLater
      simp only [List.map_append, List.map_cons, List.sum_append, List.sum_cons, width_gap,
        Segment.width]
      omega

/-- A run is not empty and stands before an element. -/
theorem runs_segments {front back : List Segment} {count : Nat}
    (split : segments next sparse = front ++ .holes count :: back) :
    0 < count ∧ ∃ index value rest, back = .element index value :: rest := by
  induction sparse generalizing next front with
  | nil => simp [segments] at split
  | cons entry rest ih =>
    obtain ⟨first, there⟩ := entry
    rcases holes_after_gap split with ⟨below, rfl, rfl⟩ | ⟨later, isLater⟩
    · exact ⟨Nat.sub_pos_of_lt below, first, there, _, rfl⟩
    · exact ih isLater

/-- The segments of an array whose indices ascend below their bound account for every index. -/
theorem accounts_segments {object : Object}
    (ascending : object.indexed.Pairwise fun one next => one.1 < next.1)
    (indices : ∀ entry ∈ object.indexed, entry.1 ≤ 4294967294) :
    Accounts object (segments 0 object.indexed) := by
  have start : ∀ entry ∈ object.indexed, 0 ≤ entry.1 := fun _ _ => Nat.zero_le _
  have elements := filterMap_segments 0 object.indexed
  have contents : (segments 0 object.indexed).flatMap Segment.contents =
      (List.range object.length).map fun index => object.getKey? (.index index) := by
    rw [contents_segments ascending start, Object.length_eq ascending indices,
      Sparse.contentsFrom, Nat.sub_zero, ← List.range_eq_range']
    rfl
  have places {front back : List Segment} {index : Nat} {value : Value}
      (split : segments 0 object.indexed = front ++ .element index value :: back) :
      (front.map Segment.width).sum = index := by
    have sum := places_segments ascending start split
    omega
  refine ⟨contents, elements, elements.symm ▸ ascending, fun _ _ _ _ => places,
    fun _ _ _ => runs_segments, ?_, ?_, ?_⟩
  · intro front index value index' value' back split
    have here := places split
    rw [List.append_cons] at split
    have next := places split
    simp only [List.map_append, List.sum_append, here] at next
    exact next.symm
  · intro front index value count index' value' back split
    have here := places split
    rw [List.append_cons, List.append_cons] at split
    have next := places split
    simp only [List.map_append, List.sum_append, here] at next
    exact next.symm
  · rw [← Segment.length_contents, contents, List.length_map, List.length_range]

end

/-! ## The loop on words of 32 bits -/

namespace Word

/-- The difference of two words, unless it is below zero. -/
def difference? (word less : UInt32) : Option UInt32 :=
  if less ≤ word then some (word - less) else none

/-- The word after a word, unless there is none. -/
def successor? (word : UInt32) : Option UInt32 :=
  if word = 4294967295 then none else some (word + 1)

theorem toNat_ofNat {index : Nat} (low : index ≤ 4294967295) :
    (UInt32.ofNat index).toNat = index :=
  UInt32.toNat_ofNat_of_lt' (Nat.lt_succ_of_le low)

theorem successor?_ofNat {index : Nat} (below : index ≤ 4294967294) :
    successor? (UInt32.ofNat index) = some (UInt32.ofNat (index + 1)) := by
  have different : UInt32.ofNat index ≠ 4294967295 := by
    intro same
    have values := congrArg UInt32.toNat same
    rw [toNat_ofNat (Nat.le_succ_of_le below)] at values
    have last : (4294967295 : UInt32).toNat = 4294967295 := rfl
    omega
  rw [successor?, if_neg different, UInt32.ofNat_add]
  rfl

end Word

/-- The elements of an array from index `next` on, with all indices in words of 32 bits. There
is no text if a difference or a successor leaves the words. -/
def checkedTexts (written : Value → String) :
    UInt32 → List (UInt32 × Value) → Option (List String)
  | _, [] => some []
  | next, (index, value) :: rest => do
    let holes ←
      if next < index then (Word.difference? index next).map fun count => [holesText count.toNat]
      else some []
    let following ← Word.successor? index
    let texts ← checkedTexts written following rest
    return holes ++ written value :: texts

/-- The indices of entries as words. -/
def wordEntries (sparse : Sparse Value) : List (UInt32 × Value) :=
  sparse.map fun (index, value) => (UInt32.ofNat index, value)

/-- Words are enough: no difference and no successor leaves them. -/
theorem checkedTexts_eq_some (written : Value → String) {sparse : Sparse Value} {next : Nat}
    (indices : ∀ entry ∈ sparse, entry.1 ≤ 4294967294) (low : next ≤ 4294967295) :
    checkedTexts written (UInt32.ofNat next) (wordEntries sparse) =
      some (elementTexts written next sparse) := by
  induction sparse generalizing next with
  | nil => rfl
  | cons entry rest ih =>
    obtain ⟨index, value⟩ := entry
    have below : index ≤ 4294967294 := indices _ List.mem_cons_self
    have later : checkedTexts written (UInt32.ofNat (index + 1)) (wordEntries rest) =
        some (elementTexts written (index + 1) rest) :=
      ih (fun entry member => indices entry (List.mem_cons_of_mem _ member))
        (Nat.succ_le_succ below)
    have toNat_next := Word.toNat_ofNat low
    have toNat_index := Word.toNat_ofNat (Nat.le_succ_of_le below)
    have less : UInt32.ofNat next < UInt32.ofNat index ↔ next < index := by
      rw [UInt32.lt_iff_toNat_lt, toNat_next, toNat_index]
    show checkedTexts written _ ((UInt32.ofNat index, value) :: wordEntries rest) = _
    simp only [checkedTexts, elementTexts, less, Word.successor?_ofNat below,
      Option.bind_eq_bind, Option.bind_some, later]
    split
    · next gapped =>
      have ordered : UInt32.ofNat next ≤ UInt32.ofNat index := by
        rw [UInt32.le_iff_toNat_le, toNat_next, toNat_index]
        omega
      have count : (UInt32.ofNat index - UInt32.ofNat next).toNat = index - next := by
        rw [UInt32.toNat_sub_of_le _ _ ordered, toNat_next, toNat_index]
      rw [Word.difference?, if_pos ordered, Option.map_some, Option.bind_some, count]
      rfl
    · rfl

/-! ## Arrays as text -/

/-- The text of an array accounts for every index below the length once. It has the elements in
ascending order, a run of holes exactly where they are not adjacent, and then the other
properties. The indices stay in words of 32 bits on the way. -/
theorem arrays_account_for_indices {object : Object}
    (ascending : object.indexed.Pairwise fun one next => one.1 < next.1)
    (indices : ∀ entry ∈ object.indexed, entry.1 ≤ 4294967294) :
    (∀ written : Value → String,
      (∃ row, Accounts object row ∧
        object.displayArray written =
          if object.isEmpty then "[]"
          else "[ " ++ String.intercalate ", "
            (row.map (Segment.text written) ++
              object.named.map fun (name, value) => name ++ ": " ++ written value) ++ " ]") ∧
        checkedTexts written 0 (wordEntries object.indexed) =
          some (elementTexts written 0 object.indexed)) ∧
      ∀ (store : Store) (id : ObjectId), store.objectAt id = object →
        store.display (.array id) =
          object.displayArray (store.displayNested store.objects.size [id]) := by
  refine ⟨fun written => ⟨⟨segments 0 object.indexed, ?_, ?_⟩, ?_⟩, ?_⟩
  · exact accounts_segments ascending indices
  · rw [Object.displayArray, elementTexts_eq_map_segments]
    rfl
  · exact checkedTexts_eq_some written indices (Nat.zero_le _)
  · rintro store id rfl
    rfl

/-- An array with holes at its start and an element at the last index there is. -/
def farArray : Object :=
  ⟨[(2, .null), (3, .boolean true), (4294967294, .null)], [("size", .boolean false)]⟩

/-- The first two indices and those up to the last one are runs; there is none between two
elements that are adjacent, and none at the end. -/
theorem farArray_accounted :
    (farArray.indexed.Pairwise fun one next => one.1 < next.1) ∧
      (∀ entry ∈ farArray.indexed, entry.1 ≤ 4294967294) ∧
      (∃ row, Accounts farArray row ∧ 3 + (row.map Segment.holeCount).sum = 4294967295) ∧
      (Store.empty.addObject farArray).display (.array 0) =
        "[ <2 empty items>, null, true, <4294967290 empty items>, null, size: false ]" := by
  have ascending : farArray.indexed.Pairwise fun one next => one.1 < next.1 := by
    decide +kernel
  have indices : ∀ entry ∈ farArray.indexed, entry.1 ≤ 4294967294 := by
    decide +kernel
  obtain ⟨texts, -⟩ := arrays_account_for_indices ascending indices
  obtain ⟨⟨row, accounts, -⟩, -⟩ := texts fun _ => ""
  refine ⟨ascending, indices, ⟨row, accounts, ?_⟩, by decide +kernel⟩
  have total := accounts.total
  rw [accounts.elements] at total
  exact total

end Scriptlet
