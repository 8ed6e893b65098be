import Mathlib.Data.List.Nodup
import Mathlib.Tactic.Common
import Scriptlet.Proofs.Keys
import Scriptlet.Store

/-!
# Canonical objects

What the two parts of every object keep to, whatever is put in and taken out: no name is
written like an index, no name is there twice, and the indices ascend below their bound.
-/

namespace Scriptlet

/-! ## Entries by name -/

namespace Dict

variable {α : Type} {dict : Dict α} {name : String} {value : α}

theorem mem_put {entry : String × α} (member : entry ∈ dict.put name value) :
    entry = (name, value) ∨ entry ∈ dict := by
  induction dict with
  | nil => exact .inl (List.mem_singleton.mp member)
  | cons first rest ih =>
    unfold put at member
    split at member
    · rcases List.mem_cons.mp member with isNew | old
      · exact .inl isNew
      · exact .inr (List.mem_cons_of_mem first old)
    · rcases List.mem_cons.mp member with isFirst | later
      · exact .inr (isFirst ▸ List.mem_cons_self)
      · exact (ih later).imp_right (List.mem_cons_of_mem first)

/-- Putting a name keeps the names in their places. A new name goes to the end. -/
theorem names_put (dict : Dict α) (name : String) (value : α) :
    (dict.put name value).map (·.1) =
      if name ∈ dict.map (·.1) then dict.map (·.1) else dict.map (·.1) ++ [name] := by
  induction dict with
  | nil => rfl
  | cons first rest ih =>
    unfold put
    by_cases same : first.1 = name
    · simp [same]
    · have different : ¬ name = first.1 := fun equal => same equal.symm
      simp only [beq_iff_eq, same, if_false, List.map_cons, List.mem_cons, different, false_or, ih]
      split <;> rfl

theorem isSome_get?_iff : (dict.get? name).isSome = true ↔ name ∈ dict.map (·.1) := by
  simp [get?, List.find?_isSome]

theorem get?_put (dict : Dict α) (name other : String) (value : α) :
    (dict.put name value).get? other = if other = name then some value else dict.get? other := by
  induction dict with
  | nil =>
    by_cases same : other = name
    · simp [put, get?, same]
    · simp [put, get?, same, Ne.symm same]
  | cons first rest ih =>
    unfold put
    by_cases here : first.1 = name
    · by_cases same : other = name
      · simp [get?, here, same]
      · simp [get?, here, same, Ne.symm same]
    · by_cases isFirst : first.1 = other
      · have different : ¬ other = name := fun equal => here (isFirst.trans equal)
        simp [get?, isFirst, different]
      · simpa [get?, here, isFirst] using ih

theorem nodup_put (once : (dict.map (·.1)).Nodup) (name : String) (value : α) :
    ((dict.put name value).map (·.1)).Nodup := by
  rw [names_put]
  split
  · exact once
  · next new =>
    rw [← List.concat_eq_append]
    exact List.Nodup.concat new once

end Dict

/-! ## Entries by index -/

namespace Sparse

variable {α : Type} {sparse : Sparse α} {index : Nat} {value : α}

theorem mem_put {entry : Nat × α} (member : entry ∈ sparse.put index value) :
    entry = (index, value) ∨ entry ∈ sparse := by
  induction sparse with
  | nil => exact .inl (List.mem_singleton.mp member)
  | cons first rest ih =>
    unfold put at member
    split at member
    · exact List.mem_cons.mp member
    · split at member
      · rcases List.mem_cons.mp member with isNew | old
        · exact .inl isNew
        · exact .inr (List.mem_cons_of_mem first old)
      · rcases List.mem_cons.mp member with isFirst | later
        · exact .inr (isFirst ▸ List.mem_cons_self)
        · exact (ih later).imp_right (List.mem_cons_of_mem first)

theorem get?_put (sparse : Sparse α) (index other : Nat) (value : α) :
    (sparse.put index value).get? other =
      if other = index then some value else sparse.get? other := by
  induction sparse with
  | nil =>
    by_cases same : other = index
    · simp [put, get?, same]
    · simp [put, get?, same, Ne.symm same]
  | cons first rest ih =>
    unfold put
    split
    · by_cases same : other = index
      · simp [get?, same]
      · simp [get?, same, Ne.symm same]
    · split
      · next here =>
        by_cases same : other = index
        · simp [get?, same]
        · simp [get?, same, ← here, Ne.symm same]
      · next above here =>
        by_cases isFirst : first.1 = other
        · have different : ¬ other = index := fun equal => here (equal.symm.trans isFirst.symm)
          simp [get?, isFirst, different]
        · simpa [get?, isFirst] using ih

theorem ascending_put (ascending : sparse.Pairwise fun one next => one.1 < next.1) (index : Nat)
    (value : α) : (sparse.put index value).Pairwise fun one next => one.1 < next.1 := by
  induction sparse with
  | nil => exact List.pairwise_singleton _ _
  | cons first rest ih =>
    obtain ⟨above, later⟩ := List.pairwise_cons.mp ascending
    unfold put
    split
    · next before =>
      refine List.pairwise_cons.mpr ⟨fun entry member => ?_, ascending⟩
      rcases List.mem_cons.mp member with rfl | old
      · exact before
      · exact Nat.lt_trans before (above entry old)
    · split
      · next same => exact List.pairwise_cons.mpr ⟨fun entry old => same ▸ above entry old, later⟩
      · refine List.pairwise_cons.mpr ⟨fun entry member => ?_, ih later⟩
        rcases mem_put member with rfl | old
        · show first.1 < index
          omega
        · exact above entry old

/-- The last entry has the highest index. -/
theorem length_spec (ascending : sparse.Pairwise fun one next => one.1 < next.1) :
    (∀ entry ∈ sparse, entry.1 < sparse.length) ∧
      (sparse.length = 0 ∨ ∃ entry ∈ sparse, sparse.length = entry.1 + 1) := by
  unfold length
  cases isLast : sparse.getLast? with
  | none =>
    rw [List.getLast?_eq_none_iff.mp isLast]
    exact ⟨List.forall_mem_nil _, .inl rfl⟩
  | some last =>
    obtain ⟨before, rfl⟩ := List.getLast?_eq_some_iff.mp isLast
    obtain ⟨-, -, below⟩ := List.pairwise_append.mp ascending
    refine ⟨fun entry member => ?_, .inr ⟨last, List.mem_concat_self, rfl⟩⟩
    rcases List.mem_append.mp member with early | isLast
    · exact Nat.lt_succ_of_lt (below entry early last (List.mem_singleton_self last))
    · rw [List.mem_singleton.mp isLast]
      exact Nat.lt_succ_self last.1

/-- In ascending order, the rest only counts if there is one. -/
theorem length_cons {rest : Sparse α} (above : ∀ entry ∈ rest, index < entry.1) :
    Sparse.length ((index, value) :: rest) = max (index + 1) (Sparse.length rest) := by
  cases isLast : rest.getLast? with
  | none =>
    rw [List.getLast?_eq_none_iff.mp isLast]
    simp [Sparse.length]
  | some last =>
    have higher := above last (List.mem_of_getLast? isLast)
    simp [Sparse.length, List.getLast?_cons, isLast]
    omega

theorem get?_cons (index other : Nat) (value : α) (rest : Sparse α) :
    Sparse.get? ((index, value) :: rest) other =
      if index = other then some value else rest.get? other := by
  by_cases same : index = other
  · simp [get?, same]
  · simp [get?, same]

theorem get?_of_le (above : ∀ entry ∈ sparse, index < entry.1) {other : Nat}
    (le : other ≤ index) : sparse.get? other = none := by
  have absent : sparse.find? (·.1 == other) = none := by
    rw [List.find?_eq_none]
    intro entry member same
    have higher := above entry member
    rw [beq_iff_eq] at same
    omega
  rw [get?, absent]
  rfl

/-- What is at every index from `next` on, up to the last entry. -/
def contentsFrom (sparse : Sparse α) (next : Nat) : List (Option α) :=
  (List.range' next (sparse.length - next)).map sparse.get?

theorem contentsFrom_nil (next : Nat) : contentsFrom ([] : Sparse α) next = [] := by
  simp [contentsFrom, Sparse.length]

/-- Up to the first entry there are holes, and behind it there is the rest. -/
theorem contentsFrom_cons {rest : Sparse α} (above : ∀ entry ∈ rest, index < entry.1) {next : Nat}
    (le : next ≤ index) :
    contentsFrom ((index, value) :: rest) next =
      List.replicate (index - next) none ++ some value :: rest.contentsFrom (index + 1) := by
  have count : Sparse.length ((index, value) :: rest) - next =
      (index - next) + (rest.length - (index + 1) + 1) := by
    rw [length_cons above]
    omega
  have cut : List.range' next (Sparse.length ((index, value) :: rest) - next) =
      List.range' next (index - next) ++
        index :: List.range' (index + 1) (rest.length - (index + 1)) := by
    rw [count, ← List.range'_append_1, Nat.add_sub_cancel' le, List.range'_succ]
  have holes : (List.range' next (index - next)).map (Sparse.get? ((index, value) :: rest)) =
      List.replicate (index - next) none := by
    rw [List.map_eq_replicate_iff.mpr, List.length_range']
    intro other member
    have below := (List.mem_range'_1.mp member).2
    rw [get?_cons, if_neg (by omega), get?_of_le above (by omega)]
  have others : (List.range' (index + 1) (rest.length - (index + 1))).map
      (Sparse.get? ((index, value) :: rest)) = rest.contentsFrom (index + 1) := by
    refine List.map_congr_left fun other member => ?_
    have higher := (List.mem_range'_1.mp member).1
    rw [get?_cons, if_neg (by omega)]
  rw [contentsFrom, cut, List.map_append, holes, List.map_cons, others, get?_cons, if_pos rfl]

theorem mem_ofList_iff {items : List (Option α)} :
    (index, value) ∈ ofList items ↔ items[index]? = some (some value) := by
  unfold ofList
  simp only [List.mem_filterMap, Prod.exists, List.mk_mem_zipIdx_iff_getElem?]
  constructor
  · rintro ⟨item, place, found, made⟩
    obtain ⟨_, rfl, same⟩ := Option.map_eq_some_iff.mp made
    cases same
    exact found
  · intro found
    exact ⟨some value, index, found, rfl⟩

theorem lt_length_of_mem_ofList {items : List (Option α)} {entry : Nat × α}
    (member : entry ∈ ofList items) : entry.1 < items.length := by
  obtain ⟨index, value⟩ := entry
  exact (List.getElem?_eq_some_iff.mp (mem_ofList_iff.mp member)).1

theorem ascending_ofList (items : List (Option α)) :
    (ofList items).Pairwise fun one next => one.1 < next.1 := by
  have places : items.zipIdx.Pairwise fun one next => one.2 < next.2 := by
    rw [← List.pairwise_map, List.zipIdx_map_snd]
    exact List.pairwise_lt_range'
  refine List.pairwise_filterMap.mpr (places.imp ?_)
  intro one next before first isFirst second isSecond
  obtain ⟨_, -, rfl⟩ := Option.map_eq_some_iff.mp isFirst
  obtain ⟨_, -, rfl⟩ := Option.map_eq_some_iff.mp isSecond
  exact before

end Sparse

/-! ## Looking up -/

/-- Where each key is there once, looking a key up finds its entry. -/
theorem find?_key_eq_some_iff {κ α : Type} [BEq κ] [LawfulBEq κ] {entries : List (κ × α)}
    (once : (entries.map (·.1)).Nodup) {key : κ} {value : α} :
    (entries.find? (·.1 == key)).map (·.2) = some value ↔ (key, value) ∈ entries := by
  constructor
  · intro found
    obtain ⟨⟨other, _⟩, isEntry, rfl⟩ := Option.map_eq_some_iff.mp found
    have same : (other == key) = true := by simpa using List.find?_some isEntry
    rw [← eq_of_beq same]
    exact List.mem_of_find?_eq_some isEntry
  · intro member
    induction entries with
    | nil => cases member
    | cons first rest ih =>
      obtain ⟨new, later⟩ := List.nodup_cons.mp once
      rcases List.mem_cons.mp member with rfl | member
      · simp
      · have other : first.1 ≠ key := by
          rintro rfl
          exact new (List.mem_map.mpr ⟨_, member, rfl⟩)
        have skips : (first :: rest).find? (·.1 == key) = rest.find? (·.1 == key) := by
          simp [other]
        rw [skips]
        exact ih later member

/-- Where each key is there once, a key that was taken out is not found, and every other key is
found as before. -/
theorem find?_key_eraseP {κ α : Type} [DecidableEq κ] {entries : List (κ × α)}
    (once : (entries.map (·.1)).Nodup) (key other : κ) :
    ((entries.eraseP (·.1 == key)).find? (·.1 == other)).map (·.2) =
      if other = key then none else (entries.find? (·.1 == other)).map (·.2) := by
  induction entries with
  | nil => simp
  | cons first rest ih =>
    obtain ⟨new, later⟩ := List.nodup_cons.mp once
    by_cases here : first.1 = key
    · rw [List.eraseP_cons_of_pos (by simpa using here)]
      by_cases same : other = key
      · have gone : rest.find? (·.1 == other) = none := by
          rw [List.find?_eq_none]
          intro entry member isOther
          have isFirst : entry.1 = first.1 := by
            rw [here, ← same]
            simpa using isOther
          exact new (List.mem_map.mpr ⟨entry, member, isFirst⟩)
        rw [if_pos same, gone, Option.map_none]
      · simp [same, here, Ne.symm same]
    · rw [List.eraseP_cons_of_neg (by simpa using here)]
      by_cases isFirst : first.1 = other
      · have different : ¬ other = key := fun equal => here (isFirst.trans equal)
        simp [isFirst, different]
      · simpa [isFirst] using ih later

/-! ## Objects -/

namespace Object

/-- The property that was set has the new value, and every other one is as before. -/
theorem get?_set (object : Object) (key other : String) (value : Value) :
    (object.set key value).get? other = if other = key then some value else object.get? other := by
  unfold set get?
  simp only [← Key.ofText_injective.eq_iff (a := other)]
  cases Key.ofText key with
  | index index =>
    cases Key.ofText other with
    | index place => simp [getKey?, Sparse.get?_put]
    | name name => simp [getKey?]
  | name name =>
    cases Key.ofText other with
    | index place => simp [getKey?]
    | name text => simp [getKey?, Dict.get?_put]

theorem takeEntry_eq {κ : Type} [BEq κ] (entries : List (κ × Value)) (key : κ) :
    takeEntry entries key =
      ((entries.find? (·.1 == key)).map (·.2), entries.eraseP (·.1 == key)) := by
  induction entries with
  | nil => rfl
  | cons first rest ih =>
    unfold takeEntry
    by_cases here : (first.1 == key) = true
    · simp [here]
    · simp [here, ih]

/-- Taking a property out gives the value that it had. -/
theorem takeOut_eq (object : Object) (key : String) :
    object.takeOut key = (object.get? key, object.remove key) := by
  unfold takeOut remove get?
  cases Key.ofText key <;> simp only [takeEntry_eq] <;> rfl

end Object

/-- What every object keeps to: a key that is written like an index is no name, each name is
there once, and indices ascend and are at most `2 ^ 32 - 2`. -/
structure Object.Canonical (object : Object) : Prop where
  names : ∀ entry ∈ object.named, ∀ index, Key.ofText entry.1 ≠ .index index
  once : (object.named.map (·.1)).Nodup
  indices : ∀ entry ∈ object.indexed, entry.1 ≤ 4294967294
  ascending : object.indexed.Pairwise fun one next => one.1 < next.1

namespace Object.Canonical

theorem empty : Object.empty.Canonical :=
  ⟨List.forall_mem_nil _, List.nodup_nil, List.forall_mem_nil _, List.Pairwise.nil⟩

theorem ofElements {items : List (Option Value)} (few : items.length ≤ Key.indexBound) :
    (Object.ofElements items).Canonical where
  names := List.forall_mem_nil _
  once := List.nodup_nil
  indices entry member := by
    have inside := Sparse.lt_length_of_mem_ofList member
    unfold Key.indexBound at few
    omega
  ascending := Sparse.ascending_ofList items

theorem set {object : Object} (canonical : object.Canonical) (key : String) (value : Value) :
    (object.set key value).Canonical := by
  unfold Object.set
  split
  · next index isIndex =>
    have below := Key.lt_of_ofText isIndex
    unfold Key.indexBound at below
    refine ⟨canonical.names, canonical.once, fun entry member => ?_,
      Sparse.ascending_put canonical.ascending index value⟩
    rcases Sparse.mem_put member with rfl | old
    · show index ≤ 4294967294
      omega
    · exact canonical.indices entry old
  · next name isName =>
    refine ⟨fun entry member index isIndex => ?_, Dict.nodup_put canonical.once name value,
      canonical.indices, canonical.ascending⟩
    rcases Dict.mem_put member with rfl | old
    · -- the name that was put is the key itself, which was found to be a name
      rw [← Key.eq_of_ofText isName, isName] at isIndex
      cases isIndex
    · exact canonical.names entry old index isIndex

theorem remove {object : Object} (canonical : object.Canonical) (key : String) :
    (object.remove key).Canonical := by
  unfold Object.remove
  split
  · exact ⟨canonical.names, canonical.once,
      fun entry member => canonical.indices entry (List.mem_of_mem_eraseP member),
      canonical.ascending.sublist List.eraseP_sublist⟩
  · exact ⟨fun entry member => canonical.names entry (List.mem_of_mem_eraseP member),
      canonical.once.sublist (List.eraseP_sublist.map _), canonical.indices, canonical.ascending⟩

theorem merge {object : Object} (canonical : object.Canonical) (source : Object) :
    (object.merge source).Canonical := by
  unfold Object.merge
  generalize source.entries = entries
  induction entries generalizing object with
  | nil => exact canonical
  | cons first rest ih => exact ih (canonical.set _ _)

theorem nodup_indices {object : Object} (canonical : object.Canonical) :
    (object.indexed.map (·.1)).Nodup :=
  List.pairwise_map.mpr (canonical.ascending.imp Nat.ne_of_lt)

/-- No key is there twice, be it an index or a name. -/
theorem nodup_keys {object : Object} (canonical : object.Canonical) :
    (object.entries.map (·.1)).Nodup := by
  have keys : object.entries.map (·.1) =
      (object.indexed.map (·.1)).map .index ++ (object.named.map (·.1)).map .name := by
    simp [Object.entries, Function.comp_def]
  rw [keys]
  refine List.Nodup.append (canonical.nodup_indices.map fun _ _ => Key.index.inj)
    (canonical.once.map fun _ _ => Key.name.inj) fun key isIndex isName => ?_
  obtain ⟨_, -, rfl⟩ := List.mem_map.mp isIndex
  obtain ⟨_, -, same⟩ := List.mem_map.mp isName
  cases same

theorem getKey?_eq_some_iff {object : Object} (canonical : object.Canonical) {key : Key}
    {value : Value} : object.getKey? key = some value ↔ (key, value) ∈ object.entries := by
  cases key with
  | index index =>
    refine (find?_key_eq_some_iff canonical.nodup_indices).trans ?_
    simp [Object.entries]
  | name name =>
    refine (find?_key_eq_some_iff canonical.once).trans ?_
    simp [Object.entries]

/-- A property that was taken out is not there, and every other one is as before. -/
theorem get?_remove {object : Object} (canonical : object.Canonical) (key other : String) :
    (object.remove key).get? other = if other = key then none else object.get? other := by
  unfold Object.remove Object.get?
  simp only [← Key.ofText_injective.eq_iff (a := other)]
  cases Key.ofText key with
  | index index =>
    cases Key.ofText other with
    | index place =>
      simpa [Object.getKey?, Sparse.get?, Sparse.remove] using
        find?_key_eraseP canonical.nodup_indices index place
    | name name => simp [Object.getKey?]
  | name name =>
    cases Key.ofText other with
    | index place => simp [Object.getKey?]
    | name text =>
      simpa [Object.getKey?, Dict.get?, Dict.remove] using
        find?_key_eraseP canonical.once name text

theorem index_mem_iff {object : Object} (canonical : object.Canonical) {index : Nat}
    {value : Value} :
    (index, value) ∈ object.indexed ↔
      index < Key.indexBound ∧ object.get? (toString index) = some value := by
  have found : object.getKey? (.index index) = some value ↔ (index, value) ∈ object.indexed :=
    find?_key_eq_some_iff canonical.nodup_indices
  constructor
  · intro member
    have below : index < Key.indexBound := Nat.lt_succ_of_le (canonical.indices _ member)
    exact ⟨below, by rwa [Object.get?, Key.ofText_toString below, found]⟩
  · rintro ⟨below, isValue⟩
    rwa [Object.get?, Key.ofText_toString below, found] at isValue

theorem name_mem_iff {object : Object} (canonical : object.Canonical) {name : String}
    {value : Value} :
    (name, value) ∈ object.named ↔
      (∀ index < Key.indexBound, name ≠ toString index) ∧ object.get? name = some value := by
  have found : object.getKey? (.name name) = some value ↔ (name, value) ∈ object.named :=
    find?_key_eq_some_iff canonical.once
  constructor
  · intro member
    have isName : Key.ofText name = .name name := by
      cases shape : Key.ofText name with
      | index index => exact absurd shape (canonical.names _ member index)
      | name text => rw [← Key.eq_of_ofText shape]
    refine ⟨fun index below same => ?_, by rwa [Object.get?, isName, found]⟩
    rw [same, Key.ofText_toString below] at isName
    cases isName
  · rintro ⟨apart, isValue⟩
    cases shape : Key.ofText name with
    | index index =>
      obtain ⟨below, same⟩ := Key.ofText_eq_index_iff.mp shape
      exact absurd same (apart index below)
    | name text =>
      rw [Object.get?, shape, ← Key.eq_of_ofText shape, found] at isValue
      exact isValue

theorem isSome_getKey?_iff {object : Object} (canonical : object.Canonical) {key : Key} :
    (object.getKey? key).isSome = true ↔ key ∈ object.entries.map (·.1) := by
  simp [Option.isSome_iff_exists, canonical.getKey?_eq_some_iff]

end Object.Canonical

/-- Whether all objects and arrays of a store are canonical. -/
def Store.Canonical (store : Store) : Prop :=
  ∀ id, (store.objectAt id).Canonical

/-! ## Lengths -/

/-- Whether a number is one more than the highest index that is there, or zero if there is no
index. -/
structure Object.IsLength (present : String → Prop) (length : Nat) : Prop where
  above : ∀ index < Key.indexBound, present (toString index) → index < length
  reached : length = 0 ∨
    ∃ index < Key.indexBound, present (toString index) ∧ length = index + 1

/-- Indices are low enough for the count to have one more. -/
theorem Object.length_eq {object : Object}
    (ascending : object.indexed.Pairwise fun one next => one.1 < next.1)
    (indices : ∀ entry ∈ object.indexed, entry.1 ≤ 4294967294) :
    object.length = object.indexed.length := by
  obtain ⟨-, reached⟩ := Sparse.length_spec ascending
  unfold Object.length
  rcases reached with none | ⟨entry, member, one⟩
  · omega
  · have low := indices entry member
    omega

theorem Object.Canonical.isLength {object : Object} (canonical : object.Canonical) :
    Object.IsLength (fun key => (object.get? key).isSome) object.length := by
  obtain ⟨above, reached⟩ := Sparse.length_spec canonical.ascending
  rw [Object.length_eq canonical.ascending canonical.indices]
  constructor
  · intro index below present
    obtain ⟨value, isValue⟩ := Option.isSome_iff_exists.mp present
    exact above (index, value) (canonical.index_mem_iff.mpr ⟨below, isValue⟩)
  · refine reached.imp_right ?_
    rintro ⟨⟨index, value⟩, member, one⟩
    obtain ⟨below, isValue⟩ := canonical.index_mem_iff.mp member
    exact ⟨index, below, Option.isSome_iff_exists.mpr ⟨value, isValue⟩, one⟩

end Scriptlet
