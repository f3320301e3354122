/-!
# Maps from names

A finite map from names keeps its entries sorted by name, so that equal maps are
equal lists and every listing comes out in order. Names are compared by code
points.
-/

set_option autoImplicit false

namespace Calculator

/-- A finite map from names. -/
structure NameMap (β : Type) where
  /-- The names with their values, in increasing order of the names. -/
  entries : List (String × β)
  sorted : entries.Pairwise fun first second => first.1 < second.1

namespace NameMap

variable {β : Type}

/-- The entries with a name bound anew. -/
def insertEntry (name : String) (value : β) : List (String × β) → List (String × β)
  | [] => [(name, value)]
  | (other, old) :: rest =>
      if name < other then (name, value) :: (other, old) :: rest
      else if name = other then (name, value) :: rest
      else (other, old) :: insertEntry name value rest

private theorem mem_insertEntry {name : String} {value : β} {entries : List (String × β)}
    {entry : String × β} (member : entry ∈ insertEntry name value entries) :
    entry = (name, value) ∨ entry ∈ entries := by
  induction entries with
  | nil => exact Or.inl (List.mem_singleton.mp member)
  | cons head rest ih =>
      obtain ⟨other, old⟩ := head
      unfold insertEntry at member
      split at member
      · exact List.mem_cons.mp member
      · split at member
        · exact (List.mem_cons.mp member).imp id (List.mem_cons_of_mem _)
        · rcases List.mem_cons.mp member with same | inRest
          · exact Or.inr (same ▸ List.mem_cons_self)
          · exact (ih inRest).imp id (List.mem_cons_of_mem _)

private theorem insertEntry_sorted (name : String) (value : β) {entries : List (String × β)}
    (sorted : entries.Pairwise fun first second => first.1 < second.1) :
    (insertEntry name value entries).Pairwise fun first second => first.1 < second.1 := by
  induction entries with
  | nil => exact List.pairwise_singleton _ _
  | cons head rest ih =>
      obtain ⟨other, old⟩ := head
      obtain ⟨below, restSorted⟩ := List.pairwise_cons.mp sorted
      unfold insertEntry
      split
      next smaller =>
        refine List.pairwise_cons.mpr ⟨fun entry member => ?_, sorted⟩
        rcases List.mem_cons.mp member with same | inRest
        · exact same ▸ smaller
        · exact String.lt_trans smaller (below entry inRest)
      next notSmaller =>
        split
        next same => exact List.pairwise_cons.mpr ⟨same ▸ below, restSorted⟩
        next different =>
          refine List.pairwise_cons.mpr ⟨fun entry member => ?_, ih restSorted⟩
          rcases mem_insertEntry member with same | inRest
          · exact same ▸ Std.lt_of_le_of_ne (String.not_lt.mp notSmaller) (Ne.symm different)
          · exact below entry inRest

def empty : NameMap β :=
  ⟨[], List.Pairwise.nil⟩

/-- Binds a name, in place of what it was bound to. -/
def insert (map : NameMap β) (name : String) (value : β) : NameMap β :=
  ⟨insertEntry name value map.entries, insertEntry_sorted name value map.sorted⟩

def erase (map : NameMap β) (name : String) : NameMap β :=
  ⟨map.entries.filter fun entry => entry.1 != name, map.sorted.filter _⟩

/-- The value of a name, if it is bound. -/
def find? (map : NameMap β) (name : String) : Option β :=
  (map.entries.find? fun entry => entry.1 == name).map Prod.snd

/-- The bound names, in order. -/
def names (map : NameMap β) : List String :=
  map.entries.map Prod.fst

/-- Binds the names of a list from left to right: the last value of a name stays. -/
def ofList (entries : List (String × β)) : NameMap β :=
  entries.foldl (fun map entry => map.insert entry.1 entry.2) empty

/-! ## What is found after each operation -/

@[simp]
theorem find?_empty (name : String) : (empty : NameMap β).find? name = none := rfl

private theorem find?_insertEntry (name other : String) (value : β) (entries : List (String × β)) :
    (insertEntry name value entries).find? (fun entry => entry.1 == other) =
      if name = other then some (name, value)
      else entries.find? fun entry => entry.1 == other := by
  induction entries with
  | nil => by_cases same : name = other <;> simp [insertEntry, same]
  | cons head rest ih =>
      obtain ⟨bound, old⟩ := head
      unfold insertEntry
      split
      · by_cases same : name = other <;> simp [same]
      · split
        next found =>
          subst found
          by_cases same : name = other <;> simp [same]
        next different =>
          by_cases same : bound = other
          · subst same
            simp [different]
          · simp [same, ih]

@[simp]
theorem find?_insert (map : NameMap β) (name other : String) (value : β) :
    (map.insert name value).find? other = if name = other then some value else map.find? other := by
  unfold find? insert
  rw [find?_insertEntry]
  split <;> rfl

@[simp]
theorem find?_erase (map : NameMap β) (name other : String) :
    (map.erase name).find? other = if name = other then none else map.find? other := by
  obtain ⟨entries, sorted⟩ := map
  unfold find? erase
  split
  next same =>
    subst same
    simp [List.find?_filter]
  next different =>
    have kept : ∀ entry : String × β,
        decide ((entry.1 != name) = true ∧ (entry.1 == other) = true) = (entry.1 == other) := by
      intro entry
      by_cases same : entry.1 = other
      · simp [same, Ne.symm different]
      · simp [same]
    simp only [List.find?_filter, kept]

theorem mem_names {map : NameMap β} {name : String} :
    name ∈ map.names ↔ (map.find? name).isSome := by
  simp only [names, find?, Option.isSome_map, List.find?_isSome, List.mem_map, beq_iff_eq]

private theorem isSome_find?_foldl_insert (entries : List (String × β)) (map : NameMap β)
    (name : String) :
    ((entries.foldl (fun map entry => map.insert entry.1 entry.2) map).find? name).isSome ↔
      name ∈ entries.map Prod.fst ∨ (map.find? name).isSome := by
  induction entries generalizing map with
  | nil => simp
  | cons entry rest ih =>
      rw [List.foldl_cons, ih, find?_insert, List.map_cons, List.mem_cons]
      by_cases same : entry.1 = name
      · simp [same]
      · simp [same, Ne.symm same]

/-- A list binds the names in it and no others. -/
theorem mem_names_ofList {entries : List (String × β)} {name : String} :
    name ∈ (ofList entries).names ↔ name ∈ entries.map Prod.fst := by
  rw [mem_names, ofList, isSome_find?_foldl_insert]
  simp

/-- The names of a map are in increasing order, so no name is listed twice. -/
theorem names_sorted (map : NameMap β) : map.names.Pairwise (· < ·) :=
  List.pairwise_map.mpr map.sorted

end NameMap

end Calculator
