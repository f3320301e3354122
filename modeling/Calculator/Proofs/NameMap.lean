import Calculator.NameMap

/-!
# Maps by what is found in them

The entries of a map are what can be found in it, so maps in which the same is found are
equal, and a map is made again from its entries in any order.
-/

set_option autoImplicit false

namespace Calculator

namespace NameMap

variable {β : Type} {entries : List (String × β)} {name : String} {value : β}

private theorem find?_entries_of_mem (distinct : (entries.map Prod.fst).Nodup)
    (member : (name, value) ∈ entries) :
    entries.find? (fun entry => entry.1 == name) = some (name, value) := by
  induction entries with
  | nil => cases member
  | cons head rest ih =>
      rw [List.map_cons, List.nodup_cons] at distinct
      rcases List.mem_cons.mp member with rfl | inRest
      · simp
      · have different : head.1 ≠ name := by
          intro same
          exact distinct.1 (same ▸ List.mem_map_of_mem inRest)
        rw [List.find?_cons_of_neg (by simpa using different)]
        exact ih distinct.2 inRest

private theorem nodup_names (map : NameMap β) : (map.entries.map Prod.fst).Nodup := by
  apply map.names_sorted.imp
  intro first second below same
  subst same
  exact String.lt_irrefl first below

private theorem nodup_entries (map : NameMap β) : map.entries.Nodup := by
  apply map.sorted.imp
  intro first second below same
  subst same
  exact String.lt_irrefl first.1 below

theorem mem_entries_iff {map : NameMap β} :
    (name, value) ∈ map.entries ↔ map.find? name = some value := by
  constructor
  · intro member
    rw [find?, find?_entries_of_mem map.nodup_names member]
    rfl
  · intro found
    obtain ⟨entry, inEntries, rfl⟩ := Option.map_eq_some_iff.mp found
    have same : entry.1 = name := by simpa using List.find?_some inEntries
    subst same
    exact List.mem_of_find?_eq_some inEntries

/-- A listing is sorted into the increasing order of its keys, whatever order it has. -/
theorem mergeSort_eq_of_perm {γ : Type} {key : γ → String} {listing sorted : List γ}
    (perm : listing.Perm sorted)
    (increasing : sorted.Pairwise fun first second => key first < key second) :
    listing.mergeSort (fun first second => key first ≤ key second) = sorted := by
  have samePerm :=
    (List.mergeSort_perm listing fun first second => key first ≤ key second).trans perm
  have ordered : (listing.mergeSort fun first second => key first ≤ key second).Pairwise
      fun first second => decide (key first ≤ key second) = true := by
    refine List.pairwise_mergeSort ?_ ?_ listing
    · intro first second third below above
      simp only [decide_eq_true_eq] at below above ⊢
      exact String.le_trans below above
    · intro first second
      simpa using String.le_total (key first) (key second)
  -- The keys are distinct, so in the sorted listing each is less than the ones after it.
  have distinct : sorted.Pairwise fun first second => key first ≠ key second :=
    increasing.imp String.ne_of_lt
  have distinctSorted := (samePerm.pairwise_iff fun different => different.symm).mpr distinct
  refine samePerm.eq_of_pairwise ?_ (ordered.and distinctSorted) (increasing.imp ?_)
  · intro first second _ _ below above
    exact absurd (String.le_antisymm (of_decide_eq_true below.1) (of_decide_eq_true above.1)) below.2
  · intro first second below
    exact ⟨decide_eq_true (Std.le_of_lt below), String.ne_of_lt below⟩

/-- Maps that bind the same names list them in the same order. -/
theorem names_eq_of_mem {first second : NameMap β}
    (same : ∀ name, name ∈ first.names ↔ name ∈ second.names) : first.names = second.names := by
  have perm : first.names.Perm second.names :=
    (List.perm_ext_iff_of_nodup first.nodup_names second.nodup_names).mpr same
  refine perm.eq_of_pairwise ?_ first.names_sorted second.names_sorted
  intro one other _ _ below above
  exact absurd (String.lt_trans below above) (String.lt_irrefl one)

/-- Maps in which the same is found are equal. -/
theorem ext_find? {first second : NameMap β}
    (same : ∀ name value, first.find? name = some value ↔ second.find? name = some value) :
    first = second := by
  have members (entry : String × β) : entry ∈ first.entries ↔ entry ∈ second.entries := by
    obtain ⟨name, value⟩ := entry
    rw [mem_entries_iff, mem_entries_iff, same]
  have perm : first.entries.Perm second.entries :=
    (List.perm_ext_iff_of_nodup first.nodup_entries second.nodup_entries).mpr members
  have equal : first.entries = second.entries := by
    refine perm.eq_of_pairwise ?_ first.sorted second.sorted
    intro one other _ _ below above
    exact absurd (String.lt_trans below above) (String.lt_irrefl one.1)
  obtain ⟨_, _⟩ := first
  obtain ⟨_, _⟩ := second
  cases equal
  rfl

private theorem find?_foldl_insert (distinct : (entries.map Prod.fst).Nodup) (map : NameMap β) :
    (entries.foldl (fun map entry => map.insert entry.1 entry.2) map).find? name = some value ↔
      (name, value) ∈ entries ∨
        name ∉ entries.map Prod.fst ∧ map.find? name = some value := by
  induction entries generalizing map with
  | nil => simp
  | cons head rest ih =>
      obtain ⟨bound, old⟩ := head
      rw [List.map_cons, List.nodup_cons] at distinct
      rw [List.foldl_cons, ih distinct.2, find?_insert]
      by_cases same : bound = name
      · subst same
        have notTwice : (bound, value) ∉ rest := by
          intro member
          exact distinct.1 (List.mem_map.mpr ⟨_, member, rfl⟩)
        simp [distinct.1, notTwice, eq_comm]
      · simp [same, Ne.symm same]

/-- A map is made of its entries, in whatever order they are bound. -/
theorem ofList_eq_of_perm {map : NameMap β} (perm : entries.Perm map.entries) :
    ofList entries = map := by
  have distinct : (entries.map Prod.fst).Nodup := (perm.map Prod.fst).nodup_iff.mpr map.nodup_names
  apply ext_find?
  intro name value
  rw [ofList, find?_foldl_insert distinct, perm.mem_iff, mem_entries_iff]
  simp

end NameMap

end Calculator
