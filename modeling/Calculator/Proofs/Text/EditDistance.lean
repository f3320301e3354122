import Mathlib.Order.Bounds.Defs
import Calculator.Text.EditDistance

/-!
# Edits of one character

The edit distance of two texts is the least number of insertions, deletions and replacements
of one character that lead from the first to the second, in whatever order and over whatever
texts between them.
-/

set_option autoImplicit false

namespace Calculator

/-- One text becomes another by an edit of one character. -/
inductive EditsTo : List Char → List Char → Prop where
  | insert (before : List Char) (character : Char) (after : List Char) :
      EditsTo (before ++ after) (before ++ character :: after)
  | delete (before : List Char) (character : Char) (after : List Char) :
      EditsTo (before ++ character :: after) (before ++ after)
  | replace (before : List Char) (character other : Char) (after : List Char) :
      EditsTo (before ++ character :: after) (before ++ other :: after)

theorem EditsTo.symm {first second : List Char} (edited : EditsTo first second) :
    EditsTo second first := by
  cases edited with
  | insert before character after => exact .delete before character after
  | delete before character after => exact .insert before character after
  | replace before character other after => exact .replace before other character after

private theorem EditsTo.cons {first second : List Char} (edited : EditsTo first second)
    (character : Char) : EditsTo (character :: first) (character :: second) := by
  cases edited with
  | insert before inserted after => exact .insert (character :: before) inserted after
  | delete before deleted after => exact .delete (character :: before) deleted after
  | replace before old new after => exact .replace (character :: before) old new after

/-- One text becomes another by a number of edits. -/
inductive EditsIn : Nat → List Char → List Char → Prop where
  | refl (text : List Char) : EditsIn 0 text text
  | step {count : Nat} {first second last : List Char} :
      EditsTo first second → EditsIn count second last → EditsIn (count + 1) first last

private theorem EditsIn.cons {count : Nat} {first last : List Char}
    (edited : EditsIn count first last)
    (character : Char) : EditsIn count (character :: first) (character :: last) := by
  induction edited with
  | refl text => exact .refl (character :: text)
  | step edit _ ih => exact .step (edit.cons character) ih

private theorem EditsIn.min {first second : Nat} {source target : List Char}
    (one : EditsIn first source target) (other : EditsIn second source target) :
    EditsIn (min first second) source target := by
  rcases Nat.le_total first second with below | above
  · rwa [Nat.min_eq_left below]
  · rwa [Nat.min_eq_right above]

/-! ## The distance by recursion -/

/-- The edit distance of texts given by their characters. -/
def distance (source target : List Char) : Nat :=
  (suffixDistances source target).headD 0

private theorem suffixDistances_tail (source : List Char) (other : Char) (target : List Char) :
    (suffixDistances source (other :: target)).tail = suffixDistances source target := by
  induction source with
  | nil => rfl
  | cons character source ih =>
      change extendDistances character target (suffixDistances source (other :: target)).tail = _
      rw [ih]
      rfl

private theorem distance_nil (target : List Char) : distance [] target = target.length := by
  cases target <;> rfl

private theorem distance_cons_nil (character : Char) (source : List Char) :
    distance (character :: source) [] = distance source [] + 1 := rfl

private theorem distance_cons_cons (character other : Char) (source target : List Char) :
    distance (character :: source) (other :: target) =
      min (distance source target + if character = other then 0 else 1)
        (min (distance source (other :: target) + 1) (distance (character :: source) target + 1)) := by
  have tail := suffixDistances_tail source other target
  change min ((suffixDistances source (other :: target)).tail.headD 0 + _)
    (min _ ((extendDistances character target
      (suffixDistances source (other :: target)).tail).headD 0 + 1)) = _
  rw [tail]
  rfl

/-! ## No edit changes the distance by more than one -/

section OneEdit

variable {first second : List Char}

private theorem distance_cons_le (character : Char) (source target : List Char) :
    distance (character :: source) target ≤ distance source target + 1 := by
  cases target with
  | nil => exact Nat.le_refl _
  | cons other target =>
      rw [distance_cons_cons]
      omega

private theorem distance_le_cons_right (source : List Char) (other : Char) (target : List Char) :
    distance source (other :: target) ≤ distance source target + 1 := by
  cases source with
  | nil => simp [distance_nil]
  | cons character source =>
      rw [distance_cons_cons]
      omega

private theorem distance_le_cons (character : Char) (source target : List Char) :
    distance source target ≤ distance (character :: source) target + 1 := by
  induction target with
  | nil =>
      rw [distance_cons_nil]
      omega
  | cons other target ih =>
      have inserted := distance_le_cons_right source other target
      rw [distance_cons_cons]
      omega

private theorem distance_replace_le (character other : Char) (source target : List Char) :
    distance (character :: source) target ≤ distance (other :: source) target + 1 := by
  induction target with
  | nil =>
      rw [distance_cons_nil, distance_cons_nil]
      omega
  | cons next target ih =>
      rw [distance_cons_cons, distance_cons_cons other]
      split <;> omega

private theorem distance_cons_le_of_le
    (near : ∀ target, distance first target ≤ distance second target + 1)
    (character : Char) (target : List Char) :
    distance (character :: first) target ≤ distance (character :: second) target + 1 := by
  induction target with
  | nil =>
      have without := near []
      rw [distance_cons_nil, distance_cons_nil]
      omega
  | cons other target ih =>
      have both := near target
      have deleted := near (other :: target)
      rw [distance_cons_cons, distance_cons_cons]
      split <;> omega

private theorem distance_append_le_of_le
    (near : ∀ target, distance first target ≤ distance second target + 1)
    (before target : List Char) :
    distance (before ++ first) target ≤ distance (before ++ second) target + 1 := by
  induction before generalizing target with
  | nil => exact near target
  | cons character before ih => exact distance_cons_le_of_le ih character target

private theorem EditsTo.distance_le (edited : EditsTo first second) (target : List Char) :
    distance first target ≤ distance second target + 1 := by
  cases edited with
  | insert before character after =>
      exact distance_append_le_of_le (distance_le_cons character after) before target
  | delete before character after =>
      exact distance_append_le_of_le (distance_cons_le character after) before target
  | replace before character other after =>
      exact distance_append_le_of_le (distance_replace_le character other after) before target

end OneEdit

/-! ## The distance is the least number of edits -/

private theorem distance_self (text : List Char) : distance text text = 0 := by
  induction text with
  | nil => rfl
  | cons character text ih =>
      rw [distance_cons_cons, ih, if_pos rfl]
      omega

private theorem EditsIn.distance_le {count : Nat} {source target : List Char}
    (edited : EditsIn count source target) : distance source target ≤ count := by
  induction edited with
  | refl text => exact Nat.le_of_eq (distance_self text)
  | step edit _ ih => exact Nat.le_trans (edit.distance_le _) (Nat.succ_le_succ ih)

private theorem editsIn_insertAll (target : List Char) : EditsIn target.length [] target := by
  induction target with
  | nil => exact .refl []
  | cons other target ih =>
      exact .step (.insert [] other []) (ih.cons other)

private theorem editsIn_distance (source target : List Char) :
    EditsIn (distance source target) source target := by
  induction source generalizing target with
  | nil =>
      rw [distance_nil]
      exact editsIn_insertAll target
  | cons character source sourceIH =>
      have deleting (target : List Char) :
          EditsIn (distance source target + 1) (character :: source) target :=
        .step (.delete [] character source) (sourceIH target)
      induction target with
      | nil => exact deleting []
      | cons other target targetIH =>
          have inserting : EditsIn (distance (character :: source) target + 1)
              (character :: source) (other :: target) :=
            .step (.insert [] other (character :: source)) (targetIH.cons other)
          have replacing : EditsIn (distance source target + if character = other then 0 else 1)
              (character :: source) (other :: target) := by
            split
            next same =>
              subst same
              exact (sourceIH target).cons character
            next => exact .step (.replace [] character other source) ((sourceIH target).cons other)
          rw [distance_cons_cons]
          exact replacing.min ((deleting (other :: target)).min inserting)

theorem editDistance_isLeast (source target : String) :
    IsLeast {count | EditsIn count source.toList target.toList} (editDistance source target) :=
  ⟨editsIn_distance _ _, fun _ edited => edited.distance_le⟩

theorem distance_lt_two_iff {source target : List Char} :
    distance source target < 2 ↔ source = target ∨ EditsTo source target := by
  constructor
  · intro near
    have edited := editsIn_distance source target
    generalize distance source target = count at near edited
    cases edited with
    | refl => exact .inl rfl
    | step edit rest =>
        cases rest with
        | refl => exact .inr edit
        | step => omega
  · intro close
    rcases close with rfl | edit
    · rw [distance_self]
      exact Nat.two_pos
    · exact Nat.lt_succ_of_le (EditsIn.step edit (.refl target)).distance_le

/-- A distance of less than two is that of a text and what one edit makes of it. -/
theorem editDistance_lt_two_iff {source target : String} :
    editDistance source target < 2 ↔
      source = target ∨ EditsTo source.toList target.toList := by
  rw [← String.toList_inj]
  exact distance_lt_two_iff

example : editDistance "kitten" "sitting" = 3 := by decide

end Calculator
