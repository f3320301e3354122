import Calculator.Text.Blank
import Calculator.Token.Lexer

/-!
# Blanks around texts

What is left of a text without the blanks at its ends, and where a text is split at its
first separator. Names have no blanks in them.
-/

set_option autoImplicit false

namespace Calculator

variable {text : List Char}

/-! ## Removal at both ends -/

/-- No blank stands at either end of a text. -/
structure Trimmed (text : List Char) : Prop where
  head : ∀ character ∈ text.head?, isBlank character = false
  last : ∀ character ∈ text.getLast?, isBlank character = false

private theorem trimStart_eq_self (head : ∀ character ∈ text.head?, isBlank character = false) :
    trimStart text = text := by
  cases text with
  | nil => rfl
  | cons first rest => exact List.dropWhile_cons_of_neg (by simp [head first rfl])

private theorem trimEnd_eq_reverse (text : List Char) :
    trimEnd text = (trimStart text.reverse).reverse :=
  rfl

private theorem trimEnd_eq_self (last : ∀ character ∈ text.getLast?, isBlank character = false) :
    trimEnd text = text := by
  rw [trimEnd_eq_reverse, trimStart_eq_self, List.reverse_reverse]
  intro character member
  rw [List.head?_reverse] at member
  exact last character member

theorem Trimmed.trim_eq (trimmed : Trimmed text) : trim text = text := by
  rw [trim, trimStart_eq_self trimmed.head, trimEnd_eq_self trimmed.last]

private theorem head?_trimStart (text : List Char) :
    ∀ character ∈ (trimStart text).head?, isBlank character = false := by
  intro character member
  have stops := List.head?_dropWhile_not isBlank text
  rwa [show (text.dropWhile isBlank).head? = some character from member] at stops

private theorem getLast?_trimEnd (text : List Char) :
    ∀ character ∈ (trimEnd text).getLast?, isBlank character = false := by
  intro character member
  rw [trimEnd_eq_reverse, List.getLast?_reverse] at member
  exact head?_trimStart _ character member

private theorem trimEnd_prefix (text : List Char) : trimEnd text <+: text := by
  have suffix : (trimStart text.reverse).reverse.reverse <:+ text.reverse := by
    rw [List.reverse_reverse]
    exact List.dropWhile_suffix isBlank
  exact List.reverse_suffix.mp suffix

/-- What is left without the blanks at the end begins as the text does. -/
theorem mem_head?_of_trimEnd {character : Char} (member : character ∈ (trimEnd text).head?) :
    character ∈ text.head? := by
  obtain ⟨removed, same⟩ := trimEnd_prefix text
  rw [← same, List.head?_append, member]
  rfl

theorem mem_head?_of_trim {first character : Char} (begins : first ∈ text.head?)
    (noBlank : isBlank first = false) (member : character ∈ (trim text).head?) :
    character = first := by
  rw [trim, trimStart_eq_self] at member
  · cases begins.symm.trans (mem_head?_of_trimEnd member)
    rfl
  · intro other otherBegins
    cases begins.symm.trans otherBegins
    exact noBlank

theorem trimmed_trim (text : List Char) : Trimmed (trim text) where
  head _ member := head?_trimStart text _ (mem_head?_of_trimEnd member)
  last := getLast?_trimEnd _

@[simp]
theorem trim_trim (text : List Char) : trim (trim text) = trim text :=
  (trimmed_trim text).trim_eq

/-- Nothing but the blanks around a text is removed. -/
theorem Trimmed.trim_surrounded (trimmed : Trimmed text) {before after : List Char}
    (blankBefore : before.all isBlank = true) (blankAfter : after.all isBlank = true) :
    trim (before ++ (text ++ after)) = text := by
  have dropped {blanks : List Char} (blank : blanks.all isBlank = true) (rest : List Char) :
      trimStart (blanks ++ rest) = trimStart rest :=
    List.dropWhile_append_of_pos (List.all_eq_true.mp blank)
  have blankReverse : after.reverse.all isBlank = true := by rwa [List.all_reverse]
  rw [trim, dropped blankBefore]
  cases text with
  | nil =>
      have none := dropped blankAfter []
      rw [List.append_nil] at none
      rw [List.nil_append, none]
      rfl
  | cons first rest =>
      have head : trimStart (first :: rest ++ after) = first :: rest ++ after :=
        trimStart_eq_self trimmed.head
      rw [head, trimEnd_eq_reverse, List.reverse_append, dropped blankReverse,
        ← trimEnd_eq_reverse, trimEnd_eq_self trimmed.last]

theorem exists_blanks_around (text : List Char) :
    ∃ before after, text = before ++ (trim text ++ after) ∧
      before.all isBlank = true ∧ after.all isBlank = true := by
  refine ⟨text.takeWhile isBlank, ((trimStart text).reverse.takeWhile isBlank).reverse, ?_,
    List.all_takeWhile, ?_⟩
  · rw [trim, trimEnd, ← List.reverse_append, List.takeWhile_append_dropWhile,
      List.reverse_reverse, trimStart, List.takeWhile_append_dropWhile]
  · rw [List.all_reverse]
    exact List.all_takeWhile

theorem trim_surrounded {before after : List Char} (blankBefore : before.all isBlank = true)
    (blankAfter : after.all isBlank = true) (text : List Char) :
    trim (before ++ (text ++ after)) = trim text := by
  obtain ⟨front, back, same, blankFront, blankBack⟩ := exists_blanks_around text
  have whole : before ++ (text ++ after) =
      (before ++ front) ++ (trim text ++ (back ++ after)) := by
    rw [List.append_assoc, ← List.append_assoc (trim text), ← List.append_assoc front, ← same]
  rw [whole]
  apply (trimmed_trim text).trim_surrounded
  · rw [List.all_append, blankBefore, blankFront, Bool.and_self]
  · rw [List.all_append, blankBack, blankAfter, Bool.and_self]

theorem trim_eq_nil_iff : trim text = [] ↔ text.all isBlank = true := by
  constructor
  · intro empty
    obtain ⟨before, after, same, blankBefore, blankAfter⟩ := exists_blanks_around text
    rw [same, empty, List.nil_append, List.all_append, blankBefore, blankAfter, Bool.and_self]
  · intro blank
    have all := trim_surrounded blank (show ([] : List Char).all isBlank = true from rfl) []
    rwa [List.append_nil, List.append_nil] at all

theorem isInfix_trim (text : List Char) : trim text <:+: text := by
  obtain ⟨before, after, same, -⟩ := exists_blanks_around text
  exact ⟨before, after, by rw [List.append_assoc, ← same]⟩

theorem Trimmed.of_forall (noBlank : ∀ character ∈ text, isBlank character = false) :
    Trimmed text where
  head character member := noBlank character (List.mem_of_mem_head? member)
  last character member := noBlank character (List.mem_of_mem_getLast? member)

/-- Whatever stands between two texts, no blank stands at their other ends. -/
theorem Trimmed.around {front back : List Char} (frontTrimmed : Trimmed front)
    (frontNonempty : front ≠ []) (backTrimmed : Trimmed back) (backNonempty : back ≠ [])
    (between : List Char) : Trimmed (front ++ (between ++ back)) where
  head character member := by
    rw [List.head?_append, Option.or_of_isSome (List.isSome_head?.mpr frontNonempty)] at member
    exact frontTrimmed.head character member
  last character member := by
    rw [← List.append_assoc, List.getLast?_append,
      Option.or_of_isSome (List.getLast?_isSome.mpr backNonempty)] at member
    exact backTrimmed.last character member

/-! ## The first separator -/

theorem splitFirst?_append {separates : Char → Bool} {before : List Char} {separator : Char}
    (none : ∀ character ∈ before, separates character = false)
    (separating : separates separator = true) (after : List Char) :
    splitFirst? separates (before ++ separator :: after) = some (before, after) := by
  induction before with
  | nil => rw [List.nil_append, splitFirst?, if_pos separating]
  | cons first rest ih =>
      obtain ⟨head, tail⟩ := List.forall_mem_cons.mp none
      rw [List.cons_append, splitFirst?, if_neg (by simp [head]), ih tail]
      rfl

theorem splitFirst?_eq_none_iff {separates : Char → Bool} :
    splitFirst? separates text = none ↔ ∀ character ∈ text, separates character = false := by
  induction text with
  | nil => simp [splitFirst?]
  | cons first rest ih =>
      rw [splitFirst?, List.forall_mem_cons, ← ih]
      cases separates first with
      | true => simp
      | false => simp

theorem splitFirst?_beq_eq_none_iff {separator : Char} :
    splitFirst? (· == separator) text = none ↔ separator ∉ text := by
  rw [splitFirst?_eq_none_iff]
  constructor
  · intro free member
    have apart := free separator member
    rw [beq_self_eq_true] at apart
    cases apart
  · intro absent character member
    apply beq_false_of_ne
    intro same
    subst same
    exact absent member

theorem splitFirst?_eq_some {separates : Char → Bool} {before after : List Char}
    (split : splitFirst? separates text = some (before, after)) :
    ∃ separator, separates separator = true ∧ text = before ++ separator :: after := by
  induction text generalizing before with
  | nil => cases split
  | cons first rest ih =>
      rw [splitFirst?] at split
      by_cases separating : separates first = true
      · rw [if_pos separating] at split
        cases split
        exact ⟨first, separating, rfl⟩
      · rw [if_neg separating] at split
        obtain ⟨⟨front, back⟩, found, same⟩ := Option.map_eq_some_iff.mp split
        cases same
        obtain ⟨separator, separating, rfl⟩ := ih found
        exact ⟨separator, separating, rfl⟩

theorem splitFirst_suffix (separates : Char → Bool) (text : List Char) :
    (splitFirst separates text).2 <:+ text := by
  rw [splitFirst]
  cases split : splitFirst? separates text with
  | none => exact List.nil_suffix
  | some parts =>
      obtain ⟨before, after⟩ := parts
      obtain ⟨separator, -, rfl⟩ := splitFirst?_eq_some split
      exact ⟨before ++ [separator], by simp⟩

/-! ## Names -/

/-- The code points of ASCII digits, letters and the underscore. -/
theorem toNat_of_isNameRest {character : Char} (isRest : isNameRest character = true) :
    48 ≤ character.toNat ∧ character.toNat ≤ 122 := by
  have between (first last : Char)
      (inside : first.val ≤ character.val ∧ character.val ≤ last.val) :
      first.toNat ≤ character.toNat ∧ character.toNat ≤ last.toNat :=
    ⟨UInt32.le_iff_toNat_le.mp inside.1, UInt32.le_iff_toNat_le.mp inside.2⟩
  have codes : 'A'.toNat = 65 ∧ 'Z'.toNat = 90 ∧ 'a'.toNat = 97 ∧ 'z'.toNat = 122 ∧
      '0'.toNat = 48 ∧ '9'.toNat = 57 ∧ '_'.toNat = 95 := by decide
  rcases Bool.or_eq_true_iff.mp isRest with alphanumeric | underscore
  · rcases Bool.or_eq_true_iff.mp alphanumeric with letter | digit
    · rcases Bool.or_eq_true_iff.mp letter with upper | lower
      · have bounds := between 'A' 'Z' (of_decide_eq_true upper)
        omega
      · obtain ⟨above, below⟩ := Bool.and_eq_true_iff.mp lower
        have bounds := between 'a' 'z' ⟨of_decide_eq_true above, of_decide_eq_true below⟩
        omega
    · have bounds := Char.isDigit_iff_toNat.mp digit
      omega
  · cases beq_iff_eq.mp underscore
    omega

theorem isBlank_of_isNameRest {character : Char} (isRest : isNameRest character = true) :
    isBlank character = false := by
  obtain ⟨above, below⟩ := toNat_of_isNameRest isRest
  have outside (range : Nat × Nat) (member : range ∈ blankRanges) :
      character.toNat < range.1 ∨ range.2 < character.toNat := by
    simp only [blankRanges, List.mem_cons, List.not_mem_nil, or_false] at member
    rcases member with rfl | rfl | rfl | rfl | rfl | rfl | rfl | rfl | rfl | rfl <;>
      simp only <;> omega
  simp only [isBlank, List.any_eq_false, Bool.and_eq_true, decide_eq_true_eq, not_and, Nat.not_le]
  intro range member
  have apart := outside range member
  omega

end Calculator
