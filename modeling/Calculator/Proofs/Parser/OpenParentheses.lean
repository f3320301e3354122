import Calculator.Expr.Reading
import Calculator.Expr.Text
import Calculator.Proofs.Number.Numeral

/-!
# Parentheses in written expressions

How many parentheses are open before each parenthesis of a text, and what that says
about the depth of the expression that the text writes.
-/

set_option autoImplicit false

namespace Calculator

/-- Each opening parenthesis of a text stands inside of fewer than `levels` others. -/
def OpensWithin (levels : Nat) (text : List Char) : Prop :=
  ∀ before after : List Char, text = before ++ '(' :: after →
    before.count '(' < levels + before.count ')'

/-- What a text holds before the first parenthesis that stands inside of `levels`
others. -/
structure BeforeTooDeep (levels : Nat) (text before : List Char) : Prop where
  opens : ∃ after : List Char, text = before ++ '(' :: after
  inside : before.count '(' = levels + before.count ')'
  first : OpensWithin levels before

/-- Every parenthesis of a text is closed in it. -/
def Balanced (text : List Char) : Prop :=
  text.count '(' = text.count ')'

namespace OpensWithin

variable {levels : Nat} {text front back : List Char}

private theorem of_not_mem (none : '(' ∉ text) : OpensWithin levels text := by
  intro before after split
  subst split
  exact absurd (List.mem_append_right before List.mem_cons_self) none

private theorem enclosed (within : OpensWithin levels text) :
    OpensWithin (levels + 1) ('(' :: text) := by
  intro before after split
  cases before with
  | nil => exact Nat.succ_pos _
  | cons first before =>
      obtain ⟨rfl, textSplit⟩ := List.cons.inj split
      have inside := within before after textSplit
      rw [List.count_cons_self, List.count_cons_of_ne (by decide)]
      omega

private theorem append (frontWithin : OpensWithin levels front) (balanced : Balanced front)
    (backWithin : OpensWithin levels back) : OpensWithin levels (front ++ back) := by
  intro before after split
  rcases List.append_eq_append_iff.mp split with ⟨middle, rfl, back⟩ | ⟨middle, front, opens⟩
  · have inside := backWithin middle after back
    rw [List.count_append, List.count_append, show front.count '(' = front.count ')' from balanced]
    omega
  · cases middle with
    | nil =>
        have inside := backWithin [] after opens.symm
        rw [List.append_nil] at front
        rw [← front, show List.count _ _ = _ from balanced]
        rw [List.count_nil, List.count_nil] at inside
        omega
    | cons next middle =>
        obtain ⟨rfl, _⟩ := List.cons.inj opens
        exact frontWithin before middle front

end OpensWithin

namespace BeforeTooDeep

variable {levels : Nat} {text before : List Char}

theorem here (after : List Char) : BeforeTooDeep 0 ('(' :: after) [] :=
  ⟨⟨after, rfl⟩, rfl, .of_not_mem List.not_mem_nil⟩

theorem enclosed (deep : BeforeTooDeep levels text before) :
    BeforeTooDeep (levels + 1) ('(' :: text) ('(' :: before) := by
  obtain ⟨⟨after, rfl⟩, inside, first⟩ := deep
  refine ⟨⟨after, rfl⟩, ?_, first.enclosed⟩
  rw [List.count_cons_self, List.count_cons_of_ne (by decide), inside]
  omega

theorem append_right (deep : BeforeTooDeep levels text before) (more : List Char) :
    BeforeTooDeep levels (text ++ more) before := by
  obtain ⟨⟨after, rfl⟩, inside, first⟩ := deep
  exact ⟨⟨after ++ more, by rw [List.append_assoc, List.cons_append]⟩, inside, first⟩

private theorem append_left {front : List Char} (within : OpensWithin levels front)
    (balanced : Balanced front) (deep : BeforeTooDeep levels text before) :
    BeforeTooDeep levels (front ++ text) (front ++ before) := by
  obtain ⟨⟨after, rfl⟩, inside, first⟩ := deep
  refine ⟨⟨after, by rw [List.append_assoc]⟩, ?_, within.append balanced first⟩
  rw [List.count_append, List.count_append, inside, show List.count _ _ = _ from balanced]
  omega

end BeforeTooDeep

/-! ## Texts of operands -/

private theorem Balanced.of_not_mem {text : List Char}
    (noOpening : '(' ∉ text) (noClosing : ')' ∉ text) : Balanced text := by
  rw [Balanced, List.count_eq_zero.mpr noOpening, List.count_eq_zero.mpr noClosing]

private theorem Balanced.append {front back : List Char} (frontBalanced : Balanced front)
    (backBalanced : Balanced back) : Balanced (front ++ back) := by
  unfold Balanced at frontBalanced backBalanced ⊢
  rw [List.count_append, List.count_append, frontBalanced, backBalanced]

private theorem Balanced.enclosed {text : List Char} (balanced : Balanced text) :
    Balanced ('(' :: (text ++ [')'])) := by
  rw [Balanced, List.count_cons_self, List.count_cons_of_ne (by decide), List.count_append,
    List.count_append, show text.count '(' = _ from balanced]
  rfl

theorem isNameRest_of_isNameStart {character : Char} (start : isNameStart character = true) :
    isNameRest character = true := by
  simp only [isNameStart, isNameRest, Char.isAlphanum, Bool.or_eq_true] at start ⊢
  exact start.imp .inl id

theorem not_mem_of_isName {name : List Char} (isName : isName name = true) {character : Char}
    (other : isNameRest character = false) : character ∉ name := by
  intro member
  cases name with
  | nil => cases isName
  | cons first rest =>
      simp only [Calculator.isName, Bool.and_eq_true, List.all_eq_true] at isName
      have continues : isNameRest character = true := by
        rcases List.mem_cons.mp member with rfl | member
        · exact isNameRest_of_isNameStart isName.1
        · exact isName.2 character member
      rw [continues] at other
      cases other

theorem DecimalText.not_mem {decimal : List Char} (isDecimal : DecimalText decimal)
    {character : Char} (noDigit : character.isDigit = false) (noPoint : character ≠ '.') :
    character ∉ decimal := by
  have notAmong {digits : List Char} (areDigits : ∀ digit ∈ digits, digit.isDigit) :
      character ∉ digits := by
    intro member
    rw [areDigits character member] at noDigit
    cases noDigit
  cases isDecimal with
  | whole _ digits => exact notAmong digits
  | pointed _ digits _ fraction =>
      simp only [List.mem_append, List.mem_cons, not_or]
      exact ⟨notAmong digits, noPoint, notAmong fraction⟩

/-! ## Texts of expressions -/

section Expressions

variable {α : Type}

private theorem Expr.depth_pos (expr : Expr α) : 0 < expr.depth := by
  cases expr with
  | num | var => exact Nat.one_pos
  | binary => exact Nat.lt_of_lt_of_le Nat.one_pos (Nat.le_add_right 1 _)

variable [Numeral α]

/-- The expressions whose numbers are finite and whose variables have names. -/
inductive Expr.Spellable : Expr α → Prop where
  | num {value : α} : Numeral.isFinite value = true → Spellable (.num value)
  | var {name : String} : isName name.toList = true → Spellable (.var name)
  | binary {operator : Operator} {lhs rhs : Expr α} :
      lhs.Spellable → rhs.Spellable → Spellable (.binary operator lhs rhs)

theorem Expr.parenthesized_binary (operator : Operator) (lhs rhs : Expr α) :
    (binary operator lhs rhs).parenthesized.toList =
      '(' :: (lhs.parenthesized.toList ++
        ([' ', operator.symbol, ' '] ++ (rhs.parenthesized.toList ++ [')']))) := by
  simp [parenthesized, Operator.text]

private theorem Operator.not_mem_between (operator : Operator) :
    '(' ∉ [' ', operator.symbol, ' '] ∧ ')' ∉ [' ', operator.symbol, ' '] := by
  cases operator <;> decide

/-- A parenthesis in the right operand of an operation comes after the whole of the left
operand. -/
theorem BeforeTooDeep.in_rhs {levels : Nat} {text before lhs : List Char}
    (deep : BeforeTooDeep levels text before) (within : OpensWithin levels lhs)
    (balanced : Balanced lhs) (operator : Operator) :
    BeforeTooDeep (levels + 1) ('(' :: (lhs ++ ([' ', operator.symbol, ' '] ++ text)))
      ('(' :: (lhs ++ ([' ', operator.symbol, ' '] ++ before))) := by
  obtain ⟨noOpening, noClosing⟩ := operator.not_mem_between
  have afterOperator := deep.append_left (.of_not_mem noOpening) (.of_not_mem noOpening noClosing)
  exact (afterOperator.append_left within balanced).enclosed

variable [Neg α]

private theorem Numeral.text_not_mem (readsBack : TextsReadBack α) {value : α}
    (finite : Numeral.isFinite value = true) :
    '(' ∉ (Numeral.text value).toList ∧ ')' ∉ (Numeral.text value).toList := by
  obtain ⟨unsigned, decimal, ⟨text, _⟩ | ⟨_, text, _⟩⟩ := readsBack value finite
  · rw [text]
    exact ⟨decimal.not_mem (by decide) (by decide), decimal.not_mem (by decide) (by decide)⟩
  · rw [text, String.toList_append]
    simp only [List.mem_append, not_or]
    exact ⟨⟨by decide, decimal.not_mem (by decide) (by decide)⟩,
      ⟨by decide, decimal.not_mem (by decide) (by decide)⟩⟩

theorem Expr.Spellable.balanced (readsBack : TextsReadBack α) {expr : Expr α}
    (spellable : expr.Spellable) : Balanced expr.parenthesized.toList := by
  induction spellable with
  | num finite =>
      obtain ⟨noOpening, noClosing⟩ := Numeral.text_not_mem readsBack finite
      exact .of_not_mem noOpening noClosing
  | var name =>
      exact .of_not_mem (not_mem_of_isName name (by decide)) (not_mem_of_isName name (by decide))
  | @binary operator lhs rhs _ _ lhsIH rhsIH =>
      obtain ⟨noOpening, noClosing⟩ := operator.not_mem_between
      have operands := lhsIH.append ((Balanced.of_not_mem noOpening noClosing).append rhsIH)
      have enclosed := operands.enclosed
      rwa [List.append_assoc, List.append_assoc, ← parenthesized_binary] at enclosed

/-- The parentheses around an operand stand inside of those around the operations that
it belongs to. -/
theorem Expr.Spellable.opensWithin (readsBack : TextsReadBack α) {expr : Expr α}
    (spellable : expr.Spellable) {levels : Nat} (shallow : expr.depth ≤ levels + 1) :
    OpensWithin levels expr.parenthesized.toList := by
  induction spellable generalizing levels with
  | num finite => exact .of_not_mem (Numeral.text_not_mem readsBack finite).1
  | var name => exact .of_not_mem (not_mem_of_isName name (by decide))
  | @binary operator lhs rhs lhsSpellable rhsSpellable lhsIH rhsIH =>
      obtain ⟨noOpening, noClosing⟩ := operator.not_mem_between
      simp only [depth] at shallow
      cases levels with
      | zero =>
          have deep := lhs.depth_pos
          omega
      | succ levels =>
          have lhsWithin := lhsIH (show lhs.depth ≤ levels + 1 by omega)
          have rhsWithin := rhsIH (show rhs.depth ≤ levels + 1 by omega)
          have closing : OpensWithin levels [')'] := .of_not_mem (by decide)
          have between : OpensWithin levels [' ', operator.symbol, ' '] := .of_not_mem noOpening
          rw [parenthesized_binary]
          exact (lhsWithin.append (lhsSpellable.balanced readsBack)
            (between.append (.of_not_mem noOpening noClosing)
              (rhsWithin.append (rhsSpellable.balanced readsBack) closing))).enclosed

end Expressions

end Calculator
