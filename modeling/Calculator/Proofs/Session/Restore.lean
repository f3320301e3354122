import Mathlib.Data.List.Perm.Basic
import Calculator.Proofs.NameMap
import Calculator.Proofs.Session.History

/-!
# Bindings as lines

The lines in which `:vars` lists the bindings are assignments, and running them makes the
same bindings again, in whatever order they are run.
-/

set_option autoImplicit false

namespace Calculator

section Lines

variable {α : Type} [Numeral α] [Neg α]

private theorem DecimalText.ne_nil {decimal : List Char} (isDecimal : DecimalText decimal) :
    decimal ≠ [] := by
  cases isDecimal with
  | whole nonempty => exact nonempty
  | pointed => simp

private theorem DecimalText.noBlank {decimal : List Char} (isDecimal : DecimalText decimal)
    {character : Char} (member : character ∈ decimal) : isBlank character = false := by
  cases blank : isBlank character with
  | false => rfl
  | true =>
      refine absurd member (isDecimal.not_mem ?_ ?_)
      · cases digit : character.isDigit with
        | false => rfl
        | true =>
            have isRest : isNameRest character = true := by
              simp [isNameRest, Char.isAlphanum, digit]
            cases (isBlank_of_isNameRest isRest).symm.trans blank
      · intro point
        subst point
        cases blank

private theorem trimmed_number (readsBack : TextsReadBack α) {value : α}
    (finite : Numeral.isFinite value = true) :
    Trimmed (Numeral.text value).toList ∧ (Numeral.text value).toList ≠ [] := by
  obtain ⟨unsigned, decimal, ⟨text, -⟩ | ⟨_, text, -⟩⟩ := readsBack value finite
  · rw [text]
    exact ⟨.of_forall fun _ => decimal.noBlank, decimal.ne_nil⟩
  · rw [text, String.toList_append]
    refine ⟨.of_forall ?_, by simp⟩
    intro character member
    rcases List.mem_append.mp member with sign | inDecimal
    · cases List.mem_singleton.mp sign
      rfl
    · exact decimal.noBlank inDecimal

end Lines

namespace Session

variable {α : Type} [Arithmetic α] [Numeral α] {name : String} {value : α}

private theorem parse_bindingText (readsBack : TextsReadBack α)
    (isName : Command.isName name.toList = true) (finite : Numeral.isFinite value = true) :
    Command.parse (bindingText name value) = .ok (.assign name (Numeral.text value)) := by
  obtain ⟨trimmed, nonempty⟩ := trimmed_number readsBack finite
  have assigned := Command.ofLine_assignment isName trimmed nonempty
  rw [String.ofList_toList, String.ofList_toList] at assigned
  rw [Command.parse, bindingText, String.toList_append, String.toList_append]
  exact assigned

/-- The line of a binding binds the name again. -/
theorem runLine_bindingText (readsBack : TextsReadBack α)
    (isName : Command.isName name.toList = true) (finite : Numeral.isFinite value = true)
    (session : Session α) :
    runLine (bindingText name value) session =
      .ok [bindingText name value] ⟨session.context.insert name value⟩ := by
  have evaluated : session.value (Numeral.text value) = .ok value :=
    value_eq_ok.mpr ⟨.num value, Expr.ofText_number readsBack finite, rfl⟩
  exact runLine_eq_ok.mpr ⟨_, parse_bindingText readsBack isName finite, run_assign evaluated name⟩

/-- The entries that can be written as lines. -/
def Writable (entry : String × α) : Prop :=
  Command.isName entry.1.toList = true ∧ Numeral.isFinite entry.2 = true

/-- The line of an entry. -/
def entryLine (entry : String × α) : String :=
  bindingText entry.1 entry.2

private theorem runLines_entryLines (readsBack : TextsReadBack α) {entries : List (String × α)}
    (writable : ∀ entry ∈ entries, Writable entry) (session : Session α) :
    (Script.runLines session (entries.map entryLine)).2 =
      ⟨entries.foldl (fun context entry => context.insert entry.1 entry.2) session.context⟩ := by
  induction entries generalizing session with
  | nil => rfl
  | cons entry rest ih =>
      obtain ⟨⟨isName, finite⟩, restWritable⟩ := List.forall_mem_cons.mp writable
      rw [List.map_cons, Script.runLines, List.foldl_cons, entryLine,
        Script.runLine_of_ok (runLine_bindingText readsBack isName finite session)]
      exact ih restWritable _

private theorem entryLine_ne (readsBack : TextsReadBack α) {first second : String × α}
    (firstWritable : Writable first) (secondWritable : Writable second)
    (below : first.1 < second.1) : entryLine first ≠ entryLine second := by
  intro same
  have parsed := parse_bindingText readsBack firstWritable.1 firstWritable.2
  have otherParsed := parse_bindingText readsBack secondWritable.1 secondWritable.2
  simp only [entryLine] at same
  rw [same, otherParsed] at parsed
  obtain ⟨names, -⟩ : second.1 = first.1 ∧ _ := by simpa using parsed
  exact String.lt_irrefl _ (names ▸ below)

omit [Arithmetic α] in
/-- The order in which the bindings are listed does not matter. -/
theorem bindingLines_eq_of_perm {context : Context α} {listing : List (String × α)}
    (perm : listing.Perm context.entries) :
    bindingLines listing = context.entries.map entryLine := by
  rw [bindingLines, NameMap.mergeSort_eq_of_perm perm context.sorted]
  rfl

private theorem runLine_vars (session : Session α) :
    runLine ":vars" session = .ok (session.context.entries.map entryLine) session := by
  rw [← bindingLines_eq_of_perm (.refl session.context.entries)]
  exact runLine_eq_ok.mpr ⟨.vars, by decide +kernel, rfl⟩

/-- What `:vars` lists, in increasing order of the names, are lines that succeed in any order
in a new session, make the same bindings there, and are listed again. -/
theorem restored_from_vars (readsBack : TextsReadBack α) (lines : List String)
    (finite : ∀ name value, (after lines).context.find? name = some value →
      Numeral.isFinite (α := α) value = true) :
    ∃ entries : List (String × α),
      (entries.map Prod.fst).Pairwise (· < ·) ∧
      (∀ name value, (name, value) ∈ entries ↔ (after lines).context.find? name = some value) ∧
      runLine ":vars" (after (α := α) lines) = .ok (entries.map entryLine) (after lines) ∧
      (entries.map entryLine).Nodup ∧
      ∀ order : List String, order.Perm (entries.map entryLine) →
        (∀ index < order.length, LineAt (α := α) order index fun session line =>
          ∃ output next, runLine line session = .ok output next) ∧
        after order = after (α := α) lines ∧
        runLine ":vars" (after (α := α) order) = .ok (entries.map entryLine) (after order) := by
  have writable : ∀ entry ∈ (after (α := α) lines).context.entries, Writable entry := by
    intro entry member
    have found := NameMap.mem_entries_iff.mp member
    exact ⟨isName_of_find?_after found, finite _ _ found⟩
  refine ⟨(after lines).context.entries, (after lines).context.names_sorted,
    fun _ _ => NameMap.mem_entries_iff, runLine_vars _, ?_, ?_⟩
  · apply List.pairwise_map.mpr
    refine (after lines).context.sorted.imp_of_mem ?_
    intro first second firstMember secondMember below
    exact entryLine_ne readsBack (writable _ firstMember) (writable _ secondMember) below
  · intro order shuffled
    -- Lines in another order are the lines of the entries in another order.
    obtain ⟨arranged, rfl, perm⟩ :
        Relation.Comp (· = List.map entryLine ·) List.Perm order _ := by
      rw [List.eq_map_comp_perm]
      exact shuffled
    have arrangedWritable : ∀ entry ∈ arranged, Writable entry := by
      intro entry member
      exact writable entry (perm.mem_iff.mp member)
    have same : after (arranged.map entryLine) = after (α := α) lines := by
      rw [after, runLines_entryLines readsBack arrangedWritable]
      exact congrArg Session.mk (NameMap.ofList_eq_of_perm perm)
    refine ⟨?_, same, ?_⟩
    · intro index inside
      refine ⟨_, List.getElem?_eq_getElem inside, ?_⟩
      obtain ⟨entry, member, line⟩ := List.mem_map.mp (List.getElem_mem inside)
      obtain ⟨isName, isFinite⟩ := arrangedWritable entry member
      rw [← line]
      exact ⟨_, _, runLine_bindingText readsBack isName isFinite _⟩
    · rw [runLine_vars, same]

/-- Lines that bind two names, each anew from the other one. -/
def crossedLines : List String :=
  ["y = 4", "x = (y + 6)", "y = (x / -4)", "x = (y * 4)"]

private theorem entries_after_crossedLines :
    (after (α := ℚ) crossedLines).context.entries = [("x", -10), ("y", -5 / 2)] := by
  decide +kernel

theorem restored_from_vars_crossed :
    TextsReadBack ℚ ∧
    (∀ name value, (after (α := ℚ) crossedLines).context.find? name = some value →
      Numeral.isFinite value = true) ∧
    runLine ":vars" (after (α := ℚ) crossedLines) =
      .ok ["x = -10", "y = -2.5"] (after crossedLines) ∧
    after (α := ℚ) ["y = -2.5", "x = -10"] = after crossedLines := by
  have finite (name : String) (value : ℚ)
      (found : (after crossedLines).context.find? name = some value) :
      Numeral.isFinite value = true := by
    have member := NameMap.mem_entries_iff.mpr found
    simp only [entries_after_crossedLines, List.mem_cons, List.not_mem_nil, or_false,
      Prod.mk.injEq] at member
    rcases member with ⟨-, rfl⟩ | ⟨-, rfl⟩ <;> decide +kernel
  obtain ⟨entries, -, -, listed, -, restored⟩ :=
    restored_from_vars textsReadBack_rat crossedLines finite
  have dumped : entries.map entryLine = ["x = -10", "y = -2.5"] := by
    rw [runLine_vars, entries_after_crossedLines] at listed
    have same : [("x", (-10 : ℚ)), ("y", -5 / 2)].map entryLine = entries.map entryLine := by
      simpa using listed
    rw [← same]
    decide +kernel
  rw [dumped] at listed restored
  exact ⟨textsReadBack_rat, finite, listed, (restored _ (.swap _ _ _)).2.1⟩

end Session

end Calculator
