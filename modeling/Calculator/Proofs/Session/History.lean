import Mathlib.Algebra.Field.Rat
import Mathlib.Data.List.Induction
import Calculator.Proofs.Number.Field
import Calculator.Proofs.Number.Rational
import Calculator.Proofs.Parser.RoundTrip
import Calculator.Proofs.Session.Step

/-!
# Bindings and the lines before

The bindings of a session are decided by the lines that were run in it: a name is bound by
the last successful assignment to it after the last `:clear`, whatever other lines stand
between, and can be entered as a line of its own.
-/

set_option autoImplicit false

namespace Calculator

namespace Session

section Definitions

variable {α : Type} [Arithmetic α] [Numeral α]

/-- The session after some lines, run in order from a session without bindings. -/
def after (lines : List String) : Session α :=
  (Script.runLines new lines).2

/-- A line of a history has a property in the session in which it is run. -/
def LineAt (lines : List String) (index : Nat) (holds : Session α → String → Prop) : Prop :=
  ∃ line, lines[index]? = some line ∧ holds (after (lines.take index)) line

/-- A line is an assignment that succeeds, with the value of its expression under the
bindings in force. -/
structure Assigns (session : Session α) (line name : String) (value : α) : Prop where
  succeeds : ∃ output next, runLine line session = .ok output next
  assigned : ∃ (expression : String) (expr : Expr α),
    Command.parse line = .ok (.assign name expression) ∧ Expr.ofText expression = .ok expr ∧
      expr.evaluate session.context = .ok value

structure Clears (session : Session α) (line : String) : Prop where
  succeeds : ∃ output next, runLine line session = .ok output next
  parse_eq : Command.parse line = .ok .clear

end Definitions

section Lines

variable {α : Type} [Arithmetic α] [Numeral α] {session : Session α}
  {lines : List String} {line name : String}

/-! ## One line -/

private theorem Assigns.not_clears {value : α} (assigns : session.Assigns line name value) :
    ¬session.Clears line := by
  intro clears
  obtain ⟨_, _, parsed, -⟩ := assigns.assigned
  cases parsed.symm.trans clears.parse_eq

private theorem not_assigns_of_error {error : LineError} {next : Session α}
    (failed : runLine line session = .error error next) (value : α) :
    ¬session.Assigns line name value := by
  intro assigns
  obtain ⟨_, _, ran⟩ := assigns.succeeds
  cases failed.symm.trans ran

private theorem not_clears_of_error {error : LineError} {next : Session α}
    (failed : runLine line session = .error error next) : ¬session.Clears line := by
  intro clears
  obtain ⟨_, _, ran⟩ := clears.succeeds
  cases failed.symm.trans ran

theorem assigns_iff {other expression : String} {otherValue value : α}
    (parsed : Command.parse line = .ok (.assign other expression))
    (evaluated : session.value expression = .ok otherValue) :
    session.Assigns line name value ↔ other = name ∧ otherValue = value := by
  constructor
  · intro assigns
    obtain ⟨_, expr, sameParsed, read, sameEvaluated⟩ := assigns.assigned
    cases parsed.symm.trans sameParsed
    cases evaluated.symm.trans (value_eq_ok.mpr ⟨expr, read, sameEvaluated⟩)
    exact ⟨rfl, rfl⟩
  · intro same
    obtain ⟨rfl, rfl⟩ := same
    obtain ⟨expr, read, found⟩ := value_eq_ok.mp evaluated
    exact ⟨⟨_, _, runLine_eq_ok.mpr ⟨_, parsed, run_assign evaluated _⟩⟩,
      ⟨expression, expr, parsed, read, found⟩⟩

/-- What a line leaves bound: what it assigns, and what was bound before, unless it assigns
to the same name or removes the bindings. -/
theorem find?_runLine (session : Session α) (line name : String) (value : α) :
    (Script.runLine session line).2.context.find? name = some value ↔
      session.Assigns line name value ∨
        ¬(session.Clears line ∨ ∃ other, session.Assigns line name other) ∧
          session.context.find? name = some value := by
  cases ran : runLine line session with
  | error error unchanged =>
      rw [Script.runLine_of_error ran]
      simp [not_assigns_of_error ran, not_clears_of_error ran]
  | ok output next =>
      obtain ⟨command, parsed, done⟩ := runLine_eq_ok.mp ran
      rw [Script.runLine_of_ok ran]
      rcases run_eq_ok done with ⟨other, expression, otherValue, rfl, evaluated, rfl⟩ |
        ⟨rfl, rfl⟩ | ⟨keeps, rfl⟩
      · have noClear : ¬session.Clears line := by
          intro clears
          cases parsed.symm.trans clears.parse_eq
        rw [NameMap.find?_insert]
        simp only [assigns_iff parsed evaluated, noClear, false_or]
        by_cases same : other = name <;> simp [same]
      · have noAssignment (other : α) : ¬session.Assigns line name other := by
          intro assigns
          exact assigns.not_clears ⟨⟨_, _, ran⟩, parsed⟩
        have clears : session.Clears line := ⟨⟨_, _, ran⟩, parsed⟩
        simp [noAssignment, clears, new]
      · have noAssignment (other : α) : ¬next.Assigns line name other := by
          intro assigns
          obtain ⟨_, _, sameParsed, -⟩ := assigns.assigned
          cases parsed.symm.trans sameParsed
          cases keeps
        have noClear : ¬next.Clears line := by
          intro clears
          cases parsed.symm.trans clears.parse_eq
          cases keeps
        simp [noAssignment, noClear]

/-! ## All lines -/

private theorem after_concat (lines : List String) (line : String) :
    after (α := α) (lines ++ [line]) = (Script.runLine (after lines) line).2 := by
  rw [after, Script.runLines_append]
  rfl

private theorem LineAt.lt_length {index : Nat} {holds : Session α → String → Prop}
    (lineAt : LineAt lines index holds) : index < lines.length := by
  obtain ⟨line, found, -⟩ := lineAt
  exact (List.getElem?_eq_some_iff.mp found).1

private theorem lineAt_concat {index : Nat} {holds : Session α → String → Prop} :
    LineAt (lines ++ [line]) index holds ↔
      LineAt lines index holds ∨ index = lines.length ∧ holds (after lines) line := by
  rcases Nat.lt_trichotomy index lines.length with inside | rfl | outside
  · have different : index ≠ lines.length := Nat.ne_of_lt inside
    simp [LineAt, List.getElem?_append_left inside, List.take_append_of_le_length inside.le,
      different]
  · simp [LineAt]
  · have beyond : (lines ++ [line]).length ≤ index := by
      rw [List.length_append]
      exact outside
    have different : index ≠ lines.length := Nat.ne_of_gt outside
    simp [LineAt, List.getElem?_eq_none beyond, List.getElem?_eq_none outside.le, different]

/-- What some lines bring about and others undo holds if one of the former was run and none
of the latter after it. -/
theorem holds_iff_lineAt (holds : List String → Prop) {sets resets : Session α → String → Prop}
    (nil : ¬holds [])
    (concat : ∀ lines line, holds (lines ++ [line]) ↔
      sets (after lines) line ∨ ¬resets (after lines) line ∧ holds lines)
    (lines : List String) :
    holds lines ↔
      ∃ index, LineAt lines index sets ∧ ∀ later, index < later → ¬LineAt lines later resets := by
  -- From the last line backwards, since what it does decides between the lines before it and it.
  induction lines using List.reverseRecOn with
  | nil => simp [nil, LineAt]
  | append_singleton lines line ih =>
      rw [concat, ih]
      constructor
      · intro held
        rcases held with last | ⟨notReset, index, lineAt, kept⟩
        · refine ⟨lines.length, lineAt_concat.mpr (.inr ⟨rfl, last⟩), ?_⟩
          intro later isLater lineAt
          have bound := lineAt.lt_length
          rw [List.length_append, List.length_singleton] at bound
          omega
        · refine ⟨index, lineAt_concat.mpr (.inl lineAt), ?_⟩
          intro later isLater lineAtLater
          rcases lineAt_concat.mp lineAtLater with before | ⟨-, last⟩
          · exact kept later isLater before
          · exact notReset last
      · intro held
        obtain ⟨index, lineAt, kept⟩ := held
        rcases lineAt_concat.mp lineAt with before | ⟨-, last⟩
        · refine .inr ⟨?_, index, before, ?_⟩
          · intro reset
            exact kept _ before.lt_length (lineAt_concat.mpr (.inr ⟨rfl, reset⟩))
          · intro later isLater lineAtLater
            exact kept later isLater (lineAt_concat.mpr (.inl lineAtLater))
        · exact .inl last

private theorem find?_after (lines : List String) (name : String) (value : α) :
    (after lines).context.find? name = some value ↔
      ∃ index, LineAt lines index (fun session line => session.Assigns line name value) ∧
        ∀ later, index < later → ¬LineAt (α := α) lines later fun session line =>
          session.Clears line ∨ ∃ other, session.Assigns line name other := by
  refine holds_iff_lineAt (fun lines => (after lines).context.find? name = some value) ?_ ?_ lines
  · simp [after, Script.runLines, new]
  · intro lines line
    rw [after_concat, find?_runLine]

private theorem isBound_after (lines : List String) (name : String) :
    (∃ value : α, (after lines).context.find? name = some value) ↔
      ∃ index, LineAt (α := α) lines index (fun session line =>
          ∃ value, session.Assigns line name value) ∧
        ∀ later, index < later → ¬LineAt (α := α) lines later Clears := by
  refine holds_iff_lineAt (α := α)
    (fun lines => ∃ value : α, (after lines).context.find? name = some value) ?_ ?_ lines
  · simp [after, Script.runLines, new]
  · intro lines line
    simp only [after_concat, find?_runLine]
    constructor
    · intro bound
      obtain ⟨value, assigns | ⟨kept, found⟩⟩ := bound
      · exact .inl ⟨value, assigns⟩
      · exact .inr ⟨fun clears => kept (.inl clears), value, found⟩
    · intro bound
      by_cases assigned : ∃ value : α, (after lines).Assigns line name value
      · exact assigned.imp fun _ assigns => .inl assigns
      · obtain assigns | ⟨noClear, value, found⟩ := bound
        · exact absurd assigns assigned
        · exact ⟨value, .inr ⟨by simp [noClear, assigned], found⟩⟩

private theorem after_concat_of_keeps
    (keeps : (∃ error next, runLine line (after (α := α) lines) = .error error next) ∨
      ∃ command, Command.parse line = .ok command ∧ command.keepsBindings = true) :
    after (α := α) (lines ++ [line]) = after lines := by
  rw [after_concat]
  cases ran : runLine line (after (α := α) lines) with
  | error error unchanged => rw [Script.runLine_of_error ran]
  | ok output next =>
      rw [Script.runLine_of_ok ran]
      rcases keeps with ⟨_, _, failed⟩ | ⟨command, parsed, keeps⟩
      · cases failed.symm.trans ran
      · obtain ⟨_, sameParsed, done⟩ := runLine_eq_ok.mp ran
        cases parsed.symm.trans sameParsed
        rcases run_eq_ok done with ⟨_, _, _, rfl, -⟩ | ⟨rfl, -⟩ | ⟨-, same⟩
        · cases keeps
        · cases keeps
        · exact same

/-! ## Names -/

theorem isName_of_find?_after {value : α}
    (found : (after lines).context.find? name = some value) :
    Command.isName name.toList = true := by
  obtain ⟨_, ⟨_, -, assigns⟩, -⟩ := (find?_after lines name value).mp found
  obtain ⟨_, _, parsed, -⟩ := assigns.assigned
  exact Command.isName_of_parse_assign parsed

private theorem runLine_name (isName : Command.isName name.toList = true) {value : α}
    (found : session.context.find? name = some value) :
    runLine name session = .ok [Numeral.text value] session := by
  have evaluated : session.value name = .ok value := by
    have read := Expr.ofText_name (α := α) ((Command.isName_eq _).symm.trans isName)
    refine value_eq_ok.mpr ⟨.var name, read, ?_⟩
    rw [Expr.evaluate, Context.lookup, found]
  exact runLine_eq_ok.mpr ⟨_, Command.parse_name isName, run_eval evaluated⟩

end Lines

end Session

/-- A name is one token. -/
theorem tokenize_name {name : String} (isName : isName name.toList = true) :
    tokenize name = [⟨.name, name, ⟨0, name.utf8ByteSize⟩⟩] := by
  have same := String.ofList_toList (s := name)
  rw [tokenize]
  cases letters : name.toList with
  | nil =>
      rw [letters] at isName
      cases isName
  | cons first rest =>
      rw [letters] at isName same
      simp only [Calculator.isName, Bool.and_eq_true, List.all_eq_true] at isName
      have whole := runLength_append isName.2 EndsOperand.nil.endsWord.noName
      rw [List.append_nil] at whole
      rw [tokensFrom, munch_isNameStart isName.1, whole]
      simp [same, tokensFrom]

/-- The bindings after some lines: a name is bound if a line after the last that removes
bindings assigns to it, to the value that the last such line assigns. Lines that fail and
commands of other kinds change nothing, and each bound name is a line that prints its value. -/
theorem Session.bindings_follow_lines {α : Type} [Arithmetic α] [Numeral α]
    (lines : List String) (name : String) :
    ((∃ value : α, (after lines).context.find? name = some value) ↔
      ∃ index, LineAt (α := α) lines index (fun session line =>
          ∃ value, session.Assigns line name value) ∧
        ∀ later, index < later → ¬LineAt (α := α) lines later Clears) ∧
    (∀ value : α, (after lines).context.find? name = some value ↔
      ∃ index, LineAt lines index (fun session line => session.Assigns line name value) ∧
        ∀ later, index < later → ¬LineAt (α := α) lines later fun session line =>
          session.Clears line ∨ ∃ other, session.Assigns line name other) ∧
    (∀ line, ((∃ error next, runLine line (after (α := α) lines) = .error error next) ∨
        ∃ command, Command.parse line = .ok command ∧ command.keepsBindings = true) →
      after (α := α) (lines ++ [line]) = after lines) ∧
    ∀ value : α, (after lines).context.find? name = some value →
      tokenize name = [⟨.name, name, ⟨0, name.utf8ByteSize⟩⟩] ∧
        runLine name (after (α := α) lines) = .ok [Numeral.text value] (after lines) := by
  refine ⟨?bound, ?value, ?kept, ?name⟩
  · exact isBound_after lines name
  · exact find?_after lines name
  · intro line keeps
    exact after_concat_of_keeps keeps
  · intro value found
    have isName := isName_of_find?_after found
    exact ⟨tokenize_name ((Command.isName_eq _).symm.trans isName), runLine_name isName found⟩

/-- Lines of which some fail, some remove bindings and some assign to a name what they read
from it. -/
def mixedLines : List String :=
  ["x = 2", ":clear", "x = (x + 1)", "x = 5", " x=(x + 1) ", "y = (1 / (x - 6))", ":vars", "x = "]

theorem Session.bindings_follow_lines_mixed :
    (after (α := ℚ) mixedLines).context.find? "x" = some 6 ∧
    (∃ error next, runLine "x = y" (after (α := ℚ) mixedLines) = .error error next) ∧
    after (α := ℚ) (mixedLines ++ ["x = y"]) = after mixedLines ∧
    tokenize "x" = [⟨.name, "x", ⟨0, 1⟩⟩] ∧
    runLine "x" (after (α := ℚ) mixedLines) = .ok ["6"] (after mixedLines) := by
  obtain ⟨-, -, kept, named⟩ := bindings_follow_lines (α := ℚ) mixedLines "x"
  have found : (after (α := ℚ) mixedLines).context.find? "x" = some 6 := by decide +kernel
  have failed : ∃ error next,
      runLine "x = y" (after (α := ℚ) mixedLines) = .error error next := by
    have refused : (after (α := ℚ) mixedLines).accepts "x = y" = false := by decide +kernel
    exact accepts_eq_false.mp refused
  obtain ⟨token, evaluated⟩ := named 6 found
  exact ⟨found, failed, kept _ (.inl failed), token, evaluated⟩

end Calculator
