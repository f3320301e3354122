import Calculator.Proofs.Command.Line

/-!
# Commands written as lines

A command that some line asks for is written as a line again, and that line asks for the
same command. Blanks around a line never matter, so the written line is one form for all
the lines that ask for the same.
-/

set_option autoImplicit false

namespace Calculator

namespace Command

def text : Command → String
  | .eval expression => expression
  | .assign name expression => name ++ " = " ++ expression
  | .simplify expression => ":simplify " ++ expression
  | .steps expression => ":steps " ++ expression
  | .deriv variableName expression => ":deriv " ++ variableName ++ " " ++ expression
  | .vars => ":vars"
  | .clear => ":clear"
  | .help => ":help"

/-- The variable that a command binds, or differentiates with respect to. -/
def name? : Command → Option String
  | .assign name _ | .deriv name _ => some name
  | .eval _ | .simplify _ | .steps _ | .vars | .clear | .help => none

variable {line : List Char} {expression : String} {command : Command}

/-! ## Reading what was written -/

private theorem IsArgument.require_eq (isArgument : IsArgument expression)
    (sign description : String) :
    require expression.toList sign description = .ok expression.toList :=
  require_eq_ok.mpr ⟨isArgument.trimmed.trim_eq, isArgument.nonempty⟩

private theorem IsArgument.make_require (isArgument : IsArgument expression)
    (make : String → Command) (sign description : String) :
    (do return make (String.ofList (← require expression.toList sign description))) =
      Except.ok (make expression) := by
  rw [isArgument.require_eq]
  exact congrArg (Except.ok ∘ make) String.ofList_toList

private theorem splitFirst_isBlank {word : List Char} (solid : word.any isBlank = false)
    (argument : List Char) : splitFirst isBlank (word ++ ' ' :: argument) = (word, argument) := by
  have noBlank (character : Char) (member : character ∈ word) : isBlank character = false := by
    cases blank : isBlank character with
    | false => rfl
    | true => exact absurd blank (List.any_eq_false.mp solid character member)
  rw [splitFirst, splitFirst?_append noBlank rfl]
  rfl

/-- A colon, a word and an argument behind a space. -/
theorem ofLine_word {word argument : List Char} (solid : word.any isBlank = false)
    (trimmed : Trimmed argument) (nonempty : argument ≠ []) :
    ofLine (':' :: (word ++ ' ' :: argument)) = ofWord word argument := by
  have colon : Trimmed [':'] := .of_forall (List.forall_mem_singleton.mpr rfl)
  have whole := (colon.around (List.cons_ne_nil _ _) trimmed nonempty (word ++ [' '])).trim_eq
  rw [List.append_assoc, List.singleton_append, List.singleton_append] at whole
  rw [ofLine, whole]
  simp only
  rw [splitFirst_isBlank solid]

private theorem parse_word (word : String) (solid : word.toList.any isBlank = false)
    {argument : String} (isArgument : IsArgument argument) :
    parse (":" ++ word ++ " " ++ argument) = ofWord word.toList argument.toList := by
  rw [parse, String.toList_append, String.toList_append, String.toList_append, List.append_assoc,
    List.append_assoc]
  exact ofLine_word solid isArgument.trimmed isArgument.nonempty

private theorem isArgument_name_append {name : String} (isName : isName name.toList = true)
    (isArgument : IsArgument expression) : IsArgument (name ++ " " ++ expression) := by
  constructor
  · rw [String.toList_append, String.toList_append, List.append_assoc]
    exact (trimmed_name isName).around (ne_nil_of_isName isName) isArgument.trimmed
      isArgument.nonempty [' ']
  · rw [String.toList_append]
    exact List.append_ne_nil_of_right_ne_nil _ isArgument.nonempty

private theorem ofWord_deriv {variableName : String} (isName : isName variableName.toList = true)
    (isArgument : IsArgument expression) :
    ofWord "deriv".toList (variableName ++ " " ++ expression).toList =
      .ok (.deriv variableName expression) := by
  have solid : variableName.toList.any isBlank = false := by
    rw [List.any_eq_false]
    intro character member
    simp [isBlank_of_isNameRest (isNameRest_of_mem_name isName member)]
  have split : splitFirst isBlank (variableName ++ " " ++ expression).toList =
      (variableName.toList, expression.toList) := by
    rw [String.toList_append, String.toList_append, List.append_assoc]
    exact splitFirst_isBlank solid expression.toList
  have arguments := isArgument_name_append isName isArgument
  refine except_bind_eq_ok.mpr ⟨_, arguments.require_eq _ _, ?_⟩
  rw [split]
  simp only [isName, if_true, String.ofList_toList]
  exact isArgument.make_require (.deriv variableName) _ _

/-- The line of a command asks for this command. -/
theorem parse_text (canonical : command.Canonical) : parse command.text = .ok command := by
  cases canonical with
  | @eval expression trimmed noColon noSign =>
      have unsplit : splitFirst? (· == '=') (trim expression.toList) = none := by
        rw [trimmed.trim_eq]
        exact splitFirst?_beq_eq_none_iff.mpr noSign
      rw [text, parse, ofLine_of_noSign (by rwa [trimmed.trim_eq]) unsplit, trimmed.trim_eq,
        String.ofList_toList]
  | @assign name expression isName isArgument =>
      have assigned := ofLine_assignment isName isArgument.trimmed isArgument.nonempty
      rw [String.ofList_toList, String.ofList_toList] at assigned
      rw [text, parse, String.toList_append, String.toList_append]
      exact assigned
  | @simplify expression isArgument =>
      apply (parse_word "simplify" rfl isArgument).trans
      exact isArgument.make_require .simplify _ _
  | @steps expression isArgument =>
      apply (parse_word "steps" rfl isArgument).trans
      exact isArgument.make_require .steps _ _
  | @deriv variableName expression isName isArgument =>
      have written : (Command.deriv variableName expression).text =
          ":" ++ "deriv" ++ " " ++ (variableName ++ " " ++ expression) := by
        rw [← String.append_assoc, ← String.append_assoc]
        rfl
      rw [written, parse_word "deriv" rfl (isArgument_name_append isName isArgument)]
      exact ofWord_deriv isName isArgument
  | vars => rfl
  | clear => rfl
  | help => rfl

/-! ## Lines that ask for commands -/

private theorem canonical_of_parse {line : String} (parsed : parse line = .ok command) :
    command.Canonical := by
  rcases ofLine_eq_ok parsed with ⟨rfl, noColon, noSign⟩ | taken
  · apply Canonical.eval
    · rw [String.toList_ofList]
      exact trimmed_trim line.toList
    · rwa [String.toList_ofList]
    · rwa [String.toList_ofList]
  · exact taken.canonical

private theorem Canonical.isName_of_name? (canonical : command.Canonical) {name : String}
    (found : command.name? = some name) : isName name.toList = true := by
  cases canonical with
  | assign isName _ | deriv isName _ =>
      cases found
      exact isName
  | eval | simplify | steps | vars | clear | help => cases found

private theorem source_of_parse {line : String} (parsed : parse line = .ok command)
    (found : command.source? = some expression) :
    expression.toList <:+: line.toList ∧ Trimmed expression.toList ∧
      (expression = "" → command = .eval "" ∧ line.toList.all isBlank = true) := by
  rcases ofLine_eq_ok parsed with ⟨rfl, -⟩ | taken
  · cases found
    rw [String.toList_ofList]
    refine ⟨isInfix_trim line.toList, trimmed_trim line.toList, ?_⟩
    intro empty
    have blank : trim line.toList = [] := by simpa using empty
    exact ⟨by rw [empty], trim_eq_nil_iff.mp blank⟩
  · have isArgument := taken.isArgument expression found
    refine ⟨taken.piece expression found, isArgument.trimmed, ?_⟩
    intro empty
    exact absurd (congrArg String.toList empty) isArgument.nonempty

private theorem parse_surrounded {before after : String}
    (blankBefore : before.toList.all isBlank = true)
    (blankAfter : after.toList.all isBlank = true) (line : String) :
    parse (before ++ line ++ after) = parse line := by
  rw [parse, parse, ← ofLine_trim, ← ofLine_trim line.toList, String.toList_append,
    String.toList_append, List.append_assoc, trim_surrounded blankBefore blankAfter]

/-- The command of a line, written as a line, is read again. Its names are names, its
expression is a piece of the line without blanks at its ends, and empty for a blank line
alone. Blanks around a line change nothing, also if it is no command. -/
theorem commands_read_again :
    (∀ (line : String) (command : Command), parse line = .ok command →
      parse command.text = .ok command ∧
      (∀ name, command.name? = some name → isName name.toList = true) ∧
      ∀ expression, command.source? = some expression →
        expression.toList <:+: line.toList ∧ Trimmed expression.toList ∧
          (expression = "" → command = .eval "" ∧ line.toList.all isBlank = true)) ∧
    ∀ before line after : String, before.toList.all isBlank = true →
      after.toList.all isBlank = true → parse (before ++ line ++ after) = parse line := by
  constructor
  · intro line command parsed
    have canonical := canonical_of_parse parsed
    refine ⟨parse_text canonical, ?_, ?_⟩
    · intro name found
      exact canonical.isName_of_name? found
    · intro expression found
      exact source_of_parse parsed found
  · intro before line after blankBefore blankAfter
    exact parse_surrounded blankBefore blankAfter line

theorem commands_read_again_deriv :
    parse "\u2003:deriv  t\t (t = :t)\n" = .ok (.deriv "t" "(t = :t)") ∧
      parse ":deriv t (t = :t)" = .ok (.deriv "t" "(t = :t)") ∧
      isName "t".toList = true ∧
      "(t = :t)".toList <:+: "\u2003:deriv  t\t (t = :t)\n".toList ∧
      "\u2003".toList.all isBlank = true ∧ "\n".toList.all isBlank = true ∧
      parse ("\u2003" ++ ":deriv  t\t (t = :t)" ++ "\n") =
        parse ":deriv  t\t (t = :t)" := by
  have parsed : parse "\u2003:deriv  t\t (t = :t)\n" = .ok (.deriv "t" "(t = :t)") := rfl
  have blank : "\u2003".toList.all isBlank = true ∧ "\n".toList.all isBlank = true := ⟨rfl, rfl⟩
  obtain ⟨read, surrounded⟩ := commands_read_again
  obtain ⟨again, named, taken⟩ := read _ _ parsed
  exact ⟨parsed, again, named "t" rfl, (taken "(t = :t)" rfl).1, blank.1, blank.2,
    surrounded _ _ _ blank.1 blank.2⟩

end Command

end Calculator
