import Calculator.Command
import Calculator.Proofs.Action
import Calculator.Proofs.Parser.OpenParentheses
import Calculator.Proofs.Text.Blank

/-!
# Lines as commands

Which command some lines are: a name, an assignment to a name, a line with nothing in it,
and a line that begins with the sign of a comment, which is never an assignment. A command
that is no evaluation has its arguments from a piece of its line.
-/

set_option autoImplicit false

namespace Calculator

namespace Command

/-! ## Names -/

/-- What commands take for a name is what the lexer does. -/
theorem isName_eq (name : List Char) : isName name = Calculator.isName name := by
  cases name <;> rfl

private theorem not_mem_of_isName {name : List Char} (isName : isName name = true)
    {character : Char} (other : isNameRest character = false) : character ∉ name := by
  rw [isName_eq] at isName
  exact Calculator.not_mem_of_isName isName other

theorem isNameRest_of_mem_name {name : List Char} (isName : isName name = true)
    {character : Char} (member : character ∈ name) : isNameRest character = true := by
  cases isRest : isNameRest character with
  | true => rfl
  | false => exact absurd member (not_mem_of_isName isName isRest)

theorem trimmed_name {name : List Char} (isName : isName name = true) : Trimmed name := by
  apply Trimmed.of_forall
  intro character member
  exact isBlank_of_isNameRest (isNameRest_of_mem_name isName member)

theorem ne_nil_of_isName {name : List Char} (isName : isName name = true) : name ≠ [] := by
  intro empty
  subst empty
  cases isName

private theorem isNameStart_of_mem_head? {name : List Char} (isName : isName name = true)
    {first : Char} (member : first ∈ name.head?) : isNameStart first = true := by
  cases name with
  | nil => cases member
  | cons first rest =>
      cases member
      exact (Bool.and_eq_true_iff.mp isName).1

private theorem exists_mem_head?_of_isName {name : List Char} (isName : isName name = true) :
    ∃ first, first ∈ name.head? := by
  cases name with
  | nil => cases isName
  | cons first rest => exact ⟨first, rfl⟩

/-! ## Lines -/

variable {line : List Char}

theorem ofLine_trim (line : List Char) : ofLine (trim line) = ofLine line := by
  unfold ofLine
  rw [trim_trim]

private theorem ofLine_of_split (noColon : ':' ∉ (trim line).head?) {target expression : List Char}
    (split : splitFirst? (· == '=') (trim line) = some (target, expression)) :
    ofLine line = ofAssignment target expression := by
  unfold ofLine
  split
  next rest same => simp [same] at noColon
  next => rw [split]

theorem ofLine_of_noSign (noColon : ':' ∉ (trim line).head?)
    (noSign : splitFirst? (· == '=') (trim line) = none) :
    ofLine line = .ok (.eval (String.ofList (trim line))) := by
  unfold ofLine
  split
  next rest same => simp [same] at noColon
  next => rw [noSign]

theorem ofLine_blank (blank : trim line = []) : ofLine line = .ok (.eval "") := by
  have noSign : splitFirst? (· == '=') (trim line) = none := by rw [blank]; rfl
  rw [ofLine_of_noSign (by simp [blank]) noSign, blank]

/-- A name is a command of its own: it is evaluated. -/
theorem parse_name {name : String} (isName : isName name.toList = true) :
    parse name = .ok (.eval name) := by
  have trimmed : trim name.toList = name.toList := (trimmed_name isName).trim_eq
  have noColon : ':' ∉ (trim name.toList).head? := by
    rw [trimmed]
    intro colon
    cases isNameStart_of_mem_head? isName colon
  have noSign : splitFirst? (· == '=') (trim name.toList) = none := by
    rw [trimmed]
    exact splitFirst?_beq_eq_none_iff.mpr (not_mem_of_isName isName (by decide))
  rw [parse, ofLine_of_noSign noColon noSign, trimmed, String.ofList_toList]

theorem require_eq_ok {argument expression : List Char} {command description : String} :
    require argument command description = .ok expression ↔
      trim argument = expression ∧ expression ≠ [] := by
  unfold require
  split
  next empty =>
    rw [empty]
    constructor
    · intro required
      cases required
    · intro required
      exact absurd required.1.symm required.2
  next trimmed nonempty =>
    constructor
    · intro required
      cases required
      exact ⟨rfl, nonempty⟩
    · intro required
      exact congrArg Except.ok required.1

/-- A name, an equals sign and an expression, with a space on either side of the sign, are an
assignment. -/
theorem ofLine_assignment {name expression : List Char} (isName : isName name = true)
    (trimmed : Trimmed expression) (nonempty : expression ≠ []) :
    ofLine (name ++ [' ', '=', ' '] ++ expression) =
      .ok (.assign (String.ofList name) (String.ofList expression)) := by
  have none : ([] : List Char).all isBlank = true := rfl
  have space : [' '].all isBlank = true := rfl
  have whole : Trimmed (name ++ [' ', '=', ' '] ++ expression) := by
    rw [List.append_assoc]
    exact (trimmed_name isName).around (ne_nil_of_isName isName) trimmed nonempty _
  have noColon : ':' ∉ (trim (name ++ [' ', '=', ' '] ++ expression)).head? := by
    rw [whole.trim_eq]
    intro colon
    cases name with
    | nil => cases isName
    | cons => cases isNameStart_of_mem_head? isName colon
  have split : splitFirst? (· == '=') (trim (name ++ [' ', '=', ' '] ++ expression)) =
      some (name ++ [' '], ' ' :: expression) := by
    have written : name ++ [' ', '=', ' '] ++ expression =
        (name ++ [' ']) ++ '=' :: ' ' :: expression := by simp
    rw [whole.trim_eq, written]
    refine splitFirst?_append ?_ (by rfl) _
    intro character member
    apply beq_false_of_ne
    intro sign
    subst sign
    rcases List.mem_append.mp member with inName | inSpace
    · cases isNameRest_of_mem_name isName inName
    · cases List.mem_singleton.mp inSpace
  have target : trim (name ++ [' ']) = name := (trimmed_name isName).trim_surrounded none space
  have argument : trim (' ' :: expression) = expression := by
    have surrounded := trimmed.trim_surrounded space none
    rwa [List.append_nil] at surrounded
  rw [ofLine_of_split noColon split, ofAssignment, target, if_pos isName,
    require_eq_ok.mpr ⟨argument, nonempty⟩]
  rfl

/-! ## What lines ask for -/

/-- What a command works on: a text with no blank at either end, and not the empty one. -/
structure IsArgument (text : String) : Prop where
  trimmed : Trimmed text.toList
  nonempty : text.toList ≠ []

/-- The commands that lines ask for. -/
inductive Canonical : Command → Prop where
  | eval {expression : String} : Trimmed expression.toList → ':' ∉ expression.toList.head? →
      '=' ∉ expression.toList → Canonical (.eval expression)
  | assign {name expression : String} : isName name.toList = true → IsArgument expression →
      Canonical (.assign name expression)
  | simplify {expression : String} : IsArgument expression → Canonical (.simplify expression)
  | steps {expression : String} : IsArgument expression → Canonical (.steps expression)
  | deriv {variableName expression : String} : isName variableName.toList = true →
      IsArgument expression → Canonical (.deriv variableName expression)
  | vars : Canonical .vars
  | clear : Canonical .clear
  | help : Canonical .help

/-- A command other than an evaluation that a line asks for, with its expression taken from a
text. -/
structure TakenFrom (text : List Char) (command : Command) : Prop where
  canonical : command.Canonical
  isArgument : ∀ expression, command.source? = some expression → IsArgument expression
  piece : ∀ expression, command.source? = some expression → expression.toList <:+: text

private theorem TakenFrom.mono {text whole : List Char} {command : Command}
    (within : text <:+: whole) (taken : command.TakenFrom text) : command.TakenFrom whole :=
  { taken with piece := fun expression found => (taken.piece expression found).trans within }

/-- A command with a required argument as its expression takes it from there. -/
theorem TakenFrom.of_require {make : String → Command} {argument : List Char}
    {sign description : String} {command : Command}
    (canonical : ∀ expression, IsArgument expression → (make expression).Canonical)
    (source : ∀ expression, (make expression).source? = some expression)
    (parsed : (do return make (String.ofList (← require argument sign description))) =
      Except.ok command) : command.TakenFrom argument := by
  obtain ⟨expression, required, same⟩ := except_bind_eq_ok.mp parsed
  cases same
  obtain ⟨rfl, nonempty⟩ := require_eq_ok.mp required
  have isArgument : IsArgument (String.ofList (trim argument)) := by
    constructor
    · rw [String.toList_ofList]
      exact trimmed_trim argument
    · rwa [String.toList_ofList]
  refine ⟨canonical _ isArgument, ?_, ?_⟩
  · intro other found
    cases (source _).symm.trans found
    exact isArgument
  · intro other found
    cases (source _).symm.trans found
    rw [String.toList_ofList]
    exact isInfix_trim argument

private theorem takenFrom_of_ofWord {word argument : List Char} {command : Command}
    (parsed : ofWord word argument = .ok command) : command.TakenFrom argument := by
  unfold ofWord at parsed
  split at parsed
  case h_1 => exact .of_require (fun _ => .simplify) (fun _ => rfl) parsed
  case h_2 => exact .of_require (fun _ => .steps) (fun _ => rfl) parsed
  case h_3 =>
    obtain ⟨arguments, required, split⟩ := except_bind_eq_ok.mp parsed
    obtain ⟨rfl, -⟩ := require_eq_ok.mp required
    simp only at split
    split at split
    next isName =>
      have within := (splitFirst_suffix isBlank (trim argument)).isInfix
      apply TakenFrom.mono (within.trans (isInfix_trim argument))
      refine .of_require (fun _ isArgument => .deriv ?_ isArgument) (fun _ => rfl) split
      rwa [String.toList_ofList]
    next => cases split
  case h_4 =>
    cases parsed
    exact ⟨.vars, by simp [source?], by simp [source?]⟩
  case h_5 =>
    cases parsed
    exact ⟨.clear, by simp [source?], by simp [source?]⟩
  case h_6 =>
    cases parsed
    exact ⟨.help, by simp [source?], by simp [source?]⟩
  case h_7 => cases parsed

private theorem takenFrom_of_ofAssignment {target argument : List Char} {command : Command}
    (parsed : ofAssignment target argument = .ok command) : command.TakenFrom argument := by
  simp only [ofAssignment] at parsed
  split at parsed
  next isName =>
    refine .of_require (fun _ isArgument => .assign ?_ isArgument) (fun _ => rfl) parsed
    rwa [String.toList_ofList]
  next => cases parsed

theorem ofLine_eq_ok {command : Command} (parsed : ofLine line = .ok command) :
    (command = .eval (String.ofList (trim line)) ∧ ':' ∉ (trim line).head? ∧ '=' ∉ trim line) ∨
      command.TakenFrom line := by
  unfold ofLine at parsed
  split at parsed
  next rest same =>
    apply Or.inr
    apply TakenFrom.mono (isInfix_trim line)
    rw [same]
    have within := (splitFirst_suffix isBlank rest).trans (List.suffix_cons ':' rest)
    exact (takenFrom_of_ofWord parsed).mono within.isInfix
  next noColon =>
    split at parsed
    next target argument split =>
      apply Or.inr
      apply TakenFrom.mono (isInfix_trim line)
      obtain ⟨separator, -, same⟩ := splitFirst?_eq_some split
      rw [same]
      exact (takenFrom_of_ofAssignment parsed).mono ⟨target ++ [separator], [], by simp⟩
    next noSign =>
      cases parsed
      refine .inl ⟨rfl, ?_, splitFirst?_beq_eq_none_iff.mp noSign⟩
      intro colon
      obtain ⟨rest, same⟩ := List.head?_eq_some_iff.mp colon
      exact noColon rest same

/-- Only names are assigned to. -/
theorem isName_of_parse_assign {line name expression : String}
    (parsed : parse line = .ok (.assign name expression)) : isName name.toList = true := by
  rcases ofLine_eq_ok parsed with ⟨same, -⟩ | taken
  · cases same
  · cases taken.canonical with
    | assign isName _ => exact isName

/-- A line that begins with the sign of a comment is no command, or an expression. -/
theorem ofLine_comment (comment : '#' ∈ (trim line).head?) :
    (∃ target, ofLine line = .error (.invalidTarget target)) ∨
      ofLine line = .ok (.eval (String.ofList (trim line))) := by
  have noColon : ':' ∉ (trim line).head? := by
    intro colon
    cases comment.symm.trans colon
  cases split : splitFirst? (· == '=') (trim line) with
  | none => exact .inr (ofLine_of_noSign noColon split)
  | some parts =>
      obtain ⟨target, expression⟩ := parts
      refine .inl ⟨String.ofList (trim target), ?_⟩
      -- What stands before an equals sign begins with the sign of the comment, or is empty.
      have noName : ¬isName (trim target) = true := by
        intro isName
        obtain ⟨separator, sign, same⟩ := splitFirst?_eq_some split
        rw [same] at comment
        cases target with
        | nil =>
            cases comment
            cases sign
        | cons first rest =>
            cases comment
            obtain ⟨other, begins⟩ := exists_mem_head?_of_isName isName
            cases mem_head?_of_trim rfl (by decide) begins
            cases isNameStart_of_mem_head? isName begins
      rw [ofLine_of_split noColon split, ofAssignment, if_neg noName]
      rfl

end Command

end Calculator
