import Mathlib.Algebra.Field.Rat
import Calculator.Proofs.Command.CanonicalText
import Calculator.Proofs.Number.Field
import Calculator.Proofs.Number.Rational
import Calculator.Proofs.Parser.Characters
import Calculator.Proofs.Session.Step

/-!
# Lines that are expressions

No expression is taken for a command or an assignment: as a line it is evaluated. What can
be assigned to are the names, and these are the variables of expressions.
-/

set_option autoImplicit false

namespace Calculator

variable {α : Type} [Arithmetic α] [Numeral α] {source : String} {expr : Expr α}

private theorem Command.parse_of_ofText (read : Expr.ofText source = .ok expr) :
    Command.parse source = .ok (.eval (String.ofList (trim source.toList))) := by
  have absent {character : Char} (other : isTokenCharacter character = false) :
      character ∉ trim source.toList := by
    intro member
    have token := Expr.isTokenCharacter_of_ofText read ((isInfix_trim source.toList).subset member)
    cases token.symm.trans other
  have canonical : (Command.eval (String.ofList (trim source.toList))).Canonical := by
    apply Canonical.eval
    · rw [String.toList_ofList]
      exact trimmed_trim source.toList
    · rw [String.toList_ofList]
      intro colon
      exact absent (by decide) (List.mem_of_mem_head? colon)
    · rw [String.toList_ofList]
      exact absent (by decide)
  have parsed := parse_text canonical
  rwa [text, parse, String.toList_ofList, ofLine_trim] at parsed

private theorem Command.parse_assignment {name expression : String}
    (isName : isName name.toList = true) (isArgument : IsArgument expression) :
    parse (name ++ " = " ++ expression) = .ok (.assign name expression) := by
  have parsed := parse_text (.assign isName isArgument)
  rwa [text] at parsed

namespace Session

private theorem runLine_of_ofText (read : Expr.ofText source = .ok expr) (session : Session α) :
    runLine source session =
      run (.eval (String.ofList (trim source.toList))) session := by
  rw [runLine, Command.parse_of_ofText read]
  rfl

private theorem value_of_ofText {text : String} (read : Expr.ofText text = .ok expr)
    (session : Session α) :
    session.value text = (expr.evaluate session.context).mapError .eval := by
  rw [value, Session.read, read]
  rfl

private theorem runLine_of_evaluate {session : Session α} (read : Expr.ofText source = .ok expr)
    {value : α} (evaluated : expr.evaluate session.context = .ok value) :
    runLine source session = .ok [Numeral.text value] session := by
  rw [runLine_of_ofText read]
  refine run_eval ?_
  rw [value_of_ofText (Expr.ofText_trim read), evaluated]
  rfl

private theorem runLine_of_evaluate_error {session : Session α}
    (read : Expr.ofText source = .ok expr)
    {error : EvalError} (failed : expr.evaluate session.context = .error error) :
    runLine source session = .error (.eval error) session := by
  rw [runLine_of_ofText read]
  apply run_eval_error
  rw [value_of_ofText (Expr.ofText_trim read), failed]
  rfl

/-- An expression as a line is evaluated, whatever blanks are around it, and its variables can
be assigned to. What can be assigned to are names, and a name is read as the variable. -/
theorem expressions_evaluated_as_lines :
    (∀ (source : String) (expr : Expr α), Expr.ofText source = .ok expr →
      (∃ text, Command.parse source = .ok (.eval text) ∧ Expr.ofText text = .ok expr) ∧
      (∀ session : Session α,
        (∀ value, expr.evaluate session.context = .ok value →
          runLine source session = .ok [Numeral.text value] session) ∧
        ∀ error, expr.evaluate session.context = .error error →
          runLine source session = .error (.eval error) session) ∧
      ∀ name ∈ expr.variableNames, ∀ expression, Command.IsArgument expression →
        Command.parse (name ++ " = " ++ expression) = .ok (.assign name expression)) ∧
    (∀ name : String, Command.isName name.toList = true ↔
      Expr.ofText name = .ok (.var name : Expr α)) ∧
    ∀ line name expression, Command.parse line = .ok (.assign name expression) →
      Expr.ofText name = .ok (.var name : Expr α) := by
  refine ⟨?_, fun name => ?_, ?_⟩
  · intro source expr read
    refine ⟨⟨_, Command.parse_of_ofText read, Expr.ofText_trim read⟩, ?_, ?_⟩
    · intro session
      exact ⟨fun _ => runLine_of_evaluate read, fun _ => runLine_of_evaluate_error read⟩
    · intro name member expression isArgument
      have isName := Expr.isName_of_mem_variableNames read member
      exact Command.parse_assignment ((Command.isName_eq _).trans isName) isArgument
  · rw [Command.isName_eq, Expr.ofText_eq_var_iff]
  · intro line name expression parsed
    have isName := Command.isName_of_parse_assign parsed
    exact Expr.ofText_name ((Command.isName_eq _).symm.trans isName)

/-- The product `(x * (y - 2))`. -/
def differenceProduct : Expr ℚ :=
  .mul (.var "x") (.sub (.var "y") (.num 2))

/-- A session in which `x` is three and `y` is four. -/
def boundFactors : Session ℚ :=
  ⟨(NameMap.empty.insert "x" 3).insert "y" 4⟩

theorem expressions_evaluated_as_lines_product :
    Expr.ofText "\t(x * (y - 2))\n" = .ok differenceProduct ∧
      (∃ text, Command.parse "\t(x * (y - 2))\n" = .ok (.eval text) ∧
        Expr.ofText text = .ok differenceProduct) ∧
      runLine "\t(x * (y - 2))\n" boundFactors = .ok ["6"] boundFactors ∧
      "y" ∈ differenceProduct.variableNames ∧ Command.IsArgument "1" ∧
      Command.parse "y = 1" = .ok (.assign "y" "1") ∧
      Expr.ofText "y" = .ok (.var "y" : Expr ℚ) := by
  have read : Expr.ofText "\t(x * (y - 2))\n" = .ok differenceProduct := by decide +kernel
  have value : differenceProduct.evaluate boundFactors.context = .ok 6 := by decide +kernel
  have text : Numeral.text (6 : ℚ) = "6" := by decide +kernel
  have occurs : "y" ∈ differenceProduct.variableNames := by decide +kernel
  have isArgument : Command.IsArgument "1" :=
    ⟨.of_forall (List.forall_mem_singleton.mpr rfl), by decide⟩
  obtain ⟨lines, -, assigned⟩ := expressions_evaluated_as_lines (α := ℚ)
  obtain ⟨parsed, ran, assignable⟩ := lines _ _ read
  have result := (ran boundFactors).1 6 value
  rw [text] at result
  have assignment := assignable "y" occurs "1" isArgument
  exact ⟨read, parsed, result, occurs, isArgument, assignment, assigned _ _ _ assignment⟩

end Session

end Calculator
