import Mathlib.Algebra.Field.Rat
import Calculator.Proofs.Number.Field
import Calculator.Proofs.Number.Rational
import Calculator.Proofs.Parser.Concatenation
import Calculator.Proofs.Parser.RoundTrip
import Calculator.Proofs.Session.Step

/-!
# Scripts without the lines that do nothing

Blank lines, comments and lines that fail leave no trace in the output of a script: the
script without them prints the same, and succeeds. The lines that are skipped would have
failed.
-/

set_option autoImplicit false

namespace Calculator

/-! ## Lines of a text -/

private theorem splitAtLineFeeds_cons (first : Char) (text : List Char) :
    splitAtLineFeeds (first :: text) =
      if first == '\n' then [] :: splitAtLineFeeds text
      else (splitAtLineFeeds text).modifyHead (first :: ·) :=
  List.splitOnP_cons_eq_if_modifyHead (p := (· == '\n')) first text

private theorem not_mem_of_mem_splitAtLineFeeds {text line : List Char}
    (member : line ∈ splitAtLineFeeds text) : '\n' ∉ line := by
  induction text generalizing line with
  | nil =>
      cases List.mem_singleton.mp member
      exact List.not_mem_nil
  | cons first text ih =>
      rw [splitAtLineFeeds_cons] at member
      split at member
      next =>
        rcases List.mem_cons.mp member with rfl | later
        · exact List.not_mem_nil
        · exact ih later
      next other =>
        cases lines : splitAtLineFeeds text with
        | nil =>
            rw [lines] at member
            cases member
        | cons head rest =>
            rw [lines] at member ih
            rcases List.mem_cons.mp member with rfl | later
            · intro feed
              rcases List.mem_cons.mp feed with rfl | inHead
              · exact other (beq_self_eq_true _)
              · exact ih List.mem_cons_self inHead
            · exact ih (List.mem_cons_of_mem _ later)

/-- The text of some lines, with a line feed between each two of them. -/
def joinLines (lines : List (List Char)) : String :=
  String.ofList (['\n'].intercalate lines)

namespace Script

/-- The lines that are run among those of a text, without outer blanks. -/
def runnable (lines : List (List Char)) : List String :=
  ((lines.map trim).filter (!isSkipped ·)).map String.ofList

private theorem lines_eq_runnable (text : String) :
    lines text = runnable (splitAtLineFeeds text.toList) := rfl

private theorem runnable_cons (line : List Char) (rest : List (List Char)) :
    runnable (line :: rest) =
      if isSkipped (trim line) then runnable rest
      else String.ofList (trim line) :: runnable rest := by
  by_cases skipped : isSkipped (trim line) = true <;> simp [runnable, skipped]

private theorem lines_joinLines {lines : List (List Char)} (noFeed : ∀ line ∈ lines, '\n' ∉ line) :
    Script.lines (joinLines lines) = runnable lines := by
  rw [lines_eq_runnable, joinLines, String.toList_ofList]
  by_cases empty : lines = []
  · subst empty
    rfl
  · rw [splitAtLineFeeds, List.splitOn_intercalate '\n' noFeed empty]

end Script

variable {α : Type} [Arithmetic α] [Numeral α]

/-! ## Skipped lines -/

/-- Nothing is read from a source whose first word begins no expression. -/
theorem Expr.ofText_ne_ok {source : String}
    (noStart : ∀ word ∈ (sourceWords source).head?, word.kind = .symbol) (expr : Expr α) :
    Expr.ofText source ≠ .ok expr := by
  intro read
  obtain ⟨derivation, spells, -⟩ := Expr.ofText_eq_ok.mp read
  obtain ⟨word, rest, words, kind⟩ := derivation.words_eq_cons
  have symbol := noStart word (by rw [← spells.words_eq, words]; rfl)
  rw [symbol] at kind
  cases derivation <;> cases kind

private theorem sourceWords_empty : sourceWords "" = [] :=
  wordsFrom_nil 0

private theorem head?_sourceWords_comment (rest : List Char) :
    ∀ word ∈ (sourceWords (String.ofList ('#' :: rest))).head?, word.kind = .symbol := by
  have sign : munch '#' rest = (.symbol, 0) := rfl
  have words : sourceWords (String.ofList ('#' :: rest)) = wordsFrom 0 ('#' :: rest) := by
    rw [sourceWords, tokenize, String.toList_ofList]
    rfl
  intro word member
  rw [words, wordsFrom_symbol sign (by decide)] at member
  cases member
  rfl

namespace Session

variable {session : Session α}

private theorem runLine_of_invalid {line : String} {error : CommandError}
    (invalid : Command.parse line = .error error) :
    runLine line session = .error (.command error) session := by
  rw [runLine, invalid]
  rfl

private theorem runLine_of_noExpression {line text : String}
    (parsed : Command.parse line = .ok (.eval text))
    (noExpression : ∀ expr : Expr α, Expr.ofText text ≠ .ok expr) :
    ∃ error next, runLine line session = .error error next := by
  cases ran : runLine line session with
  | error error next => exact ⟨error, next, rfl⟩
  | ok output next =>
      obtain ⟨_, sameParsed, done⟩ := runLine_eq_ok.mp ran
      cases parsed.symm.trans sameParsed
      obtain ⟨_, evaluated, -⟩ := ofExcept_bind_eq_ok.mp done
      obtain ⟨expr, read, -⟩ := value_eq_ok.mp evaluated
      exact absurd read (noExpression expr)

/-- A line that scripts skip would fail. -/
theorem runLine_skipped (session : Session α) {line : List Char}
    (skipped : Script.isSkipped (trim line) = true) :
    ∃ error next, runLine (String.ofList (trim line)) session = .error error next := by
  have parse_eq : Command.parse (String.ofList (trim line)) = Command.ofLine line := by
    rw [Command.parse, String.toList_ofList, Command.ofLine_trim]
  -- A blank line is an empty source, and a comment no assignment but a source with a sign that
  -- begins no expression.
  cases left : trim line with
  | nil =>
      rw [left] at parse_eq
      apply runLine_of_noExpression (parse_eq.trans (Command.ofLine_blank left))
      apply Expr.ofText_ne_ok
      simp [sourceWords_empty]
  | cons first rest =>
      rw [left] at skipped parse_eq
      cases beq_iff_eq.mp skipped
      have comment : '#' ∈ (trim line).head? := by
        rw [left]
        rfl
      rcases Command.ofLine_comment comment with ⟨target, refused⟩ | evaluated
      · exact ⟨_, _, runLine_of_invalid (parse_eq.trans refused)⟩
      · apply runLine_of_noExpression (parse_eq.trans evaluated)
        rw [left]
        exact Expr.ofText_ne_ok (head?_sourceWords_comment rest)

end Session

/-! ## Transcripts -/

namespace Transcript

private theorem output_append (first second : List Printed) :
    output ⟨first ++ second⟩ = output ⟨first⟩ ++ output ⟨second⟩ :=
  List.filterMap_append

private theorem failures_append (first second : List Printed) :
    failures ⟨first ++ second⟩ = failures ⟨first⟩ ++ failures ⟨second⟩ :=
  List.filterMap_append

private theorem output_map_output (lines : List String) : output ⟨lines.map .output⟩ = lines := by
  induction lines with
  | nil => rfl
  | cons line rest ih => exact congrArg (line :: ·) ih

private theorem failures_map_output (lines : List String) : failures ⟨lines.map .output⟩ = [] := by
  induction lines with
  | nil => rfl
  | cons line rest ih => exact ih

private theorem exitCode_eq_zero {transcript : Transcript} :
    transcript.exitCode = 0 ↔ transcript.failures = [] := by
  rw [exitCode]
  cases transcript.failures <;> simp

end Transcript

namespace Script

/-! ## Visits -/

/-- A line of a script as it is written, and the session in force when its turn comes. -/
structure Visit (α : Type) where
  session : Session α
  line : List Char

namespace Visit

def isSkipped (visit : Visit α) : Bool :=
  Script.isSkipped (trim visit.line)

def text (visit : Visit α) : String :=
  String.ofList (trim visit.line)

/-- What running the line in the session gives, also if the script skips it. -/
def result (visit : Visit α) : EStateM.Result LineError (Session α) (List String) :=
  Session.runLine visit.text visit.session

def succeeds (visit : Visit α) : Bool :=
  !visit.isSkipped && visit.session.accepts visit.text

def output (visit : Visit α) : List String :=
  match visit.result with
  | .ok output _ => output
  | .error _ _ => []

/-- What the script prints at the line, and the session after it. -/
def outcome (visit : Visit α) : List Printed × Session α :=
  if visit.isSkipped then ([], visit.session) else Script.runLine visit.session visit.text

end Visit

/-- The visits to some lines, the first of them in a given session. -/
def visits : Session α → List (List Char) → List (Visit α)
  | _, [] => []
  | session, line :: rest =>
      let visit : Visit α := ⟨session, line⟩
      visit :: visits visit.outcome.2 rest

def visited (α : Type) [Arithmetic α] [Numeral α] (text : String) : List (Visit α) :=
  visits Session.new (splitAtLineFeeds text.toList)

/-- A script without the lines that are blank, are comments or fail. -/
def reduced (α : Type) [Arithmetic α] [Numeral α] (text : String) : String :=
  joinLines (((visited α text).filter Visit.succeeds).map Visit.line)

namespace Visit

variable {visit : Visit α}

private theorem result_of_isSkipped (skipped : visit.isSkipped = true) :
    ∃ error next, visit.result = .error error next :=
  visit.session.runLine_skipped skipped

/-- A line is skipped, or fails and leaves the session as it was, or succeeds. -/
theorem outcome_cases (visit : Visit α) :
    (visit.isSkipped = true ∧ visit.succeeds = false ∧ visit.outcome = ([], visit.session)) ∨
    (visit.isSkipped = false ∧ visit.succeeds = false ∧
      (∃ error next, visit.result = .error error next) ∧
      ∃ diagnostic, visit.outcome = ([.failure diagnostic], visit.session)) ∨
    (visit.isSkipped = false ∧ visit.succeeds = true ∧
      (∃ printed next, visit.result = .ok printed next) ∧
      visit.outcome.1 = visit.output.map .output) := by
  cases skipped : visit.isSkipped with
  | true => exact .inl ⟨rfl, by rw [succeeds, skipped]; rfl, by rw [outcome, skipped]; rfl⟩
  | false =>
      have runs : visit.outcome = Script.runLine visit.session visit.text := by
        rw [outcome, skipped]
        rfl
      cases ran : Session.runLine visit.text visit.session with
      | error error next =>
          have fails : visit.succeeds = false := by
            rw [succeeds, skipped, Session.accepts, ran]
            rfl
          exact .inr (.inl ⟨rfl, fails, ⟨error, next, ran⟩, _, runs.trans (runLine_of_error ran)⟩)
      | ok printed next =>
          have passes : visit.succeeds = true := by
            rw [succeeds, skipped, Session.accepts, ran]
            rfl
          refine .inr (.inr ⟨rfl, passes, ⟨printed, next, ran⟩, ?_⟩)
          rw [runs, runLine_of_ok ran, output, result, ran]

private theorem session_of_not_succeeds (fails : visit.succeeds = false) :
    visit.outcome.2 = visit.session := by
  rcases visit.outcome_cases with ⟨-, -, done⟩ | ⟨-, -, -, _, done⟩ | ⟨-, succeeds, -⟩
  · rw [done]
  · rw [done]
  · cases fails.symm.trans succeeds

end Visit

/-! ## What is printed -/

private theorem runLines_runnable (session : Session α) (lines : List (List Char)) :
    (runLines session (runnable lines)).1 = (visits session lines).flatMap (·.outcome.1) := by
  induction lines generalizing session with
  | nil => rfl
  | cons line rest ih =>
      rw [runnable_cons, visits, List.flatMap_cons, ← ih]
      cases skipped : isSkipped (trim line) with
      | true => simp [Visit.outcome, Visit.isSkipped, skipped]
      | false => simp [Visit.outcome, Visit.isSkipped, Visit.text, skipped, runLines]

private theorem run_eq_visited (text : String) :
    run α text = ⟨(visited α text).flatMap (·.outcome.1)⟩ := by
  rw [run, lines_eq_runnable, runLines_runnable, visited]

/-- Every line is visited once, in order. -/
theorem map_line_visits (session : Session α) (lines : List (List Char)) :
    (visits session lines).map Visit.line = lines := by
  induction lines generalizing session with
  | nil => rfl
  | cons line rest ih => rw [visits, List.map_cons, ih]

/-- Without the lines that do nothing, each line is visited in the same session. -/
theorem visits_succeeding (session : Session α) (lines : List (List Char)) :
    visits session (((visits session lines).filter Visit.succeeds).map Visit.line) =
      (visits session lines).filter Visit.succeeds := by
  induction lines generalizing session with
  | nil => rfl
  | cons line rest ih =>
      rw [visits]
      -- A line that is left out has not changed the session, so the rest is visited as before.
      cases succeeds : Visit.succeeds ⟨session, line⟩ with
      | true => rw [List.filter_cons_of_pos succeeds, List.map_cons, visits, ih]
      | false =>
          rw [List.filter_cons_of_neg (by rw [succeeds]; decide),
            Visit.session_of_not_succeeds succeeds, ih]

private theorem run_reduced (text : String) :
    run α (reduced α text) = ⟨((visited α text).filter Visit.succeeds).flatMap (·.outcome.1)⟩ := by
  -- No line has a line feed in it, so the lines that are joined are those of the joined text.
  have noFeed : ∀ line ∈ ((visited α text).filter Visit.succeeds).map Visit.line,
      '\n' ∉ line := by
    intro line member
    obtain ⟨visit, kept, rfl⟩ := List.mem_map.mp member
    have visited := List.mem_map_of_mem (f := Visit.line) (List.mem_filter.mp kept).1
    rw [Script.visited, map_line_visits] at visited
    exact not_mem_of_mem_splitAtLineFeeds visited
  rw [run, reduced, lines_joinLines noFeed, runLines_runnable, visited, visits_succeeding]

private theorem output_visits (visits : List (Visit α)) :
    Transcript.output ⟨visits.flatMap (·.outcome.1)⟩ =
      (visits.filter Visit.succeeds).flatMap Visit.output := by
  induction visits with
  | nil => rfl
  | cons visit rest ih =>
      rw [List.flatMap_cons, Transcript.output_append, ih]
      rcases visit.outcome_cases with ⟨-, fails, done⟩ | ⟨-, fails, -, _, done⟩ |
        ⟨-, succeeds, -, done⟩
      · rw [done, List.filter_cons_of_neg (by simp [fails])]
        rfl
      · rw [done, List.filter_cons_of_neg (by simp [fails])]
        rfl
      · rw [done, Transcript.output_map_output, List.filter_cons_of_pos succeeds, List.flatMap_cons]

private theorem failures_visits (visits : List (Visit α)) :
    Transcript.failures ⟨visits.flatMap (·.outcome.1)⟩ = [] ↔
      ∀ visit ∈ visits, visit.isSkipped = false →
        ∀ error next, visit.result ≠ .error error next := by
  induction visits with
  | nil => simp [Transcript.failures]
  | cons visit rest ih =>
      rw [List.flatMap_cons, Transcript.failures_append, List.append_eq_nil_iff, ih,
        List.forall_mem_cons]
      apply and_congr_left
      intro _
      rcases visit.outcome_cases with ⟨skipped, -, done⟩ | ⟨runs, -, ⟨error, next, failed⟩, _, done⟩ |
        ⟨-, -, ⟨printed, next, ran⟩, done⟩
      · simp [done, skipped, Transcript.failures]
      · simp [done, runs, failed, Transcript.failures]
      · simp [done, ran, Transcript.failures_map_output]

end Script

/-- A script prints what its successful lines print, and so does the script that keeps only
these, which succeeds. The script itself succeeds if no line that is run fails; those that are
skipped would have failed and changed nothing. -/
theorem Script.failing_lines_invisible (α : Type) [Arithmetic α] [Numeral α] (text : String) :
    (run α text).outputText =
      String.join
        ((((visited α text).filter Visit.succeeds).flatMap Visit.output).map (· ++ "\n")) ∧
    (run α (reduced α text)).outputText = (run α text).outputText ∧
    (run α (reduced α text)).exitCode = 0 ∧
    ((run α text).exitCode = 0 ↔ ∀ visit ∈ visited α text, visit.isSkipped = false →
      ∀ error next, visit.result ≠ .error error next) ∧
    ∀ visit ∈ visited α text, visit.isSkipped = true →
      (∃ error next, visit.result = .error error next) ∧
        (Script.runLine visit.session visit.text).2 = visit.session := by
  have output : (run α text).output =
      ((visited α text).filter Visit.succeeds).flatMap Visit.output := by
    rw [run_eq_visited, output_visits]
  have outputReduced : (run α (reduced α text)).output =
      ((visited α text).filter Visit.succeeds).flatMap Visit.output := by
    rw [run_reduced, output_visits, List.filter_filter]
    simp
  refine ⟨?printed, ?same, ?reducedSucceeds, ?succeeds, ?skipped⟩
  · rw [Transcript.outputText, output]
  · rw [Transcript.outputText, outputReduced, Transcript.outputText, output]
  · rw [run_reduced, Transcript.exitCode_eq_zero, failures_visits]
    intro visit kept _ error next failed
    rcases visit.outcome_cases with ⟨-, fails, -⟩ | ⟨-, fails, -⟩ | ⟨-, -, ⟨_, _, ran⟩, -⟩
    · cases fails.symm.trans (List.mem_filter.mp kept).2
    · cases fails.symm.trans (List.mem_filter.mp kept).2
    · cases failed.symm.trans ran
  · rw [run_eq_visited, Transcript.exitCode_eq_zero, failures_visits]
  · intro visit _ skipped
    obtain ⟨error, next, failed⟩ := Visit.result_of_isSkipped skipped
    refine ⟨⟨error, next, failed⟩, ?_⟩
    rw [Script.runLine_of_error failed]

/-- A script with a comment that holds an assignment, a blank line and two lines that fail. -/
def commentedScript : String :=
  "x = 2\n  # x = 3\n\n:steps\nx = (x / 0)\n x "

theorem Script.failing_lines_invisible_commented :
    reduced ℚ commentedScript = "x = 2\n x " ∧
    (run ℚ commentedScript).outputText = "x = 2\n2\n" ∧
    (run ℚ "x = 2\n x ").outputText = "x = 2\n2\n" ∧
    (run ℚ "x = 2\n x ").exitCode = 0 ∧
    (∃ visit ∈ visited ℚ commentedScript, visit.isSkipped = false ∧
      ∃ error next, visit.result = .error error next) ∧
    ∃ visit ∈ visited ℚ commentedScript, visit.line = "  # x = 3".toList ∧
      visit.session.context.find? "x" = some 2 ∧
        ∃ error next, visit.result = .error error next := by
  obtain ⟨-, same, succeeds, failure, skipped⟩ := failing_lines_invisible ℚ commentedScript
  have kept : reduced ℚ commentedScript = "x = 2\n x " := by decide +kernel
  have output : (run ℚ commentedScript).outputText = "x = 2\n2\n" := by decide +kernel
  have fails : (run ℚ commentedScript).exitCode ≠ 0 := by decide +kernel
  rw [kept, output] at same
  rw [kept] at succeeds
  refine ⟨kept, output, same, succeeds, ?_, ?_⟩
  · rw [Ne, failure] at fails
    push Not at fails
    exact fails
  · have comment : ∃ visit ∈ visited ℚ commentedScript, visit.isSkipped = true ∧
        visit.line = "  # x = 3".toList ∧ visit.session.context.find? "x" = some 2 := by
      decide +kernel
    obtain ⟨visit, member, isSkipped, line, bound⟩ := comment
    exact ⟨visit, member, line, bound, (skipped visit member isSkipped).1⟩

end Calculator
