import Calculator.Proofs.Parser.Derivation

/-!
# Prefixes of sentences

Words are viable if more words make them a sentence that nests at most `nestingLimit`
parentheses. One scan from left to right decides that: it keeps the operations whose
parentheses are open, and what the next word has to be.
-/

set_option autoImplicit false

namespace Calculator

/-- Some continuation is a sentence whose parentheses are not nested too deeply. -/
def Viable (words : List Token) : Prop :=
  ∃ (more : List Token) (derivation : Derivation),
    derivation.words = words ++ more ∧ derivation.nesting ≤ nestingLimit

/-- The words are a sentence, whose parentheses may be nested in any way. -/
def IsSentence (words : List Token) : Prop :=
  ∃ derivation : Derivation, derivation.words = words

/-- Nothing is missing from the last operand. -/
def EndsWithOperand (words : List Token) : Prop :=
  ∃ (before : List Token) (operand : Derivation), words = before ++ operand.words

/-- A name, which stands nowhere but at the start of an operand, may follow the words. -/
def OperandMayFollow (words : List Token) : Prop :=
  ∃ name : TokenOf .name, Viable (words ++ [name.val])

def openAfter (opened : List Token) (word : Token) : List Token :=
  if word.kind = .openParen then word :: opened
  else if word.kind = .closeParen then opened.tail
  else opened

/-- The parentheses that are open behind the words, the innermost first. -/
def openParens (words : List Token) : List Token :=
  words.foldl openAfter []

instance (kind : TokenKind) : Inhabited (TokenOf kind) :=
  ⟨⟨⟨kind, kind.label, default⟩, rfl⟩⟩

/-! ## Scanning -/

theorem OperatorToken.noParenthesis (word : OperatorToken) :
    word.token.kind ≠ .openParen ∧ word.token.kind ≠ .closeParen := by
  have writes := word.writes
  constructor <;>
    intro kind <;>
    rw [kind] at writes <;>
    cases writes

/-- An operation whose parenthesis is open, and whether its operator was read. -/
structure OpenOperation where
  opening : Token
  pastOperator : Bool

/-- What the next word has to be: the first word of an operand, the numeral behind its
minus sign, or what follows it. -/
inductive Expectation where
  | operand
  | numeral
  | continuation
deriving DecidableEq

/-- What the words that were read say about the next one. The innermost operation is the
first. -/
structure Scan where
  opened : List OpenOperation
  expects : Expectation

namespace Scan

def start : Scan :=
  ⟨[], .operand⟩

def step : Scan → Token → Option Scan
  | ⟨opened, .operand⟩, word =>
      match word.kind with
      | .name | .num => some ⟨opened, .continuation⟩
      | .sub => some ⟨opened, .numeral⟩
      | .openParen =>
          if opened.length < nestingLimit then some ⟨⟨word, false⟩ :: opened, .operand⟩ else none
      | _ => none
  | ⟨opened, .numeral⟩, word =>
      if word.kind = .num then some ⟨opened, .continuation⟩ else none
  | ⟨[], .continuation⟩, _ => none
  | ⟨⟨opening, false⟩ :: outer, .continuation⟩, word =>
      if word.kind.isOperator then some ⟨⟨opening, true⟩ :: outer, .operand⟩ else none
  | ⟨⟨_, true⟩ :: outer, .continuation⟩, word =>
      if word.kind = .closeParen then some ⟨outer, .continuation⟩ else none

def run : Scan → List Token → Option Scan
  | scan, [] => some scan
  | scan, word :: rest => (scan.step word).bind fun next => next.run rest

/-- The steps of a scan, one for each use that a grammar rule has for a word. -/
inductive Step : Scan → Token → Scan → Prop where
  | name {opened : List OpenOperation} (word : TokenOf .name) :
      Step ⟨opened, .operand⟩ word.val ⟨opened, .continuation⟩
  | numeral {opened : List OpenOperation} (word : TokenOf .num) :
      Step ⟨opened, .operand⟩ word.val ⟨opened, .continuation⟩
  | minus {opened : List OpenOperation} (word : TokenOf .sub) :
      Step ⟨opened, .operand⟩ word.val ⟨opened, .numeral⟩
  | opening {opened : List OpenOperation} (word : TokenOf .openParen) :
      opened.length < nestingLimit →
      Step ⟨opened, .operand⟩ word.val ⟨⟨word.val, false⟩ :: opened, .operand⟩
  | magnitude {opened : List OpenOperation} (word : TokenOf .num) :
      Step ⟨opened, .numeral⟩ word.val ⟨opened, .continuation⟩
  | operator {opening : Token} {outer : List OpenOperation} (word : OperatorToken) :
      Step ⟨⟨opening, false⟩ :: outer, .continuation⟩ word.token
        ⟨⟨opening, true⟩ :: outer, .operand⟩
  | closing {opening : Token} {outer : List OpenOperation} (word : TokenOf .closeParen) :
      Step ⟨⟨opening, true⟩ :: outer, .continuation⟩ word.val ⟨outer, .continuation⟩

variable {scan next last : Scan} {word : Token} {words more : List Token}

private theorem Step.step_eq (taken : Step scan word next) : scan.step word = some next := by
  cases taken with
  | name word => simp only [step, word.property]
  | numeral word => simp only [step, word.property]
  | minus word => simp only [step, word.property]
  | opening word room => simp only [step, word.property, room, if_true]
  | magnitude word => simp only [step, word.property, if_true]
  | operator word =>
      simp only [step, TokenKind.isOperator_iff.mpr ⟨_, word.writes⟩, if_true]
  | closing word => simp only [step, word.property, if_true]

theorem step_eq_some_iff : scan.step word = some next ↔ Step scan word next := by
  constructor
  · intro taken
    obtain ⟨opened, expects⟩ := scan
    cases expects with
    | operand =>
        simp only [step] at taken
        split at taken
        next kind => cases taken; exact .name ⟨word, kind⟩
        next kind => cases taken; exact .numeral ⟨word, kind⟩
        next kind => cases taken; exact .minus ⟨word, kind⟩
        next kind =>
          split at taken
          next room => cases taken; exact .opening ⟨word, kind⟩ room
          next => cases taken
        next => cases taken
    | numeral =>
        simp only [step] at taken
        split at taken
        next kind => cases taken; exact .magnitude ⟨word, kind⟩
        next => cases taken
    | continuation =>
        rcases opened with _ | ⟨⟨opening, _ | _⟩, outer⟩
        · cases taken
        · simp only [step] at taken
          split at taken
          next isOperator =>
            cases taken
            obtain ⟨operator, writes⟩ := TokenKind.isOperator_iff.mp isOperator
            exact .operator ⟨word, operator, writes⟩
          next => cases taken
        · simp only [step] at taken
          split at taken
          next kind => cases taken; exact .closing ⟨word, kind⟩
          next => cases taken
  · exact Step.step_eq

theorem run_cons (taken : Step scan word next) (rest : List Token) :
    scan.run (word :: rest) = next.run rest := by
  rw [run, taken.step_eq]
  rfl

private theorem exists_step_of_run_cons (all : scan.run (word :: more) = some last) :
    ∃ next, Step scan word next ∧ next.run more = some last := by
  obtain ⟨next, stepped, rest⟩ := Option.bind_eq_some_iff.mp all
  exact ⟨next, step_eq_some_iff.mp stepped, rest⟩

private theorem run_append (scan : Scan) (front back : List Token) :
    scan.run (front ++ back) = (scan.run front).bind fun next => next.run back := by
  induction front generalizing scan with
  | nil => rfl
  | cons word front ih =>
      rw [List.cons_append, run, run]
      cases scan.step word with
      | none => rfl
      | some next => exact ih next

theorem run_append_of_run (front : scan.run words = some next) (back : List Token) :
    scan.run (words ++ back) = next.run back := by
  rw [run_append, front]
  rfl

private theorem exists_run_of_append (all : scan.run (words ++ more) = some last) :
    ∃ next, scan.run words = some next ∧ next.run more = some last := by
  rw [run_append] at all
  exact Option.bind_eq_some_iff.mp all

end Scan

/-! ## A scan of a sentence -/

/-- A derivation is read as an operand where its parentheses may be opened. -/
theorem Derivation.run_words (derivation : Derivation) {opened : List OpenOperation}
    (room : derivation.nesting + opened.length ≤ nestingLimit) :
    Scan.run ⟨opened, .operand⟩ derivation.words = some ⟨opened, .continuation⟩ := by
  induction derivation generalizing opened with
  | name word => exact Scan.run_cons (.name word) []
  | numeral word => exact Scan.run_cons (.numeral word) []
  | negative minus word =>
      rw [words, Scan.run_cons (.minus minus)]
      exact Scan.run_cons (.magnitude word) []
  | operation opening lhs operator rhs closing lhsIH rhsIH =>
      rw [nesting] at room
      have inside : opened.length < nestingLimit := by omega
      have lhsRoom :
          lhs.nesting + (OpenOperation.mk opening.val false :: opened).length ≤ nestingLimit := by
        rw [List.length_cons]
        omega
      have rhsRoom :
          rhs.nesting + (OpenOperation.mk opening.val true :: opened).length ≤ nestingLimit := by
        rw [List.length_cons]
        omega
      have words := words_operation_append opening lhs operator rhs closing []
      rw [List.append_nil] at words
      rw [words, Scan.run_cons (.opening opening inside), Scan.run_append_of_run (lhsIH lhsRoom),
        Scan.run_cons (.operator operator), Scan.run_append_of_run (rhsIH rhsRoom)]
      exact Scan.run_cons (.closing closing) []

namespace Scan

private theorem exists_closing (opened : List OpenOperation) :
    ∃ more, run ⟨opened, .continuation⟩ more = some ⟨[], .continuation⟩ := by
  induction opened with
  | nil => exact ⟨[], rfl⟩
  | cons operation outer ih =>
      obtain ⟨more, closed⟩ := ih
      let closing : TokenOf .closeParen := default
      have close (opening : Token) :
          run ⟨⟨opening, true⟩ :: outer, .continuation⟩ (closing.val :: more) =
            some ⟨[], .continuation⟩ := by
        rwa [run_cons (.closing closing)]
      obtain ⟨opening, pastOperator⟩ := operation
      cases pastOperator with
      | true => exact ⟨closing.val :: more, close opening⟩
      | false =>
          let plus : OperatorToken := ⟨(default : TokenOf .add).val, .add, .add⟩
          let name : TokenOf .name := default
          refine ⟨plus.token :: name.val :: closing.val :: more, ?_⟩
          rw [run_cons (.operator plus), run_cons (.name name)]
          exact close opening

/-- Whatever was read, a sentence can be made of it. -/
theorem exists_completion (scan : Scan) :
    ∃ more, scan.run more = some ⟨[], .continuation⟩ := by
  obtain ⟨opened, expects⟩ := scan
  obtain ⟨more, closed⟩ := exists_closing opened
  cases expects with
  | continuation => exact ⟨more, closed⟩
  | operand =>
      let name : TokenOf .name := default
      exact ⟨name.val :: more, by rwa [run_cons (.name name)]⟩
  | numeral =>
      let numeral : TokenOf .num := default
      exact ⟨numeral.val :: more, by rwa [run_cons (.magnitude numeral)]⟩

end Scan

/-! ## What was read -/

/-- The words in front of an operand inside of the open operations. -/
inductive PrecedesOperand : List OpenOperation → List Token → Prop where
  | start : PrecedesOperand [] []
  | opening {outer : List OpenOperation} {words : List Token} (word : TokenOf .openParen) :
      PrecedesOperand outer words → outer.length < nestingLimit →
      PrecedesOperand (⟨word.val, false⟩ :: outer) (words ++ [word.val])
  | operator {opening : Token} {outer : List OpenOperation} {words : List Token}
      (lhs : Derivation) (word : OperatorToken) :
      PrecedesOperand (⟨opening, false⟩ :: outer) words →
      lhs.nesting + outer.length < nestingLimit →
      PrecedesOperand (⟨opening, true⟩ :: outer) (words ++ lhs.words ++ [word.token])

private theorem PrecedesOperand.length_le {opened : List OpenOperation} {words : List Token}
    (precedes : PrecedesOperand opened words) : opened.length ≤ nestingLimit := by
  cases precedes with
  | start => exact Nat.zero_le _
  | opening word _ room => exact room
  | operator lhs word _ room =>
      rw [List.length_cons]
      omega

/-- The words that lead to a scan. -/
inductive Scan.Reached : Scan → List Token → Prop where
  | operand {opened : List OpenOperation} {words : List Token} :
      PrecedesOperand opened words → Reached ⟨opened, .operand⟩ words
  | numeral {opened : List OpenOperation} {words : List Token} (minus : TokenOf .sub) :
      PrecedesOperand opened words → Reached ⟨opened, .numeral⟩ (words ++ [minus.val])
  | continuation {opened : List OpenOperation} {words : List Token} (operand : Derivation) :
      PrecedesOperand opened words → operand.nesting + opened.length ≤ nestingLimit →
      Reached ⟨opened, .continuation⟩ (words ++ operand.words)

namespace Scan

variable {scan next : Scan} {word : Token} {words more : List Token}

private theorem Reached.leaf {opened : List OpenOperation} {leaf : Derivation}
    (flat : leaf.nesting = 0) (precedes : PrecedesOperand opened words) :
    Reached ⟨opened, .continuation⟩ (words ++ leaf.words) := by
  refine .continuation leaf precedes ?_
  rw [flat, Nat.zero_add]
  exact precedes.length_le

private theorem Reached.step (reached : Reached scan words) (taken : Step scan word next) :
    Reached next (words ++ [word]) := by
  cases taken with
  | name word =>
      obtain ⟨precedes⟩ := reached
      have flat : (Derivation.name word).nesting = 0 := rfl
      exact .leaf flat precedes
  | numeral word =>
      obtain ⟨precedes⟩ := reached
      have flat : (Derivation.numeral word).nesting = 0 := rfl
      exact .leaf flat precedes
  | minus word =>
      obtain ⟨precedes⟩ := reached
      exact .numeral word precedes
  | opening word room =>
      obtain ⟨precedes⟩ := reached
      exact .operand (.opening word precedes room)
  | magnitude word =>
      obtain _ | ⟨minus, precedes⟩ := reached
      have flat : (Derivation.negative minus word).nesting = 0 := rfl
      rw [List.append_assoc]
      exact .leaf flat precedes
  | operator word =>
      obtain _ | _ | ⟨lhs, precedes, room⟩ := reached
      exact .operand (.operator lhs word precedes room)
  | @closing _ outer word =>
      -- The words since the parenthesis and the operator make a derivation.
      obtain _ | _ | ⟨rhs, precedes, rhsRoom⟩ := reached
      obtain _ | _ | ⟨lhs, operator, precedes, lhsRoom⟩ := precedes
      obtain _ | @⟨_, before, opening, precedes, _⟩ := precedes
      have words : before ++ [opening.val] ++ lhs.words ++ [operator.token] ++ rhs.words ++
          [word.val] = before ++ (Derivation.operation opening lhs operator rhs word).words := by
        simp [Derivation.words]
      rw [words]
      refine .continuation _ precedes ?_
      rw [List.length_cons] at rhsRoom
      rw [Derivation.nesting]
      omega

private theorem Reached.run (reached : Reached scan words) (taken : scan.run more = some next) :
    Reached next (words ++ more) := by
  induction more generalizing scan words with
  | nil =>
      cases taken
      rwa [List.append_nil]
  | cons word more ih =>
      obtain ⟨middle, stepped, rest⟩ := exists_step_of_run_cons taken
      have later := ih (reached.step stepped) rest
      rwa [List.append_assoc] at later

private theorem reached_of_run (taken : start.run words = some scan) : Reached scan words :=
  Reached.run (.operand .start) taken

/-! ## What the scan of a prefix says -/

/-- Words are viable exactly if a scan reads them. -/
theorem viable_iff_run : Viable words ↔ ∃ scan, start.run words = some scan := by
  constructor
  · intro viable
    obtain ⟨more, derivation, derived, fits⟩ := viable
    have all : start.run (words ++ more) = some ⟨[], .continuation⟩ := by
      rw [← derived]
      exact derivation.run_words fits
    obtain ⟨scan, taken, -⟩ := exists_run_of_append all
    exact ⟨scan, taken⟩
  · intro scanned
    obtain ⟨scan, taken⟩ := scanned
    obtain ⟨more, completed⟩ := scan.exists_completion
    have all : start.run (words ++ more) = some ⟨[], .continuation⟩ := by
      rw [run_append_of_run taken, completed]
    generalize sentence : words ++ more = whole at all
    obtain _ | _ | ⟨derivation, ⟨⟩, fits⟩ := reached_of_run all
    exact ⟨more, derivation, sentence.symm, fits⟩

/-- A prefix is a sentence exactly if its scan is at its end. -/
theorem isSentence_iff (taken : start.run words = some scan) :
    IsSentence words ↔ scan = ⟨[], .continuation⟩ := by
  constructor
  · intro isSentence
    obtain ⟨sentence, rfl⟩ := isSentence
    obtain ⟨more, derivation, derived, fits⟩ := viable_iff_run.mpr ⟨scan, taken⟩
    have same : derivation.words ++ [] = sentence.words ++ more := by rw [derived, List.append_nil]
    obtain ⟨rfl, -⟩ := Derivation.eq_of_words_append same
    have read : start.run derivation.words = some ⟨[], .continuation⟩ := derivation.run_words fits
    exact Option.some.inj (taken.symm.trans read)
  · intro complete
    subst complete
    obtain _ | _ | ⟨derivation, ⟨⟩, fits⟩ := reached_of_run taken
    exact ⟨derivation, rfl⟩

theorem operandMayFollow_iff (taken : start.run words = some scan) :
    OperandMayFollow words ↔ scan.expects = .operand := by
  constructor
  · intro follows
    obtain ⟨⟨name, isName⟩, viable⟩ := follows
    obtain ⟨next, all⟩ := viable_iff_run.mp viable
    rw [run_append_of_run taken] at all
    obtain ⟨_, stepped, -⟩ := exists_step_of_run_cons all
    cases stepped with
    | name | numeral | minus | opening => rfl
    | magnitude word => cases word.property.symm.trans isName
    | operator word =>
        have writes := word.writes
        rw [isName] at writes
        cases writes
    | closing word => cases word.property.symm.trans isName
  · intro operand
    obtain ⟨opened, expects⟩ := scan
    cases operand
    refine ⟨default, viable_iff_run.mpr ⟨⟨opened, .continuation⟩, ?_⟩⟩
    rw [run_append_of_run taken]
    exact run_cons (.name _) []

/-- The last word of an operand is read as the end of one. -/
theorem Step.expects_continuation (taken : Step scan word next)
    (ends : word.kind = .name ∨ word.kind = .num ∨ word.kind = .closeParen) :
    next.expects = .continuation := by
  cases taken with
  | name | numeral | magnitude | closing => rfl
  | minus word | opening word => simp [word.property] at ends
  | operator word =>
      have writes := word.writes
      rcases ends with kind | kind | kind <;> rw [kind] at writes <;> cases writes

end Scan

private theorem Derivation.words_eq_concat (derivation : Derivation) :
    ∃ front last, derivation.words = front ++ [last] ∧
      (last.kind = .name ∨ last.kind = .num ∨ last.kind = .closeParen) := by
  cases derivation with
  | name word => exact ⟨[], word.val, rfl, .inl word.property⟩
  | numeral word => exact ⟨[], word.val, rfl, .inr (.inl word.property)⟩
  | negative minus word => exact ⟨[minus.val], word.val, rfl, .inr (.inl word.property)⟩
  | operation opening lhs operator rhs closing =>
      exact ⟨_, closing.val, rfl, .inr (.inr closing.property)⟩

namespace Scan

variable {scan next : Scan} {word : Token} {words : List Token}

theorem endsWithOperand_iff (taken : start.run words = some scan) :
    EndsWithOperand words ↔ scan.expects = .continuation := by
  constructor
  · intro ends
    obtain ⟨before, operand, rfl⟩ := ends
    obtain ⟨front, last, operandWords, kinds⟩ := operand.words_eq_concat
    rw [operandWords, ← List.append_assoc] at taken
    obtain ⟨middle, -, lastTaken⟩ := exists_run_of_append taken
    obtain ⟨next, stepped, same⟩ := exists_step_of_run_cons lastTaken
    cases same
    exact stepped.expects_continuation kinds
  · intro complete
    obtain _ | _ | ⟨operand, -, -⟩ := reached_of_run taken
    · cases complete
    · cases complete
    · exact ⟨_, operand, rfl⟩

theorem Step.opened_eq (taken : Step scan word next) :
    next.opened.map OpenOperation.opening =
      openAfter (scan.opened.map OpenOperation.opening) word := by
  cases taken with
  | name word | numeral word | minus word | opening word | magnitude word | closing word =>
      simp [openAfter, word.property]
  | operator word => simp [openAfter, word.noParenthesis]

theorem foldl_openAfter_eq {last : Scan} (taken : scan.run words = some last) :
    words.foldl openAfter (scan.opened.map OpenOperation.opening) =
      last.opened.map OpenOperation.opening := by
  induction words generalizing scan with
  | nil =>
      cases taken
      rfl
  | cons word words ih =>
      obtain ⟨next, stepped, rest⟩ := exists_step_of_run_cons taken
      rw [List.foldl_cons, ← stepped.opened_eq]
      exact ih rest

/-- A scan keeps the parentheses that are open. -/
theorem openParens_eq (taken : start.run words = some scan) :
    openParens words = scan.opened.map OpenOperation.opening :=
  foldl_openAfter_eq taken

end Scan

instance (words : List Token) : Decidable (Viable words) :=
  decidable_of_iff ((Scan.start.run words).isSome = true) <| by
    rw [Option.isSome_iff_exists, Scan.viable_iff_run]

end Calculator
