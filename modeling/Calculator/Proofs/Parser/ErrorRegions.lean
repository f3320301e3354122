import Calculator.Proofs.Parser.TreeRegions
import Calculator.Report

/-!
# Regions of errors

Every error points at words of the source, or at its end, and what it says of them is so.
-/

set_option autoImplicit false

namespace Calculator

/-- The kind of the word that a fault complains about. -/
def ParseFault.found? : ParseFault → Option TokenKind
  | .unexpectedToken _ found | .expectedOperator found | .expectedCloseParen found => some found
  | _ => none

/-- What an error tells of a source is so. -/
structure ParseError.IsTruthful (error : ParseError) (source : String) : Prop where
  liesIn : ∀ span ∈ error.spans, span.LiesIn source
  increasing : error.spans.Pairwise fun earlier later =>
    earlier.start < later.start ∧ earlier.stop ≤ later.start
  labels_length : error.fault.labels.length = error.spans.length
  labels_shown : (Report.ofParseError source error).labels = error.fault.labels
  found : ∀ kind, error.fault.found? = some kind → kind ≠ .whitespace ∧ kind ≠ .symbol ∧
    ∃ token ∈ tokenize source, token.kind = kind ∧ error.spans.getLast? = some token.span
  unexpectedToken : ∀ expected kind, error.fault = .unexpectedToken expected kind →
    expected ≠ [] ∧ kind ∉ expected
  expectedOperator : ∀ kind, error.fault = .expectedOperator kind →
    ∀ operator, ¬kind.Writes operator
  expectedCloseParen : ∀ kind, error.fault = .expectedCloseParen kind → kind ≠ .closeParen
  unrecognizedToken : ∀ lexeme, error.fault = .unrecognizedToken lexeme →
    ∃ span, error.spans = [span] ∧ span.Selects source lexeme

/-- The errors about a list of words, each with what is the case when it is reported. -/
inductive ParseError.Cites (endSpan : Span) (words : List Token) : ParseError → Prop where
  | empty : Cites endSpan words ⟨[endSpan], .emptyExpression⟩
  | unfinished : Cites endSpan words ⟨[endSpan], .unexpectedEnd⟩
  | leftOver {word : Token} : word ∈ words →
      Cites endSpan words ⟨[word.span.through endSpan], .expectedEnd⟩
  | unexpected {word : Token} {expected : List TokenKind} : word ∈ words →
      word.kind ≠ .symbol → expected ≠ [] → word.kind ∉ expected →
      Cites endSpan words ⟨[word.span], .unexpectedToken expected word.kind⟩
  | unrecognized {word : Token} : word ∈ words → word.kind = .symbol →
      Cites endSpan words ⟨[word.span], .unrecognizedToken word.lexeme⟩
  | noOperator {operand : List Token} {first last word : Token} :
      (operand ++ [word]).Sublist words → operand.head? = some first →
      operand.getLast? = some last → word.kind ≠ .symbol → word.kind.operator? = none →
      Cites endSpan words
        ⟨[first.span.through last.span, word.span], .expectedOperator word.kind⟩
  | noClosing {opening word : Token} : [opening, word].Sublist words →
      word.kind ≠ .symbol → word.kind ≠ .closeParen →
      Cites endSpan words ⟨[opening.span, word.span], .expectedCloseParen word.kind⟩
  | unpaired {word : Token} (opening : Bool) : word ∈ words →
      Cites endSpan words ⟨[word.span], .unclosedParenthesis opening⟩
  | unreadable {word : Token} : word ∈ words →
      Cites endSpan words ⟨[word.span], .invalidNumber word.lexeme⟩
  | tooDeep {word : Token} : word ∈ words →
      Cites endSpan words ⟨[word.span], .nestingTooDeep nestingLimit⟩

private theorem ParseError.Cites.sublist {endSpan : Span} {words more : List Token}
    {error : ParseError} (cites : error.Cites endSpan words) (among : words.Sublist more) :
    error.Cites endSpan more := by
  cases cites with
  | empty => exact .empty
  | unfinished => exact .unfinished
  | leftOver member => exact .leftOver (among.subset member)
  | unexpected member solid some other => exact .unexpected (among.subset member) solid some other
  | unrecognized member symbol => exact .unrecognized (among.subset member) symbol
  | noOperator chosen begins ends solid other =>
      exact .noOperator (chosen.trans among) begins ends solid other
  | noClosing chosen solid other => exact .noClosing (chosen.trans among) solid other
  | unpaired opening member => exact .unpaired opening (among.subset member)
  | unreadable member => exact .unreadable (among.subset member)
  | tooDeep member => exact .tooDeep (among.subset member)

/-! ## What readers cite -/

namespace Words

variable {α : Type} {endSpan : Span} {words : List Token} {error : ParseError}
  {completed : List (Located Operator)}

private theorem unexpected_cites {expected : List TokenKind} (some : expected ≠ [])
    (refused : ∀ word ∈ words.head?, word.kind ∉ expected) :
    (unexpected endSpan expected words).Cites endSpan words := by
  cases words with
  | nil => exact .unfinished
  | cons word rest =>
      rw [unexpected]
      split
      next symbol => exact .unrecognized List.mem_cons_self symbol
      next solid => exact .unexpected List.mem_cons_self solid some (refused word rfl)

private theorem operatorAfter_cites {opening first last : Token} {operand : List Token}
    (begins : operand.head? = some first) (ends : operand.getLast? = some last)
    (failed : operatorAfter opening.span (first.span.through last.span) words =
      .failed error completed) :
    error.Cites endSpan (opening :: (operand ++ words)) := by
  rcases operatorAfter_eq_failed failed with ⟨-, rfl⟩ | ⟨word, rest, rfl, noOperator, fault⟩
  · exact .unpaired true List.mem_cons_self
  · rcases fault with ⟨symbol, rfl⟩ | ⟨solid, rfl⟩
    · exact .unrecognized (by simp) symbol
    · refine .noOperator (.cons opening ?_) begins ends solid noOperator
      exact (List.singleton_sublist.mpr List.mem_cons_self).append_left operand

private theorem closing_cites {opening : Token}
    (failed : Words.closing opening.span words = .failed error completed) :
    error.Cites endSpan (opening :: words) := by
  rcases closing_eq_failed failed with ⟨-, rfl⟩ | ⟨word, rest, rfl, noClosing, fault⟩
  · exact .unpaired true List.mem_cons_self
  · rcases fault with ⟨symbol, rfl⟩ | ⟨solid, rfl⟩
    · exact .unrecognized (by simp) symbol
    · refine .noClosing (.cons_cons opening ?_) solid noClosing
      exact List.singleton_sublist.mpr List.mem_cons_self

private theorem enclosed_cites {operand : List Token → Outcome (ParseTree α)} {opening : Token}
    (operandDone : ∀ {words rest completed} {tree : ParseTree α},
      operand words = .done tree rest completed → ∃ front first last, words = front ++ rest ∧
        front.head? = some first ∧ front.getLast? = some last ∧
        tree.span = first.span.through last.span)
    (operandFailed : ∀ {words completed error},
      operand words = .failed error completed → error.Cites endSpan words)
    (failed : enclosed operand opening.span words = .failed error completed) :
    error.Cites endSpan (opening :: words) := by
  rcases Outcome.andThen_eq_failed failed with
    lhsFails | ⟨lhs, lhsRest, _, _, lhsRead, afterLhs, -⟩
  · exact (operandFailed lhsFails).sublist (List.sublist_cons_self _ _)
  obtain ⟨lhsWords, first, last, rfl, begins, ends, span⟩ := operandDone lhsRead
  rw [span] at afterLhs
  rcases Outcome.andThen_eq_failed afterLhs with
    operatorFails | ⟨operator, operatorRest, _, _, operatorRead, afterOperator, -⟩
  · exact operatorAfter_cites begins ends operatorFails
  obtain ⟨word, rfl, -⟩ := operatorAfter_eq_done operatorRead
  have behind : operatorRest.Sublist (lhsWords ++ word.token :: operatorRest) :=
    (List.sublist_cons_self _ _).trans (List.sublist_append_right _ _)
  rcases Outcome.andThen_eq_failed afterOperator with
    rhsFails | ⟨rhs, rhsRest, _, _, rhsRead, afterRhs, -⟩
  · exact (operandFailed rhsFails).sublist (.cons opening behind)
  obtain ⟨rhsWords, _, _, rfl, -, -, -⟩ := operandDone rhsRead
  rcases Outcome.andThen_eq_failed afterRhs with
    closingFails | ⟨close, closingRest, _, _, -, afterClosing, -⟩
  · refine (closing_cites closingFails).sublist (.cons_cons opening ?_)
    exact (List.sublist_append_right _ _).trans behind
  · cases afterClosing

variable [Numeral α]

private theorem numeral_cites {finish : α → Span → Located α}
    (failed : numeral endSpan finish words = .failed error completed) :
    error.Cites endSpan words := by
  rcases numeral_eq_failed failed with ⟨word, rest, rfl, -, rfl⟩ | ⟨other, rfl⟩
  · exact .unreadable List.mem_cons_self
  · exact unexpected_cites (by simp) (by simpa using other)

variable [Neg α]

private theorem numberTree_cites
    (failed : numberTree (α := α) endSpan words = .failed error completed) :
    error.Cites endSpan words := by
  obtain ⟨finish, ⟨minus, rest, rfl, numeralFails⟩ | ⟨-, numeralFails⟩⟩ :=
    numberTree_eq_failed failed
  · exact (numeral_cites numeralFails).sublist (List.sublist_cons_self _ _)
  · exact numeral_cites numeralFails

private theorem expressionOf_cites {inside : Span → List Token → Outcome (ParseTree α)}
    (insideFailed : ∀ (opening : Token) {rest completed error},
      inside opening.span rest = .failed error completed → error.Cites endSpan (opening :: rest))
    (failed : expressionOf endSpan inside words = .failed error completed) :
    error.Cites endSpan words := by
  rcases expressionOf_eq_failed failed with ⟨opening, rest, rfl, insideFails⟩ |
    ⟨word, rest, rfl, -, numberFails⟩ | ⟨other, rfl⟩
  · exact insideFailed opening.val insideFails
  · exact numberTree_cites numberFails
  · have among : [TokenKind.openParen, .name, .num] ⊆ [.openParen, .name, .num, .sub] := by decide
    exact unexpected_cites (by simp) fun word member => mt (@among _) (other word member)

private theorem inside_cites {levels : Nat} {opening : Token}
    (failed : inside (α := α) endSpan levels opening.span words = .failed error completed) :
    error.Cites endSpan (opening :: words) := by
  induction levels generalizing opening words completed error with
  | zero =>
      cases failed
      exact .tooDeep List.mem_cons_self
  | succ levels ih =>
      refine enclosed_cites ?done (expressionOf_cites fun _ _ _ _ => ih) failed
      case done =>
        intro words rest completed tree read
        obtain ⟨derivation, same, -, found⟩ := expression_eq_done read
        obtain ⟨first, last, begins, ends, span⟩ := Derivation.span_of_tree? found
        exact ⟨derivation.words, first, last, same.symm, begins, ends, span⟩

private theorem whole_cites
    (failed : whole endSpan (expression (α := α) endSpan nestingLimit) words =
      .failed error completed) :
    error.Cites endSpan words := by
  rcases whole_eq_failed failed with
    ⟨-, rfl⟩ | ⟨-, fails | ⟨tree, word, rest, read, fault⟩⟩
  · exact .empty
  · exact expressionOf_cites (fun _ _ _ _ => inside_cites) fails
  · obtain ⟨derivation, same, -⟩ := expression_eq_done read
    have member : word ∈ words := by simp [← same]
    rcases fault with ⟨-, rfl⟩ | ⟨-, rfl⟩
    · exact .unpaired false member
    · exact .leftOver member

end Words

/-! ## Errors in a source -/

private theorem liesIn_of_mem_sourceWords {source : String} {word : Token}
    (member : word ∈ sourceWords source) : word.span.LiesIn source :=
  (isCutFrom_of_mem_tokenize (mem_tokenize_of_mem_sourceWords member)).selects.liesIn

private theorem liesIn_sourceEnd (source : String) : (sourceEnd source).LiesIn source := by
  have isValid : String.Pos.Raw.IsValid source ⟨source.utf8ByteSize⟩ :=
    String.Pos.Raw.isValid_iff_exists_append.mpr ⟨source, "", by simp, rfl⟩
  rw [sourceEnd_eq]
  exact ⟨Nat.le_refl _, Nat.le_refl _, isValid, isValid⟩

namespace ParseError.Cites

variable {endSpan : Span} {words : List Token} {source : String} {error : ParseError}

private theorem labels_length (cites : error.Cites endSpan words) :
    error.fault.labels.length = error.spans.length := by
  cases cites with
  | @unexpected word expected _ _ some _ =>
      cases expected with
      | nil => exact absurd rfl some
      | cons first rest => rfl
  | _ => rfl

private theorem increasing {start stop : Nat} (ordered : InOrder start stop words)
    (cites : error.Cites endSpan words) :
    error.spans.Pairwise fun earlier later =>
      earlier.start < later.start ∧ earlier.stop ≤ later.start := by
  cases cites with
  | noOperator chosen begins ends =>
      have inOrder := ordered.sublist chosen
      have nonempty := (inOrder.sublist (List.sublist_append_left _ _)).start_lt_stop begins ends
      have behind := inOrder.stop_le_start_of_append (List.mem_of_getLast? ends)
        List.mem_cons_self
      exact List.pairwise_pair.mpr ⟨Nat.lt_of_lt_of_le nonempty behind, behind⟩
  | noClosing chosen =>
      have inOrder := ordered.sublist chosen
      have nonempty := inOrder.start_lt _ List.mem_cons_self
      have behind := inOrder.of_cons.le_start _ List.mem_cons_self
      exact List.pairwise_pair.mpr ⟨Nat.lt_of_lt_of_le nonempty behind, behind⟩
  | _ => exact List.pairwise_singleton _ _

private theorem liesIn (cites : error.Cites (sourceEnd source) (sourceWords source)) :
    ∀ span ∈ error.spans, span.LiesIn source := by
  have lies {word : Token} (member : word ∈ sourceWords source) : word.span.LiesIn source :=
    liesIn_of_mem_sourceWords member
  cases cites with
  | empty | unfinished => exact List.forall_mem_singleton.mpr (liesIn_sourceEnd source)
  | leftOver member =>
      refine List.forall_mem_singleton.mpr ((lies member).through (liesIn_sourceEnd source) ?_)
      rw [sourceEnd_eq]
      exact Nat.le_trans (lies member).start_le_stop (lies member).stop_le
  | unexpected member | unrecognized member | unpaired _ member | unreadable member
  | tooDeep member => exact List.forall_mem_singleton.mpr (lies member)
  | noOperator chosen begins ends =>
      have among := chosen.subset
      have inOrder := (inOrder_sourceWords source).sublist chosen
      have nonempty := (inOrder.sublist (List.sublist_append_left _ _)).start_lt_stop begins ends
      have firstLies := lies (among (List.mem_append_left _ (List.mem_of_head? begins)))
      have lastLies := lies (among (List.mem_append_left _ (List.mem_of_getLast? ends)))
      refine List.forall_mem_cons.mpr ⟨firstLies.through lastLies (Nat.le_of_lt nonempty), ?_⟩
      exact List.forall_mem_singleton.mpr (lies (among (List.mem_append_right _ List.mem_cons_self)))
  | noClosing chosen =>
      have among := chosen.subset
      refine List.forall_mem_cons.mpr ⟨lies (among List.mem_cons_self), ?_⟩
      exact List.forall_mem_singleton.mpr (lies (among (List.mem_cons_of_mem _ List.mem_cons_self)))

private theorem found {kind : TokenKind} (cites : error.Cites endSpan words)
    (named : error.fault.found? = some kind) :
    kind ≠ .symbol ∧ ∃ word ∈ words, word.kind = kind ∧ error.spans.getLast? = some word.span := by
  cases cites with
  | unexpected member solid =>
      cases named
      exact ⟨solid, _, member, rfl, rfl⟩
  | noOperator chosen _ _ solid =>
      cases named
      exact ⟨solid, _, chosen.subset (List.mem_append_right _ List.mem_cons_self), rfl, rfl⟩
  | noClosing chosen solid =>
      cases named
      exact ⟨solid, _, chosen.subset (List.mem_cons_of_mem _ List.mem_cons_self), rfl, rfl⟩
  | _ => cases named

private theorem isTruthful (cites : error.Cites (sourceEnd source) (sourceWords source)) :
    error.IsTruthful source where
  liesIn := cites.liesIn
  increasing := cites.increasing (inOrder_sourceWords source)
  labels_length := cites.labels_length
  labels_shown := List.map_fst_zip (Nat.le_of_eq cites.labels_length)
  found kind named := by
    obtain ⟨solid, word, member, same, last⟩ := cites.found named
    refine ⟨?_, solid, word, mem_tokenize_of_mem_sourceWords member, same, last⟩
    rw [← same]
    exact isWhitespace_of_mem_sourceWords member
  unexpectedToken expected kind fault := by
    cases cites with
    | unexpected _ _ some other =>
        cases fault
        exact ⟨some, other⟩
    | _ => cases fault
  expectedOperator kind fault := by
    cases cites with
    | noOperator _ _ _ _ other =>
        cases fault
        intro operator writes
        cases other.symm.trans (TokenKind.writes_iff.mp writes)
    | _ => cases fault
  expectedCloseParen kind fault := by
    cases cites with
    | noClosing _ _ other =>
        cases fault
        exact other
    | _ => cases fault
  unrecognizedToken lexeme fault := by
    cases cites with
    | unrecognized member =>
        cases fault
        exact ⟨_, rfl,
          (isCutFrom_of_mem_tokenize (mem_tokenize_of_mem_sourceWords member)).selects⟩
    | _ => cases fault

end ParseError.Cites

/-- The error of a text that is no expression is about the source: its regions lie there in
order, each with its label, and the words that it names stand in them. -/
theorem ofText_error_truthful {α : Type} [Numeral α] [Neg α] {source : String}
    {error : ParseError} (rejected : Expr.ofText (α := α) source = .error error) :
    error.IsTruthful source := by
  obtain ⟨completed, failed⟩ := Expr.ofText_failed rejected
  exact (Words.whole_cites failed).isTruthful

/-- The operand `(a+b)` of `((a+b) y)` is followed by no operator. -/
def juxtapositionError : ParseError :=
  ⟨[⟨1, 6⟩, ⟨7, 8⟩], .expectedOperator .name⟩

theorem ofText_error_truthful_juxtaposition :
    Expr.ofText (α := Float) "((a+b) y)" = .error juxtapositionError ∧
      juxtapositionError.IsTruthful "((a+b) y)" := by
  have words : sourceWords "((a+b) y)" =
      [⟨.openParen, "(", ⟨0, 1⟩⟩, ⟨.openParen, "(", ⟨1, 2⟩⟩, ⟨.name, "a", ⟨2, 3⟩⟩,
        ⟨.add, "+", ⟨3, 4⟩⟩, ⟨.name, "b", ⟨4, 5⟩⟩, ⟨.closeParen, ")", ⟨5, 6⟩⟩,
        ⟨.name, "y", ⟨7, 8⟩⟩, ⟨.closeParen, ")", ⟨8, 9⟩⟩] := by decide +kernel
  have rejected : Expr.ofText (α := Float) "((a+b) y)" = .error juxtapositionError := by
    rw [Expr.ofText, ParseTree.parse, ParseTree.parseCompleting_eq, words]
    rfl
  exact ⟨rejected, ofText_error_truthful rejected⟩

end Calculator
