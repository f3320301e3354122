import Calculator.Proofs.Number.Decimal
import Calculator.Proofs.Parser.Failure
import Calculator.Proofs.Parser.Spelling

/-!
# Errors of sources

A source that is no expression is blamed at the first word that no sentence has behind the
words before it, and at its end only if some sentence begins with all of its words.
-/

set_option autoImplicit false

namespace Calculator

/-! ## The end of a source -/

private theorem eq_nil_of_getLast?_tokensFrom {offset : Nat} {text : List Char}
    (none : (tokensFrom offset text).getLast? = none) : text = [] := by
  cases text with
  | nil => rfl
  | cons first rest =>
      rw [tokensFrom, List.getLast?_cons] at none
      cases none

theorem stop_of_mem_getLast?_tokensFrom (offset : Nat) (text : List Char) :
    ∀ last ∈ (tokensFrom offset text).getLast?, last.span.stop = offset + byteSize text := by
  induction offset, text using tokensFrom.induct with
  | case1 offset => simp [tokensFrom]
  | case2 offset first rest taken lexeme stop ih =>
      intro last member
      have size : byteSize (first :: rest) =
          byteSize (first :: rest.take taken) + byteSize (rest.drop taken) := by
        rw [← byteSize_append, List.cons_append, List.take_append_drop]
      rw [tokensFrom, List.getLast?_cons] at member
      cases Option.some.inj member
      rw [size]
      cases found : (tokensFrom stop (rest.drop taken)).getLast? with
      | some later =>
          rw [Option.getD_some, ih later found, Nat.add_assoc]
          rfl
      | none =>
          rw [eq_nil_of_getLast?_tokensFrom found]
          rfl

/-- The end of a source is behind its last byte. -/
theorem sourceEnd_eq (source : String) : sourceEnd source = .point source.utf8ByteSize := by
  have size : byteSize source.toList = source.utf8ByteSize := by
    rw [byteSize, String.ofList_toList]
  have tokens : (Parser.ofSource source).tokens = tokensFrom 0 source.toList := rfl
  rw [sourceEnd, Parser.endSpan_eq_tokens, tokens]
  cases found : (tokensFrom 0 source.toList).getLast? with
  | some last =>
      have stop := stop_of_mem_getLast?_tokensFrom 0 source.toList last found
      rw [Nat.zero_add, size] at stop
      exact congrArg Span.point stop
  | none =>
      rw [← size, eq_nil_of_getLast?_tokensFrom found]
      rfl

/-! ## Errors of sources -/

/-- An error at the end of words that a sentence begins with. -/
structure ParseError.BlamesEnd (error : ParseError) (words : List Token) (endSpan : Span) :
    Prop where
  empty : words = [] → error = ⟨[endSpan], .emptyExpression⟩
  /-- The innermost parenthesis is named when its operation might have been closed. -/
  unclosed : EndsWithOperand words → ∃ opening, (openParens words).head? = some opening ∧
    error = ⟨[opening.span], .unclosedParenthesis true⟩
  unfinished : words ≠ [] → ¬EndsWithOperand words → error = ⟨[endSpan], .unexpectedEnd⟩

/-- An error at a word that no sentence has behind the words before it. -/
structure ParseError.BlamesWord (error : ParseError) (before : List Token) (word : Token) :
    Prop where
  span : ∃ spans span, error.spans = spans ++ [span] ∧ span.start = word.span.start
  notEmpty : error.fault ≠ .emptyExpression
  notUnclosed : error.fault ≠ .unclosedParenthesis true
  notUnfinished : error.fault ≠ .unexpectedEnd
  tooDeep_iff : error.fault = .nestingTooDeep nestingLimit ↔
    word.kind = .openParen ∧ OperandMayFollow before ∧ (openParens before).length = nestingLimit
  unopened_iff : error.fault = .unclosedParenthesis false ↔
    word.kind = .closeParen ∧ IsSentence before
  leftOver_iff : error.fault = .expectedEnd ↔ word.kind ≠ .closeParen ∧ IsSentence before

namespace Scan

variable {α : Type} [Numeral α] {endSpan : Span} {scan : Scan} {word : Token}
  {words before after : List Token} {error : ParseError}

theorem Blames.step_eq_none (blames : scan.Blames α endSpan (word :: after) error)
    (readable : word.kind = .num → ∃ value : α, Numeral.read? word.lexeme = some value) :
    scan.step word = none := by
  cases blames with
  | unreadable numeral unread =>
      obtain ⟨value, read⟩ := readable numeral.property
      cases unread.symm.trans read
  | tooDeep opening full => simp [step, opening.property, full]
  | misplaced _ stops => exact stops
  | unopened closing => rfl
  | leftOver => rfl

private theorem Blames.blamesEnd (taken : start.run words = some scan) (nonempty : words ≠ [])
    (blames : scan.Blames α endSpan [] error) : error.BlamesEnd words endSpan := by
  have ends := endsWithOperand_iff taken
  have parens := openParens_eq taken
  cases blames with
  | operandMissing expects =>
      exact ⟨fun empty => absurd empty nonempty, fun operand => absurd (ends.mp operand) expects,
        fun _ _ => rfl⟩
  | unclosed =>
      refine ⟨fun empty => absurd empty nonempty, fun _ => ⟨_, ?_, rfl⟩,
        fun _ noOperand => absurd (ends.mpr rfl) noOperand⟩
      rw [parens]
      rfl

private theorem Blames.blamesWord (taken : start.run before = some scan)
    (readable : word.kind = .num → ∃ value : α, Numeral.read? word.lexeme = some value)
    (blames : scan.Blames α endSpan (word :: after) error) : error.BlamesWord before word := by
  have sentence := isSentence_iff taken
  have operand := operandMayFollow_iff taken
  have parens := openParens_eq taken
  cases blames with
  | unreadable numeral unread =>
      obtain ⟨value, read⟩ := readable numeral.property
      cases unread.symm.trans read
  | tooDeep opening full =>
      have noSentence : ¬IsSentence before := fun isSentence => nomatch sentence.mp isSentence
      have noClosing : opening.val.kind ≠ .closeParen := by simp [opening.property]
      exact {
        span := ⟨[], _, rfl, rfl⟩
        notEmpty := nofun
        notUnclosed := nofun
        notUnfinished := nofun
        tooDeep_iff := ⟨fun _ => ⟨opening.property, operand.mpr rfl, by simpa [parens] using full⟩,
          fun _ => rfl⟩
        unopened_iff := ⟨nofun, fun unopened => absurd unopened.1 noClosing⟩
        leftOver_iff := ⟨nofun, fun leftOver => absurd leftOver.2 noSentence⟩ }
  | @misplaced spans _ _ _ fault stops noOpening inside misplaced =>
      have isOther {other : ParseFault} (notMisplaced : other.isMisplaced = false) :
          fault ≠ other := by
        intro same
        rw [same, notMisplaced] at misplaced
        cases misplaced
      have noSentence : ¬IsSentence before := by
        intro isSentence
        cases sentence.mp isSentence
        exact inside rfl rfl
      exact {
        span := ⟨spans, _, rfl, rfl⟩
        notEmpty := isOther rfl
        notUnclosed := isOther rfl
        notUnfinished := isOther rfl
        tooDeep_iff := ⟨fun same => absurd same (isOther rfl),
          fun deep => absurd deep.1 (noOpening (operand.mp deep.2.1))⟩
        unopened_iff := ⟨fun same => absurd same (isOther rfl),
          fun unopened => absurd unopened.2 noSentence⟩
        leftOver_iff := ⟨fun same => absurd same (isOther rfl),
          fun leftOver => absurd leftOver.2 noSentence⟩ }
  | unopened closing =>
      have isSentence : IsSentence before := sentence.mpr rfl
      have noOpening : closing.val.kind ≠ .openParen := by simp [closing.property]
      exact {
        span := ⟨[], _, rfl, rfl⟩
        notEmpty := nofun
        notUnclosed := nofun
        notUnfinished := nofun
        tooDeep_iff := ⟨nofun, fun deep => absurd deep.1 noOpening⟩
        unopened_iff := ⟨fun _ => ⟨closing.property, isSentence⟩, fun _ => rfl⟩
        leftOver_iff := ⟨nofun, fun leftOver => absurd closing.property leftOver.1⟩ }
  | leftOver other =>
      have isSentence : IsSentence before := sentence.mpr rfl
      have noOperand : ¬OperandMayFollow before := fun follows => nomatch operand.mp follows
      exact {
        span := ⟨[], _, rfl, rfl⟩
        notEmpty := nofun
        notUnclosed := nofun
        notUnfinished := nofun
        tooDeep_iff := ⟨nofun, fun deep => absurd deep.2.1 noOperand⟩
        unopened_iff := ⟨nofun, fun unopened => absurd unopened.1 other⟩
        leftOver_iff := ⟨fun _ => ⟨other, isSentence⟩, fun _ => rfl⟩ }

end Scan

section Sources

variable {α : Type} [Numeral α] [Neg α]

theorem Expr.ofText_failed {source : String} {error : ParseError}
    (rejected : Expr.ofText (α := α) source = .error error) :
    ∃ completed, Words.whole (sourceEnd source)
      (Words.expression (α := α) (sourceEnd source) nestingLimit) (sourceWords source) =
        .failed error completed := by
  rw [ofText, ParseTree.parse, ParseTree.parseCompleting_eq] at rejected
  cases outcome : Words.whole (sourceEnd source)
      (Words.expression (α := α) (sourceEnd source) nestingLimit) (sourceWords source) with
  | done tree rest completed => rw [outcome] at rejected; cases rejected
  | failed first completed =>
      rw [outcome] at rejected
      cases rejected
      exact ⟨completed, rfl⟩

/-- A rejected source whose words are viable is blamed at its end; any other one is blamed at
the first word that makes them unviable. -/
theorem ofText_blames_first_fault (reads : ReadsNumerals α) (source : String) (error : ParseError)
    (rejected : Expr.ofText (α := α) source = .error error) :
    (Viable (sourceWords source) →
      error.BlamesEnd (sourceWords source) (.point source.utf8ByteSize)) ∧
    (¬Viable (sourceWords source) → ∃ before word after,
      sourceWords source = before ++ word :: after ∧ Viable before ∧ ¬Viable (before ++ [word]) ∧
        error.BlamesWord before word) := by
  obtain ⟨completed, failed⟩ := Expr.ofText_failed rejected
  rw [sourceEnd_eq] at failed
  rcases Words.whole_failed failed with ⟨empty, rfl⟩ |
    ⟨nonempty, before, rest, scan, words, taken, blames⟩
  · rw [empty]
    have atStart : Scan.start.run [] = some .start := rfl
    have noOperand : ¬EndsWithOperand [] := fun ends =>
      nomatch (Scan.endsWithOperand_iff atStart).mp ends
    refine ⟨fun _ => ⟨fun _ => rfl, fun ends => absurd ends noOperand, fun some => absurd rfl some⟩,
      fun unviable => absurd (Scan.viable_iff_run.mpr ⟨_, atStart⟩) unviable⟩
  · have viable : Viable before := Scan.viable_iff_run.mpr ⟨scan, taken⟩
    rw [words] at nonempty ⊢
    cases rest with
    | nil =>
        rw [List.append_nil] at nonempty ⊢
        exact ⟨fun _ => blames.blamesEnd taken nonempty, fun unviable => absurd viable unviable⟩
    | cons word after =>
        have readable (kind : word.kind = .num) :
            ∃ value : α, Numeral.read? word.lexeme = some value := by
          have member : word ∈ sourceWords source := by simp [words]
          exact reads _ (numeralText_of_mem_sourceWords member kind)
        have stops := blames.step_eq_none readable
        have unviable (more : List Token) : ¬Viable (before ++ word :: more) := by
          intro viable
          obtain ⟨next, all⟩ := Scan.viable_iff_run.mp viable
          rw [Scan.run_append_of_run taken, Scan.run, stops] at all
          cases all
        exact ⟨fun viable => absurd viable (unviable after), fun _ =>
          ⟨before, word, after, rfl, viable, unviable [], blames.blamesWord taken readable⟩⟩

end Sources

/-- The error of the source `(x + (y`. -/
def unclosedError : ParseError :=
  ⟨[⟨5, 6⟩], .unclosedParenthesis true⟩

/-- The error of the source `x)`. -/
def unopenedError : ParseError :=
  ⟨[⟨1, 2⟩], .unclosedParenthesis false⟩

theorem ofText_blames_first_fault_parentheses :
    ReadsNumerals Float ∧ Expr.ofText (α := Float) "(x + (y" = .error unclosedError ∧
      unclosedError.BlamesEnd (sourceWords "(x + (y") (.point "(x + (y".utf8ByteSize) ∧
      Expr.ofText (α := Float) "x)" = .error unopenedError ∧
      ∃ before word after, sourceWords "x)" = before ++ word :: after ∧ Viable before ∧
        ¬Viable (before ++ [word]) ∧ unopenedError.BlamesWord before word := by
  have unclosedWords : sourceWords "(x + (y" =
      [⟨.openParen, "(", ⟨0, 1⟩⟩, ⟨.name, "x", ⟨1, 2⟩⟩, ⟨.add, "+", ⟨3, 4⟩⟩,
        ⟨.openParen, "(", ⟨5, 6⟩⟩, ⟨.name, "y", ⟨6, 7⟩⟩] := by decide +kernel
  have unopenedWords : sourceWords "x)" =
      [⟨.name, "x", ⟨0, 1⟩⟩, ⟨.closeParen, ")", ⟨1, 2⟩⟩] := by decide +kernel
  have unclosed : Expr.ofText (α := Float) "(x + (y" = .error unclosedError := by
    rw [Expr.ofText, ParseTree.parse, ParseTree.parseCompleting_eq, unclosedWords]
    rfl
  have unopened : Expr.ofText (α := Float) "x)" = .error unopenedError := by
    rw [Expr.ofText, ParseTree.parse, ParseTree.parseCompleting_eq, unopenedWords]
    rfl
  have viable : Viable (sourceWords "(x + (y") := by
    rw [unclosedWords]
    decide
  have unviable : ¬Viable (sourceWords "x)") := by
    rw [unopenedWords]
    decide
  exact ⟨readsNumerals_float, unclosed,
    (ofText_blames_first_fault readsNumerals_float _ _ unclosed).1 viable, unopened,
    (ofText_blames_first_fault readsNumerals_float _ _ unopened).2 unviable⟩

end Calculator
