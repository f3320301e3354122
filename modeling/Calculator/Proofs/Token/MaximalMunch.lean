import Calculator.Proofs.Parser.Concatenation
import Calculator.Proofs.Text.Region

/-!
# Longest match

The rules of the lexer as predicates on texts, and what it means to cut a text by them: each
token is the longest front of what is left that a rule accepts, or a single character where
no rule accepts any. A text is cut into its tokens in this way and in no other, so a piece of
it between two boundaries is cut as it was in the whole.
-/

set_option autoImplicit false

namespace Calculator

/-- The texts that the rule of each kind accepts. Symbols have no rule. -/
inductive RuleText : TokenKind → List Char → Prop where
  | whitespace {run : List Char} :
      run ≠ [] → (∀ character ∈ run, character ∈ [' ', '\t', '\n', '\r']) →
      RuleText .whitespace run
  | add : RuleText .add ['+']
  | sub : RuleText .sub ['-']
  | mul : RuleText .mul ['*']
  | div : RuleText .div ['/']
  | openParen : RuleText .openParen ['(']
  | closeParen : RuleText .closeParen [')']
  | name {first : Char} {rest : List Char} :
      first.isAlpha ∨ first = '_' → (∀ character ∈ rest, character.isAlphanum ∨ character = '_') →
      RuleText .name (first :: rest)
  | num {text : List Char} : NumeralText text → RuleText .num text

/-- The token at the front of a text: the longest front that a rule accepts, with the kind of
that rule, or one character where no rule accepts a front. -/
inductive Munched (text : List Char) : TokenKind → List Char → Prop where
  | rule {kind : TokenKind} {lexeme : List Char} :
      RuleText kind lexeme → lexeme <+: text →
      (∀ other front, RuleText other front → front <+: text → front.length ≤ lexeme.length) →
      Munched text kind lexeme
  | symbol {character : Char} :
      [character] <+: text → (∀ other front, RuleText other front → ¬front <+: text) →
      Munched text .symbol [character]

/-! ## Rules and first characters -/

theorem isSeparator_iff {character : Char} :
    isSeparator character = true ↔ character ∈ [' ', '\t', '\n', '\r'] := by
  simp [isSeparator, or_assoc]

theorem isNameStart_iff {character : Char} :
    isNameStart character = true ↔ character.isAlpha ∨ character = '_' := by
  simp [isNameStart]

theorem isNameRest_iff {character : Char} :
    isNameRest character = true ↔ character.isAlphanum ∨ character = '_' := by
  simp [isNameRest]

private theorem length_le_runLength {condition : Char → Bool} {run text : List Char}
    (front : run <+: text) (holds : ∀ character ∈ run, condition character) :
    run.length ≤ runLength condition text := by
  obtain ⟨more, rfl⟩ := front
  rw [runLength, List.takeWhile_append_of_pos holds, List.length_append]
  exact Nat.le_add_right _ _

private theorem munch_point (rest : List Char) :
    munch '.' rest =
      if runLength Char.isDigit rest ≠ 0 then (.num, runLength Char.isDigit rest)
      else (.symbol, 0) := by
  rw [munch_of_not_mem_punctuation (by decide), if_neg (by decide), if_neg (by decide)]
  simp

private theorem munch_of_numeralText {first : Char} {tail rest : List Char}
    (numeral : NumeralText (first :: tail)) (front : tail <+: rest) :
    ∃ taken, munch first rest = (.num, taken) ∧ tail.length ≤ taken := by
  generalize written : first :: tail = text at numeral
  cases numeral with
  | whole some digits =>
      subst written
      obtain ⟨digit, tailDigits⟩ := List.forall_mem_cons.mp digits
      have long := length_le_runLength front tailDigits
      exact ⟨_, munch_isDigit digit rest, Nat.le_add_right_of_le long⟩
  | @pointed digits fraction some areDigits fractionDigits =>
      cases digits with
      | nil => exact absurd rfl some
      | cons digit more =>
          rw [List.cons_append] at written
          obtain ⟨rfl, rfl⟩ := List.cons.inj written
          obtain ⟨isDigit, moreDigits⟩ := List.forall_mem_cons.mp areDigits
          obtain ⟨after, rfl⟩ := front
          have point : ∀ next ∈ ('.' :: (fraction ++ after)).head?, next.isDigit = false := by
            simp
          have whole := runLength_append moreDigits point
          have long : fraction.length ≤ runLength Char.isDigit (fraction ++ after) :=
            length_le_runLength (List.prefix_append _ _) fractionDigits
          refine ⟨_, munch_isDigit isDigit _, ?_⟩
          rw [List.append_assoc, List.cons_append, whole, List.drop_left, fractionLength,
            List.length_append, List.length_cons]
          omega
  | fraction some digits =>
      obtain ⟨rfl, rfl⟩ := List.cons.inj written
      have long := length_le_runLength front digits
      have positive := List.length_pos_iff.mpr some
      refine ⟨_, ?_, long⟩
      rw [munch_point, if_pos (by omega)]

/-- Whatever front of a text a rule accepts, the lexer takes at least as much, and by that
rule. -/
theorem munch_of_ruleText {kind : TokenKind} {first : Char} {tail rest : List Char}
    (rule : RuleText kind (first :: tail)) (front : tail <+: rest) :
    ∃ taken, munch first rest = (kind, taken) ∧ tail.length ≤ taken := by
  generalize written : first :: tail = text at rule
  cases rule with
  | whitespace _ separators =>
      subst written
      obtain ⟨separates, tailSeparators⟩ := List.forall_mem_cons.mp separators
      exact ⟨_, munch_separator (isSeparator_iff.mpr separates) rest,
        length_le_runLength front fun next member => isSeparator_iff.mpr (tailSeparators next member)⟩
  | add | sub | mul | div | openParen | closeParen =>
      cases written
      exact ⟨0, rfl, Nat.le_refl 0⟩
  | name start continues =>
      cases written
      exact ⟨_, munch_isNameStart (isNameStart_iff.mpr start) rest,
        length_le_runLength front fun next member => isNameRest_iff.mpr (continues next member)⟩
  | num numeral =>
      subst written
      exact munch_of_numeralText numeral front

/-- What the lexer takes is accepted by the rule that it names, if it names one. -/
theorem munch_eq_symbol_or_ruleText (first : Char) (rest : List Char) :
    munch first rest = (.symbol, 0) ∨
      RuleText (munch first rest).1 (first :: rest.take (munch first rest).2) := by
  have runs (condition : Char → Bool) : ∀ next ∈ rest.takeWhile condition, condition next :=
    fun next member => List.all_eq_true.mp List.all_takeWhile next member
  by_cases mark : first ∈ punctuation
  · simp only [punctuation, List.mem_cons, List.not_mem_nil, or_false] at mark
    have separated (separates : isSeparator first = true) :
        RuleText (munch first rest).1 (first :: rest.take (munch first rest).2) := by
      rw [munch_separator separates, take_runLength]
      refine .whitespace (List.cons_ne_nil _ _) (List.forall_mem_cons.mpr ⟨?_, fun next member => ?_⟩)
      · exact isSeparator_iff.mp separates
      · exact isSeparator_iff.mp (runs isSeparator next member)
    rcases mark with rfl | rfl | rfl | rfl | rfl | rfl | rfl | rfl | rfl | rfl
    · exact .inr (separated rfl)
    · exact .inr (separated rfl)
    · exact .inr (separated rfl)
    · exact .inr (separated rfl)
    · exact .inr .add
    · exact .inr .sub
    · exact .inr .mul
    · exact .inr .div
    · exact .inr .openParen
    · exact .inr .closeParen
  · have cut := munch_of_not_mem_punctuation mark rest
    split at cut
    next start =>
      rw [cut, take_runLength]
      exact .inr (.name (isNameStart_iff.mp start) fun next member =>
        isNameRest_iff.mp (runs isNameRest next member))
    next =>
      split at cut
      next =>
        rw [cut]
        exact .inr (.num (numeralText_munch cut))
      next =>
        split at cut
        next =>
          rw [cut]
          exact .inr (.num (numeralText_munch cut))
        next => exact .inl cut

/-! ## Longest fronts -/

private theorem RuleText.ne_nil {kind : TokenKind} {text : List Char} (rule : RuleText kind text) :
    text ≠ [] := by
  cases rule with
  | whitespace some _ => exact some
  | num numeral =>
      cases numeral with
      | whole some _ => exact some
      | pointed some _ _ => exact List.append_ne_nil_of_left_ne_nil some _
      | fraction _ _ => exact List.cons_ne_nil _ _
  | _ => exact List.cons_ne_nil _ _

private theorem RuleText.ne_symbol {kind : TokenKind} {text : List Char}
    (rule : RuleText kind text) : kind ≠ .symbol := by
  cases rule <;> decide

/-- A front that a rule accepts is no longer than what the lexer takes. -/
theorem RuleText.munch_of_front {kind : TokenKind} {first : Char} {front rest : List Char}
    (rule : RuleText kind front) (fits : front <+: first :: rest) :
    ∃ tail taken, front = first :: tail ∧ munch first rest = (kind, taken) ∧
      tail.length ≤ taken ∧ taken ≤ rest.length := by
  cases front with
  | nil => exact absurd rfl rule.ne_nil
  | cons next tail =>
      obtain ⟨rfl, tailFits⟩ := List.cons_prefix_cons.mp fits
      obtain ⟨taken, cut, long⟩ := munch_of_ruleText rule tailFits
      have takes := munch_le next rest
      rw [cut] at takes
      exact ⟨tail, taken, rfl, cut, long, takes⟩

private theorem munched_munch (first : Char) (rest : List Char) :
    Munched (first :: rest) (munch first rest).1 (first :: rest.take (munch first rest).2) := by
  rcases munch_eq_symbol_or_ruleText first rest with symbol | rule
  · rw [symbol]
    refine .symbol (List.cons_prefix_cons.mpr ⟨rfl, List.nil_prefix⟩) fun other front accepted fits => ?_
    obtain ⟨_, _, _, cut, _⟩ := accepted.munch_of_front fits
    rw [symbol] at cut
    exact accepted.ne_symbol (Prod.mk.inj cut).1.symm
  · refine .rule rule (List.cons_prefix_cons.mpr ⟨rfl, List.take_prefix _ _⟩)
      fun other front accepted fits => ?_
    obtain ⟨tail, taken, rfl, cut, long, takes⟩ := accepted.munch_of_front fits
    rw [cut, List.length_cons, List.length_cons, List.length_take_of_le takes]
    exact Nat.succ_le_succ long

/-- The longest front is the one that the lexer takes. -/
theorem Munched.munch_eq {first : Char} {tail rest : List Char} {kind : TokenKind}
    (munched : Munched (first :: (tail ++ rest)) kind (first :: tail)) :
    munch first (tail ++ rest) = (kind, tail.length) := by
  cases munched with
  | rule accepted fits longest =>
      obtain ⟨_, taken, same, cut, long, takes⟩ := accepted.munch_of_front fits
      cases same
      rcases munch_eq_symbol_or_ruleText first (tail ++ rest) with symbol | rule
      · rw [symbol] at cut
        exact absurd (Prod.mk.inj cut).1.symm accepted.ne_symbol
      · have short := longest _ _ rule (List.cons_prefix_cons.mpr ⟨rfl, List.take_prefix _ _⟩)
        rw [cut, List.length_cons, List.length_cons, List.length_take_of_le takes] at short
        rw [cut, Nat.le_antisymm long (Nat.le_of_succ_le_succ short)]
  | symbol _ refused =>
      rcases munch_eq_symbol_or_ruleText first ([] ++ rest) with symbol | rule
      · exact symbol
      · exact absurd (List.cons_prefix_cons.mpr ⟨rfl, List.take_prefix _ _⟩) (refused _ _ rule)

theorem Munched.ne_nil {text lexeme : List Char} {kind : TokenKind}
    (munched : Munched text kind lexeme) : lexeme ≠ [] := by
  cases munched with
  | rule accepted _ _ => exact accepted.ne_nil
  | symbol => exact List.cons_ne_nil _ _

/-- What follows a token plays no part in how long it is. -/
theorem Munched.shorten {text shorter lexeme : List Char} {kind : TokenKind}
    (munched : Munched text kind lexeme) (shortens : shorter <+: text)
    (fits : lexeme <+: shorter) : Munched shorter kind lexeme := by
  cases munched with
  | rule accepted _ longest =>
      exact .rule accepted fits fun other front rule here => longest other front rule (here.trans shortens)
  | symbol _ refused =>
      exact .symbol fits fun other front rule here => refused other front rule (here.trans shortens)

/-! ## Cutting a text -/

/-- A text that begins at a byte offset, cut into tokens from left to right. -/
inductive CutInto : Nat → List Char → List Token → Prop where
  | nil {offset : Nat} : CutInto offset [] []
  | cons {offset : Nat} {kind : TokenKind} {lexeme rest : List Char} {tokens : List Token} :
      Munched (lexeme ++ rest) kind lexeme → CutInto (offset + byteSize lexeme) rest tokens →
      CutInto offset (lexeme ++ rest) (lexemeAt kind offset lexeme :: tokens)

private theorem cutInto_tokensFrom (offset : Nat) (text : List Char) :
    CutInto offset text (tokensFrom offset text) := by
  induction offset, text using tokensFrom.induct with
  | case1 offset =>
      rw [tokensFrom]
      exact .nil
  | case2 offset first rest taken lexeme stop ih =>
      have munched := munched_munch first rest
      have whole : (first :: rest.take taken) ++ rest.drop taken = first :: rest := by
        rw [List.cons_append, List.take_append_drop]
      rw [← whole] at munched
      have cut := CutInto.cons munched ih
      rw [whole] at cut
      rw [tokensFrom]
      exact cut

theorem CutInto.tokensFrom_eq {offset : Nat} {text : List Char} {tokens : List Token}
    (cut : CutInto offset text tokens) : tokensFrom offset text = tokens := by
  induction cut with
  | nil => rw [tokensFrom]
  | @cons offset kind lexeme rest tokens munched _ ih =>
      cases lexeme with
      | nil => exact absurd rfl munched.ne_nil
      | cons first tail =>
          rw [List.cons_append, tokensFrom, munched.munch_eq, List.take_left, List.drop_left]
          exact congrArg _ ih

/-- At a boundary between tokens a text is cut into two that are cut on their own. -/
theorem CutInto.split {offset : Nat} {text : List Char} {before after : List Token}
    (cut : CutInto offset text (before ++ after)) :
    ∃ front back, text = front ++ back ∧ CutInto offset front before ∧
      CutInto (offset + byteSize front) back after := by
  induction before generalizing offset text with
  | nil => exact ⟨[], text, rfl, .nil, by simpa [byteSize_nil] using cut⟩
  | cons token before ih =>
      obtain _ | @⟨_, kind, lexeme, rest, _, munched, later⟩ := cut
      obtain ⟨front, back, rfl, frontCut, backCut⟩ := ih later
      have shortens : lexeme ++ front <+: lexeme ++ (front ++ back) :=
        (List.prefix_append_right_inj lexeme).mpr (List.prefix_append front back)
      refine ⟨lexeme ++ front, back, (List.append_assoc _ _ _).symm, ?_, ?_⟩
      · exact .cons (munched.shorten shortens (List.prefix_append lexeme front)) frontCut
      · rwa [byteSize_append, ← Nat.add_assoc]

theorem CutInto.flatMap_lexeme {offset : Nat} {text : List Char} {tokens : List Token}
    (cut : CutInto offset text tokens) :
    tokens.flatMap (fun token => token.lexeme.toList) = text := by
  induction cut with
  | nil => rfl
  | cons munched _ ih => rw [List.flatMap_cons, ih, lexemeAt, String.toList_ofList]

/-! ## Sources -/

/-- Regions that follow one another without a gap from `start` to `stop`. -/
def Consecutive : Nat → Nat → List Span → Prop
  | start, stop, [] => start = stop
  | start, stop, span :: rest => span.start = start ∧ Consecutive span.stop stop rest

/-- A token that the longest match cuts off a source where it begins, and off its own lexeme. -/
structure Token.IsCutFrom (token : Token) (source : String) : Prop where
  nonempty : token.lexeme ≠ ""
  selects : token.span.Selects source token.lexeme
  longest : ∃ passed remaining : String, source = passed ++ remaining ∧
    passed.utf8ByteSize = token.span.start ∧
    Munched remaining.toList token.kind token.lexeme.toList
  alone : tokenize token.lexeme = [⟨token.kind, token.lexeme, ⟨0, token.lexeme.utf8ByteSize⟩⟩]

theorem cutInto_tokenize (source : String) : CutInto 0 source.toList (tokenize source) :=
  cutInto_tokensFrom 0 source.toList

theorem byteSize_toList (text : String) : byteSize text.toList = text.utf8ByteSize := by
  rw [byteSize, String.ofList_toList]

private theorem CutInto.consecutive {offset : Nat} {text : List Char} {tokens : List Token}
    (cut : CutInto offset text tokens) :
    Consecutive offset (offset + byteSize text) (tokens.map Token.span) := by
  induction cut with
  | nil => rfl
  | cons munched _ ih =>
      rw [byteSize_append, ← Nat.add_assoc]
      exact ⟨rfl, ih⟩

theorem isCutFrom_of_mem_tokenize {source : String} {token : Token}
    (member : token ∈ tokenize source) : token.IsCutFrom source := by
  obtain ⟨before, after, split⟩ := List.append_of_mem member
  have cut := cutInto_tokenize source
  rw [split] at cut
  obtain ⟨passed, remaining, parts, -, here⟩ := cut.split
  obtain _ | @⟨_, kind, lexeme, rest, _, munched, -⟩ := here
  have own : Munched lexeme kind lexeme :=
    munched.shorten (List.prefix_append lexeme rest) (List.prefix_refl lexeme)
  have whole : source = String.ofList passed ++ (String.ofList lexeme ++ String.ofList rest) := by
    rw [← String.ofList_append, ← String.ofList_append, ← parts, String.ofList_toList]
  refine ⟨?_, ⟨String.ofList passed, String.ofList rest, ?_, ?_⟩,
    ⟨String.ofList passed, String.ofList lexeme ++ String.ofList rest, whole, ?_, ?_⟩, ?_⟩
  · intro empty
    exact munched.ne_nil (by simpa [lexemeAt] using empty)
  · rw [whole, String.append_assoc]
    rfl
  · simp [lexemeAt, byteSize]
  · simp [lexemeAt, byteSize]
  · simpa [lexemeAt] using munched
  · have alone : CutInto 0 (lexeme ++ []) [lexemeAt kind 0 lexeme] :=
      .cons (by simpa using own) .nil
    rw [List.append_nil] at alone
    rw [tokenize, lexemeAt, String.toList_ofList, alone.tokensFrom_eq, lexemeAt, Nat.zero_add]
    rfl

/-- The tokens of a source are its pieces from the first byte to the last, each of them the
longest that the rules allow where it begins. -/
theorem tokenize_longest_partition (source : String) :
    String.join ((tokenize source).map Token.lexeme) = source ∧
    Consecutive 0 source.utf8ByteSize ((tokenize source).map Token.span) ∧
    ∀ token ∈ tokenize source, token.IsCutFrom source := by
  have cut := cutInto_tokenize source
  refine ⟨?_, ?_, fun token member => isCutFrom_of_mem_tokenize member⟩
  · rw [← String.toList_inj, String.toList_join, List.flatMap_map]
    exact cut.flatMap_lexeme
  · have consecutive := cut.consecutive
    rwa [byteSize_toList, Nat.zero_add] at consecutive

/-- In `é3..5` the first point ends the number behind a character of two bytes. -/
theorem tokenize_longest_partition_points :
    Token.mk .num "3." ⟨2, 4⟩ ∈ tokenize "é3..5" ∧
      (Token.mk .num "3." ⟨2, 4⟩).IsCutFrom "é3..5" := by
  have member : Token.mk .num "3." ⟨2, 4⟩ ∈ tokenize "é3..5" := by decide +kernel
  exact ⟨member, (tokenize_longest_partition "é3..5").2.2 _ member⟩

end Calculator
