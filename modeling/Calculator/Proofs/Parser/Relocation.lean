import Calculator.Proofs.Parser.WordReading

/-!
# Moving the words

Reading depends on positions in no other way than by passing them on: if the regions of the
words are moved, then so are those of what is read and of the error, and nothing else
changes. Starts and ends of regions may be moved differently, as no region is ever made but
of a start and an end of others.
-/

set_option autoImplicit false

namespace Calculator

/-- Where the starts and the ends of regions are moved. -/
structure Relocation where
  start : Nat → Nat
  stop : Nat → Nat

namespace Relocation

variable {α β γ : Type} (move : Relocation)

def span (region : Span) : Span :=
  ⟨move.start region.start, move.stop region.stop⟩

def token (word : Token) : Token :=
  { word with span := move.span word.span }

def located (found : Located β) : Located β :=
  ⟨found.value, move.span found.span⟩

def error (found : ParseError) : ParseError :=
  ⟨found.spans.map move.span, found.fault⟩

def tree : ParseTree α → ParseTree α
  | .number value region => .number value (move.span region)
  | .name lexeme region => .name lexeme (move.span region)
  | .operation lhs operator rhs region =>
      .operation (tree lhs) (move.located operator) (tree rhs) (move.span region)

/-- The outcome of reading the moved words, where `onValue` moves what is read. -/
def outcome (onValue : β → β) : Outcome β → Outcome β
  | .done value rest completed =>
      .done (onValue value) (rest.map move.token) (completed.map move.located)
  | .failed found completed => .failed (move.error found) (completed.map move.located)

/-- Moves all regions by the same number of bytes. -/
def shift (bytes : Nat) : Relocation :=
  ⟨(bytes + ·), (bytes + ·)⟩

@[simp] theorem token_kind (word : Token) : (move.token word).kind = word.kind := rfl

@[simp] theorem token_lexeme (word : Token) : (move.token word).lexeme = word.lexeme := rfl

@[simp] theorem token_span (word : Token) : (move.token word).span = move.span word.span := rfl

@[simp] theorem located_value (found : Located β) : (move.located found).value = found.value :=
  rfl

@[simp] theorem located_span (found : Located β) :
    (move.located found).span = move.span found.span := rfl

@[simp] theorem tree_span (found : ParseTree α) : (move.tree found).span = move.span found.span := by
  cases found <;> rfl

private theorem head?_kind (words : List Token) :
    (words.map move.token).head?.map Token.kind = words.head?.map Token.kind := by
  cases words <;> rfl

/-! ## Readers -/

/-- Reading goes on as before if what follows does. -/
theorem outcome_andThen {onValue : β → β} {onResult : γ → γ} (found : Outcome β)
    {next moved : β → List Token → Outcome γ}
    (later : ∀ value rest,
      moved (onValue value) (rest.map move.token) = move.outcome onResult (next value rest)) :
    (move.outcome onValue found).andThen moved = move.outcome onResult (found.andThen next) := by
  cases found with
  | failed => rfl
  | done value rest completed =>
      simp only [outcome, Outcome.andThen_done, later]
      cases next value rest with
      | failed => simp
      | done => simp

private theorem outcome_map {onValue : β → β} {onResult : γ → γ} {f g : β → γ}
    (same : ∀ value, g (onValue value) = onResult (f value)) (found : Outcome β) :
    (move.outcome onValue found).map g = move.outcome onResult (found.map f) := by
  cases found with
  | failed => rfl
  | done value => simp [outcome, Outcome.map, same]

theorem outcome_result (onValue : β → β) (found : Outcome β) :
    (move.outcome onValue found).result = (found.result.map onValue).mapError move.error := by
  cases found <;> rfl

private theorem unexpected (endSpan : Span) (expected : List TokenKind) (words : List Token) :
    Words.unexpected (move.span endSpan) expected (words.map move.token) =
      move.error (Words.unexpected endSpan expected words) := by
  cases words with
  | nil => rfl
  | cons word rest =>
      by_cases symbol : word.kind = .symbol <;> simp [Words.unexpected, symbol, error]

private theorem fail (onValue : β → β) (endSpan : Span) (expected : List TokenKind)
    (words : List Token) :
    Words.fail (move.span endSpan) expected (words.map move.token) =
      move.outcome onValue (Words.fail endSpan expected words) := by
  rw [Words.fail, move.unexpected]
  rfl

private theorem readToken (endSpan : Span) (kind : TokenKind) (words : List Token) :
    Words.token (move.span endSpan) kind (words.map move.token) =
      move.outcome move.located (Words.token endSpan kind words) := by
  have refused := move.fail (β := Located String) move.located endSpan [kind] words
  cases words with
  | nil => exact refused
  | cons word rest =>
      rw [List.map_cons, Words.token, Words.token, token_kind]
      split
      next => rfl
      next => exact refused

private theorem operatorAfter (opening lhs : Span) (words : List Token) :
    Words.operatorAfter (move.span opening) (move.span lhs) (words.map move.token) =
      move.outcome move.located (Words.operatorAfter opening lhs words) := by
  cases words with
  | nil => rfl
  | cons word rest =>
      rw [List.map_cons, Words.operatorAfter, Words.operatorAfter, token_kind]
      cases word.kind.operator? with
      | some operator => rfl
      | none => by_cases symbol : word.kind = .symbol <;> simp [symbol, outcome, error]

private theorem closing (opening : Span) (words : List Token) :
    Words.closing (move.span opening) (words.map move.token) =
      move.outcome move.span (Words.closing opening words) := by
  cases words with
  | nil => rfl
  | cons word rest =>
      rw [List.map_cons, Words.closing, Words.closing, token_kind]
      split
      next => rfl
      next => by_cases symbol : word.kind = .symbol <;> simp [symbol, outcome, error]

variable [Numeral α]

private theorem numeral {finish moved : α → Span → Located α}
    (same : ∀ value region, moved value (move.span region) = move.located (finish value region))
    (endSpan : Span) (words : List Token) :
    Words.numeral (move.span endSpan) moved (words.map move.token) =
      move.outcome move.located (Words.numeral endSpan finish words) := by
  have refused := move.fail (β := Located α) move.located endSpan [.num] words
  cases words with
  | nil => exact refused
  | cons word rest =>
      rw [List.map_cons, Words.numeral, Words.numeral, token_kind, token_lexeme]
      split
      next =>
        cases Numeral.read? (α := α) word.lexeme with
        | some value => simp [outcome, same]
        | none => rfl
      next => exact refused

variable [Neg α]

private theorem number (endSpan : Span) (words : List Token) :
    Words.number (α := α) (move.span endSpan) (words.map move.token) =
      move.outcome move.located (Words.number endSpan words) := by
  have plain : Words.numeral (move.span endSpan) Located.mk (words.map move.token) =
      move.outcome move.located (Words.numeral (α := α) endSpan Located.mk words) :=
    move.numeral (fun _ _ => rfl) endSpan words
  cases words with
  | nil => exact plain
  | cons word rest =>
      rw [List.map_cons, Words.number, Words.number, token_kind]
      split
      next => exact move.numeral (fun _ _ => rfl) endSpan rest
      next => exact plain

private theorem literal (endSpan : Span) (words : List Token) :
    Words.literal (α := α) (move.span endSpan) (words.map move.token) =
      move.outcome move.tree (Words.literal endSpan words) := by
  have name : Words.nameTree (α := α) (move.span endSpan) (words.map move.token) =
      move.outcome move.tree (Words.nameTree endSpan words) := by
    rw [Words.nameTree, Words.nameTree, move.readToken]
    refine move.outcome_map ?_ _
    exact fun _ => rfl
  have number : Words.numberTree (α := α) (move.span endSpan) (words.map move.token) =
      move.outcome move.tree (Words.numberTree endSpan words) := by
    rw [Words.numberTree, Words.numberTree, move.number]
    refine move.outcome_map ?_ _
    exact fun _ => rfl
  rw [Words.literal, Words.literal, move.head?_kind]
  split
  · exact name
  · exact number
  · exact number
  · exact move.fail _ _ _ _

omit [Numeral α] [Neg α] in
private theorem enclosed {operand moved : List Token → Outcome (ParseTree α)}
    (same : ∀ words, moved (words.map move.token) = move.outcome move.tree (operand words))
    (opening : Span) (words : List Token) :
    Words.enclosed moved (move.span opening) (words.map move.token) =
      move.outcome move.tree (Words.enclosed operand opening words) := by
  rw [Words.enclosed, same]
  refine move.outcome_andThen _ fun lhs rest => ?_
  rw [tree_span, move.operatorAfter]
  refine move.outcome_andThen _ fun operator rest => ?_
  rw [same]
  refine move.outcome_andThen _ fun rhs rest => ?_
  rw [move.closing]
  exact move.outcome_andThen _ fun close rest => rfl

private theorem expressionOf {inside moved : Span → List Token → Outcome (ParseTree α)}
    (same : ∀ opening words,
      moved (move.span opening) (words.map move.token) =
        move.outcome move.tree (inside opening words))
    (endSpan : Span) (words : List Token) :
    Words.expressionOf (move.span endSpan) moved (words.map move.token) =
      move.outcome move.tree (Words.expressionOf endSpan inside words) := by
  rw [Words.expressionOf, Words.expressionOf, move.head?_kind]
  split
  · rw [Words.operationOf, move.readToken]
    exact move.outcome_andThen _ fun opening rest => same opening.span rest
  · exact move.literal endSpan words
  · exact move.literal endSpan words
  · exact move.literal endSpan words
  · exact move.fail _ _ _ _

private theorem inside (endSpan : Span) (levels : Nat) (opening : Span) (words : List Token) :
    Words.inside (α := α) (move.span endSpan) levels (move.span opening) (words.map move.token) =
      move.outcome move.tree (Words.inside endSpan levels opening words) := by
  induction levels generalizing opening words with
  | zero => rfl
  | succ levels ih =>
      exact move.enclosed (fun words => move.expressionOf ih endSpan words) opening words

private theorem expression (endSpan : Span) (levels : Nat) (words : List Token) :
    Words.expression (α := α) (move.span endSpan) levels (words.map move.token) =
      move.outcome move.tree (Words.expression endSpan levels words) :=
  move.expressionOf (move.inside endSpan levels) endSpan words

/-- All words are read as before, but for their regions. -/
theorem wholeExpression (endSpan : Span) (levels : Nat) (words : List Token) :
    Words.whole (move.span endSpan) (Words.expression (α := α) (move.span endSpan) levels)
        (words.map move.token) =
      move.outcome move.tree
        (Words.whole endSpan (Words.expression (α := α) endSpan levels) words) := by
  cases words with
  | nil => rfl
  | cons word rest =>
      have read := move.expression (α := α) endSpan levels (word :: rest)
      rw [List.map_cons] at read ⊢
      rw [Words.whole, Words.whole, read]
      refine move.outcome_andThen _ fun found left => ?_
      cases left with
      | nil => rfl
      | cons word left =>
          rw [List.map_cons, Words.finish, Words.finish, token_kind]
          split <;> rfl

end Relocation

end Calculator
