import Calculator.Proofs.Parser.WordRegions
import Calculator.Trace

/-!
# The operations that are read

The events of reading a source tell of each operation once, when its parenthesis is closed.
They are the operations of the parse tree, and where there is none, the pairs of parentheses
in the words that some sentence begins with.
-/

set_option autoImplicit false

namespace Calculator

private theorem Scan.not_viable_of_step_eq_none {scan : Scan} {words : List Token} {word : Token}
    (taken : start.run words = some scan) (stops : scan.step word = none) :
    ¬Viable (words ++ [word]) := by
  intro viable
  obtain ⟨next, all⟩ := viable_iff_run.mp viable
  rw [run_append_of_run taken, run, stops] at all
  cases all

private theorem viable_nil : Viable [] :=
  Scan.viable_iff_run.mpr ⟨_, rfl⟩

/-- The words of a source up to the first with which no sentence begins, or all of them. -/
structure ReadablePart (source : String) (readable rest : List Token) : Prop where
  words_eq : sourceWords source = readable ++ rest
  viable : Viable readable
  stops : ∀ word ∈ rest.head?, ¬Viable (readable ++ [word])

namespace InOrder

variable {start stop : Nat} {words : List Token}

private theorem stop_lt_stop (inOrder : InOrder start stop words) :
    words.Pairwise fun earlier later => earlier.span.stop < later.span.stop := by
  refine inOrder.pairwise.imp_of_mem ?_
  intro earlier later _ member behind
  exact Nat.lt_of_le_of_lt behind (inOrder.start_lt later member)

/-- A word in the front of a list is not in its back. -/
theorem not_mem_back {front back : List Token} {word : Token}
    (inOrder : InOrder start stop (front ++ back)) (member : word ∈ front) : word ∉ back := by
  intro again
  have nonempty := inOrder.start_lt word (List.mem_append_left back member)
  have behind := inOrder.stop_le_start_of_append member again
  omega

end InOrder

namespace Partners

variable {front back : List Token} {opening closing : Token}

private theorem append_right (partners : Partners front opening closing) (back : List Token) :
    Partners (front ++ back) opening closing := by
  obtain ⟨before, inside, after, rfl, kinds⟩ := partners
  exact ⟨before, inside, after ++ back, by simp, kinds⟩

private theorem closing_mem (partners : Partners front opening closing) : closing ∈ front := by
  obtain ⟨before, inside, after, rfl, -⟩ := partners
  simp

private theorem of_append {start stop : Nat} (partners : Partners (front ++ back) opening closing)
    (inOrder : InOrder start stop (front ++ back)) (member : closing ∈ front) :
    Partners front opening closing := by
  obtain ⟨before, inside, after, words, kinds⟩ := partners
  have upTo : front ++ back = (before ++ opening :: inside ++ [closing]) ++ after := by
    simp [words]
  rcases List.append_eq_append_iff.mp upTo with ⟨more, ends, rfl⟩ | ⟨more, rfl, -⟩
  · -- The pair could only end behind the front, where its closing parenthesis is not.
    rcases List.eq_nil_or_concat more with rfl | ⟨init, last, rfl⟩
    · exact ⟨before, inside, [], by simpa using ends.symm, kinds⟩
    · rw [List.concat_eq_append, ← List.append_assoc] at ends
      have same : [closing] = [last] := (List.append_inj' ends rfl).2
      exact absurd (by simp [List.singleton_inj.mp same]) (inOrder.not_mem_back member)
  · exact ⟨before, inside, more, by simp, kinds⟩

end Partners

namespace ReadablePart

variable {source : String} {readable rest : List Token}

private theorem stops_increase (part : ReadablePart source readable rest) :
    ((closedPairs [] readable).map pairRegion).Pairwise fun earlier later =>
      earlier.stop < later.stop := by
  have inOrder := inOrder_sourceWords source
  rw [part.words_eq] at inOrder
  have front := inOrder.sublist (List.sublist_append_left readable rest)
  have closings := front.stop_lt_stop.sublist (closings_sublist [] readable)
  rw [List.pairwise_map] at closings ⊢
  exact closings

theorem mem_regions_iff (part : ReadablePart source readable rest) (span : Span) :
    span ∈ (closedPairs [] readable).map pairRegion ↔
      ∃ opening closing, Partners (sourceWords source) opening closing ∧ closing ∈ readable ∧
        span = opening.span.through closing.span := by
  have inOrder := inOrder_sourceWords source
  rw [part.words_eq] at inOrder ⊢
  constructor
  · intro member
    obtain ⟨⟨opening, closing⟩, pair, rfl⟩ := List.mem_map.mp member
    have partners := mem_closedPairs_iff.mp pair
    exact ⟨opening, closing, partners.append_right rest, partners.closing_mem, rfl⟩
  · intro found
    obtain ⟨opening, closing, partners, member, rfl⟩ := found
    have pair := mem_closedPairs_iff.mpr (partners.of_append inOrder member)
    exact List.mem_map.mpr ⟨_, pair, rfl⟩

end ReadablePart

/-! ## Events -/

section Sources

variable {α : Type} [Arithmetic α] [Numeral α]

def TraceEvent.operation? : TraceEvent α → Option (Located Operator)
  | .parsed operation => some operation
  | .tokenized _ | .rewritten _ => none

variable (α) in
/-- The operations that the events of a source tell of, in order. -/
def parsedOperations (source : String) : List (Located Operator) :=
  (Expr.traceSimplify (α := α) source).1.filterMap TraceEvent.operation?

private theorem parsedOperations_eq (source : String) :
    parsedOperations α source = (ParseTree.parseCompleting (α := α) source).2 := by
  have reading (operations : List (Located Operator)) :
      (operations.map (TraceEvent.parsed (α := α))).filterMap TraceEvent.operation? =
        operations := by
    rw [List.filterMap_map]
    exact List.filterMap_some
  have rewriting (expr : Expr α) :
      expr.simplifyWithEvents.2.filterMap TraceEvent.operation? = [] := by
    simp [Expr.simplifyWithEvents, TraceEvent.operation?]
  unfold parsedOperations Expr.traceSimplify
  generalize ParseTree.parseCompleting (α := α) source = parsed
  obtain ⟨result, operations⟩ := parsed
  cases result with
  | error error =>
      change (TraceEvent.tokenized _ :: operations.map TraceEvent.parsed).filterMap _ = operations
      rw [List.filterMap_cons_none rfl, reading]
  | ok tree =>
      change (TraceEvent.tokenized _ :: operations.map TraceEvent.parsed ++
        (Expr.ofTree tree).simplifyWithEvents.2).filterMap _ = operations
      rw [List.cons_append, List.filterMap_cons_none rfl, List.filterMap_append, reading,
        rewriting, List.append_nil]

private theorem Words.whole_completed {β : Type} {endSpan : Span} {read : List Token → Outcome β}
    {words : List Token} (nonempty : words ≠ []) :
    (whole endSpan read words).completed = (read words).completed := by
  obtain ⟨word, rest, rfl⟩ := List.exists_cons_of_ne_nil nonempty
  rw [whole]
  cases read (word :: rest) with
  | failed error completed => rfl
  | done value left completed =>
      cases left with
      | nil => exact List.append_nil completed
      | cons next left =>
          rw [Outcome.andThen_done, finish]
          split <;> exact List.append_nil completed

/-- Each operation of a parse tree is told of once, behind those in its operands. -/
theorem parsedOperations_of_parse {source : String} {tree : ParseTree α}
    (parsed : ParseTree.parse source = .ok tree) : parsedOperations α source = tree.operations := by
  obtain ⟨derivation, spells, found⟩ := ParseTree.parse_eq_ok.mp parsed
  have read := Derivation.expression_words found spells.fits (sourceEnd source) []
  rw [List.append_nil, spells.words_eq] at read
  have nonempty : sourceWords source ≠ [] := by
    obtain ⟨word, rest, words, -⟩ := derivation.words_eq_cons
    simp [← spells.words_eq, words]
  rw [parsedOperations_eq, ParseTree.parseCompleting_eq, Words.whole_completed nonempty, read]
  rfl

/-- The events tell of the pairs of parentheses in the part of a source that can be read. -/
theorem exists_readablePart (reads : ReadsNumerals α) (source : String) :
    ∃ readable rest, ReadablePart source readable rest ∧
      (parsedOperations α source).map Located.span = (closedPairs [] readable).map pairRegion := by
  cases parsed : ParseTree.parse (α := α) source with
  | ok tree =>
      obtain ⟨derivation, spells, found⟩ := ParseTree.parse_eq_ok.mp parsed
      have viable : Viable derivation.words :=
        ⟨[], derivation, (List.append_nil _).symm, spells.fits⟩
      refine ⟨derivation.words, [], ⟨by simp [spells.words_eq], viable, by simp⟩, ?_⟩
      rw [parsedOperations_of_parse parsed, Derivation.map_pairRegion found]
  | error error =>
      rw [parsedOperations_eq, ParseTree.parseCompleting_eq]
      have rejected : Expr.ofText (α := α) source = .error error := by
        rw [Expr.ofText, parsed]
        rfl
      obtain ⟨completed, failed⟩ := Expr.ofText_failed rejected
      rw [failed]
      rcases Words.whole_fails failed with
        ⟨empty, -, rfl⟩ | ⟨-, readable, rest, scan, words, taken, blames, closed⟩
      · exact ⟨[], [], ⟨empty, viable_nil, by simp⟩, rfl⟩
      · refine ⟨readable, rest, ⟨words, Scan.viable_iff_run.mpr ⟨scan, taken⟩, ?_⟩, closed⟩
        intro word begins
        obtain ⟨after, rfl⟩ := List.head?_eq_some_iff.mp begins
        have member : word ∈ sourceWords source := by simp [words]
        have stops := blames.step_eq_none fun kind =>
          reads _ (numeralText_of_mem_sourceWords member kind)
        exact Scan.not_viable_of_step_eq_none taken stops

/-- Reading a source tells of its operations one by one, from the first closing parenthesis to
the last, and never of one again. They are those of the parse tree; without one, they are the
pairs of parentheses closed before the first word with which no sentence begins. -/
theorem parsed_operations_in_order (reads : ReadsNumerals α) (source : String) :
    ((parsedOperations α source).Pairwise fun earlier later =>
      earlier.span.stop < later.span.stop) ∧
    ((parsedOperations α source).map Located.span).Nodup ∧
    (∀ operation ∈ parsedOperations α source, ∃ opening closing,
      Partners (sourceWords source) opening closing ∧
        operation.span = opening.span.through closing.span) ∧
    (∀ tree : ParseTree α, ParseTree.parse source = .ok tree →
      parsedOperations α source = tree.operations) ∧
    ∀ error, ParseTree.parse (α := α) source = .error error →
      ∃ readable rest, ReadablePart source readable rest ∧
        ∀ span, span ∈ (parsedOperations α source).map Located.span ↔
          ∃ opening closing, Partners (sourceWords source) opening closing ∧
            closing ∈ readable ∧ span = opening.span.through closing.span := by
  obtain ⟨readable, rest, part, regions⟩ := exists_readablePart reads source
  have increasing : (parsedOperations α source).Pairwise fun earlier later =>
      earlier.span.stop < later.span.stop := by
    have stops := part.stops_increase
    rwa [← regions, List.pairwise_map] at stops
  have members := part.mem_regions_iff
  rw [← regions] at members
  refine ⟨increasing, ?_, ?_, fun _ => parsedOperations_of_parse, ?_⟩
  · refine List.pairwise_map.mpr (increasing.imp ?_)
    intro earlier later below same
    rw [same] at below
    exact Nat.lt_irrefl _ below
  · intro operation member
    obtain ⟨opening, closing, partners, -, same⟩ :=
      (members operation.span).mp (List.mem_map_of_mem member)
    exact ⟨opening, closing, partners, same⟩
  · intro error _
    exact ⟨readable, rest, part, members⟩

end Sources

/-- The source `((x + y) z` is read up to its last word. -/
theorem parsed_operations_in_order_juxtaposition :
    ReadsNumerals Float ∧
      ParseTree.parse (α := Float) "((x + y) z" =
        .error ⟨[⟨1, 8⟩, ⟨9, 10⟩], .expectedOperator .name⟩ ∧
      parsedOperations Float "((x + y) z" = [⟨.add, ⟨1, 8⟩⟩] ∧
      ∃ readable rest, ReadablePart "((x + y) z" readable rest ∧
        ∀ span, span ∈ [⟨1, 8⟩] ↔
          ∃ opening closing, Partners (sourceWords "((x + y) z") opening closing ∧
            closing ∈ readable ∧ span = opening.span.through closing.span := by
  have words : sourceWords "((x + y) z" =
      [⟨.openParen, "(", ⟨0, 1⟩⟩, ⟨.openParen, "(", ⟨1, 2⟩⟩, ⟨.name, "x", ⟨2, 3⟩⟩,
        ⟨.add, "+", ⟨4, 5⟩⟩, ⟨.name, "y", ⟨6, 7⟩⟩, ⟨.closeParen, ")", ⟨7, 8⟩⟩,
        ⟨.name, "z", ⟨9, 10⟩⟩] := by decide +kernel
  have rejected : ParseTree.parse (α := Float) "((x + y) z" =
      .error ⟨[⟨1, 8⟩, ⟨9, 10⟩], .expectedOperator .name⟩ := by
    rw [ParseTree.parse, ParseTree.parseCompleting_eq, words]
    rfl
  have told : parsedOperations Float "((x + y) z" = [⟨.add, ⟨1, 8⟩⟩] := by
    rw [parsedOperations_eq, ParseTree.parseCompleting_eq, words]
    rfl
  obtain ⟨-, -, -, -, failed⟩ := parsed_operations_in_order readsNumerals_float "((x + y) z"
  obtain ⟨readable, rest, part, members⟩ := failed _ rejected
  rw [told] at members
  exact ⟨readsNumerals_float, rejected, told, readable, rest, part, members⟩

end Calculator
