import Calculator.Proofs.Parser.ViablePrefix

/-!
# Matching parentheses

A parenthesis and its partner have well nested words between them. One pass that keeps the
parentheses still open finds all of these pairs, in the order of the closing ones, and in the
words of a derivation they are the regions of its operations.
-/

set_option autoImplicit false

namespace Calculator

/-- Words in which each parenthesis has its partner. -/
inductive WellNested : List Token → Prop where
  | nil : WellNested []
  | word {word : Token} {words : List Token} :
      word.kind ≠ .openParen → word.kind ≠ .closeParen → WellNested words →
      WellNested (word :: words)
  | enclosed {inside words : List Token} (opening : TokenOf .openParen)
      (closing : TokenOf .closeParen) :
      WellNested inside → WellNested words →
      WellNested (opening.val :: (inside ++ closing.val :: words))

/-- Two words are a parenthesis and the one that matches it. -/
def Partners (words : List Token) (opening closing : Token) : Prop :=
  ∃ before inside after, words = before ++ opening :: (inside ++ closing :: after) ∧
    opening.kind = .openParen ∧ closing.kind = .closeParen ∧ WellNested inside

/-- The parentheses that words close, each with its partner, behind those that are open. -/
def closedPairs : List Token → List Token → List (Token × Token)
  | _, [] => []
  | opened, word :: rest =>
      (if word.kind = .closeParen then (opened.head?.map (·, word)).toList else []) ++
        closedPairs (openAfter opened word) rest

/-- The region from a parenthesis to its partner. -/
def pairRegion (pair : Token × Token) : Span :=
  pair.1.span.through pair.2.span

namespace WellNested

variable {front back words : List Token}

private theorem append (first : WellNested front) (second : WellNested back) :
    WellNested (front ++ back) := by
  induction first with
  | nil => exact second
  | word noOpening noClosing _ ih => exact .word noOpening noClosing ih
  | enclosed opening closing inside _ _ ih =>
      rw [List.cons_append, List.append_assoc, List.cons_append]
      exact .enclosed opening closing inside ih

private theorem single {word : Token} (noOpening : word.kind ≠ .openParen)
    (noClosing : word.kind ≠ .closeParen) : WellNested [word] :=
  .word noOpening noClosing .nil

/-- Well nested words leave the same parentheses open. -/
theorem foldl_openAfter (nested : WellNested words) (opened : List Token) :
    words.foldl openAfter opened = opened := by
  induction nested generalizing opened with
  | nil => rfl
  | word noOpening noClosing _ ih =>
      rw [List.foldl_cons, openAfter, if_neg noOpening, if_neg noClosing]
      exact ih opened
  | enclosed opening closing _ _ insideIH wordsIH =>
      rw [List.foldl_cons, List.foldl_append, List.foldl_cons, insideIH, wordsIH]
      simp [openAfter, opening.property, closing.property]

end WellNested

/-! ## All pairs are found -/

private theorem closedPairs_append (opened front back : List Token) :
    closedPairs opened (front ++ back) =
      closedPairs opened front ++ closedPairs (front.foldl openAfter opened) back := by
  induction front generalizing opened with
  | nil => rfl
  | cons word front ih => simp only [List.cons_append, closedPairs, ih, List.append_assoc,
      List.foldl_cons]

private theorem closedPairs_cons {word : Token} (noClosing : word.kind ≠ .closeParen)
    (opened rest : List Token) :
    closedPairs opened (word :: rest) = closedPairs (openAfter opened word) rest := by
  rw [closedPairs, if_neg noClosing, List.nil_append]

private theorem closedPairs_closing (closing : TokenOf .closeParen) (opening : Token)
    (outer rest : List Token) :
    closedPairs (opening :: outer) (closing.val :: rest) =
      (opening, closing.val) :: closedPairs outer rest := by
  simp [closedPairs, openAfter, closing.property]

/-- Pairs are found in the order of their closing parentheses. -/
theorem closings_sublist (opened words : List Token) :
    ((closedPairs opened words).map Prod.snd).Sublist words := by
  induction words generalizing opened with
  | nil => exact .slnil
  | cons word rest ih =>
      have later := ih (openAfter opened word)
      rw [closedPairs]
      split
      · cases opened with
        | nil => exact later.cons word
        | cons opening outer => exact later.cons_cons word
      · exact later.cons word

/-- Behind each open parenthesis, up to the next one or the end, the words are well nested. -/
def Layered : List Token → List Token → Prop
  | [], _ => True
  | opening :: outer, words => ∃ front inside, words = front ++ opening :: inside ∧
      opening.kind = .openParen ∧ WellNested inside ∧ Layered outer front

private theorem Layered.concat {opened words : List Token} (layered : Layered opened words)
    (word : Token) : Layered (openAfter opened word) (words ++ [word]) := by
  unfold openAfter
  split
  next isOpening => exact ⟨words, [], rfl, isOpening, .nil, layered⟩
  next noOpening =>
    cases opened with
    | nil => split <;> trivial
    | cons opening outer =>
        obtain ⟨front, inside, rfl, isOpening, nested, outerLayered⟩ := layered
        split
        next isClosing =>
          cases outer with
          | nil => trivial
          | cons next outer =>
              obtain ⟨before, between, rfl, nextOpening, betweenNested, rest⟩ := outerLayered
              refine ⟨before, between ++ opening :: (inside ++ [word]), by simp, nextOpening,
                betweenNested.append ?_, rest⟩
              exact .enclosed ⟨opening, isOpening⟩ ⟨word, isClosing⟩ nested .nil
        next noClosing =>
          refine ⟨front, inside ++ [word], by simp, isOpening, ?_, outerLayered⟩
          exact nested.append (.single noOpening noClosing)

private theorem Layered.run {opened words : List Token} (layered : Layered opened words)
    (more : List Token) : Layered (more.foldl openAfter opened) (words ++ more) := by
  induction more generalizing opened words with
  | nil => rwa [List.append_nil]
  | cons word more ih =>
      have later := ih (layered.concat word)
      rwa [List.append_assoc] at later

private theorem exists_closing_of_mem {opened words : List Token} {pair : Token × Token}
    (member : pair ∈ closedPairs opened words) :
    ∃ before after, words = before ++ pair.2 :: after ∧ pair.2.kind = .closeParen ∧
      (before.foldl openAfter opened).head? = some pair.1 := by
  induction words generalizing opened with
  | nil => cases member
  | cons word rest ih =>
      rcases List.mem_append.mp member with here | later
      · split at here
        next isClosing =>
          obtain ⟨opening, head, rfl⟩ := Option.map_eq_some_iff.mp (Option.mem_toList.mp here)
          exact ⟨[], rest, rfl, isClosing, head⟩
        next => cases here
      · obtain ⟨before, after, rfl, isClosing, head⟩ := ih later
        exact ⟨word :: before, after, rfl, isClosing, head⟩

theorem mem_closedPairs_iff {words : List Token} {opening closing : Token} :
    (opening, closing) ∈ closedPairs [] words ↔ Partners words opening closing := by
  constructor
  · intro member
    obtain ⟨before, after, rfl, isClosing, head⟩ := exists_closing_of_mem member
    obtain ⟨outer, opened⟩ := List.head?_eq_some_iff.mp head
    have start : Layered [] [] := trivial
    have layered := start.run before
    rw [opened, List.nil_append] at layered
    obtain ⟨front, inside, rfl, isOpening, nested, -⟩ := layered
    exact ⟨front, inside, after, by simp, isOpening, isClosing, nested⟩
  · intro partners
    obtain ⟨before, inside, after, rfl, isOpening, isClosing, nested⟩ := partners
    have noClosing : opening.kind ≠ .closeParen := by simp [isOpening]
    have opens (opened : List Token) : openAfter opened opening = opening :: opened :=
      if_pos isOpening
    rw [closedPairs_append, closedPairs_cons noClosing, opens, closedPairs_append,
      nested.foldl_openAfter, closedPairs_closing ⟨closing, isClosing⟩]
    simp

/-! ## Derivations -/

namespace Derivation

private theorem wellNested (derivation : Derivation) : WellNested derivation.words := by
  induction derivation with
  | name word | numeral word => exact .single (by simp [word.property]) (by simp [word.property])
  | negative minus word =>
      refine .word (by simp [minus.property]) (by simp [minus.property]) ?_
      exact .single (by simp [word.property]) (by simp [word.property])
  | operation opening lhs operator rhs closing lhsIH rhsIH =>
      obtain ⟨noOpening, noClosing⟩ := operator.noParenthesis
      have inside := lhsIH.append (.word noOpening noClosing rhsIH)
      have enclosed := WellNested.enclosed opening closing inside .nil
      simpa [words] using enclosed

/-- The pairs in the words of a derivation are the parentheses of its operations. -/
theorem map_pairRegion {α : Type} [Numeral α] [Neg α] {derivation : Derivation}
    {tree : ParseTree α} (found : derivation.tree? = some tree) (opened : List Token) :
    (closedPairs opened derivation.words).map pairRegion = tree.operations.map Located.span := by
  induction derivation generalizing tree opened with
  | name word =>
      cases found
      simp [words, closedPairs, word.property, ParseTree.operations]
  | numeral word =>
      obtain ⟨value, -, rfl⟩ := Option.map_eq_some_iff.mp found
      simp [words, closedPairs, word.property, ParseTree.operations]
  | negative minus word =>
      obtain ⟨value, -, rfl⟩ := Option.map_eq_some_iff.mp found
      simp [words, closedPairs, minus.property, word.property, ParseTree.operations]
  | operation opening lhs operator rhs closing lhsIH rhsIH =>
      obtain ⟨lhsTree, rhsTree, lhsFound, rhsFound, rfl⟩ := exists_operands_of_tree? found
      have words := words_operation_append opening lhs operator rhs closing []
      rw [List.append_nil] at words
      have opens : openAfter opened opening.val = opening.val :: opened := if_pos opening.property
      have keeps (others : List Token) : openAfter others operator.token = others := by
        simp [openAfter, operator.noParenthesis]
      rw [words, closedPairs_cons (by simp [opening.property]), opens, closedPairs_append,
        lhs.wellNested.foldl_openAfter, closedPairs_cons operator.noParenthesis.2, keeps,
        closedPairs_append, rhs.wellNested.foldl_openAfter, closedPairs_closing]
      simp only [List.map_append, lhsIH lhsFound, rhsIH rhsFound, ParseTree.operations,
        closedPairs, List.map_cons, List.map_nil, pairRegion]

end Derivation

/-! ## Scans -/

namespace Scan

variable {scan next : Scan} {word : Token} {front : List Token}

/-- The regions of the parentheses that words close behind a scan. -/
def closes (scan : Scan) (words : List Token) : List Span :=
  (closedPairs (scan.opened.map OpenOperation.opening) words).map pairRegion

theorem closes_append (taken : scan.run front = some next) (back : List Token) :
    scan.closes (front ++ back) = scan.closes front ++ next.closes back := by
  rw [closes, closedPairs_append, foldl_openAfter_eq taken, List.map_append]
  rfl

theorem closes_cons (taken : Step scan word next) (noClosing : word.kind ≠ .closeParen)
    (rest : List Token) : scan.closes (word :: rest) = next.closes rest := by
  rw [closes, closedPairs_cons noClosing, ← taken.opened_eq]
  rfl

end Scan

end Calculator
