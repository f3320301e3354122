import Calculator.Proofs.Parser.Relocation
import Calculator.Proofs.Parser.WordRegions
import Mathlib.Data.List.Forall2

/-!
# Whitespace between tokens

Whitespace put between the tokens of a source leaves its words as they are, but for where they
stand. Two sources that have the same words in this sense are read alike: both readings are
one and the same reading of words that stand at their places in the list, moved to where the
words of the source start and stop.
-/

set_option autoImplicit false

namespace Calculator

/-- A text of the lexemes of tokens, with a run of separators, possibly empty, in front of each
of them and at the end. -/
inductive Respaced : List Token → List Char → Prop where
  | nil {run : List Char} : run.all isSeparator = true → Respaced [] run
  | cons {run text : List Char} {token : Token} {tokens : List Token} :
      run.all isSeparator = true → Respaced tokens text →
      Respaced (token :: tokens) (run ++ (token.lexeme.toList ++ text))

/-- What a token is, wherever it stands. -/
def Token.content (token : Token) : TokenKind × String :=
  (token.kind, token.lexeme)

def Span.Covers (outer inner : Span) : Prop :=
  outer.start ≤ inner.start ∧ inner.stop ≤ outer.stop

/-- Two regions of two sources with the same words cover the same of these words. -/
def Span.CoversAs (source other : String) (span otherSpan : Span) : Prop :=
  List.Forall₂ (fun word otherWord => otherWord.content = word.content ∧
      (otherSpan.Covers otherWord.span ↔ span.Covers word.span))
    (sourceWords source) (sourceWords other)

/-! ## The words of a respaced source -/

private theorem wordsFrom_run {run : List Char} (separates : run.all isSeparator = true)
    (text : List Char) (offset : Nat) :
    wordsFrom offset (run ++ text) = wordsFrom (offset + byteSize run) text := by
  induction run generalizing offset with
  | nil => rfl
  | cons first run ih =>
      rw [List.all_cons, Bool.and_eq_true] at separates
      obtain ⟨firstSeparates, runSeparates⟩ := separates
      rw [List.cons_append, wordsFrom_separator firstSeparates, ih runSeparates,
        byteSize_cons first run, Nat.add_assoc]

private theorem EndsWord.run {first : Char} {run : List Char}
    (separates : (first :: run).all isSeparator = true) (rest : List Char) :
    EndsWord (first :: (run ++ rest)) := by
  rw [List.all_cons, Bool.and_eq_true] at separates
  exact .separator separates.1 _

/-- Respacing changes a text from some separator on, if at all. -/
theorem Respaced.exists_common {tokens : List Token} {text : List Char}
    (respaced : Respaced tokens text) :
    ∃ common more rest, tokens.flatMap (fun token => token.lexeme.toList) = common ++ more ∧
      text = common ++ rest ∧ EndsWord rest := by
  induction respaced with
  | @nil run separates =>
      refine ⟨[], [], run, rfl, rfl, ?_⟩
      cases run with
      | nil => exact EndsOperand.nil.endsWord
      | cons first run => simpa using EndsWord.run separates []
  | @cons run text token tokens separates _ ih =>
      cases run with
      | nil =>
          obtain ⟨common, more, rest, same, rfl, ends⟩ := ih
          refine ⟨token.lexeme.toList ++ common, more, rest, ?_, ?_, ends⟩
          · rw [List.flatMap_cons, same, List.append_assoc]
          · rw [List.nil_append, List.append_assoc]
      | cons first run =>
          exact ⟨[], _, _, rfl, rfl, .run separates _⟩

private theorem Munched.separates {text lexeme : List Char}
    (munched : Munched text .whitespace lexeme) : lexeme.all isSeparator = true := by
  cases munched with
  | rule accepted _ _ =>
      cases accepted with
      | whitespace _ among =>
          rw [List.all_eq_true]
          exact fun character member => isSeparator_iff.mpr (among character member)

/-- A word in front of other text with the same front up to some separator is the same word. -/
theorem Munched.munch_respaced {first : Char} {tail common more rest : List Char}
    {kind : TokenKind} (munched : Munched (first :: (tail ++ (common ++ more))) kind (first :: tail))
    (isWord : kind ≠ .whitespace) (ends : EndsWord rest) :
    munch first (tail ++ (common ++ rest)) = (kind, tail.length) := by
  have shortens : first :: (tail ++ common) <+: first :: (tail ++ (common ++ more)) := by
    rw [← List.append_assoc tail common more]
    exact List.prefix_append (first :: (tail ++ common)) more
  have cut := (munched.shorten shortens (List.prefix_append (first :: tail) common)).munch_eq
  have solid : ¬isSeparator first = true := by
    intro separates
    rw [munch_separator separates] at cut
    exact isWord (Prod.mk.inj cut).1.symm
  rw [← List.append_assoc, ends.munch_append solid, cut]

private theorem Respaced.content_wordsFrom {offset start : Nat} {text spaced : List Char}
    {tokens : List Token} (cut : CutInto offset text tokens) (respaced : Respaced tokens spaced) :
    (wordsFrom start spaced).map Token.content = (wordsOf tokens).map Token.content := by
  induction cut generalizing start spaced with
  | nil =>
      obtain ⟨separates⟩ := respaced
      have blank := wordsFrom_run separates [] start
      rw [List.append_nil, wordsFrom_nil] at blank
      rw [blank]
      rfl
  | @cons offset kind lexeme rest tokens munched later ih =>
      obtain _ | @⟨run, spaced, _, _, separates, respaced⟩ := respaced
      have lexemeText : (lexemeAt kind offset lexeme).lexeme.toList = lexeme :=
        String.toList_ofList
      rw [wordsFrom_run separates, lexemeText]
      by_cases blank : kind = .whitespace
      · subst blank
        rw [wordsFrom_run munched.separates, ih respaced]
        rfl
      · obtain ⟨common, more, spacedRest, same, rfl, ends⟩ := respaced.exists_common
        rw [later.flatMap_lexeme] at same
        subst same
        cases lexeme with
        | nil => exact absurd rfl munched.ne_nil
        | cons first tail =>
            have isWord : wordsOf (lexemeAt kind offset (first :: tail) :: tokens) =
                lexemeAt kind offset (first :: tail) :: wordsOf tokens :=
              List.filter_cons_of_pos (by simp [lexemeAt, Token.isWhitespace, blank])
            rw [List.cons_append, wordsFrom_cut (munched.munch_respaced blank ends) blank, isWord,
              List.map_cons, List.map_cons, ih respaced]
            rfl

theorem Respaced.content_sourceWords {source other : String}
    (respaced : Respaced (tokenize source) other.toList) :
    (sourceWords other).map Token.content = (sourceWords source).map Token.content :=
  content_wordsFrom (cutInto_tokenize source) respaced

/-! ## Words at their places -/

theorem InOrder.getElem_le_iff {start stop : Nat} {words : List Token}
    (inOrder : InOrder start stop words) {first second : Nat} (isFirst : first < words.length)
    (isSecond : second < words.length) :
    (words[first].span.start ≤ words[second].span.start ↔ first ≤ second) ∧
      (words[first].span.stop ≤ words[second].span.stop ↔ first ≤ second) := by
  have firstNonempty := inOrder.start_lt words[first] (List.getElem_mem isFirst)
  have secondNonempty := inOrder.start_lt words[second] (List.getElem_mem isSecond)
  have apart := List.pairwise_iff_getElem.mp inOrder.pairwise
  rcases Nat.lt_trichotomy first second with before | rfl | behind
  · have gap := apart first second isFirst isSecond before
    omega
  · exact ⟨by simp, by simp⟩
  · have gap := apart second first isSecond isFirst behind
    omega

/-- The words of these contents, each with its place in the list as its region. -/
def placed (contents : List (TokenKind × String)) : List Token :=
  contents.mapIdx fun place content => ⟨content.1, content.2, ⟨place, place + 1⟩⟩

/-- Moves places in a list of words to where these words start and stop, and what is behind
the last word to `stop`. -/
def Relocation.toWords (words : List Token) (stop : Nat) : Relocation where
  start place := (words[place]?.map fun word => word.span.start).getD stop
  stop
    | 0 => 0
    | place + 1 => (words[place]?.map fun word => word.span.stop).getD stop

namespace Relocation

variable {words : List Token} {stop place bound : Nat}

private theorem map_placed (words : List Token) (stop : Nat) :
    (placed (words.map Token.content)).map (toWords words stop).token = words := by
  apply List.ext_getElem
  · simp [placed]
  · intro place _ below
    simp [placed, token, span, toWords, Token.content, below]

theorem toWords_start_le_iff (inOrder : InOrder 0 stop words) (below : place < words.length) :
    (toWords words stop).start bound ≤ (toWords words stop).start place ↔ bound ≤ place := by
  by_cases isPlace : bound < words.length
  · simpa [toWords, below, isPlace] using (inOrder.getElem_le_iff isPlace below).1
  · have nonempty := inOrder.start_lt words[place] (List.getElem_mem below)
    have inside := inOrder.stop_le words[place] (List.getElem_mem below)
    simp only [toWords, List.getElem?_eq_getElem below, Option.map_some, Option.getD_some,
      List.getElem?_eq_none (Nat.le_of_not_lt isPlace), Option.map_none, Option.getD_none]
    omega

theorem toWords_stop_le_iff (inOrder : InOrder 0 stop words) (below : place < words.length) :
    (toWords words stop).stop (place + 1) ≤ (toWords words stop).stop bound ↔
      place + 1 ≤ bound := by
  have nonempty := inOrder.start_lt words[place] (List.getElem_mem below)
  have inside := inOrder.stop_le words[place] (List.getElem_mem below)
  cases bound with
  | zero =>
      simp only [toWords, List.getElem?_eq_getElem below, Option.map_some, Option.getD_some]
      omega
  | succ bound =>
      by_cases isPlace : bound < words.length
      · simpa [toWords, below, isPlace] using (inOrder.getElem_le_iff below isPlace).2
      · simp only [toWords, List.getElem?_eq_getElem below, Option.map_some, Option.getD_some,
          List.getElem?_eq_none (Nat.le_of_not_lt isPlace), Option.map_none, Option.getD_none]
        omega

/-- Moved to words in order, regions of places cover the words whose places they cover. -/
theorem toWords_covers_iff (inOrder : InOrder 0 stop words) (region : Span)
    (below : place < words.length) :
    ((toWords words stop).span region).Covers words[place].span ↔
      region.Covers ⟨place, place + 1⟩ := by
  have own : words[place].span = (toWords words stop).span ⟨place, place + 1⟩ := by
    simp [toWords, span, below]
  rw [own]
  exact and_congr (toWords_start_le_iff inOrder below) (toWords_stop_le_iff inOrder below)

end Relocation

private theorem Expr.ofTree_move {α : Type} (move : Relocation) (tree : ParseTree α) :
    Expr.ofTree (move.tree tree) = Expr.ofTree tree := by
  induction tree with
  | number | name => rfl
  | operation lhs operator rhs span lhsIH rhsIH =>
      simp [Relocation.tree, Expr.ofTree, lhsIH, rhsIH]

section Readings

variable {α : Type} [Numeral α] [Neg α]

/-- What is read from words at their places. -/
def readPlaced (contents : List (TokenKind × String)) : Except ParseError (ParseTree α) :=
  (Words.whole ⟨contents.length, contents.length + 1⟩
    (Words.expression ⟨contents.length, contents.length + 1⟩ nestingLimit)
    (placed contents)).result

def sourcePlaces (source : String) : Relocation :=
  .toWords (sourceWords source) source.utf8ByteSize

/-- Parsing a source is reading its words at their places, up to where they are. -/
theorem ParseTree.parse_eq_readPlaced (source : String) :
    ParseTree.parse (α := α) source =
      ((readPlaced ((sourceWords source).map Token.content)).map (sourcePlaces source).tree).mapError
        (sourcePlaces source).error := by
  have ends : (sourcePlaces source).span ⟨(sourceWords source).length,
      (sourceWords source).length + 1⟩ = sourceEnd source := by
    rw [sourceEnd_eq]
    simp [sourcePlaces, Relocation.toWords, Relocation.span, Span.point]
  have placedWords : (placed ((sourceWords source).map Token.content)).map
      (sourcePlaces source).token = sourceWords source :=
    Relocation.map_placed _ _
  have moved := (sourcePlaces source).wholeExpression (α := α)
    ⟨(sourceWords source).length, (sourceWords source).length + 1⟩ nestingLimit
    (placed ((sourceWords source).map Token.content))
  rw [ends, placedWords] at moved
  rw [ParseTree.parse, ParseTree.parseCompleting_eq, moved, Relocation.outcome_result, readPlaced,
    List.length_map]

theorem Expr.ofText_eq_readPlaced (source : String) :
    Expr.ofText (α := α) source =
      ((readPlaced ((sourceWords source).map Token.content)).map Expr.ofTree).mapError
        (sourcePlaces source).error := by
  rw [Expr.ofText, ParseTree.parse_eq_readPlaced]
  cases readPlaced (α := α) ((sourceWords source).map Token.content) with
  | ok tree => exact congrArg Except.ok (Expr.ofTree_move _ tree)
  | error error => rfl

/-- The regions that are the same places cover the same words of two sources. -/
theorem coversAs_of_content {source other : String}
    (same : (sourceWords other).map Token.content = (sourceWords source).map Token.content)
    (region : Span) :
    Span.CoversAs source other ((sourcePlaces source).span region)
      ((sourcePlaces other).span region) := by
  have lengths : (sourceWords other).length = (sourceWords source).length := by
    simpa using congrArg List.length same
  refine List.forall₂_iff_get.mpr ⟨lengths.symm, fun place below otherBelow => ⟨?_, ?_⟩⟩
  · have contents := List.getElem_of_eq same (by simpa using otherBelow)
    simpa using contents
  · rw [List.get_eq_getElem, List.get_eq_getElem]
    exact (Relocation.toWords_covers_iff (inOrder_sourceWords other) region otherBelow).trans
      (Relocation.toWords_covers_iff (inOrder_sourceWords source) region below).symm

/-- Separators put between the tokens of a source change neither what is read from it nor, but
for where it points, why it is rejected. -/
theorem ofText_respaced {source other : String}
    (respaced : Respaced (tokenize source) other.toList) :
    (∀ expr : Expr α, Expr.ofText other = .ok expr ↔ Expr.ofText source = .ok expr) ∧
    ∀ error, Expr.ofText (α := α) source = .error error →
      ∃ otherError, Expr.ofText (α := α) other = .error otherError ∧
        otherError.fault = error.fault ∧
        List.Forall₂ (Span.CoversAs source other) error.spans otherError.spans := by
  have same := respaced.content_sourceWords
  rw [Expr.ofText_eq_readPlaced, Expr.ofText_eq_readPlaced, same]
  cases readPlaced (α := α) ((sourceWords source).map Token.content) with
  | ok tree =>
      refine ⟨fun expr => Iff.rfl, fun error rejected => ?_⟩
      cases rejected
  | error error =>
      constructor
      · intro expr
        simp [Except.map, Except.mapError]
      · intro found rejected
        cases rejected
        refine ⟨(sourcePlaces other).error error, rfl, rfl, ?_⟩
        simp only [Relocation.error, List.forall₂_map_left_iff, List.forall₂_map_right_iff,
          List.forall₂_same]
        exact fun region _ => coversAs_of_content same region

end Readings

/-- The error of `(a y)`, and that of the text with whitespace put into it. -/
def missingOperatorError : ParseError :=
  ⟨[⟨1, 2⟩, ⟨3, 4⟩], .expectedOperator .name⟩

theorem ofText_respaced_missing_operator :
    Respaced (tokenize "(a y)") "( a\t y\n)".toList ∧
      Expr.ofText (α := Float) "(a y)" = .error missingOperatorError ∧
      ∃ otherError, Expr.ofText (α := Float) "( a\t y\n)" = .error otherError ∧
        otherError.fault = missingOperatorError.fault ∧
        List.Forall₂ (Span.CoversAs "(a y)" "( a\t y\n)") missingOperatorError.spans
          otherError.spans := by
  have tokens : tokenize "(a y)" =
      [⟨.openParen, "(", ⟨0, 1⟩⟩, ⟨.name, "a", ⟨1, 2⟩⟩, ⟨.whitespace, " ", ⟨2, 3⟩⟩,
        ⟨.name, "y", ⟨3, 4⟩⟩, ⟨.closeParen, ")", ⟨4, 5⟩⟩] := by decide +kernel
  have respaced : Respaced (tokenize "(a y)") "( a\t y\n)".toList := by
    rw [tokens]
    exact @Respaced.cons [] _ _ _ rfl (@Respaced.cons [' '] _ _ _ rfl
      (@Respaced.cons ['\t'] _ _ _ rfl (@Respaced.cons [] _ _ _ rfl
        (@Respaced.cons ['\n'] _ _ _ rfl (@Respaced.nil [] rfl)))))
  have rejected : Expr.ofText (α := Float) "(a y)" = .error missingOperatorError := by
    rw [Expr.ofText, ParseTree.parse, ParseTree.parseCompleting_eq, sourceWords, tokens]
    rfl
  exact ⟨respaced, rejected, (ofText_respaced respaced).2 _ rejected⟩

end Calculator
