import Calculator.Proofs.Parser.FirstFault
import Calculator.Proofs.Token.MaximalMunch

/-!
# Regions of words

The words of a source stand one behind the other, and the piece of the source from one of
them to another has no other words than the source has there.
-/

set_option autoImplicit false

namespace Calculator

structure InOrder (start stop : Nat) (words : List Token) : Prop where
  pairwise : words.Pairwise fun earlier later => earlier.span.stop ≤ later.span.start
  start_lt : ∀ word ∈ words, word.span.start < word.span.stop
  le_start : ∀ word ∈ words, start ≤ word.span.start
  stop_le : ∀ word ∈ words, word.span.stop ≤ stop

namespace InOrder

variable {start stop : Nat} {words chosen : List Token} {first last word : Token}

theorem sublist (inOrder : InOrder start stop words) (among : chosen.Sublist words) :
    InOrder start stop chosen where
  pairwise := inOrder.pairwise.sublist among
  start_lt word member := inOrder.start_lt word (among.subset member)
  le_start word member := inOrder.le_start word (among.subset member)
  stop_le word member := inOrder.stop_le word (among.subset member)

theorem of_cons (inOrder : InOrder start stop (word :: words)) :
    InOrder word.span.stop stop words where
  pairwise := inOrder.pairwise.of_cons
  start_lt other member := inOrder.start_lt other (List.mem_cons_of_mem _ member)
  le_start _ member := List.rel_of_pairwise_cons inOrder.pairwise member
  stop_le other member := inOrder.stop_le other (List.mem_cons_of_mem _ member)

private theorem cons (inOrder : InOrder word.span.stop stop words) (below : start ≤ word.span.start)
    (nonempty : word.span.start < word.span.stop) (above : word.span.stop ≤ stop) :
    InOrder start stop (word :: words) where
  pairwise := List.pairwise_cons.mpr ⟨inOrder.le_start, inOrder.pairwise⟩
  start_lt := List.forall_mem_cons.mpr ⟨nonempty, inOrder.start_lt⟩
  le_start := List.forall_mem_cons.mpr ⟨below, fun other member => by
    have later := inOrder.le_start other member
    omega⟩
  stop_le := List.forall_mem_cons.mpr ⟨above, inOrder.stop_le⟩

theorem stop_le_start_of_append {front back : List Token}
    (inOrder : InOrder start stop (front ++ back)) (earlier : first ∈ front)
    (later : last ∈ back) : first.span.stop ≤ last.span.start :=
  (List.pairwise_append.mp inOrder.pairwise).2.2 first earlier last later

theorem start_lt_stop (inOrder : InOrder start stop words) (begins : words.head? = some first)
    (ends : words.getLast? = some last) : first.span.start < last.span.stop := by
  obtain ⟨init, rfl⟩ := List.getLast?_eq_some_iff.mp ends
  have lastNonempty := inOrder.start_lt last (by simp)
  cases init with
  | nil =>
      cases begins
      exact lastNonempty
  | cons word init =>
      cases begins
      have nonempty := inOrder.start_lt first (by simp)
      have behind := inOrder.stop_le_start_of_append List.mem_cons_self List.mem_cons_self
      omega

end InOrder

private theorem byteSize_pos {text : List Char} (some : text ≠ []) : 0 < byteSize text := by
  obtain ⟨first, rest, rfl⟩ := List.exists_cons_of_ne_nil some
  have size : byteSize [first] = first.utf8Size := by simp [byteSize]
  have positive := first.utf8Size_pos
  rw [byteSize_cons]
  omega

private theorem CutInto.inOrder {offset : Nat} {text : List Char} {tokens : List Token}
    (cut : CutInto offset text tokens) : InOrder offset (offset + byteSize text) tokens := by
  induction cut with
  | nil => exact ⟨.nil, by simp, by simp, by simp⟩
  | @cons offset kind lexeme rest tokens munched _ ih =>
      have positive := byteSize_pos munched.ne_nil
      rw [byteSize_append, ← Nat.add_assoc]
      refine .cons ih (Nat.le_refl offset) ?_ (Nat.le_add_right _ _)
      dsimp only [lexemeAt]
      omega

theorem inOrder_sourceWords (source : String) :
    InOrder 0 source.utf8ByteSize (sourceWords source) := by
  have ordered := (cutInto_tokenize source).inOrder
  rw [Nat.zero_add, byteSize_toList] at ordered
  exact ordered.sublist List.filter_sublist

theorem mem_tokenize_of_mem_sourceWords {source : String} {word : Token}
    (member : word ∈ sourceWords source) : word ∈ tokenize source :=
  (List.mem_filter.mp member).1

theorem isWhitespace_of_mem_sourceWords {source : String} {word : Token}
    (member : word ∈ sourceWords source) : word.kind ≠ .whitespace := by
  have solid := (List.mem_filter.mp member).2
  simpa [Token.isWhitespace] using solid

/-! ## Pieces of a source -/

/-- Elements that are kept one behind the other come from a piece that begins and ends with
the first and the last of them. -/
theorem exists_piece_of_filter {β : Type} {keeps : β → Bool} {all before middle after : List β}
    (kept : all.filter keeps = before ++ (middle ++ after)) {first last : β}
    (begins : middle.head? = some first) (ends : middle.getLast? = some last) :
    ∃ front piece back, all = front ++ (piece ++ back) ∧ piece.filter keeps = middle ∧
      piece.head? = some first ∧ piece.getLast? = some last := by
  obtain ⟨init, rfl⟩ := List.getLast?_eq_some_iff.mp ends
  obtain ⟨front, rest, rfl, -, restKept⟩ := List.filter_eq_append_iff.mp kept
  obtain ⟨more, split⟩ := List.head?_eq_some_iff.mp begins
  -- What is dropped in front of the first element is left to the front.
  rw [split, List.cons_append] at restKept
  obtain ⟨gap, tail, rfl, -, firstKept, tailKept⟩ := List.filter_eq_cons_iff.mp restKept
  have whole : (first :: tail).filter keeps = init ++ last :: after := by
    rw [List.filter_cons_of_pos firstKept, tailKept, ← List.cons_append, ← split,
      List.append_assoc, List.singleton_append]
  obtain ⟨inner, outer, same, innerKept, outerKept⟩ := List.filter_eq_append_iff.mp whole
  obtain ⟨between, back, rfl, dropped, lastKept, -⟩ := List.filter_eq_cons_iff.mp outerKept
  have pieces : first :: tail = (inner ++ between ++ [last]) ++ back := by simp [same]
  have head : (inner ++ between ++ [last]).head? = some first := by
    cases found : inner ++ between ++ [last] with
    | nil => simp at found
    | cons next more =>
        rw [found, List.cons_append] at pieces
        rw [(List.cons.inj pieces).1, List.head?_cons]
  refine ⟨front ++ gap, inner ++ between ++ [last], back, ?_, ?_, head, ?_⟩
  · rw [← pieces, List.append_assoc]
  · rw [List.filter_append, List.filter_append, innerKept, List.filter_eq_nil_iff.mpr dropped,
      List.append_nil, List.filter_cons_of_pos lastKept, List.filter_nil]
  · exact List.getLast?_concat

/-- Cutting out the words from the first to the last of a run leaves them as they are. -/
theorem exists_slice {source : String} {before middle after : List Token}
    (words : sourceWords source = before ++ (middle ++ after)) {first last : Token}
    (begins : middle.head? = some first) (ends : middle.getLast? = some last) :
    ∃ slice : String, (first.span.through last.span).Selects source slice ∧
      middle = (sourceWords slice).map (Token.shift first.span.start) := by
  obtain ⟨front, piece, back, tokens, rfl, pieceBegins, pieceEnds⟩ :=
    exists_piece_of_filter words begins ends
  have cut := cutInto_tokenize source
  rw [tokens] at cut
  obtain ⟨passed, rest, parts, -, restCut⟩ := cut.split
  obtain ⟨text, remaining, rfl, here, -⟩ := restCut.split
  rw [Nat.zero_add] at here
  have start : first.span.start = byteSize passed := by
    cases here with
    | nil => cases pieceBegins
    | cons => cases pieceBegins; rfl
  have stop : last.span.stop = byteSize passed + byteSize text :=
    stop_of_mem_getLast?_tokensFrom _ _ last (by rw [here.tokensFrom_eq, pieceEnds]; rfl)
  refine ⟨String.ofList text, ⟨String.ofList passed, String.ofList remaining, ?_, ?_⟩, ?_⟩
  · rw [← String.ofList_append, ← String.ofList_append, List.append_assoc, ← parts,
      String.ofList_toList]
  · rw [Span.through, start, stop]
    rfl
  · have own : sourceWords (String.ofList text) = wordsFrom 0 text := by
      rw [sourceWords, tokenize, String.toList_ofList]
      rfl
    rw [own, start, ← wordsFrom_add, Nat.add_zero, wordsFrom, here.tokensFrom_eq]
    rfl

end Calculator
