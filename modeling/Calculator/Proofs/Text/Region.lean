import Calculator.Text.Span

/-!
# Texts in regions

A region of a source that starts and ends between two characters holds one text, the one
that its bytes spell.
-/

set_option autoImplicit false

namespace Calculator

/-- A text stands in a source where a region says. -/
def Span.Selects (span : Span) (source text : String) : Prop :=
  ∃ before after : String, source = before ++ text ++ after ∧
    span = ⟨before.utf8ByteSize, before.utf8ByteSize + text.utf8ByteSize⟩

/-- A region that starts and ends between characters of a source. -/
structure Span.LiesIn (span : Span) (source : String) : Prop where
  start_le_stop : span.start ≤ span.stop
  stop_le : span.stop ≤ source.utf8ByteSize
  isValid_start : String.Pos.Raw.IsValid source ⟨span.start⟩
  isValid_stop : String.Pos.Raw.IsValid source ⟨span.stop⟩

namespace Span.Selects

variable {span : Span} {source text other : String}

private theorem bytes (selects : span.Selects source text) :
    source.toByteArray.extract span.start span.stop = text.toByteArray := by
  obtain ⟨before, after, rfl, rfl⟩ := selects
  rw [String.append_assoc, String.toByteArray_append, String.toByteArray_append]
  calc (before.toByteArray ++ (text.toByteArray ++ after.toByteArray)).extract
        (before.toByteArray.size + 0) (before.toByteArray.size + text.toByteArray.size)
      = (text.toByteArray ++ after.toByteArray).extract 0 text.toByteArray.size :=
        ByteArray.extract_append_size_add
    _ = text.toByteArray := ByteArray.extract_append_eq_left rfl

theorem unique (selects : span.Selects source text) (otherSelects : span.Selects source other) :
    text = other :=
  String.toByteArray_inj.mp (selects.bytes.symm.trans otherSelects.bytes)

private theorem isValid_start (selects : span.Selects source text) :
    String.Pos.Raw.IsValid source ⟨span.start⟩ := by
  obtain ⟨before, after, rfl, rfl⟩ := selects
  exact String.Pos.Raw.isValid_iff_exists_append.mpr
    ⟨before, text ++ after, String.append_assoc, rfl⟩

private theorem isValid_stop (selects : span.Selects source text) :
    String.Pos.Raw.IsValid source ⟨span.stop⟩ := by
  obtain ⟨before, after, rfl, rfl⟩ := selects
  refine String.Pos.Raw.isValid_iff_exists_append.mpr ⟨before ++ text, after, rfl, ?_⟩
  rw [String.rawEndPos, String.utf8ByteSize_append]

theorem stop_eq (selects : span.Selects source text) :
    span.stop = span.start + text.utf8ByteSize := by
  obtain ⟨before, after, -, rfl⟩ := selects
  rfl

theorem liesIn (selects : span.Selects source text) : span.LiesIn source where
  start_le_stop := by
    rw [selects.stop_eq]
    exact Nat.le_add_right _ _
  stop_le := by
    obtain ⟨before, after, rfl, rfl⟩ := selects
    simp only [String.utf8ByteSize_append]
    omega
  isValid_start := selects.isValid_start
  isValid_stop := selects.isValid_stop

end Span.Selects

theorem Span.LiesIn.through {first last : Span} {source : String} (firstLies : first.LiesIn source)
    (lastLies : last.LiesIn source) (ordered : first.start ≤ last.stop) :
    (first.through last).LiesIn source :=
  ⟨ordered, lastLies.stop_le, firstLies.isValid_start, lastLies.isValid_stop⟩

end Calculator
