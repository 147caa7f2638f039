import FortranMarkup.Proofs.Folding.Resuming

/-!
# The passes of a document

`Document.foldRange` up to the end of the document, taken apart: the document whose comment levels
are set right (`rechecked`), and the states of the pass (`foldStateAt`). Lines before the pass keep
the level they have in the one, and each line from there on has the level that the state emits where
the line ends (`levelAt_foldRange_of_lt`, `levelAt_foldRange_of_ends`).
-/

namespace FortranMarkup

namespace Document

variable {doc : Document} {form : SourceForm} {outside : Style} {start pos : Nat}

/-- The pass that gives the lines from a position on their levels. -/
def foldPass (doc : Document) (form : SourceForm) (outside : Style) (start : Nat) : FoldPass :=
  ⟨doc, form, outside, doc.source.lineAt start - 1, doc.size⟩

/-- The window with which that pass begins. -/
def foldWindow (doc : Document) (form : SourceForm) (outside : Style) (start : Nat) :
    CommentWindow :=
  if (doc.foldPass form outside start).foldsComments then
    CommentWindow.around doc.source form (doc.source.lineAt start - 1)
  else .empty

/-- The document with the levels of the comments before that pass set right. -/
def rechecked (doc : Document) (form : SourceForm) (outside : Style) (start : Nat) : Document :=
  { doc with
    levels :=
      if (doc.foldPass form outside start).foldsComments then
        (doc.foldWindow form outside start).recheck doc.levels (doc.source.lineAt start - 1)
      else doc.levels }

/-- The level with which that pass begins. -/
def foldLevel (doc : Document) (form : SourceForm) (outside : Style) (start : Nat) : FoldLevel :=
  if doc.source.lineAt start = 0 then .base
  else (doc.rechecked form outside start).levelAt (doc.source.lineAt start - 1)

/-- The position with which that pass begins. -/
def foldStart (doc : Document) (start : Nat) : Nat :=
  doc.source.lineStart (doc.source.lineAt start - 1)

/-- The state with which that pass begins. -/
def foldBegun (doc : Document) (form : SourceForm) (outside : Style) (start : Nat) : FoldState :=
  ⟨(doc.foldLevel form outside start).number, 0, false, doc.source.lineAt start ≠ 0, "",
    doc.foldStart start, doc.foldWindow form outside start, #[]⟩

/-- The state of that pass before a position. -/
def foldStateAt (doc : Document) (form : SourceForm) (outside : Style) (start pos : Nat) :
    FoldState :=
  (doc.foldPass form outside start).after (doc.foldBegun form outside start) (doc.foldStart start) pos

theorem foldStateAt_succ (le : doc.foldStart start ≤ pos) :
    doc.foldStateAt form outside start (pos + 1) =
      (doc.foldPass form outside start).step (doc.foldStateAt form outside start pos) pos :=
  FoldPass.after_succ _ _ le

theorem foldStateAt_succ_of_ends (le : doc.foldStart start ≤ pos)
    (ends : endsLineAt doc.source.bytes pos = true) :
    doc.foldStateAt form outside start (pos + 1) =
      (doc.foldPass form outside start).endLine
        ((doc.foldPass form outside start).looked (doc.foldStateAt form outside start pos) pos) := by
  rw [foldStateAt_succ le, FoldPass.step_eq]
  exact if_pos ends

theorem after_foldStateAt (doc : Document) (form : SourceForm) (outside : Style) {start middle pos : Nat}
    (le : doc.foldStart start ≤ middle) (le' : middle ≤ pos) :
    (doc.foldPass form outside start).after (doc.foldStateAt form outside start middle) middle pos =
      doc.foldStateAt form outside start pos := by
  rw [foldStateAt, FoldPass.after_trans _ _ le le', foldStateAt]

theorem foldStart_zero (table : doc.source.Tabled) : doc.foldStart 0 = 0 := by
  rw [foldStart, Source.lineAt_zero table, Source.lineStart_zero table]

theorem foldStart_zero_le (table : doc.source.Tabled) (pos : Nat) : doc.foldStart 0 ≤ pos :=
  Nat.le_trans (Nat.le_of_eq (foldStart_zero table)) (Nat.zero_le pos)

theorem foldRange_eq (doc : Document) (form : SourceForm) (outside : Style) (start : Nat) :
    doc.foldRange form start (doc.size - start) outside =
      { doc with
        levels := overwrite (doc.rechecked form outside start).levels (doc.source.lineAt start - 1)
          (doc.foldStateAt form outside start doc.size).emitted.toList } := by
  have stop : min (start + (doc.size - start)) doc.size = doc.size := by omega
  rw [foldRange, stop]
  rfl

theorem size_levels_rechecked (doc : Document) (form : SourceForm) (outside : Style) (start : Nat) :
    (doc.rechecked form outside start).levels.size = doc.levels.size := by
  unfold rechecked
  dsimp only
  split
  · exact CommentWindow.size_recheckLines _ _ _ _ _
  · rfl

theorem levelAt_foldRange_of_lt {line : Nat} (less : line < doc.source.lineAt start - 1) :
    (doc.foldRange form start (doc.size - start) outside).levelAt line =
      (doc.rechecked form outside start).levelAt line := by
  rw [foldRange_eq, levelAt, getElem?_overwrite, if_neg (by omega)]
  rfl

theorem line_foldBegun (table : doc.source.Tabled) (form : SourceForm) (outside : Style)
    (start : Nat) :
    (doc.foldPass form outside start).line (doc.foldBegun form outside start) =
      doc.source.lineAt (doc.foldStart start) := by
  have bound := Source.lineAt_lt_lines table start
  rw [foldStart, Source.lineAt_lineStart table (by omega)]
  rfl

/-- A pass over everything emits a level for every line but the last one, which no line end ends. -/
theorem size_emitted (table : doc.source.Tabled) (form : SourceForm) (outside : Style) :
    (doc.foldStateAt form outside 0 doc.size).emitted.size + 1 = doc.source.lines := by
  have line : doc.source.lineAt 0 - 1 + (doc.foldStateAt form outside 0 doc.size).emitted.size =
      doc.source.lineAt doc.size :=
    FoldPass.line_after table (line_foldBegun table form outside 0)
      (foldStart_zero_le table doc.size)
  rw [Source.lineAt_zero table, Nat.zero_sub, Nat.zero_add] at line
  rw [line]
  exact Source.lineAt_size table

theorem levelAt_foldRange_of_ends (fits : doc.Fits) (le : doc.foldStart start ≤ pos)
    (ends : endsLineAt doc.source.bytes pos = true) :
    (doc.foldRange form start (doc.size - start) outside).levelAt (doc.source.lineAt pos) =
      (doc.foldPass form outside start).lineLevel (doc.foldStateAt form outside start pos) := by
  have inside := Source.lt_size_of_endsLineAt ends
  have bound := Source.lineAt_lt_lines fits.table pos
  have emits : (doc.foldStateAt form outside start doc.size).emitted[_]? = _ :=
    (doc.foldPass form outside start).getElem?_emitted fits.table (line_foldBegun fits.table form outside start) le
      inside ends
  have line : doc.source.lineAt start - 1 ≤ doc.source.lineAt pos := by
    have mono := Source.lineAt_mono fits.table le
    have bound := Source.lineAt_lt_lines fits.table start
    rwa [foldStart, Source.lineAt_lineStart fits.table (by omega)] at mono
  obtain ⟨reached, -⟩ := Array.getElem?_eq_some_iff.1 emits
  have reached : doc.source.lineAt pos - (doc.source.lineAt start - 1) <
      (doc.foldStateAt form outside start doc.size).emitted.size := reached
  rw [foldRange_eq, levelAt, getElem?_overwrite, if_pos, Array.getElem?_toList]
  · exact congrArg (·.getD .base) emits
  · refine ⟨line, ?_, ?_⟩
    · rw [Array.length_toList]
      omega
    · rwa [size_levels_rechecked, fits.levels]

variable {doc₁ doc₂ : Document} {start₁ start₂ : Nat}

theorem foldBegun_congr (source : doc₁.source = doc₂.source)
    (properties : doc₁.properties = doc₂.properties)
    (level : (doc₁.foldLevel form outside start).number = (doc₂.foldLevel form outside start).number) :
    doc₁.foldBegun form outside start = doc₂.foldBegun form outside start := by
  unfold foldBegun foldWindow foldPass FoldPass.foldsComments property foldStart
  rw [level]
  simp only [source, properties]

theorem foldStateAt_congr (source : doc₁.source = doc₂.source) (styles : doc₁.styles = doc₂.styles)
    (properties : doc₁.properties = doc₂.properties)
    (firstLine : doc₁.source.lineAt start₁ - 1 = doc₂.source.lineAt start₂ - 1)
    (begun : doc₁.foldBegun form outside start₁ = doc₂.foldBegun form outside start₂) :
    doc₁.foldStateAt form outside start₁ pos = doc₂.foldStateAt form outside start₂ pos := by
  have same : (doc₁.foldPass form outside start₁).SameText (doc₂.foldPass form outside start₂) :=
    ⟨source, styles, properties, rfl, rfl, by rw [foldPass, foldPass, size, size, source]⟩
  have step : (doc₁.foldPass form outside start₁).step = (doc₂.foldPass form outside start₂).step := by
    funext s pos
    exact same.step_eq firstLine s pos
  rw [foldStateAt, foldStateAt, FoldPass.after, FoldPass.after, step, begun, foldStart, foldStart,
    firstLine, source]

end Document

end FortranMarkup
