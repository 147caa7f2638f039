import FortranMarkup.Proofs.Document.Edit

/-!
# Fold levels after an edit

An edit compares the number of lines before and after it, and nothing else, to bring the fold levels
back in line. That is enough because a text with more bytes at one position has the lines before the
position where they were and those after it as many lines further down as there are lines more
(`Source.Widened.lines_add`). The exception is a deletion that makes one line end of a carriage
return and a line feed (`Source.JoinsLineEnd`).

The main result is `Document.levels_follow_lines`.
-/

namespace FortranMarkup

namespace Source

/-- Without the bytes from one position up to another, a carriage return stands before a line
feed. -/
def JoinsLineEnd (src : Source) (first stop : Nat) : Prop :=
  0 < first ∧ src.char? (first - 1) = some '\r' ∧ src.char? stop = some '\n'

instance (src : Source) (first stop : Nat) : Decidable (src.JoinsLineEnd first stop) :=
  inferInstanceAs (Decidable (_ ∧ _))

/-- The second text is the first one with some bytes more at a position. -/
structure Widened (pos count : Nat) (narrow wide : Source) : Prop where
  narrowTable : narrow.Tabled
  wideTable : wide.Tabled
  within : pos ≤ narrow.size
  size : wide.size = narrow.size + count
  before : ∀ i, i < pos → narrow.char? i = wide.char? i
  after : ∀ i, pos ≤ i → narrow.char? i = wide.char? (i + count)

namespace Widened

variable {pos count : Nat} {narrow wide : Source}

theorem endsLineAt_before (widened : Widened pos count narrow wide) {i : Nat} (less : i + 1 < pos) :
    endsLineAt narrow.bytes i = endsLineAt wide.bytes i := by
  have here : charAt? narrow.bytes i = charAt? wide.bytes i :=
    widened.before i (Nat.lt_of_succ_lt less)
  have next : charAt? narrow.bytes (i + 1) = charAt? wide.bytes (i + 1) :=
    widened.before (i + 1) less
  rw [endsLineAt, endsLineAt, here, next]

theorem endsLineAt_after (widened : Widened pos count narrow wide) {i : Nat} (le : pos ≤ i) :
    endsLineAt narrow.bytes i = endsLineAt wide.bytes (i + count) := by
  have here : charAt? narrow.bytes i = charAt? wide.bytes (i + count) := widened.after i le
  have next : charAt? narrow.bytes (i + 1) = charAt? wide.bytes (i + count + 1) := by
    rw [Nat.add_right_comm]
    exact widened.after (i + 1) (Nat.le_succ_of_le le)
  rw [endsLineAt, endsLineAt, here, next]

theorem lineAt_before (widened : Widened pos count narrow wide) {i : Nat} (less : i < pos) :
    narrow.lineAt i = wide.lineAt i := by
  induction i with
  | zero => rw [lineAt_zero widened.narrowTable, lineAt_zero widened.wideTable]
  | succ i ih =>
    rw [lineAt_succ widened.narrowTable, lineAt_succ widened.wideTable,
      widened.endsLineAt_before less, ih (Nat.lt_of_succ_lt less)]

theorem lineAt_after (widened : Widened pos count narrow wide) {i : Nat} (le : pos ≤ i) :
    wide.lineAt (i + count) + narrow.lineAt pos = wide.lineAt (pos + count) + narrow.lineAt i := by
  obtain ⟨more, rfl⟩ := Nat.exists_eq_add_of_le le
  induction more with
  | zero => rfl
  | succ more ih =>
    have ih := ih (Nat.le_add_right pos more)
    rw [← Nat.add_assoc, Nat.add_right_comm _ 1 count, lineAt_succ widened.wideTable,
      lineAt_succ widened.narrowTable, ← widened.endsLineAt_after (Nat.le_add_right pos more)]
    split
    · omega
    · exact ih

/-- There are as many lines more as there are at the position. -/
theorem lines_add (widened : Widened pos count narrow wide) :
    wide.lines + narrow.lineAt pos = wide.lineAt (pos + count) + narrow.lines := by
  have all := widened.lineAt_after widened.within
  rw [← lineAt_size widened.wideTable, ← lineAt_size widened.narrowTable, widened.size]
  omega

/-- A line end right before the position is one in the wider text, alone or with a line feed that
comes first there. -/
theorem endsLineAt_or_next (widened : Widened (pos + 1) count narrow wide)
    (ends : endsLineAt narrow.bytes pos = true) :
    endsLineAt wide.bytes pos = true ∨ 0 < count ∧ endsLineAt wide.bytes (pos + 1) = true := by
  have here : charAt? narrow.bytes pos = charAt? wide.bytes pos :=
    widened.before pos (Nat.lt_succ_self pos)
  have next : charAt? narrow.bytes (pos + 1) = charAt? wide.bytes (pos + 1 + count) :=
    widened.after (pos + 1) (Nat.le_refl _)
  rw [endsLineAt, here, next] at ends
  simp only [endsLineAt, Bool.or_eq_true, Bool.and_eq_true, decide_eq_true_eq] at ends ⊢
  rcases ends with feed | ⟨ret, other⟩
  · exact .inl (.inl feed)
  · by_cases first : charAt? wide.bytes (pos + 1) = some '\n'
    · refine .inr ⟨Nat.pos_of_ne_zero ?_, .inl first⟩
      rintro rfl
      exact other first
    · exact .inl (.inr ⟨ret, first⟩)

theorem lineAt_le (widened : Widened pos count narrow wide) :
    narrow.lineAt pos ≤ wide.lineAt (pos + count) := by
  have later {i : Nat} (le : i ≤ pos + count) : wide.lineAt i ≤ wide.lineAt (pos + count) :=
    lineAt_mono widened.wideTable le
  cases pos with
  | zero => exact (lineAt_zero widened.narrowTable).symm ▸ Nat.zero_le _
  | succ pos =>
    have same : narrow.lineAt pos = wide.lineAt pos := widened.lineAt_before (Nat.lt_succ_self pos)
    rw [lineAt_succ widened.narrowTable, same]
    split
    · rename_i ends
      rcases widened.endsLineAt_or_next ends with wideEnds | ⟨added, wideEnds⟩
      · have next := lineAt_succ widened.wideTable pos
        rw [if_pos wideEnds] at next
        exact next ▸ later (Nat.le_add_right _ _)
      · have next := lineAt_succ widened.wideTable (pos + 1)
        rw [if_pos wideEnds] at next
        have mono : wide.lineAt pos ≤ wide.lineAt (pos + 1) :=
          lineAt_mono widened.wideTable (Nat.le_succ pos)
        have far := later (i := pos + 1 + 1) (Nat.add_le_add_left added _)
        omega
    · exact later (Nat.le_trans (Nat.le_succ _) (Nat.le_add_right _ _))

theorem lines_le (widened : Widened pos count narrow wide) : narrow.lines ≤ wide.lines := by
  have sum := widened.lines_add
  have le := widened.lineAt_le
  omega

/-- Unless a carriage return comes before a line feed, taking bytes out keeps the lines up to where
they were. -/
theorem le_lineAt (widened : Widened pos count narrow wide)
    (apart : ¬wide.JoinsLineEnd pos (pos + count)) : wide.lineAt pos ≤ narrow.lineAt pos := by
  cases pos with
  | zero => exact (lineAt_zero widened.wideTable).symm ▸ Nat.zero_le _
  | succ pos =>
    have same : narrow.lineAt pos = wide.lineAt pos := widened.lineAt_before (Nat.lt_succ_self pos)
    have here : charAt? narrow.bytes pos = charAt? wide.bytes pos :=
      widened.before pos (Nat.lt_succ_self pos)
    have next : charAt? narrow.bytes (pos + 1) = charAt? wide.bytes (pos + 1 + count) :=
      widened.after (pos + 1) (Nat.le_refl _)
    have keeps : endsLineAt wide.bytes pos = true → endsLineAt narrow.bytes pos = true := by
      intro ends
      rw [endsLineAt, here, next]
      simp only [JoinsLineEnd, char?, Nat.add_sub_cancel, Nat.zero_lt_succ, true_and] at apart
      simp only [endsLineAt, Bool.or_eq_true, Bool.and_eq_true, decide_eq_true_eq] at ends ⊢
      rcases ends with feed | ⟨ret, -⟩
      · exact .inl feed
      · exact .inr ⟨ret, fun feed => apart ⟨ret, feed⟩⟩
    rw [lineAt_succ widened.narrowTable, lineAt_succ widened.wideTable, same]
    split
    · rename_i ends
      exact Nat.le_of_eq (if_pos (keeps ends)).symm
    · split
      · exact Nat.le_succ _
      · exact Nat.le_refl _

/-- A line that starts after the bytes more starts in the narrower text too. -/
theorem startsLine_after (widened : Widened pos count narrow wide) {start : Nat} (less : pos < start)
    (starts : wide.StartsLine (start + count)) : narrow.StartsLine start := by
  obtain ⟨i, rfl⟩ : ∃ i, start = i + 1 := ⟨start - 1, by omega⟩
  rw [startsLine_succ, widened.endsLineAt_after (Nat.le_of_lt_succ less), ← startsLine_succ,
    ← Nat.add_right_comm]
  exact starts

end Widened

end Source

/-! ## Levels brought back in line -/

theorem toList_extract_size {α : Type} (values : Array α) (first : Nat) :
    (values.extract first values.size).toList = values.toList.drop first := by
  rw [Array.toList_extract, List.extract_eq_take_drop, List.take_of_length_le (by simp)]

/-- Cutting to a size and filling up to it changes nothing of that size. -/
theorem resize_eq {α : Type} {values : Array α} {count : Nat} (sizes : values.size = count)
    (fill : α) : values.extract 0 count ++ .replicate (count - values.size) fill = values := by
  subst sizes
  simp

section Realign

variable {levels : Array FoldLevel} {line oldLines newLines : Nat}

theorem toList_realignLevels_of_ge (sizes : levels.size = oldLines) (bound : line < newLines)
    (ge : newLines ≤ oldLines) :
    (realignLevels levels line oldLines newLines).toList =
      levels.toList.take (line + 1) ++ levels.toList.drop (line + 1 + (oldLines - newLines)) := by
  have edge : min (line + 1) levels.size = line + 1 := by omega
  unfold realignLevels
  dsimp only
  rw [edge, if_neg (Nat.not_lt.2 ge),
    resize_eq (by simp only [Array.size_append, Array.size_extract]; omega)]
  rw [Array.toList_append, toList_extract_size]
  simp

theorem toList_realignLevels_of_le (sizes : levels.size = oldLines) (bound : line < oldLines)
    (le : oldLines ≤ newLines) :
    (realignLevels levels line oldLines newLines).toList =
      levels.toList.take (line + 1) ++
        List.replicate (newLines - oldLines) (levels[line]?.getD .base) ++
        levels.toList.drop (line + 1) := by
  rcases Nat.lt_or_eq_of_le le with less | rfl
  · have edge : min (line + 1) levels.size = line + 1 := by omega
    unfold realignLevels
    dsimp only
    rw [edge, if_pos less, resize_eq (by
      simp only [Array.size_append, Array.size_extract, Array.size_replicate]
      omega)]
    rw [Array.toList_append, toList_extract_size]
    simp
  · rw [toList_realignLevels_of_ge sizes bound le]
    simp

end Realign

theorem getElem?_append_extract {α : Type} {values : Array α} {first stop : Nat} (kept : Array α)
    (size : kept.size = stop) (i : Nat) :
    (kept ++ values.extract first values.size)[stop + i]? = values[first + i]? := by
  rw [Array.getElem?_append_right (by omega), size, Nat.add_sub_cancel_left, Array.getElem?_extract]
  split
  · rfl
  · exact (Array.getElem?_eq_none (by omega)).symm

namespace Document

variable {doc : Document}

/-! ## Inserting -/

theorem widened_insert (fits : doc.Fits) (pos : Nat) (bytes : Array UInt8) :
    Source.Widened (min pos doc.size) bytes.size doc.source (doc.insert pos bytes).source where
  narrowTable := fits.table
  wideTable := rfl
  within := Nat.min_le_right _ _
  size := by
    have within : min pos doc.size ≤ doc.source.bytes.size := Nat.min_le_right _ _
    simp only [insert, withText, Source.ofBytes, Source.size, Array.size_append, Array.size_extract]
    unfold size Source.size at within ⊢
    omega
  before := fun i less =>
    congrArg (Option.map Char.ofUInt8) ((editedFrom_insert fits pos bytes).bytes i less)
  after := by
    intro i le
    obtain ⟨more, rfl⟩ := Nat.exists_eq_add_of_le le
    have within : min pos doc.size ≤ doc.source.bytes.size := Nat.min_le_right _ _
    have size : (doc.source.bytes.extract 0 (min pos doc.size) ++ bytes).size =
        min pos doc.size + bytes.size := by
      rw [Array.size_append, Array.size_extract]
      omega
    rw [Nat.add_right_comm]
    exact congrArg (Option.map Char.ofUInt8) (getElem?_append_extract _ size more).symm

/-- Inserting gives the lines it adds the level of the line it begins on. -/
theorem levels_insert (fits : doc.Fits) (pos : Nat) (bytes : Array UInt8) :
    ∃ more, (doc.insert pos bytes).source.lines = doc.source.lines + more ∧
      (doc.insert pos bytes).levels.toList =
        doc.levels.toList.take (doc.source.lineAt (min pos doc.size) + 1) ++
          List.replicate more (doc.levelAt (doc.source.lineAt (min pos doc.size))) ++
          doc.levels.toList.drop (doc.source.lineAt (min pos doc.size) + 1) := by
  have le : doc.source.lines ≤ (doc.insert pos bytes).source.lines :=
    (widened_insert fits pos bytes).lines_le
  refine ⟨_, (Nat.add_sub_cancel' le).symm, ?_⟩
  exact toList_realignLevels_of_le fits.levels (Source.lineAt_lt_lines fits.table _) le

/-! ## Deleting -/

section Delete

variable {first stop start last : Nat}

theorem delete_eq (lastAt : last = min stop doc.size) (startAt : start = min first last)
    (some_gone : start < last) :
    doc.delete first stop =
      doc.withText (doc.source.bytes.extract 0 start ++ doc.source.bytes.extract last doc.size)
        (doc.styles.extract 0 start ++ doc.styles.extract last doc.styles.size)
        (doc.source.lineAt start) start := by
  subst startAt lastAt
  exact if_neg (Nat.ne_of_lt some_gone)

theorem widened_delete (fits : doc.Fits) (lastAt : last = min stop doc.size)
    (startAt : start = min first last) (some_gone : start < last) :
    Source.Widened start (last - start) (doc.delete first stop).source doc.source := by
  have within : last ≤ doc.source.bytes.size := lastAt ▸ Nat.min_le_right _ _
  have kept : (doc.source.bytes.extract 0 start).size = start := by
    rw [Array.size_extract]
    omega
  rw [delete_eq lastAt startAt some_gone]
  refine ⟨rfl, fits.table, ?_, ?_, ?_, ?_⟩
  · simp only [withText, Source.ofBytes, Source.size, Array.size_append, kept]
    omega
  · simp only [withText, Source.ofBytes, Source.size, Array.size_append, kept, Array.size_extract]
    unfold size Source.size
    omega
  · intro i less
    exact congrArg (Option.map Char.ofUInt8) (getElem?_of_extract _ _ (by omega) less)
  · intro i le
    obtain ⟨more, rfl⟩ := Nat.exists_eq_add_of_le le
    have there : start + more + (last - start) = last + more := by omega
    rw [there]
    exact congrArg (Option.map Char.ofUInt8) (getElem?_append_extract _ kept more)

/-- Deleting drops the levels that come next after that of the line it begins on, as many as there
are lines less. -/
theorem levels_delete (fits : doc.Fits) (lastAt : last = min stop doc.size)
    (startAt : start = min first last) (some_gone : start < last)
    (apart : ¬doc.source.JoinsLineEnd start last) :
    (doc.delete first stop).levels.toList =
      doc.levels.toList.take (doc.source.lineAt start + 1) ++
        doc.levels.toList.drop (doc.source.lineAt start + 1 +
          (doc.source.lines - (doc.delete first stop).source.lines)) := by
  have widened := widened_delete fits lastAt startAt some_gone
  rw [← Nat.add_sub_of_le (Nat.le_of_lt some_gone)] at apart
  have bound : doc.source.lineAt start < (doc.delete first stop).source.lines :=
    Nat.lt_of_le_of_lt (widened.le_lineAt apart) (Source.lineAt_lt_lines widened.narrowTable start)
  have le := widened.lines_le
  rw [delete_eq lastAt startAt some_gone] at bound le ⊢
  exact toList_realignLevels_of_ge fits.levels bound le

theorem levels_delete_before (fits : doc.Fits) (lastAt : last = min stop doc.size)
    (startAt : start = min first last) (some_gone : start < last)
    (apart : ¬doc.source.JoinsLineEnd start last) {line : Nat}
    (le : line ≤ doc.source.lineAt start) :
    (doc.delete first stop).levels[line]? = doc.levels[line]? := by
  have bound : doc.source.lineAt start < doc.levels.size :=
    fits.levels ▸ Source.lineAt_lt_lines fits.table start
  rw [← Array.getElem?_toList, levels_delete fits lastAt startAt some_gone apart,
    List.getElem?_append_left (by rw [List.length_take, Array.length_toList]; omega),
    List.getElem?_take_of_lt (Nat.lt_succ_of_le le), Array.getElem?_toList]

theorem levels_delete_after (fits : doc.Fits) (lastAt : last = min stop doc.size)
    (startAt : start = min first last) (some_gone : start < last)
    (apart : ¬doc.source.JoinsLineEnd start last) {line : Nat} (bound : line < doc.source.lines)
    (later : last < doc.source.lineStart line) :
    ∃ moved, moved < (doc.delete first stop).source.lines ∧
      (doc.delete first stop).source.lineStart moved =
        doc.source.lineStart line - (last - start) ∧
      (doc.delete first stop).levels[moved]? = doc.levels[line]? := by
  have widened := widened_delete fits lastAt startAt some_gone
  have levels := levels_delete fits lastAt startAt some_gone apart
  generalize doc.delete first stop = edited at widened levels ⊢
  obtain ⟨new, is⟩ : ∃ new, doc.source.lineStart line = new + (last - start) :=
    ⟨doc.source.lineStart line - (last - start), by omega⟩
  rw [is, Nat.add_sub_cancel]
  have starts : edited.source.StartsLine new :=
    widened.startsLine_after (by omega) (is ▸ Source.startsLine_lineStart fits.table bound)
  refine ⟨edited.source.lineAt new, Source.lineAt_lt_lines widened.narrowTable new,
    Source.lineStart_lineAt_of_startsLine widened.narrowTable starts, ?_⟩
  -- the line is as many lines further up as there are lines less, and below the line of the edit
  have below : edited.source.lineAt start < edited.source.lineAt new :=
    Source.lineAt_lt_of_startsLine widened.narrowTable (by omega) starts
  have shift := widened.lineAt_after (i := new) (by omega)
  have lines := widened.lines_add
  have le := widened.lines_le
  have kept : doc.source.lineAt start ≤ edited.source.lineAt start := by
    refine widened.le_lineAt ?_
    rwa [Nat.add_sub_of_le (Nat.le_of_lt some_gone)]
  rw [← is, Source.lineAt_lineStart fits.table bound] at shift
  have sizes : doc.levels.size = doc.source.lines := fits.levels
  have top : (doc.levels.toList.take (doc.source.lineAt start + 1)).length =
      doc.source.lineAt start + 1 := by
    rw [List.length_take, Array.length_toList]
    omega
  rw [← Array.getElem?_toList, levels, List.getElem?_append_right (by omega), top,
    List.getElem?_drop, Array.getElem?_toList]
  congr 1
  omega

end Delete

/-! ## Both edits -/

/-- Fold levels follow their lines through an edit. Inserting never takes lines away: the lines up to
that of the edit keep their levels, the lines it adds have the level of that line, and the others
come after them. Deleting keeps the levels of the lines up to that of the edit and of the lines that
start after what is gone, unless it brings a carriage return before a line feed. -/
theorem levels_follow_lines (fits : doc.Fits) :
    (∀ pos bytes, ∃ more, (doc.insert pos bytes).source.lines = doc.source.lines + more ∧
      (doc.insert pos bytes).levels.toList =
        doc.levels.toList.take (doc.source.lineAt (min pos doc.size) + 1) ++
          List.replicate more (doc.levelAt (doc.source.lineAt (min pos doc.size))) ++
          doc.levels.toList.drop (doc.source.lineAt (min pos doc.size) + 1)) ∧
    ∀ first stop start last, last = min stop doc.size → start = min first last → start < last →
      ¬doc.source.JoinsLineEnd start last →
      (∀ line, line ≤ doc.source.lineAt start →
        (doc.delete first stop).levels[line]? = doc.levels[line]?) ∧
      ∀ line, line < doc.source.lines → last < doc.source.lineStart line →
        ∃ moved, moved < (doc.delete first stop).source.lines ∧
          (doc.delete first stop).source.lineStart moved =
            doc.source.lineStart line - (last - start) ∧
          (doc.delete first stop).levels[moved]? = doc.levels[line]? := by
  refine ⟨levels_insert fits, ?_⟩
  intro first stop start last lastAt startAt some_gone apart
  refine ⟨fun line le => levels_delete_before fits lastAt startAt some_gone apart le, ?_⟩
  exact fun line bound later => levels_delete_after fits lastAt startAt some_gone apart bound later

/-- Four lines that end in different ways, each with a level of its own. -/
def mixedEnds : Document :=
  { ofBytes #[97, 13, 10, 98, 13, 99, 10, 100] with
    levels := #[⟨0x400⟩, ⟨0x401⟩, ⟨0x402⟩, ⟨0x403⟩] }

/-- Between a carriage return and its line feed, an inserted line ends the first line once more.
Deleting a carriage return with the letter after it moves the last line up by one. -/
theorem levels_follow_lines_mixedEnds :
    (mixedEnds.insert 2 #[120, 10]).levels.toList =
      [⟨0x400⟩, ⟨0x400⟩, ⟨0x400⟩, ⟨0x401⟩, ⟨0x402⟩, ⟨0x403⟩] ∧
    (mixedEnds.delete 4 6).levels[1]? = some ⟨0x401⟩ ∧
    ∃ moved, moved < 3 ∧ (mixedEnds.delete 4 6).source.lineStart moved = 5 ∧
      (mixedEnds.delete 4 6).levels[moved]? = some ⟨0x403⟩ := by
  have fits : mixedEnds.Fits := ⟨rfl, by decide +kernel, by decide +kernel⟩
  obtain ⟨inserted, deleted⟩ := levels_follow_lines fits
  obtain ⟨more, lines, levels⟩ := inserted 2 #[120, 10]
  obtain ⟨upTo, after⟩ :=
    deleted 4 6 4 6 (by decide +kernel) (by decide) (by decide) (by decide +kernel)
  have two : more = 2 := by
    have added : (mixedEnds.insert 2 #[120, 10]).source.lines = mixedEnds.source.lines + 2 := by
      decide +kernel
    omega
  subst two
  exact ⟨levels, upTo 1 (by decide +kernel), after 3 (by decide +kernel) (by decide +kernel)⟩

end Document

end FortranMarkup
