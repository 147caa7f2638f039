import FortranMarkup.Proofs.Report.Shown
import FortranMarkup.Proofs.Text.Encoding

/-!
# Coloured source keeps its characters whole

In source that spells a text, a run of a line is shown from a place where a character begins to
another such place (`Report.beginsAt_skipWhile`), so each piece shows a part of the text
(`Report.exists_encode_of_mem`). A control sequence between two pieces then stands between two
characters of the source.
-/

namespace FortranMarkup.Report

variable {src : Source} {styler : Styler} {doc : Document} {text : String} {first stop pos : Nat}

/-- At a position a character begins, or the text ends. -/
def BeginsAt (src : Source) (pos : Nat) : Prop :=
  isTrailing (src.charD pos ' ') = false

theorem beginsAt_of_size_le (past : src.size ≤ pos) : BeginsAt src pos := by
  rw [BeginsAt, Source.charD_of_le past]
  rfl

theorem not_trails_of_beginsAt (begins : BeginsAt src pos) {byte : UInt8}
    (here : src.bytes.toList[pos]? = some byte) : ¬Utf8.Trails byte := by
  intro trails
  rw [Array.getElem?_toList] at here
  rw [BeginsAt, Source.charD, Source.char?, charAt?, here] at begins
  exact Bool.noConfusion (begins.symm.trans (isTrailing_iff.2 trails))

/-- Between two places where characters begin, the source spells a text. -/
theorem exists_encode_bytesIn (spelled : src.bytes.toList = Utf8.encode text)
    (begins : BeginsAt src first) (begins' : BeginsAt src stop) :
    ∃ part, src.bytesIn first stop = Utf8.encode part := by
  have begins_text : ∀ byte, (Utf8.encode text)[stop]? = some byte → ¬Utf8.Trails byte :=
    fun byte here => not_trails_of_beginsAt begins' (spelled ▸ here)
  obtain ⟨front, -, -, before, -⟩ := Utf8.exists_encode_of_begins begins_text
  have begins_front : ∀ byte, (Utf8.encode front)[first]? = some byte → ¬Utf8.Trails byte := by
    intro byte here
    rw [before, ← spelled, List.getElem?_take] at here
    split at here
    · exact not_trails_of_beginsAt begins here
    · cases here
  obtain ⟨-, part, -, -, after⟩ := Utf8.exists_encode_of_begins begins_front
  refine ⟨part, ?_⟩
  rw [after, before, ← spelled, Source.bytesIn, Array.toList_extract, List.extract_eq_take_drop,
    List.drop_take]

theorem beginsAt_skipWhile (le : pos ≤ stop) (begins : BeginsAt src stop) :
    BeginsAt src (src.skipWhile isTrailing stop pos) := by
  fun_induction Source.skipWhile src isTrailing stop pos with
  | case1 pos less _ ih => exact ih less
  | case2 pos _ other => exact Bool.eq_false_iff.2 other
  | case3 pos done =>
    obtain rfl : pos = stop := Nat.le_antisymm le (Nat.le_of_not_lt done)
    exact begins

theorem beginsAt_lineEnd (table : src.Tabled) (spelled : src.bytes.toList = Utf8.encode text)
    (line : Nat) : BeginsAt src (src.lineEnd line) := by
  have valid : Utf8.decode? src.bytes.toList ≠ none := by
    rw [spelled, Utf8.decode?_encode]
    exact Option.some_ne_none text
  by_cases more : line + 1 < src.lines
  · exact beginsWhole_of_decode? table valid more
  · exact beginsAt_of_size_le (Nat.le_of_eq (Source.lineStart_of_le (Nat.le_of_not_lt more)).symm)

/-- What a run shows are the bytes between the places to which its ends are moved. -/
theorem shown_of_mem_spanPieces {lineEnd : Nat} {span : Span} {chunk : List UInt8}
    (mem : .text chunk ∈ spanPieces src lineEnd span) :
    chunk = src.bytesIn (src.skipWhile isTrailing lineEnd span.start)
      (src.skipWhile isTrailing lineEnd span.stop) := by
  rw [spanPieces] at mem
  split at mem
  · exact absurd mem List.not_mem_nil
  · split at mem
    · exact Piece.text.inj (List.mem_singleton.1 mem)
    · rcases List.mem_append.1 mem with control | shown
      · obtain ⟨_, -, same⟩ := List.mem_map.1 control
        cases same
      · rcases List.mem_cons.1 shown with same | last
        · exact Piece.text.inj same
        · cases List.mem_singleton.1 last

/-- Each piece comes from a run inside a line. -/
theorem exists_span_of_mem (fits : doc.Fits) (source : doc.source = src) {lines : List Nat}
    {piece : Piece}
    (mem : piece ∈ (styler.spansOfLines lines doc).1.flatMap fun (line, ofLine) =>
      ofLine.flatMap (spanPieces src (src.lineEnd line))) :
    ∃ line, ∃ span : Span, span.start ≤ src.lineEnd line ∧ span.stop ≤ src.lineEnd line ∧
      piece ∈ spanPieces src (src.lineEnd line) span := by
  induction lines generalizing doc with
  | nil => exact absurd mem List.not_mem_nil
  | cons line rest ih =>
    obtain ⟨covers, fits', source'⟩ := spans_covers styler fits line
    rw [source] at covers source'
    rw [Styler.spansOfLines, List.flatMap_cons] at mem
    rcases List.mem_append.1 mem with here | later
    · obtain ⟨span, inLine, mem⟩ := List.mem_flatMap.1 here
      obtain ⟨-, filled, inside⟩ := covers.bounds inLine
      exact ⟨line, span, Nat.le_trans (Nat.le_of_lt filled) inside, inside, mem⟩
    · exact ih fits' source' later

/-- In source that spells a text, each piece shows a part of the text. -/
theorem exists_encode_of_mem (fits : doc.Fits)
    (spelled : doc.source.bytes.toList = Utf8.encode text) {chunk : List UInt8}
    (mem : .text chunk ∈ (highlighted styler doc true).1) :
    ∃ part, chunk = Utf8.encode part := by
  obtain ⟨line, span, start, stop, mem⟩ := exists_span_of_mem
    (Styler.fits_ensure fits styler doc.size) (Styler.source_ensure styler doc doc.size) mem
  have begins := beginsAt_lineEnd fits.table spelled line
  rw [shown_of_mem_spanPieces mem]
  exact exists_encode_bytesIn spelled (beginsAt_skipWhile start begins)
    (beginsAt_skipWhile stop begins)

/-- All of the source is shown if it spells a text. -/
theorem shownBytes_of_spelled (styler : Styler) (fits : doc.Fits)
    (spelled : doc.source.bytes.toList = Utf8.encode text) :
    shownBytes (highlighted styler doc true).1 = Utf8.encode text := by
  have valid : Utf8.decode? doc.source.bytes.toList ≠ none := by
    rw [spelled, Utf8.decode?_encode]
    exact Option.some_ne_none text
  have whole : ∀ line ∈ List.range doc.source.lines,
      (doc.source.lineText line).dropWhile isTrailingByte = doc.source.lineText line := by
    intro line mem
    rw [dropWhile_lineText_iff fits.table]
    exact beginsWhole_of_decode? fits.table valid (List.mem_range.1 mem)
  rw [shownBytes_highlighted_eq styler fits, List.flatMap_congr whole,
    Source.flatMap_lineText fits.table, spelled]

theorem exists_encode_shownBytes {pieces : List Piece}
    (texts : ∀ chunk, .text chunk ∈ pieces → ∃ part, chunk = Utf8.encode part) :
    ∃ whole, shownBytes pieces = Utf8.encode whole := by
  refine Utf8.exists_encode_flatMap fun piece mem => ?_
  cases piece with
  | text chunk => exact texts chunk mem
  | control sequence => exact ⟨"", rfl⟩

theorem exists_encode_bytes {pieces : List Piece}
    (texts : ∀ chunk, .text chunk ∈ pieces → ∃ part, chunk = Utf8.encode part) :
    ∃ whole, bytes pieces = Utf8.encode whole := by
  refine Utf8.exists_encode_flatMap fun piece mem => ?_
  cases piece with
  | text chunk => exact texts chunk mem
  | control sequence => exact ⟨sequence, rfl⟩

/-- In the coloured source of a text, a control sequence stands between two characters of the text,
each piece shows a part of it, and all that is written is a text again. -/
theorem highlighted_keepsCharacters (styler : Styler) (fits : doc.Fits)
    (spelled : doc.source.bytes.toList = Utf8.encode text) :
    (∀ before sequence after,
        (highlighted styler doc true).1 = before ++ .control sequence :: after →
        ∃ front back, text = front ++ back ∧ shownBytes before = Utf8.encode front ∧
          shownBytes after = Utf8.encode back) ∧
      (∀ chunk, .text chunk ∈ (highlighted styler doc true).1 → ∃ part, chunk = Utf8.encode part) ∧
      ∃ output, bytes (highlighted styler doc true).1 = Utf8.encode output := by
  have texts : ∀ chunk, .text chunk ∈ (highlighted styler doc true).1 →
      ∃ part, chunk = Utf8.encode part := fun _ mem => exists_encode_of_mem fits spelled mem
  refine ⟨fun before sequence after pieces => ?_, texts, exists_encode_bytes texts⟩
  have shown := shownBytes_of_spelled styler fits spelled
  rw [pieces] at shown texts
  obtain ⟨front, front_eq⟩ := exists_encode_shownBytes
    (fun chunk mem => texts chunk (List.mem_append_left _ mem))
  obtain ⟨back, back_eq⟩ := exists_encode_shownBytes
    (fun chunk mem => texts chunk (List.mem_append_right _ (List.mem_cons_of_mem _ mem)))
  refine ⟨front, back, ?_, front_eq, back_eq⟩
  apply Utf8.encode_inj
  rw [← shown, Utf8.encode_append, ← front_eq, ← back_eq]
  exact shownBytes_append before _

/-- An accented letter as the mark of a continuation line: the style of the mark ends inside of it.
-/
theorem highlighted_keepsCharacters_accentAsMark :
    let text := "     é\n"
    let doc : Document := .ofBytes (Utf8.encode text).toArray
    let pieces := (highlighted { form := .fixed } doc true).1
    (doc.Fits ∧ doc.source.bytes.toList = Utf8.encode text) ∧
      pieces = [.text [32, 32, 32, 32, 32]] ++ .control "\x1b[38;5;9m" ::
        [.text [195, 169], reset, .text [10]] ∧
      ∃ front back, text = front ++ back ∧
        shownBytes [.text [32, 32, 32, 32, 32]] = Utf8.encode front ∧
        shownBytes [.text [195, 169], reset, .text [10]] = Utf8.encode back := by
  intro text doc pieces
  have fits : doc.Fits := Document.fits_ofBytes _
  have shown : pieces = [.text [32, 32, 32, 32, 32]] ++ .control "\x1b[38;5;9m" ::
      [.text [195, 169], reset, .text [10]] := by decide +kernel
  exact ⟨⟨fits, rfl⟩, shown, (highlighted_keepsCharacters _ fits rfl).1 _ _ _ shown⟩

end FortranMarkup.Report
