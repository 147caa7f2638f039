import FortranMarkup.Proofs.Source.Lines

/-!
# The lines of a text

The lines of a text follow one another without a gap, each but the last one ends with one line end
and holds no other, and every position is in one of them (`Source.partitioned_ofBytes`). That a line
holds no other line end is read off the table: inside a line no position ends one
(`Source.not_ends_of_lt`), so a return there has a feed after it, and both are its line end.
-/

namespace FortranMarkup

theorem charAt?_eq_some_iff {bytes : Array UInt8} {pos : Nat} {byte : UInt8} :
    charAt? bytes pos = some (Char.ofUInt8 byte) ↔ bytes[pos]? = some byte := by
  rw [charAt?, Option.map_eq_some_iff]
  constructor
  · rintro ⟨found, here, same⟩
    rw [here, ofUInt8_inj same]
  · exact fun here => ⟨byte, here, rfl⟩

/-- A line ends with a line feed, or with a carriage return that no line feed follows. -/
theorem endsLineAt_iff {bytes : Array UInt8} {pos : Nat} :
    endsLineAt bytes pos = true ↔
      bytes[pos]? = some 0x0A ∨ bytes[pos]? = some 0x0D ∧ bytes[pos + 1]? ≠ some 0x0A := by
  have feed : '\n' = Char.ofUInt8 0x0A := rfl
  have ret : '\r' = Char.ofUInt8 0x0D := rfl
  simp only [endsLineAt, Bool.or_eq_true, Bool.and_eq_true, decide_eq_true_eq, feed, ret,
    charAt?_eq_some_iff, ne_eq]

namespace Source

variable {src : Source} {first stop pos line : Nat} {byte : UInt8}

/-! ## Bytes of a text -/

/-- The bytes from one position up to another. -/
def bytesIn (src : Source) (first stop : Nat) : List UInt8 :=
  (src.bytes.extract first stop).toList

/-- The bytes of a line, with its line end. -/
def lineText (src : Source) (line : Nat) : List UInt8 :=
  src.bytesIn (src.lineStart line) (src.lineEnd line)

theorem bytesIn_append {middle : Nat} (le : first ≤ middle) (le' : middle ≤ stop) :
    src.bytesIn first middle ++ src.bytesIn middle stop = src.bytesIn first stop := by
  rw [bytesIn, bytesIn, ← Array.toList_append, Array.extract_append_extract, Nat.min_eq_left le,
    Nat.max_eq_right le', bytesIn]

theorem bytesIn_of_le (le : stop ≤ first) : src.bytesIn first stop = [] := by
  rw [bytesIn, Array.extract_empty_of_stop_le_start le, Array.toList_empty]

theorem bytesIn_succ (here : src.bytes[pos]? = some byte) : src.bytesIn pos (pos + 1) = [byte] := by
  obtain ⟨bound, rfl⟩ := Array.getElem?_eq_some_iff.1 here
  rw [bytesIn, Array.extract_succ_right (Nat.lt_succ_self pos) bound,
    Array.extract_empty_of_stop_le_start (Nat.le_refl pos)]
  rfl

theorem exists_of_mem_bytesIn (mem : byte ∈ src.bytesIn first stop) :
    ∃ pos, first ≤ pos ∧ pos < stop ∧ src.bytes[pos]? = some byte := by
  obtain ⟨i, bound, rfl⟩ := Array.mem_iff_getElem.1 (Array.mem_toList_iff.1 mem)
  rw [Array.size_extract] at bound
  refine ⟨first + i, Nat.le_add_right _ _, by omega, ?_⟩
  rw [Array.getElem_extract, Array.getElem?_eq_getElem]

theorem bytesIn_lines (table : src.Tabled) (count : Nat) :
    (List.range count).flatMap src.lineText = src.bytesIn 0 (src.lineStart count) := by
  induction count with
  | zero =>
    rw [lineStart_zero table, bytesIn_of_le (Nat.le_refl 0), List.range_zero, List.flatMap_nil]
  | succ count ih =>
    rw [List.range_succ, List.flatMap_append, ih, List.flatMap_singleton]
    exact bytesIn_append (Nat.zero_le _) (lineStart_mono table (Nat.le_succ count))

theorem flatMap_lineText (table : src.Tabled) :
    (List.range src.lines).flatMap src.lineText = src.bytes.toList := by
  rw [bytesIn_lines table, lineStart_of_le (Nat.le_refl _), bytesIn, size, Array.extract_size]

/-! ## Line ends -/

/-- A byte of a line end. -/
def IsEndByte (byte : UInt8) : Prop :=
  byte = 0x0A ∨ byte = 0x0D

/-- Some bytes are bytes of no line end and, after them, one line end. -/
def EndsOnce (src : Source) (first stop : Nat) : Prop :=
  ∃ body ending, src.bytesIn first stop = body ++ ending ∧ (∀ byte ∈ body, ¬IsEndByte byte) ∧
    (ending = [0x0A] ∨ ending = [0x0D, 0x0A] ∨
      ending = [0x0D] ∧ src.bytes[stop]? ≠ some 0x0A)

theorem ne_feed_of_not_ends (inLine : ¬endsLineAt src.bytes pos = true)
    (here : src.bytes[pos]? = some byte) : byte ≠ 0x0A := by
  rintro rfl
  exact inLine (endsLineAt_iff.2 (.inl here))

theorem feed_of_not_ends (inLine : ¬endsLineAt src.bytes pos = true)
    (here : src.bytes[pos]? = some 0x0D) : src.bytes[pos + 1]? = some 0x0A :=
  Decidable.byContradiction fun other => inLine (endsLineAt_iff.2 (.inr ⟨here, other⟩))

/-- Where no position ends a line and the last byte is no return, no byte is one of a line end: a
feed would end a line, and a return would have a feed after it. -/
theorem not_isEndByte_of_mem (inLine : ∀ i, first ≤ i → i < stop → ¬endsLineAt src.bytes i = true)
    (last : ∀ i, first ≤ i → i + 1 = stop → src.bytes[i]? ≠ some 0x0D)
    (mem : byte ∈ src.bytesIn first stop) : ¬IsEndByte byte := by
  obtain ⟨pos, le, less, here⟩ := exists_of_mem_bytesIn mem
  rintro (rfl | rfl)
  · exact ne_feed_of_not_ends (inLine pos le less) here rfl
  · rcases Nat.lt_or_eq_of_le (Nat.succ_le_of_lt less) with more | same
    · have next := feed_of_not_ends (inLine pos le less) here
      exact ne_feed_of_not_ends (inLine (pos + 1) (Nat.le_succ_of_le le) more) next rfl
    · exact last pos le same here

/-- A return before which no position ends a line, or which ends one itself, has no return before
it. -/
theorem not_return_before (inLine : ∀ i, first ≤ i → i < pos → ¬endsLineAt src.bytes i = true)
    (here : src.bytes[pos]? = some 0x0D) (i : Nat) (le : first ≤ i) (next : i + 1 = pos) :
    src.bytes[i]? ≠ some 0x0D := by
  intro before
  have feed := feed_of_not_ends (inLine i le (by omega)) before
  rw [next, here] at feed
  cases feed

theorem endsOnce_of_ends (le : first ≤ pos) (ends : endsLineAt src.bytes pos = true)
    (inLine : ∀ i, first ≤ i → i < pos → ¬endsLineAt src.bytes i = true) :
    src.EndsOnce first (pos + 1) := by
  have text := src.bytesIn_append le (Nat.le_succ pos)
  rcases endsLineAt_iff.1 ends with feed | ⟨ret, other⟩
  · rw [bytesIn_succ feed] at text
    by_cases before : ∃ i, first ≤ i ∧ i + 1 = pos ∧ src.bytes[i]? = some 0x0D
    · obtain ⟨i, le', rfl, ret⟩ := before
      have inLine' : ∀ j, first ≤ j → j < i → ¬endsLineAt src.bytes j = true :=
        fun j le less => inLine j le (Nat.lt_succ_of_lt less)
      refine ⟨src.bytesIn first i, [0x0D, 0x0A], ?_, ?_, .inr (.inl rfl)⟩
      · rw [← text, ← bytesIn_append le' (Nat.le_succ i), bytesIn_succ ret, List.append_assoc]
        rfl
      · exact fun byte => not_isEndByte_of_mem inLine' (not_return_before inLine' ret)
    · refine ⟨src.bytesIn first pos, [0x0A], text.symm, ?_, .inl rfl⟩
      exact fun byte => not_isEndByte_of_mem inLine
        (fun i le next ret => before ⟨i, le, next, ret⟩)
  · rw [bytesIn_succ ret] at text
    refine ⟨src.bytesIn first pos, [0x0D], text.symm, ?_, .inr (.inr ⟨rfl, other⟩)⟩
    exact fun byte => not_isEndByte_of_mem inLine (not_return_before inLine ret)

theorem endsOnce_line (table : src.Tabled) (more : line + 1 < src.lines) :
    src.EndsOnce (src.lineStart line) (src.lineEnd line) := by
  obtain ⟨pos, ends, lineAt, next⟩ := exists_end_of_lt table more
  have le : src.lineStart line ≤ pos := lineAt ▸ lineStart_lineAt_le table pos
  rw [lineEnd, ← next]
  refine endsOnce_of_ends le ends (fun i le less => ?_)
  have high : i < src.lineEnd line := by
    rw [lineEnd, ← next]
    exact Nat.lt_succ_of_lt less
  have same : src.lineAt i = src.lineAt pos :=
    (lineAt_of_lt table (Nat.lt_of_succ_lt more) le high).trans lineAt.symm
  exact not_ends_of_lt table less same

/-- The last line holds no byte of a line end. -/
theorem not_isEndByte_last (table : src.Tabled) (last : line + 1 = src.lines)
    (mem : byte ∈ src.lineText line) : ¬IsEndByte byte := by
  have stop : src.lineEnd line = src.size := lineStart_of_le (Nat.le_of_eq last.symm)
  have inLine : ∀ i, src.lineStart line ≤ i → i < src.lineEnd line →
      ¬endsLineAt src.bytes i = true := by
    intro i le _ ends
    have at_least := (lineStart_le_iff table (by omega) i).1 le
    have at_most := lineAt_lt_lines table (i + 1)
    rw [lineAt_succ table, if_pos ends] at at_most
    omega
  refine not_isEndByte_of_mem inLine (fun i le next ret => ?_) mem
  have feed := feed_of_not_ends (inLine i le (by omega)) ret
  have past : src.bytes[i + 1]? = none :=
    Array.getElem?_eq_none (Nat.le_of_eq (next.trans stop).symm)
  rw [past] at feed
  cases feed

/-! ## Counting lines -/

theorem lineStart_lt_lineEnd (table : src.Tabled) (inside : src.lineStart line < src.size) :
    src.lineStart line < src.lineEnd line := by
  rw [lineEnd]
  by_cases more : line + 1 < src.lines
  · exact lineStart_lt table (Nat.lt_succ_self line) more
  · rwa [lineStart_of_le (Nat.le_of_not_lt more)]

/-- The lines that hold a byte: all of them, or all but the last one. -/
theorem countP_filled (table : src.Tabled) :
    (List.range src.lines).countP (fun line => src.lineStart line < src.lineEnd line) =
      if src.lineStart (src.lines - 1) = src.size then src.lines - 1 else src.lines := by
  obtain ⟨count, lines⟩ : ∃ count, src.lines = count + 1 :=
    ⟨src.lines - 1, (Nat.succ_pred_eq_of_pos (lines_pos table)).symm⟩
  have filled : (List.range count).countP (fun line => src.lineStart line < src.lineEnd line) =
      count := by
    refine (List.countP_eq_length.2 fun line mem => ?_).trans List.length_range
    have bound : line + 1 < src.lines := by
      rw [lines]
      exact Nat.succ_lt_succ (List.mem_range.1 mem)
    exact decide_eq_true (lineStart_lt table (Nat.lt_succ_self line) bound)
  have last : src.lineEnd count = src.size := lineStart_of_le (Nat.le_of_eq lines)
  rw [lines, List.range_succ, List.countP_append, filled, List.countP_singleton, last,
    Nat.add_sub_cancel]
  by_cases empty : src.lineStart count = src.size
  · rw [if_pos empty, empty, if_neg (by simp)]
    rfl
  · have less := Nat.lt_of_le_of_ne (lineStart_le_size table count) empty
    rw [if_neg empty, if_pos (decide_eq_true less)]

theorem lines_of_size_eq_zero (table : src.Tabled) (none : src.size = 0) : src.lines = 1 := by
  have positive := lines_pos table
  have inside := lineStart_le_size table (src.lines - 1)
  rcases Nat.eq_zero_or_pos (src.lines - 1) with only | more
  · omega
  · have := lineStart_lt table more (by omega)
    omega

/-- The count of lines is that of the lines that hold a byte, and 1 for the empty text. -/
theorem lineCount_eq_max (table : src.Tabled) :
    src.lineCount = max 1
      ((List.range src.lines).countP fun line => src.lineStart line < src.lineEnd line) := by
  have positive := lines_pos table
  rw [countP_filled table, lineCount]
  by_cases empty : src.lineStart (src.lines - 1) = src.size
  · by_cases none : src.size = 0
    · rw [if_neg (fun both => both.1 none), if_pos empty, lines_of_size_eq_zero table none]
      rfl
    · have more : src.lines - 1 ≠ 0 := by
        intro only
        rw [only, lineStart_zero table] at empty
        exact none empty.symm
      rw [if_pos ⟨none, empty⟩, if_pos empty]
      omega
  · rw [if_neg (fun both => empty both.2), if_neg empty]
    omega

/-- The count of lines is the number, from 1 on, of the line that holds the last byte. -/
theorem lineCount_eq_lineAt (table : src.Tabled) :
    src.lineCount = src.lineAt (src.size - 1) + 1 := by
  have last := lineAt_size table
  rw [lineCount]
  by_cases none : src.size = 0
  · rw [if_neg (fun both => both.1 none), none, Nat.zero_sub]
    rw [none] at last
    exact last.symm
  · have before : src.size - 1 + 1 = src.size := by omega
    have step := lineAt_succ table (src.size - 1)
    have ends : endsLineAt src.bytes (src.size - 1) = true ↔
        src.lineStart (src.lines - 1) = src.size := by
      rw [← startsLine_succ, before, startsLine_iff table]
      have line : src.lineAt src.size = src.lines - 1 := by omega
      rw [line]
    rw [before] at step
    by_cases empty : src.lineStart (src.lines - 1) = src.size
    · rw [if_pos (ends.2 empty)] at step
      rw [if_pos ⟨none, empty⟩]
      omega
    · rw [if_neg (mt ends.1 empty)] at step
      rw [if_neg (fun both => empty both.2)]
      omega

/-! ## The whole text -/

/-- The lines of some source part its text. -/
structure Partitioned (src : Source) : Prop where
  /-- The first line starts at the first byte. -/
  first : src.lineStart 0 = 0
  /-- A line ends where the next one starts. -/
  next : ∀ line, line + 1 < src.lines → src.lineEnd line = src.lineStart (line + 1)
  /-- The last line ends with the text. -/
  last : 0 < src.lines ∧ src.lineEnd (src.lines - 1) = src.size
  /-- The lines, one after the other, are the text. -/
  whole : (List.range src.lines).flatMap src.lineText = src.bytes.toList
  /-- Each line but the last one holds a byte and ends with one line end, before which there is
  none. -/
  ended : ∀ line, line + 1 < src.lines →
    src.lineStart line < src.lineEnd line ∧ src.EndsOnce (src.lineStart line) (src.lineEnd line)
  /-- The last line has no line end. -/
  unended : ∀ byte ∈ src.lineText (src.lines - 1), ¬IsEndByte byte
  /-- A position of the text is in one line. -/
  holds : ∀ pos, pos < src.size → ∀ line,
    line < src.lines ∧ src.lineStart line ≤ pos ∧ pos < src.lineEnd line ↔ line = src.lineAt pos
  /-- Positions behind the text count as in the last line. -/
  past : ∀ pos, src.size ≤ pos → src.lineAt pos = src.lines - 1
  /-- A line starts in itself, which tells an empty last line from the one before. -/
  starts : ∀ line, line < src.lines → src.lineAt (src.lineStart line) = line
  /-- The count of lines goes up to the line that holds the last byte. -/
  lastByte : src.lineCount = src.lineAt (src.size - 1) + 1
  /-- It is the number of the lines that hold a byte, and 1 for the empty text. -/
  count : src.lineCount = max 1
    ((List.range src.lines).countP fun line => src.lineStart line < src.lineEnd line)

theorem holds_iff (table : src.Tabled) (inside : pos < src.size) (line : Nat) :
    line < src.lines ∧ src.lineStart line ≤ pos ∧ pos < src.lineEnd line ↔
      line = src.lineAt pos := by
  constructor
  · rintro ⟨bound, low, high⟩
    exact (lineAt_of_lt table bound low high).symm
  · rintro rfl
    refine ⟨lineAt_lt_lines table pos, lineStart_lineAt_le table pos, ?_⟩
    by_cases more : src.lineAt pos + 1 < src.lines
    · exact lt_lineEnd_lineAt table more
    · rwa [lineEnd, lineStart_of_le (Nat.le_of_not_lt more)]

theorem lineAt_of_size_le (table : src.Tabled) (past : src.size ≤ pos) :
    src.lineAt pos = src.lines - 1 := by
  have last := lineAt_size table
  have mono := lineAt_mono table past
  have bound := lineAt_lt_lines table pos
  omega

/-- The lines of every text part it. -/
theorem partitioned_ofBytes (bytes : Array UInt8) : (ofBytes bytes).Partitioned := by
  have table : (ofBytes bytes).Tabled := rfl
  have positive := lines_pos table
  have last : (ofBytes bytes).lines - 1 + 1 = (ofBytes bytes).lines := by omega
  exact {
    first := lineStart_zero table
    next := fun _ _ => rfl
    last := ⟨positive, lineStart_of_le (Nat.le_of_eq last.symm)⟩
    whole := flatMap_lineText table
    ended := fun line more =>
      ⟨lineStart_lt table (Nat.lt_succ_self line) more, endsOnce_line table more⟩
    unended := fun byte mem => not_isEndByte_last table last mem
    holds := fun pos inside line => holds_iff table inside line
    past := fun pos past => lineAt_of_size_le table past
    starts := fun line bound => lineAt_lineStart table bound
    lastByte := lineCount_eq_lineAt table
    count := lineCount_eq_max table }

end Source

end FortranMarkup
