import FortranMarkup.Proofs.Styling.Restart

/-!
# How far a pass goes back

A pass goes back to the line before at most, and from there over at most `maxContinuationLines`
continued lines (`Document.restartPosition_reach`). In fixed form that bounds the lines between the
restart and the position asked for. In free form one continued line may lie any number of blank
lines before the line that continues it (`blankBetween`), and only the lines that show anything are
bounded.
-/

namespace FortranMarkup

namespace Source

/-- Whether a line shows anything. -/
def shows (src : Source) (line : Nat) : Bool :=
  (src.lastVisible? (src.lineStart line) (src.lineEnd line)).isSome

/-- How many of the lines from one up to another show anything. -/
def linesShowing (src : Source) (first stop : Nat) : Nat :=
  (List.range' first (stop - first)).countP src.shows

variable {src : Source}

theorem linesShowing_le (first stop : Nat) : src.linesShowing first stop ≤ stop - first :=
  Nat.le_trans List.countP_le_length (Nat.le_of_eq List.length_range')

theorem linesShowing_add {first middle stop : Nat} (low : first ≤ middle) (high : middle ≤ stop) :
    src.linesShowing first stop = src.linesShowing first middle + src.linesShowing middle stop := by
  obtain ⟨before, rfl⟩ := Nat.exists_eq_add_of_le low
  obtain ⟨after, rfl⟩ := Nat.exists_eq_add_of_le high
  have all : List.range' first (before + after) =
      List.range' first before ++ List.range' (first + before) after := by
    have parts := @List.range'_append first before after 1
    rw [Nat.one_mul] at parts
    exact parts.symm
  have whole : first + before + after - first = before + after := by omega
  rw [linesShowing, linesShowing, linesShowing, whole, all, List.countP_append,
    Nat.add_sub_cancel_left, Nat.add_sub_cancel_left]

end Source

namespace Document

variable {doc : Document} {form : SourceForm}

theorem le_keywordBefore? {floor start pos : Nat} (le : floor ≤ start)
    (found : doc.keywordBefore? floor start = some pos) : floor ≤ pos := by
  induction start with
  | zero => exact Nat.le_trans le (Nat.zero_le _)
  | succ start ih =>
    rw [keywordBefore?] at found
    split at found
    · obtain rfl := Option.some.inj found
      exact le
    · split at found
      · rename_i above
        exact ih (Nat.le_of_lt_succ above) found
      · cases found

theorem lineAt_le_nearLine (table : doc.source.Tabled) (start : Nat) :
    doc.source.lineAt start ≤ doc.nearLine start + 1 := by
  unfold nearLine
  dsimp only
  split
  · rename_i pos found
    have floor : doc.source.lineStart (doc.source.lineAt start - 1) ≤ start :=
      Nat.le_trans (Source.lineStart_mono table (Nat.sub_le _ _))
        (Source.lineStart_lineAt_le table start)
    have bound : doc.source.lineAt start - 1 < doc.source.lines :=
      Nat.lt_of_le_of_lt (Nat.sub_le _ _) (Source.lineAt_lt_lines table start)
    have near := (Source.lineStart_le_iff table bound pos).1 (le_keywordBefore? floor found)
    omega
  · exact Nat.le_succ _

theorem fixedPrevious?_eq {line previous : Nat} (found : doc.fixedPrevious? line = some previous) :
    line = previous + 1 := by
  cases line with
  | zero => cases found
  | succ line =>
    rw [fixedPrevious?] at found
    split at found
    · obtain rfl := Option.some.inj found
      rfl
    · cases found

/-- Between a line and the one that it continues, no line shows anything. -/
theorem linesShowing_freePrevious? {line previous : Nat}
    (found : doc.freePrevious? line = some previous) :
    doc.source.linesShowing (previous + 1) line = 0 := by
  induction line with
  | zero => cases found
  | succ line ih =>
    rw [freePrevious?] at found
    split at found
    · split at found
      · obtain rfl := Option.some.inj found
        simp [Source.linesShowing]
      · cases found
    · rename_i blank
      have hop : doc.previous? .free line = some previous := found
      have earlier : previous < line := previous?_lt hop
      rw [Source.linesShowing_add (Nat.succ_le_of_lt earlier) (Nat.le_succ line), ih found]
      simp [Source.linesShowing, Source.shows, blank]

/-- Each line that is gone back over adds one line that may show something. -/
theorem linesShowing_previous? {line previous : Nat}
    (found : doc.previous? form line = some previous) :
    doc.source.linesShowing previous line ≤ 1 := by
  have less := previous?_lt found
  rw [Source.linesShowing_add (Nat.le_add_right previous 1) (Nat.succ_le_of_lt less)]
  have one : doc.source.linesShowing previous (previous + 1) ≤ previous + 1 - previous :=
    Source.linesShowing_le _ _
  have none : doc.source.linesShowing (previous + 1) line = 0 := by
    cases form with
    | fixed =>
      obtain rfl := fixedPrevious?_eq found
      simp [Source.linesShowing]
    | free => exact linesShowing_freePrevious? found
  omega

theorem linesShowing_statementLine (hops line : Nat) :
    doc.source.linesShowing (doc.statementLine form hops line) line ≤ hops := by
  induction hops generalizing line with
  | zero => simp [statementLine, Source.linesShowing]
  | succ hops ih =>
    rw [statementLine]
    split
    · rename_i previous found
      rw [Source.linesShowing_add (statementLine_le hops previous)
        (Nat.le_of_lt (previous?_lt found))]
      exact Nat.add_le_add (ih previous) (linesShowing_previous? found)
    · simp [Source.linesShowing]

theorem le_statementLine_fixed (hops line : Nat) :
    line ≤ doc.statementLine .fixed hops line + hops := by
  induction hops generalizing line with
  | zero => exact Nat.le_refl _
  | succ hops ih =>
    rw [statementLine]
    split
    · rename_i previous found
      have less := ih previous
      have next := fixedPrevious?_eq found
      omega
    · omega

theorem lineAt_restartPosition (table : doc.source.Tabled) (start : Nat) :
    doc.source.lineAt (doc.restartPosition form start) = doc.restartLine form start :=
  Source.lineAt_lineStart table (restartLine_lt_lines table start)

/-- A pass begins at a line start, not after the position that it is asked for. Of the lines from
there to that of the position, at most 256 show anything, and in fixed form there are at most 256 in
all. -/
theorem restartPosition_reach (table : doc.source.Tabled) (form : SourceForm) (start : Nat) :
    doc.source.StartsLine (doc.restartPosition form start) ∧
    doc.restartPosition form start ≤ start ∧
    doc.source.linesShowing (doc.source.lineAt (doc.restartPosition form start))
      (doc.source.lineAt start) ≤ maxContinuationLines + 1 ∧
    (form = .fixed → doc.source.lineAt start ≤
      doc.source.lineAt (doc.restartPosition form start) + (maxContinuationLines + 1)) := by
  have far : doc.source.lineAt start ≤ doc.nearLine start + 1 := lineAt_le_nearLine table start
  refine ⟨Source.startsLine_lineStart table (restartLine_lt_lines table start),
    restartPosition_le form table start, ?_, ?_⟩
  · rw [lineAt_restartPosition table, restartLine,
      Source.linesShowing_add (statementLine_le _ _) (nearLine_le table start)]
    have hops : doc.source.linesShowing
        (doc.statementLine form maxContinuationLines (doc.nearLine start)) (doc.nearLine start) ≤
        maxContinuationLines := linesShowing_statementLine _ _
    have last : doc.source.linesShowing (doc.nearLine start) (doc.source.lineAt start) ≤
        doc.source.lineAt start - doc.nearLine start := Source.linesShowing_le _ _
    omega
  · rintro rfl
    rw [lineAt_restartPosition table, restartLine]
    have hops : doc.nearLine start ≤
        doc.statementLine .fixed maxContinuationLines (doc.nearLine start) + maxContinuationLines :=
      le_statementLine_fixed _ _
    omega

/-! ## Blank lines inside a continued statement -/

/-- A line that ends with a continuation mark, then as many blank lines as said, and a line that
continues the first one. -/
def blankBetween (count : Nat) : Document :=
  ofBytes (#[120, 38] ++ (.replicate (count + 1) 10 ++ #[121]))

/-- In fixed form, the short and blank lines are gone back over one by one. -/
theorem restartPosition_reach_blankBetween :
    (blankBetween 2).source.StartsLine 0 ∧ 0 ≤ 5 ∧
      (blankBetween 2).source.linesShowing 0 3 ≤ maxContinuationLines + 1 ∧
      3 ≤ 0 + (maxContinuationLines + 1) := by
  have table : (blankBetween 2).source.Tabled := rfl
  have restart : (blankBetween 2).restartPosition .fixed 5 = 0 := by decide +kernel
  have first : (blankBetween 2).source.lineAt 0 = 0 := by decide +kernel
  have last : (blankBetween 2).source.lineAt 5 = 3 := by decide +kernel
  obtain ⟨starts, before, shown, near⟩ := restartPosition_reach table .fixed 5
  rw [restart] at starts before shown near
  rw [first, last] at shown near
  exact ⟨starts, before, shown, near rfl⟩

section Blank

variable {count : Nat}

theorem char?_blankBetween_of_lt {i : Nat} (less : i < 2) :
    (blankBetween count).source.char? i = charAt? #[120, 38] i :=
  congrArg (Option.map Char.ofUInt8) (Array.getElem?_append_left less)

theorem char?_blankBetween {i : Nat} (le : i ≤ count) :
    (blankBetween count).source.char? (2 + i) = some '\n' := by
  have less : i < (Array.replicate (count + 1) (10 : UInt8)).size := by
    rw [Array.size_replicate]
    omega
  have here : (blankBetween count).source.bytes[2 + i]? = some 10 := by
    change (#[120, 38] ++ (Array.replicate (count + 1) 10 ++ #[121]))[2 + i]? = some (10 : UInt8)
    rw [Array.getElem?_append_right (Nat.le_add_right 2 i)]
    change (Array.replicate (count + 1) 10 ++ #[121])[2 + i - 2]? = some (10 : UInt8)
    rw [Nat.add_sub_cancel_left, Array.getElem?_append_left less, Array.getElem?_eq_getElem less,
      Array.getElem_replicate]
  exact congrArg (Option.map Char.ofUInt8) here

theorem fits_blankBetween (count : Nat) : (blankBetween count).Fits := fits_ofBytes _

theorem tabled_blankBetween : (blankBetween count).source.Tabled := (fits_blankBetween count).table

theorem size_blankBetween (count : Nat) : (blankBetween count).size = count + 4 := by
  unfold blankBetween size ofBytes Source.ofBytes Source.size
  simp only [Array.size_append, Array.size_replicate, List.size_toArray, List.length_cons,
    List.length_nil]
  omega

theorem endsLineAt_blankBetween {i : Nat} (le : i ≤ count) :
    endsLineAt (blankBetween count).source.bytes (2 + i) = true := by
  have feed : charAt? (blankBetween count).source.bytes (2 + i) = some '\n' :=
    char?_blankBetween le
  simp [endsLineAt, feed]

theorem lineAt_blankBetween {i : Nat} (le : i ≤ count + 1) :
    (blankBetween count).source.lineAt (2 + i) = i := by
  induction i with
  | zero =>
    have first : charAt? (blankBetween count).source.bytes 0 = some 'x' :=
      char?_blankBetween_of_lt (by decide)
    have mark : charAt? (blankBetween count).source.bytes 1 = some '&' :=
      char?_blankBetween_of_lt (by decide)
    rw [Source.lineAt_succ tabled_blankBetween 1, Source.lineAt_succ tabled_blankBetween 0,
      Source.lineAt_zero tabled_blankBetween]
    simp [endsLineAt, first, mark]
  | succ i ih =>
    rw [← Nat.add_assoc, Source.lineAt_succ tabled_blankBetween,
      if_pos (endsLineAt_blankBetween (Nat.le_of_succ_le_succ le)), ih (Nat.le_of_succ_le le)]

theorem lineStart_blankBetween {i : Nat} (le : i ≤ count) :
    (blankBetween count).source.lineStart (i + 1) = 3 + i := by
  have starts : (blankBetween count).source.StartsLine (2 + (i + 1)) :=
    Source.startsLine_succ.2 (endsLineAt_blankBetween le)
  have same := Source.lineStart_lineAt_of_startsLine tabled_blankBetween starts
  rw [lineAt_blankBetween (Nat.succ_le_succ le)] at same
  exact same.trans (by omega)

theorem lastVisible?_blankBetween_zero :
    (blankBetween count).source.lastVisible? ((blankBetween count).source.lineStart 0)
      ((blankBetween count).source.lineEnd 0) = some 1 := by
  rw [Source.lineEnd, lineStart_blankBetween (Nat.zero_le count),
    Source.lineStart_zero tabled_blankBetween]
  refine Source.lastVisible?_eq_some (Nat.zero_le 1) (by decide) ?_ ?_
  · rw [Source.charD, char?_blankBetween_of_lt (by decide)]
    rfl
  · intro later above below
    obtain rfl : later = 2 + 0 := by omega
    rw [Source.charD, char?_blankBetween (Nat.zero_le count)]
    rfl

theorem lastVisible?_blankBetween_succ {i : Nat} (less : i < count) :
    (blankBetween count).source.lastVisible? ((blankBetween count).source.lineStart (i + 1))
      ((blankBetween count).source.lineEnd (i + 1)) = none := by
  refine Source.lastVisible?_eq_none ?_
  rw [Source.lineEnd, lineStart_blankBetween less, lineStart_blankBetween (Nat.le_of_lt less)]
  intro pos above below
  obtain rfl : pos = 2 + (i + 1) := by omega
  rw [Source.charD, char?_blankBetween less]
  rfl

theorem styleAt_blankBetween (pos : Nat) : (blankBetween count).styleAt pos = .plain := by
  unfold blankBetween ofBytes styleAt
  rw [Array.getElem?_replicate]
  split <;> rfl

theorem freePrevious?_blankBetween {i : Nat} (le : i ≤ count) :
    (blankBetween count).freePrevious? (i + 1) = some 0 := by
  induction i with
  | zero =>
    have mark : (blankBetween count).source.charD 1 ' ' = '&' := by
      rw [Source.charD, char?_blankBetween_of_lt (by decide)]
      rfl
    rw [freePrevious?, lastVisible?_blankBetween_zero]
    dsimp only
    rw [if_pos ⟨mark, by simp [styleAt_blankBetween]⟩]
  | succ i ih =>
    rw [freePrevious?, lastVisible?_blankBetween_succ le]
    exact ih (Nat.le_of_succ_le le)

theorem keywordBefore?_blankBetween (floor pos : Nat) :
    (blankBetween count).keywordBefore? floor pos = none := by
  induction pos with
  | zero => simp [keywordBefore?, styleAt_blankBetween]
  | succ pos ih => simp [keywordBefore?, styleAt_blankBetween, ih]

/-- A pass that is asked for at the last line goes back over all of the blank lines. -/
theorem lineAt_restartPosition_blankBetween (count : Nat) :
    (blankBetween count).source.lineAt (count + 3) =
      (blankBetween count).source.lineAt ((blankBetween count).restartPosition .free (count + 3)) +
        (count + 1) := by
  have line : (blankBetween count).source.lineAt (count + 3) = count + 1 := by
    have last := lineAt_blankBetween (Nat.le_refl (count + 1))
    rwa [show 2 + (count + 1) = count + 3 by omega] at last
  have near : (blankBetween count).nearLine (count + 3) = count + 1 := by
    simp [nearLine, keywordBefore?_blankBetween, line]
  have hop : (blankBetween count).previous? .free (count + 1) = some 0 := by
    rw [previous?, freePrevious?_blankBetween (Nat.le_refl count)]
  rw [lineAt_restartPosition tabled_blankBetween, restartLine, near, maxContinuationLines,
    statementLine, hop, line]
  dsimp only
  rw [Nat.le_zero.1 (statementLine_le 254 0), Nat.zero_add]

end Blank

/-- With 300 blank lines between a mark and the line that goes on, a pass goes back 301 lines. -/
theorem not_restartPosition_reach_blankBetween :
    ¬∀ (doc : Document) (form : SourceForm) (start : Nat), doc.Fits → start ≤ doc.size →
      doc.source.lineAt start ≤
        doc.source.lineAt (doc.restartPosition form start) + (maxContinuationLines + 1) := by
  intro bounded
  have within : 300 + 3 ≤ (blankBetween 300).size := by
    rw [size_blankBetween]
    decide
  have reach := bounded (blankBetween 300) .free (300 + 3) (fits_blankBetween 300) within
  rw [lineAt_restartPosition_blankBetween 300] at reach
  exact absurd (Nat.le_of_add_le_add_left reach) (by decide)

end Document

end FortranMarkup
