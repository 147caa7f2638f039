import FortranMarkup.Proofs.Source.Partition
import FortranMarkup.Proofs.Style.Runs
import FortranMarkup.Proofs.Styler.Session
import FortranMarkup.Proofs.Text.Utf8
import FortranMarkup.Report

/-!
# What the coloured source shows

The runs of a line follow one another without a gap (`Span.covers_runs`), and where two of them meet
their ends are moved to one place. So the pieces of a line show its bytes from the first one on that
begins a character (`Report.shownBytes_line`): bytes that go on with a character are lost where a
line begins with them, and nowhere else. In UTF-8 no line begins with such a byte
(`Report.beginsWhole_of_decode?`), so the text is shown as it is.
-/

namespace FortranMarkup

/-! ## Bytes passed over -/

namespace Source

variable {src : Source} {inClass : Char → Bool} {first stop pos : Nat}

theorem bytesIn_eq_cons (less : pos < stop) (inside : stop ≤ src.size) :
    ∃ byte, src.char? pos = some (Char.ofUInt8 byte) ∧
      src.bytesIn pos stop = byte :: src.bytesIn (pos + 1) stop := by
  have here := Array.getElem?_eq_getElem (show pos < src.bytes.size from Nat.lt_of_lt_of_le less inside)
  refine ⟨_, charAt?_eq_some_iff.2 here, ?_⟩
  rw [← bytesIn_append (Nat.le_succ pos) less, bytesIn_succ here]
  rfl

theorem skipWhile_of_le (le : stop ≤ pos) : src.skipWhile inClass stop pos = pos := by
  rw [skipWhile, if_neg (Nat.not_lt_of_le le)]

theorem skipWhile_mono {later : Nat} (le : pos ≤ later) :
    src.skipWhile inClass stop pos ≤ src.skipWhile inClass stop later := by
  fun_induction skipWhile src inClass stop pos with
  | case1 pos less member ih =>
    rcases Nat.lt_or_eq_of_le le with before | rfl
    · exact ih before
    · have here : src.skipWhile inClass stop pos = src.skipWhile inClass stop (pos + 1) := by
        rw [skipWhile, if_pos less, if_pos member]
      exact Nat.le_of_eq here.symm
  | case2 | case3 => exact Nat.le_trans le (src.le_skipWhile inClass stop later)

/-- What is left from the first byte on that is not in a class. -/
theorem bytesIn_skipWhile (inside : stop ≤ src.size) :
    src.bytesIn (src.skipWhile inClass stop pos) stop =
      (src.bytesIn pos stop).dropWhile (fun byte => inClass (Char.ofUInt8 byte)) := by
  fun_induction skipWhile src inClass stop pos with
  | case1 pos less member ih =>
    obtain ⟨byte, here, bytes⟩ := src.bytesIn_eq_cons less inside
    rw [charD, here, Option.getD_some] at member
    rw [ih, bytes, List.dropWhile_cons, if_pos member]
  | case2 pos less other =>
    obtain ⟨byte, here, bytes⟩ := src.bytesIn_eq_cons less inside
    rw [charD, here, Option.getD_some] at other
    rw [bytes, List.dropWhile_cons, if_neg other]
  | case3 pos done => rw [bytesIn_of_le (Nat.le_of_not_lt done), List.dropWhile_nil]

end Source

/-! ## What pieces show -/

namespace Report

variable {src : Source} {lineEnd : Nat} {styler : Styler} {doc : Document}

/-- The bytes that some pieces show. -/
def shownBytes (pieces : List Piece) : List UInt8 :=
  pieces.flatMap Piece.shown

theorem shownBytes_append (first rest : List Piece) :
    shownBytes (first ++ rest) = shownBytes first ++ shownBytes rest :=
  List.flatMap_append

theorem shownBytes_controls (look : Look) : shownBytes (controls look) = [] := by
  rw [shownBytes, controls, List.flatMap_map]
  exact List.flatMap_eq_nil_iff.2 (fun _ _ => rfl)

/-- A run shows the bytes between the places to which its ends are moved. -/
theorem shownBytes_spanPieces (src : Source) (lineEnd : Nat) (span : Span) :
    shownBytes (spanPieces src lineEnd span) =
      src.bytesIn (src.skipWhile isTrailing lineEnd span.start)
        (src.skipWhile isTrailing lineEnd span.stop) := by
  rw [spanPieces]
  split
  · rename_i empty
    rw [Source.bytesIn_of_le empty]
    rfl
  · split
    · exact List.append_nil _
    · rw [shownBytes_append, shownBytes_controls]
      exact List.append_nil _

theorem shownBytes_covers {spans : List Span} {first stop : Nat}
    (covers : Span.Covers first spans stop) :
    shownBytes (spans.flatMap (spanPieces src lineEnd)) =
      src.bytesIn (src.skipWhile isTrailing lineEnd first)
        (src.skipWhile isTrailing lineEnd stop) := by
  induction spans generalizing first with
  | nil =>
    obtain rfl : first = stop := covers
    rw [Source.bytesIn_of_le (Nat.le_refl _)]
    rfl
  | cons span rest ih =>
    obtain ⟨rfl, filled, others⟩ := covers
    rw [List.flatMap_cons, shownBytes_append, shownBytes_spanPieces, ih others]
    exact Source.bytesIn_append (Source.skipWhile_mono (Nat.le_of_lt filled))
      (Source.skipWhile_mono others.le)

/-- Whether a byte goes on with a character that begins before it. -/
def isTrailingByte (byte : UInt8) : Bool :=
  isTrailing (Char.ofUInt8 byte)

/-- Runs that cover a line show all of it but the trailing bytes with which it begins. -/
theorem shownBytes_line (table : src.Tabled) {spans : List Span} {line : Nat}
    (covers : Span.Covers (src.lineStart line) spans (src.lineEnd line)) :
    shownBytes (spans.flatMap (spanPieces src (src.lineEnd line))) =
      (src.lineText line).dropWhile isTrailingByte := by
  rw [shownBytes_covers covers, Source.skipWhile_of_le (Nat.le_refl _)]
  exact Source.bytesIn_skipWhile (Source.lineStart_le_size table _)

theorem spans_covers (styler : Styler) (fits : doc.Fits) (line : Nat) :
    Span.Covers (doc.source.lineStart line) (styler.spans doc line).1 (doc.source.lineEnd line) ∧
      (styler.spans doc line).2.Fits ∧ (styler.spans doc line).2.source = doc.source := by
  have le : doc.source.lineStart line ≤ doc.source.lineEnd line :=
    Source.lineStart_mono fits.table (Nat.le_succ line)
  rw [Styler.spans]
  dsimp only
  split
  · rename_i empty
    exact ⟨Nat.le_antisymm le empty, fits, rfl⟩
  · have ensured := Styler.fits_ensure fits styler (doc.source.lineStart line)
    have source := Styler.source_ensure styler doc (doc.source.lineStart line)
    refine ⟨?_, ensured, source⟩
    have inside : doc.source.lineEnd line ≤
        (styler.ensure doc (doc.source.lineStart line)).size := by
      rw [Document.size, source]
      exact Source.lineEnd_le_size fits.table line
    have covers := Span.covers_runs (doc.source.lineStart line)
      ((styler.ensure doc (doc.source.lineStart line)).stylesIn (doc.source.lineStart line)
        (doc.source.lineEnd line))
    rwa [Document.stylesIn_eq_map ensured inside, List.length_map, List.length_range',
      Nat.add_sub_cancel' le, ← Document.stylesIn_eq_map ensured inside] at covers

theorem shownBytes_spansOfLines (fits : doc.Fits) (source : doc.source = src) (lines : List Nat) :
    shownBytes ((styler.spansOfLines lines doc).1.flatMap fun (line, ofLine) =>
        ofLine.flatMap (spanPieces src (src.lineEnd line))) =
      lines.flatMap (fun line => (src.lineText line).dropWhile isTrailingByte) := by
  induction lines generalizing doc with
  | nil => rfl
  | cons line rest ih =>
    obtain ⟨covers, fits', source'⟩ := spans_covers styler fits line
    rw [source] at covers source'
    rw [Styler.spansOfLines]
    dsimp only
    rw [List.flatMap_cons, List.flatMap_cons, shownBytes_append,
      shownBytes_line (source ▸ fits.table) covers, ih fits' source']

theorem shownBytes_highlighted_eq (styler : Styler) (fits : doc.Fits) :
    shownBytes (highlighted styler doc true).1 =
      (List.range doc.source.lines).flatMap
        (fun line => (doc.source.lineText line).dropWhile isTrailingByte) :=
  shownBytes_spansOfLines (Styler.fits_ensure fits styler doc.size)
    (Styler.source_ensure styler doc doc.size) _

/-! ## Lines that begin with a character -/

/-- A line begins with a character, or it is empty. -/
def BeginsWhole (src : Source) (line : Nat) : Prop :=
  isTrailing (src.charD (src.lineStart line) ' ') = false

theorem dropWhile_lineText_iff (table : src.Tabled) (line : Nat) :
    (src.lineText line).dropWhile isTrailingByte = src.lineText line ↔ BeginsWhole src line := by
  by_cases empty : src.lineEnd line ≤ src.lineStart line
  · have past : src.size ≤ src.lineStart line := by
      apply Nat.le_of_not_lt
      intro inside
      exact Nat.not_lt_of_le empty (Source.lineStart_lt_lineEnd table inside)
    rw [Source.lineText, Source.bytesIn_of_le empty, BeginsWhole, Source.charD_of_le past]
    exact iff_of_true rfl rfl
  · obtain ⟨byte, here, bytes⟩ := src.bytesIn_eq_cons (Nat.lt_of_not_le empty)
      (Source.lineEnd_le_size table line)
    rw [Source.lineText, bytes, List.dropWhile_cons, BeginsWhole, Source.charD, here,
      Option.getD_some]
    cases trails : isTrailing (Char.ofUInt8 byte) with
    | false => exact iff_of_true (if_neg (by rw [isTrailingByte, trails]; decide)) rfl
    | true =>
      refine iff_of_false (fun same => ?_) (by decide)
      rw [isTrailingByte, trails, if_pos rfl] at same
      have shorter := (List.dropWhile_suffix (l := src.bytesIn (src.lineStart line + 1)
        (src.lineEnd line)) isTrailingByte).length_le
      have longer := congrArg List.length same
      rw [List.length_cons] at longer
      omega

theorem length_flatMap_le {α β : Type} {f g : α → List β} {l : List α}
    (suffix : ∀ x ∈ l, f x <:+ g x) : (l.flatMap f).length ≤ (l.flatMap g).length := by
  induction l with
  | nil => exact Nat.le_refl _
  | cons x rest ih =>
    obtain ⟨here, later⟩ := List.forall_mem_cons.1 suffix
    rw [List.flatMap_cons, List.flatMap_cons, List.length_append, List.length_append]
    exact Nat.add_le_add here.length_le (ih later)

/-- Of suffixes of some lists, joined, nothing is missing exactly if each is the whole list. -/
theorem flatMap_eq_iff_of_suffix {α β : Type} {f g : α → List β} {l : List α}
    (suffix : ∀ x ∈ l, f x <:+ g x) : l.flatMap f = l.flatMap g ↔ ∀ x ∈ l, f x = g x := by
  induction l with
  | nil => exact iff_of_true rfl (fun _ mem => absurd mem List.not_mem_nil)
  | cons x rest ih =>
    obtain ⟨here, later⟩ := List.forall_mem_cons.1 suffix
    rw [List.flatMap_cons, List.flatMap_cons, List.forall_mem_cons, ← ih later]
    refine ⟨fun same => ?_, fun ⟨first, others⟩ => by rw [first, others]⟩
    have total := congrArg List.length same
    rw [List.length_append, List.length_append] at total
    have head := here.length_le
    have tail := length_flatMap_le later
    exact List.append_inj same (by omega)

theorem isTrailing_iff {byte : UInt8} : isTrailing (Char.ofUInt8 byte) = true ↔ Utf8.Trails byte := by
  have code : (Char.ofUInt8 byte).toNat = byte.toNat := rfl
  rw [isTrailing, code, Bool.and_eq_true, decide_eq_true_eq, decide_eq_true_eq, Utf8.Trails,
    UInt8.le_iff_toNat_le, UInt8.le_iff_toNat_le]
  exact and_congr_right fun _ => Nat.lt_succ_iff

/-- A line of valid text begins with a character: the byte before it, if any, ends a line and is a
character by itself. -/
theorem beginsWhole_of_decode? (table : src.Tabled)
    (valid : Utf8.decode? src.bytes.toList ≠ none) {line : Nat} (bound : line < src.lines) :
    BeginsWhole src line := by
  have starts := Source.startsLine_lineStart table bound
  apply Bool.eq_false_iff.2
  intro trailing
  generalize src.lineStart line = pos at starts trailing
  cases found : src.bytes[pos]? with
  | none =>
    rw [Source.charD, Source.char?, charAt?, found] at trailing
    cases trailing
  | some byte =>
    rw [Source.charD, Source.char?, charAt?, found] at trailing
    have here : src.bytes.toList[pos]? = some byte := by rwa [Array.getElem?_toList]
    refine Utf8.not_trails_of_decode? valid here ?_ (isTrailing_iff.1 trailing)
    refine starts.imp_right (fun ends => ?_)
    have lineEnd := Source.isLineEnd_of_endsLineAt '\x00' ends
    cases before : src.bytes[pos - 1]? with
    | none =>
      rw [Source.charD, Source.char?, charAt?, before] at lineEnd
      cases lineEnd
    | some small =>
      rw [Source.charD, Source.char?, charAt?, before] at lineEnd
      refine ⟨small, by rwa [Array.getElem?_toList], ?_⟩
      simp only [Option.map_some, Option.getD_some, isLineEnd, Bool.or_eq_true,
        decide_eq_true_eq] at lineEnd
      have code : (Char.ofUInt8 small).toNat = small.toNat := rfl
      rw [UInt8.lt_iff_toNat_lt, ← code]
      rcases lineEnd with same | same <;> rw [same] <;> decide

/-- The coloured source shows the lines in turn, each without the bytes that go on with a character
where it begins. So nothing is missing exactly if each line begins with a character, as it does in
UTF-8. -/
theorem shownBytes_highlighted (styler : Styler) (fits : doc.Fits) :
    shownBytes (highlighted styler doc true).1 =
        (List.range doc.source.lines).flatMap
          (fun line => (doc.source.lineText line).dropWhile isTrailingByte) ∧
      (shownBytes (highlighted styler doc true).1 = doc.source.bytes.toList ↔
        ∀ line, line < doc.source.lines → BeginsWhole doc.source line) ∧
      (Utf8.decode? doc.source.bytes.toList ≠ none →
        shownBytes (highlighted styler doc true).1 = doc.source.bytes.toList) := by
  have shown := shownBytes_highlighted_eq styler fits
  have whole : shownBytes (highlighted styler doc true).1 = doc.source.bytes.toList ↔
      ∀ line, line < doc.source.lines → BeginsWhole doc.source line := by
    rw [shown, ← Source.flatMap_lineText fits.table,
      flatMap_eq_iff_of_suffix (fun line _ => List.dropWhile_suffix _)]
    refine forall_congr' (fun line => ?_)
    rw [List.mem_range, dropWhile_lineText_iff fits.table]
  exact ⟨shown, whole, fun valid =>
    whole.2 (fun line bound => beginsWhole_of_decode? fits.table valid bound)⟩

/-- An accented letter in a literal, on one line after another. -/
theorem shownBytes_highlighted_accent :
    let doc : Document := .ofBytes #[120, 61, 39, 195, 169, 39, 10, 195, 169, 10]
    (doc.Fits ∧ Utf8.decode? doc.source.bytes.toList ≠ none) ∧
      shownBytes (highlighted {} doc true).1 = doc.source.bytes.toList := by
  intro doc
  have valid : Utf8.decode? doc.source.bytes.toList ≠ none := by decide +kernel
  exact ⟨⟨Document.fits_ofBytes _, valid⟩,
    (shownBytes_highlighted {} (Document.fits_ofBytes _)).2.2 valid⟩

/-- A byte that goes on with a character is lost where a line begins with it. -/
theorem not_shownBytes_highlighted_strayByte :
    ¬∀ (styler : Styler) (doc : Document), doc.Fits →
      shownBytes (highlighted styler doc true).1 = doc.source.bytes.toList := by
  intro all
  have shown := all {} (.ofBytes #[120, 10, 160, 121, 10]) (Document.fits_ofBytes _)
  have lost : shownBytes (highlighted {} (.ofBytes #[120, 10, 160, 121, 10]) true).1 =
      [120, 10, 121, 10] := by decide +kernel
  rw [lost] at shown
  cases shown

end Report

end FortranMarkup
