import Mathlib.Data.List.Chain
import FortranMarkup.Style.Span

/-!
# Runs and the styles they stand for

Spans that join without a gap from one position to another (`Span.Covers`) stand for a sequence of
styles, `Span.expand`. There is one list of them in which neighbours differ (`Span.Longest`), and
`Span.runs` finds it: the two functions undo each other (`Span.expand_runs`, `Span.runs_expand`).
-/

namespace FortranMarkup.Span

variable {first stop pos : Nat} {spans : List Span} {span : Span} {style : Style}

/-! ## Spans without gaps -/

/-- Spans that follow one another without a gap, from a position up to another. -/
def Covers (first : Nat) : List Span → Nat → Prop
  | [], stop => first = stop
  | span :: rest, stop => span.start = first ∧ first < span.stop ∧ Covers span.stop rest stop

theorem Covers.le (covers : Covers first spans stop) : first ≤ stop := by
  induction spans generalizing first with
  | nil => exact Nat.le_of_eq covers
  | cons span rest ih => exact Nat.le_trans (Nat.le_of_lt covers.2.1) (ih covers.2.2)

theorem Covers.bounds (covers : Covers first spans stop) (mem : span ∈ spans) :
    first ≤ span.start ∧ span.start < span.stop ∧ span.stop ≤ stop := by
  induction spans generalizing first with
  | nil => exact absurd mem List.not_mem_nil
  | cons head rest ih =>
    obtain ⟨rfl, filled, others⟩ := covers
    rcases List.mem_cons.1 mem with rfl | later
    · exact ⟨Nat.le_refl _, filled, others.le⟩
    · obtain ⟨le, filled', le'⟩ := ih others later
      exact ⟨Nat.le_trans (Nat.le_of_lt filled) le, filled', le'⟩

/-- Spans without gaps reach every position between their ends. -/
theorem Covers.exists_span (covers : Covers first spans stop) (le : first ≤ pos)
    (less : pos < stop) : ∃ span ∈ spans, span.start ≤ pos ∧ pos < span.stop := by
  induction spans generalizing first with
  | nil =>
    obtain rfl : first = stop := covers
    exact absurd less (Nat.not_lt_of_le le)
  | cons head rest ih =>
    obtain ⟨rfl, -, others⟩ := covers
    rcases Nat.lt_or_ge pos head.stop with inside | past
    · exact ⟨head, List.mem_cons_self, le, inside⟩
    · obtain ⟨span, mem, within⟩ := ih others past
      exact ⟨span, List.mem_cons_of_mem _ mem, within⟩

theorem Covers.extend (covers : Covers (pos + 1) spans stop) (style : Style) :
    Covers pos (Span.extend pos style spans) stop := by
  cases spans with
  | nil => exact ⟨rfl, Nat.lt_succ_self pos, covers⟩
  | cons span rest =>
    obtain ⟨start, filled, others⟩ := covers
    rw [Span.extend]
    split
    · exact ⟨rfl, Nat.lt_of_succ_lt filled, others⟩
    · exact ⟨rfl, Nat.lt_succ_self pos, start, filled, others⟩

theorem covers_runs (base : Nat) (styles : List Style) :
    Covers base (runs base styles) (base + styles.length) := by
  induction styles generalizing base with
  | nil => rfl
  | cons style rest ih =>
    have later := ih (base + 1)
    rw [Nat.add_assoc, Nat.add_comm 1] at later
    exact later.extend style

/-! ## What spans stand for -/

theorem Covers.length_expand (covers : Covers first spans stop) :
    first + (expand spans).length = stop := by
  induction spans generalizing first with
  | nil => exact covers
  | cons span rest ih =>
    obtain ⟨rfl, filled, others⟩ := covers
    have rest := ih others
    rw [expand, List.length_append, List.length_replicate]
    omega

theorem Covers.getElem?_expand (covers : Covers first spans stop) (mem : span ∈ spans)
    (le : span.start ≤ pos) (less : pos < span.stop) :
    (expand spans)[pos - first]? = some span.style := by
  induction spans generalizing first with
  | nil => exact absurd mem List.not_mem_nil
  | cons head rest ih =>
    obtain ⟨rfl, filled, others⟩ := covers
    rw [expand]
    rcases List.mem_cons.1 mem with rfl | later
    · have inside : pos - span.start < span.stop - span.start := by omega
      rw [List.getElem?_append_left (by rwa [List.length_replicate]),
        List.getElem?_replicate_of_lt inside]
    · have past : head.stop ≤ pos := Nat.le_trans (others.bounds later).1 le
      rw [List.getElem?_append_right (by rw [List.length_replicate]; omega), List.length_replicate,
        ← ih others later]
      congr 1
      omega

/-- Spans without gaps stand for a sequence exactly if each position has the style of its span. -/
theorem Covers.expand_eq_iff {base : Nat} {styles : List Style}
    (covers : Covers base spans (base + styles.length)) :
    expand spans = styles ↔ ∀ span ∈ spans, ∀ pos, span.start ≤ pos → pos < span.stop →
      styles[pos - base]? = some span.style := by
  constructor
  · rintro rfl span mem pos le less
    exact covers.getElem?_expand mem le less
  · intro styled
    have length := Nat.add_left_cancel covers.length_expand
    apply List.ext_getElem?
    intro i
    rcases Nat.lt_or_ge i styles.length with inside | past
    · obtain ⟨span, mem, le, less⟩ :=
        covers.exists_span (Nat.le_add_right base i) (Nat.add_lt_add_left inside base)
      have given := styled span mem _ le less
      have found := covers.getElem?_expand mem le less
      rw [Nat.add_sub_cancel_left] at given found
      rw [given, found]
    · rw [List.getElem?_eq_none past, List.getElem?_eq_none (length ▸ past)]

theorem expand_extend (covers : Covers (pos + 1) spans stop) (style : Style) :
    expand (Span.extend pos style spans) = style :: expand spans := by
  have alone : pos + 1 - pos = 1 := Nat.add_sub_cancel_left pos 1
  cases spans with
  | nil =>
    show List.replicate (pos + 1 - pos) style ++ [] = [style]
    rw [alone]
    rfl
  | cons span rest =>
    obtain ⟨start, filled, -⟩ := covers
    rw [Span.extend]
    split
    · rename_i same
      have length : span.stop - pos = span.stop - span.start + 1 := by omega
      rw [expand, expand, length, List.replicate_succ, List.cons_append, same]
    · rw [expand, alone]
      rfl

theorem expand_runs (base : Nat) (styles : List Style) : expand (runs base styles) = styles := by
  induction styles generalizing base with
  | nil => rfl
  | cons style rest ih =>
    have later := covers_runs (base + 1) rest
    rw [runs, expand_extend later, ih]

/-! ## The longest runs -/

/-- Spans that join without a gap from a position up to another, of which no two neighbours have one
style. -/
structure Longest (first : Nat) (spans : List Span) (stop : Nat) : Prop where
  covers : Covers first spans stop
  changes : spans.IsChain (fun span next => span.style ≠ next.style)

/-- The style with which some spans begin is another one. -/
def BeginsOther (style : Style) (spans : List Span) : Prop :=
  ∀ span ∈ spans.head?, span.style ≠ style

theorem extend_of_beginsOther (other : BeginsOther style spans) :
    extend pos style spans = ⟨pos, pos + 1, style⟩ :: spans := by
  cases spans with
  | nil => rfl
  | cons span rest => rw [extend, if_neg (other span rfl)]

theorem isChain_extend (changes : spans.IsChain (fun span next => span.style ≠ next.style)) :
    (extend pos style spans).IsChain (fun span next => span.style ≠ next.style) := by
  cases spans with
  | nil => exact .singleton _
  | cons span rest =>
    rw [extend]
    split
    · rename_i same
      cases rest with
      | nil => exact .singleton _
      | cons next others =>
        obtain ⟨differ, later⟩ := List.isChain_cons_cons.1 changes
        exact .cons_cons (same ▸ differ) later
    · rename_i differ
      exact .cons_cons (Ne.symm differ) changes

theorem longest_runs (base : Nat) (styles : List Style) :
    Longest base (runs base styles) (base + styles.length) where
  covers := covers_runs base styles
  changes := by
    induction styles generalizing base with
    | nil => exact .nil
    | cons style rest ih => exact isChain_extend (ih (base + 1))

/-- A style repeated in front of a sequence that begins with another one is a run of its own. -/
theorem runs_replicate_append {styles : List Style} {count : Nat}
    (other : BeginsOther style (runs (first + (count + 1)) styles)) :
    runs first (List.replicate (count + 1) style ++ styles) =
      ⟨first, first + (count + 1), style⟩ :: runs (first + (count + 1)) styles := by
  induction count generalizing first with
  | zero => exact extend_of_beginsOther other
  | succ count ih =>
    have shift : first + (count + 1 + 1) = first + 1 + (count + 1) := by omega
    rw [shift] at other ⊢
    rw [List.replicate_succ, List.cons_append, runs, ih other, extend, if_pos rfl]

theorem runs_expand (longest : Longest first spans stop) : runs first (expand spans) = spans := by
  obtain ⟨covers, changes⟩ := longest
  induction spans generalizing first with
  | nil => rfl
  | cons span rest ih =>
    obtain ⟨rfl, filled, others⟩ := covers
    have later : runs span.stop (expand rest) = rest := ih others changes.tail
    have other : BeginsOther span.style (runs span.stop (expand rest)) := by
      rw [later]
      cases rest with
      | nil => exact fun _ none => nomatch none
      | cons next others =>
        rintro _ ⟨⟩
        exact Ne.symm (List.isChain_cons_cons.1 changes).1
    obtain ⟨count, stop⟩ : ∃ count, span.stop = span.start + (count + 1) :=
      ⟨span.stop - span.start - 1, by omega⟩
    rw [stop] at later other
    rw [expand, stop, Nat.add_sub_cancel_left, runs_replicate_append other, later, ← stop]

/-! ## Runs of style numbers -/

/-- The styles that some style numbers stand for. -/
def decode (codes : List UInt8) : List Style :=
  codes.map (fun code => Style.ofCode code.toNat)

/-- The numbers of some styles. -/
def encode (styles : List Style) : List UInt8 :=
  styles.map (fun style => style.code.toUInt8)

theorem decode_encode (styles : List Style) : decode (encode styles) = styles := by
  rw [decode, encode, List.map_map]
  refine (List.map_congr_left fun style _ => ?_).trans (List.map_id _)
  cases style <;> rfl

/-- The runs of a sequence of style numbers are the one list of spans without gaps from the base to
the end of the sequence in which neighbours differ and each position has the style that its number
stands for. So a sequence is known from its runs, up to numbers of one style, and the runs from the
sequence that they stand for. -/
theorem eq_runsOfCodes_iff (base : Nat) (codes : List UInt8) :
    (∀ spans, spans = runsOfCodes base codes ↔
      Longest base spans (base + codes.length) ∧
        ∀ span ∈ spans, ∀ pos, span.start ≤ pos → pos < span.stop →
          (decode codes)[pos - base]? = some span.style) ∧
      expand (runsOfCodes base codes) = decode codes ∧
      ∀ spans stop, Longest base spans stop →
        runsOfCodes base (encode (expand spans)) = spans := by
  have length : (decode codes).length = codes.length := List.length_map ..
  refine ⟨fun spans => ⟨?_, ?_⟩, expand_runs base _, fun spans stop longest => ?_⟩
  · rintro rfl
    have longest : Longest base (runsOfCodes base codes) (base + codes.length) :=
      length ▸ longest_runs base (decode codes)
    refine ⟨longest, ?_⟩
    rw [← length] at longest
    exact longest.covers.expand_eq_iff.1 (expand_runs base _)
  · rintro ⟨longest, styled⟩
    rw [← length] at longest
    have same : expand spans = decode codes := longest.covers.expand_eq_iff.2 styled
    exact (runs_expand longest).symm.trans (congrArg (runs base) same)
  · exact (congrArg (runs base) (decode_encode _)).trans (runs_expand longest)

/-- Numbers without a style read as plain, so they join the run of a number that is plain. -/
theorem eq_runsOfCodes_iff_strayNumbers :
    let spans : List Span := [⟨100, 102, .keyword⟩, ⟨102, 104, .plain⟩, ⟨104, 105, .identifier⟩]
    Longest 100 spans 105 ∧ spans = runsOfCodes 100 [8, 8, 0, 200, 7] ∧
      runsOfCodes 100 (encode (expand spans)) = spans := by
  intro spans
  have runs : spans = runsOfCodes 100 [8, 8, 0, 200, 7] := by decide
  have longest := (((eq_runsOfCodes_iff 100 [8, 8, 0, 200, 7]).1 spans).1 runs).1
  exact ⟨longest, runs, (eq_runsOfCodes_iff 100 [8, 8, 0, 200, 7]).2.2 spans 105 longest⟩

end FortranMarkup.Span
