import FortranMarkup.Source.Basic

/-!
# The line table

What the table of lines that `Source.ofBytes` builds says about positions. A position starts a line
if it is the first one or stands after the last byte of a line end (`StartsLine`); `lineAt` counts
the line ends before a position, and `lineStart` and `lineEnd` are the nearest line starts before and
after it.
-/

namespace FortranMarkup

theorem ofUInt8_inj {a b : UInt8} (same : Char.ofUInt8 a = Char.ofUInt8 b) : a = b :=
  UInt8.toNat_inj.1 (congrArg Char.toNat same)

/-- In a list that ascends, the entries up to a bound are the first ones. -/
theorem lt_countP_iff {xs : List Nat} (ascending : xs.Pairwise (· < ·)) (bound i : Nat) :
    i < xs.countP (· ≤ bound) ↔ ∃ h : i < xs.length, xs[i] ≤ bound := by
  induction xs generalizing i with
  | nil => simp
  | cons x rest ih =>
    obtain ⟨least, tail⟩ := List.pairwise_cons.1 ascending
    by_cases le : x ≤ bound
    · cases i with
      | zero => simp [le]
      | succ i => simp [le, ih tail i]
    · have none : rest.countP (· ≤ bound) = 0 := by
        rw [List.countP_eq_zero]
        intro y mem
        have := least y mem
        simp only [decide_eq_true_eq]
        omega
      cases i with
      | zero => simp [le, none]
      | succ i =>
        simp only [List.countP_cons, none, decide_eq_true_eq, le, if_false]
        constructor
        · intro h
          omega
        · rintro ⟨h, small⟩
          have := least _ (List.getElem_mem (Nat.lt_of_succ_lt_succ h))
          simp only [List.getElem_cons_succ] at small
          omega

namespace Source

/-- The table of lines is the one that belongs to the bytes. -/
def Tabled (src : Source) : Prop :=
  src.starts = lineStarts src.bytes

/-- A line starts at a position: at the first one, and after each line end. -/
def StartsLine (src : Source) (pos : Nat) : Prop :=
  pos = 0 ∨ endsLineAt src.bytes (pos - 1) = true

instance (src : Source) (pos : Nat) : Decidable (src.StartsLine pos) :=
  inferInstanceAs (Decidable (_ ∨ _))

@[simp] theorem startsLine_zero (src : Source) : src.StartsLine 0 := .inl rfl

theorem startsLine_succ {src : Source} {pos : Nat} :
    src.StartsLine (pos + 1) ↔ endsLineAt src.bytes pos = true := by
  simp [StartsLine]

theorem lt_size_of_endsLineAt {src : Source} {pos : Nat} (ends : endsLineAt src.bytes pos = true) :
    pos < src.size := by
  apply Nat.lt_of_not_le
  intro le
  have past : src.bytes[pos]? = none := Array.getElem?_eq_none le
  simp [endsLineAt, charAt?, past] at ends

theorem le_size_of_startsLine {src : Source} {pos : Nat} (starts : src.StartsLine pos) :
    pos ≤ src.size := by
  cases pos with
  | zero => exact Nat.zero_le _
  | succ pos => exact lt_size_of_endsLineAt (startsLine_succ.1 starts)

theorem isLineEnd_of_isBlank {c : Char} (blank : isBlank c = true) : isLineEnd c = false := by
  simp only [isBlank, Bool.or_eq_true, decide_eq_true_eq] at blank
  rcases blank with (rfl | rfl) | rfl <;> rfl

theorem isSpace_iff {c : Char} :
    isSpace c = true ↔ isBlank c = true ∨ isLineEnd c = true ∨ c = '\x0c' := by
  simp only [isSpace, isBlank, isLineEnd, Bool.or_eq_true, Bool.and_eq_true, decide_eq_true_eq]
  constructor
  · rintro (rfl | ⟨low, high⟩)
    · exact .inl (.inl (.inl rfl))
    · have low : 9 ≤ c.toNat := UInt32.le_iff_toNat_le.1 low
      have high : c.toNat ≤ 13 := UInt32.le_iff_toNat_le.1 high
      have is {d : Char} (same : c.toNat = d.toNat) : c = d := Char.ext (UInt32.toNat_inj.1 same)
      obtain tab | feed | vertical | form | ret : c.toNat = 9 ∨ c.toNat = 10 ∨ c.toNat = 11 ∨
          c.toNat = 12 ∨ c.toNat = 13 := by omega
      · exact .inl (.inl (.inr (is tab)))
      · exact .inr (.inl (.inl (is feed)))
      · exact .inl (.inr (is vertical))
      · exact .inr (.inr (is form))
      · exact .inr (.inl (.inr (is ret)))
  · rintro (((rfl | rfl) | rfl) | (rfl | rfl) | rfl) <;> decide

theorem isLineEnd_of_not_isSpace {c : Char} (visible : isSpace c = false) :
    isLineEnd c = false := by
  apply Bool.eq_false_iff.2
  intro ends
  simp only [isLineEnd, Bool.or_eq_true, decide_eq_true_eq] at ends
  rcases ends with rfl | rfl <;> cases visible

theorem isSpaceOrTab_of_not_isSpace {c : Char} (visible : isSpace c = false) :
    isSpaceOrTab c = false := by
  apply Bool.eq_false_iff.2
  intro space
  simp only [isSpaceOrTab, Bool.or_eq_true, decide_eq_true_eq] at space
  rcases space with rfl | rfl <;> cases visible

theorem isLineEnd_of_endsLineAt {src : Source} {pos : Nat} (past : Char)
    (ends : endsLineAt src.bytes pos = true) : isLineEnd (src.charD pos past) = true := by
  simp only [endsLineAt, Bool.or_eq_true, Bool.and_eq_true, decide_eq_true_eq] at ends
  rcases ends with feed | ⟨ret, -⟩
  · simp [charD, char?, feed, isLineEnd]
  · simp [charD, char?, ret, isLineEnd]

section Chars

variable {src : Source} {pos : Nat}

theorem charD_eq_of_lt (inside : pos < src.size) (past past' : Char) :
    src.charD pos past = src.charD pos past' := by
  have inside : pos < src.bytes.size := inside
  simp [charD, char?, charAt?, inside]

theorem charD_of_le (past : src.size ≤ pos) (c : Char) : src.charD pos c = c := by
  have past : src.bytes.size ≤ pos := past
  simp [charD, char?, charAt?, past]

theorem lt_size_of_charD {past : Char} (here : src.charD pos past ≠ past) : pos < src.size :=
  Nat.lt_of_not_le (fun outside => here (charD_of_le outside past))

theorem charD_eq_of_ne {past c : Char} (here : src.charD pos past = c) (inside : c ≠ past)
    (past' : Char) : src.charD pos past' = c := by
  unfold charD at here ⊢
  cases found : src.char? pos with
  | none =>
    rw [found] at here
    exact absurd here.symm inside
  | some d =>
    rwa [found] at here

theorem isSpace_charD (space : isSpace (src.charD pos '\x00') = true) (past : Char) :
    isSpace (src.charD pos past) = true := by
  have inside : src.charD pos '\x00' ≠ '\x00' := by
    intro same
    rw [same] at space
    cases space
  rwa [charD_eq_of_ne rfl inside past]

end Chars

section Table

variable {src : Source}

theorem mem_starts_iff (table : src.Tabled) {pos : Nat} : pos ∈ src.starts ↔ src.StartsLine pos := by
  rw [table]
  cases pos with
  | zero => simp [lineStarts]
  | succ pos =>
    have bound : endsLineAt src.bytes pos = true → pos < src.bytes.size := lt_size_of_endsLineAt
    simpa [lineStarts, startsLine_succ] using bound

theorem ascending_starts (table : src.Tabled) : src.starts.toList.Pairwise (· < ·) := by
  have ends : (((List.range src.bytes.size).filter (endsLineAt src.bytes)).map (· + 1)).Pairwise
      (· < ·) := by
    rw [List.pairwise_map]
    refine (List.pairwise_lt_range.filter _).imp ?_
    intro a b less
    omega
  rw [table, lineStarts, List.pairwise_cons]
  refine ⟨?_, ends⟩
  intro pos mem
  obtain ⟨_, -, rfl⟩ := List.mem_map.1 mem
  omega

theorem lines_pos (table : src.Tabled) : 0 < src.lines := by
  unfold lines
  rw [table]
  simp [lineStarts]

theorem lineStart_of_lt {line : Nat} (bound : line < src.starts.size) :
    src.lineStart line = src.starts[line] := by
  simp [lineStart, bound]

theorem lt_size_starts {line : Nat} (bound : line < src.lines) : line < src.starts.size := bound

theorem lineStart_of_le {line : Nat} (past : src.lines ≤ line) : src.lineStart line = src.size := by
  simp [lineStart, Array.getElem?_eq_none (show src.starts.size ≤ line from past)]

theorem startsLine_lineStart (table : src.Tabled) {line : Nat} (bound : line < src.lines) :
    src.StartsLine (src.lineStart line) := by
  rw [lineStart_of_lt (lt_size_starts bound)]
  exact (mem_starts_iff table).1 (Array.getElem_mem _)

theorem lineStart_le_size (table : src.Tabled) (line : Nat) : src.lineStart line ≤ src.size := by
  by_cases bound : line < src.lines
  · exact le_size_of_startsLine (startsLine_lineStart table bound)
  · exact Nat.le_of_eq (lineStart_of_le (Nat.le_of_not_lt bound))

theorem lineStart_lt (table : src.Tabled) {line later : Nat} (less : line < later)
    (bound : later < src.lines) : src.lineStart line < src.lineStart later := by
  rw [lineStart_of_lt (lt_size_starts bound),
    lineStart_of_lt (lt_size_starts (Nat.lt_trans less bound))]
  exact List.pairwise_iff_getElem.1 (ascending_starts table) line later _ _ less

@[simp] theorem lineStart_zero (table : src.Tabled) : src.lineStart 0 = 0 := by
  unfold lineStart
  rw [table]
  simp [lineStarts]

theorem countP_starts_pos (table : src.Tabled) (pos : Nat) :
    0 < src.starts.toList.countP (· ≤ pos) := by
  rw [lt_countP_iff (ascending_starts table)]
  have first := lineStart_zero table
  rw [lineStart_of_lt (lt_size_starts (lines_pos table))] at first
  exact ⟨lt_size_starts (lines_pos table), by simp [first]⟩

theorem lineStart_le_iff (table : src.Tabled) {line : Nat} (bound : line < src.lines) (pos : Nat) :
    src.lineStart line ≤ pos ↔ line ≤ src.lineAt pos := by
  have count := lt_countP_iff (ascending_starts table) pos line
  have positive := countP_starts_pos table pos
  have line_bound : line < src.starts.toList.length := bound
  rw [lineStart_of_lt (lt_size_starts bound)]
  simp only [line_bound, exists_true_left, Array.getElem_toList] at count
  rw [← count, lineAt, ← Array.countP_toList]
  omega

theorem lineAt_lt_lines (table : src.Tabled) (pos : Nat) : src.lineAt pos < src.lines := by
  have le := @Array.countP_le_size _ (fun start => decide (start ≤ pos)) src.starts
  have positive := lines_pos table
  unfold lineAt lines at *
  omega

theorem lineStart_lineAt_le (table : src.Tabled) (pos : Nat) :
    src.lineStart (src.lineAt pos) ≤ pos :=
  (lineStart_le_iff table (lineAt_lt_lines table pos) pos).2 (Nat.le_refl _)

theorem lt_lineEnd_lineAt (table : src.Tabled) {pos : Nat} (more : src.lineAt pos + 1 < src.lines) :
    pos < src.lineEnd (src.lineAt pos) := by
  apply Nat.lt_of_not_le
  intro le
  have := (lineStart_le_iff table more pos).1 le
  omega

theorem lineAt_lineStart (table : src.Tabled) {line : Nat} (bound : line < src.lines) :
    src.lineAt (src.lineStart line) = line := by
  have at_least := (lineStart_le_iff table bound (src.lineStart line)).1 (Nat.le_refl _)
  have at_most := lineStart_lineAt_le table (src.lineStart line)
  rcases Nat.lt_or_eq_of_le at_least with less | same
  · have := lineStart_lt table less (lineAt_lt_lines table _)
    omega
  · exact same.symm

theorem lineAt_mono (table : src.Tabled) {pos later : Nat} (le : pos ≤ later) :
    src.lineAt pos ≤ src.lineAt later :=
  (lineStart_le_iff table (lineAt_lt_lines table pos) later).1
    (Nat.le_trans (lineStart_lineAt_le table pos) le)

theorem lineStart_mono (table : src.Tabled) {line later : Nat} (le : line ≤ later) :
    src.lineStart line ≤ src.lineStart later := by
  by_cases bound : later < src.lines
  · rcases Nat.lt_or_eq_of_le le with less | same
    · exact Nat.le_of_lt (lineStart_lt table less bound)
    · exact Nat.le_of_eq (congrArg src.lineStart same)
  · rw [lineStart_of_le (Nat.le_of_not_lt bound)]
    exact lineStart_le_size table line

theorem exists_line_of_startsLine (table : src.Tabled) {pos : Nat} (starts : src.StartsLine pos) :
    ∃ line, line < src.lines ∧ src.lineStart line = pos := by
  obtain ⟨line, bound, same⟩ := Array.mem_iff_getElem.1 ((mem_starts_iff table).2 starts)
  exact ⟨line, bound, by rw [lineStart_of_lt bound, same]⟩

theorem lineStart_lineAt_of_startsLine (table : src.Tabled) {pos : Nat}
    (starts : src.StartsLine pos) : src.lineStart (src.lineAt pos) = pos := by
  obtain ⟨line, bound, rfl⟩ := exists_line_of_startsLine table starts
  rw [lineAt_lineStart table bound]

theorem startsLine_iff (table : src.Tabled) {pos : Nat} :
    src.StartsLine pos ↔ src.lineStart (src.lineAt pos) = pos := by
  refine ⟨lineStart_lineAt_of_startsLine table, ?_⟩
  intro same
  rw [← same]
  exact startsLine_lineStart table (lineAt_lt_lines table pos)

theorem lineAt_lt_of_startsLine (table : src.Tabled) {pos limit : Nat} (less : pos < limit)
    (starts : src.StartsLine limit) : src.lineAt pos < src.lineAt limit := by
  apply Nat.lt_of_not_le
  intro le
  have := (lineStart_le_iff table (lineAt_lt_lines table limit) pos).2 le
  rw [lineStart_lineAt_of_startsLine table starts] at this
  omega

theorem lineEnd_le_of_startsLine (table : src.Tabled) {pos limit : Nat} (less : pos < limit)
    (starts : src.StartsLine limit) : src.lineEnd (src.lineAt pos) ≤ limit := by
  have later := lineStart_mono table (Nat.succ_le_of_lt (lineAt_lt_of_startsLine table less starts))
  rwa [lineStart_lineAt_of_startsLine table starts] at later

theorem more_lines_of_startsLine (table : src.Tabled) {pos limit : Nat} (less : pos < limit)
    (starts : src.StartsLine limit) : src.lineAt pos + 1 < src.lines :=
  Nat.lt_of_le_of_lt (Nat.succ_le_of_lt (lineAt_lt_of_startsLine table less starts))
    (lineAt_lt_lines table limit)

theorem lineAt_succ (table : src.Tabled) (pos : Nat) :
    src.lineAt (pos + 1) =
      if endsLineAt src.bytes pos = true then src.lineAt pos + 1 else src.lineAt pos := by
  have mono : src.lineAt pos ≤ src.lineAt (pos + 1) := lineAt_mono table (Nat.le_succ pos)
  by_cases ends : endsLineAt src.bytes pos = true
  · have starts : src.StartsLine (pos + 1) := startsLine_succ.2 ends
    have less : src.lineAt pos < src.lineAt (pos + 1) :=
      lineAt_lt_of_startsLine table (Nat.lt_succ_self pos) starts
    have more := more_lines_of_startsLine table (Nat.lt_succ_self pos) starts
    have low := lt_lineEnd_lineAt table more
    have high : src.lineAt (pos + 1) ≤ src.lineAt pos + 1 := by
      apply Nat.le_of_not_lt
      intro far
      have := lineStart_lt table far (lineAt_lt_lines table _)
      rw [lineStart_lineAt_of_startsLine table starts] at this
      unfold lineEnd at low
      omega
    rw [if_pos ends]
    omega
  · rw [if_neg ends]
    rcases Nat.lt_or_eq_of_le mono with less | same
    · have starts := startsLine_lineStart table (lineAt_lt_lines table (pos + 1))
      have low := lineStart_lineAt_le table (pos + 1)
      have high : ¬ src.lineStart (src.lineAt (pos + 1)) ≤ pos := by
        intro le
        have := (lineStart_le_iff table (lineAt_lt_lines table (pos + 1)) pos).1 le
        omega
      have at_succ : src.lineStart (src.lineAt (pos + 1)) = pos + 1 := by omega
      rw [at_succ, startsLine_succ] at starts
      exact absurd starts ends
    · exact same.symm

theorem lineAt_zero (table : src.Tabled) : src.lineAt 0 = 0 := by
  have first := lineAt_lineStart table (lines_pos table)
  rwa [lineStart_zero table] at first

theorem lineAt_size (table : src.Tabled) : src.lineAt src.size + 1 = src.lines := by
  have pos := lines_pos table
  have last := lineAt_lineStart table (show src.lines - 1 < src.lines by omega)
  have mono := lineAt_mono table (lineStart_le_size table (src.lines - 1))
  have bound := lineAt_lt_lines table src.size
  omega

theorem exists_end_of_lt (table : src.Tabled) {line : Nat} (more : line + 1 < src.lines) :
    ∃ pos, endsLineAt src.bytes pos = true ∧ src.lineAt pos = line ∧
      pos + 1 = src.lineStart (line + 1) := by
  have starts := startsLine_lineStart table more
  have less : src.lineStart line < src.lineStart (line + 1) :=
    lineStart_lt table (Nat.lt_succ_self line) more
  obtain ⟨pos, is⟩ : ∃ pos, src.lineStart (line + 1) = pos + 1 :=
    ⟨src.lineStart (line + 1) - 1, by omega⟩
  rw [is] at starts
  have ends := startsLine_succ.1 starts
  have next := lineAt_lineStart table more
  rw [is, lineAt_succ table, if_pos ends] at next
  exact ⟨pos, ends, by omega, is.symm⟩

theorem not_ends_of_lt (table : src.Tabled) {pos between : Nat} (less : between < pos)
    (line : src.lineAt between = src.lineAt pos) : ¬endsLineAt src.bytes between = true := by
  intro ends
  have mono := lineAt_mono table (Nat.succ_le_of_lt less)
  rw [Nat.succ_eq_add_one, lineAt_succ table, if_pos ends] at mono
  omega

theorem lineAt_of_lt (table : src.Tabled) {line : Nat} (bound : line < src.lines) {pos : Nat}
    (low : src.lineStart line ≤ pos) (high : pos < src.lineEnd line) : src.lineAt pos = line := by
  apply Nat.le_antisymm
  · apply Nat.le_of_not_lt
    intro later
    have starts := lineStart_lineAt_le table pos
    have mono := lineStart_mono table (show line + 1 ≤ src.lineAt pos from later)
    unfold lineEnd at high
    omega
  · exact (lineStart_le_iff table bound pos).1 low

end Table

/-! ## Texts with a common beginning -/

/-- Two texts agree before a position at which a line starts in both. -/
structure AgreeTo (limit : Nat) (src₁ src₂ : Source) : Prop where
  char : ∀ pos, pos < limit → src₁.char? pos = src₂.char? pos
  starts₁ : src₁.StartsLine limit
  starts₂ : src₂.StartsLine limit

namespace AgreeTo

variable {limit : Nat} {src₁ src₂ : Source}

theorem refl {src : Source} (starts : src.StartsLine limit) : AgreeTo limit src src :=
  ⟨fun _ _ => rfl, starts, starts⟩

theorem charD (agree : AgreeTo limit src₁ src₂) {pos : Nat} (less : pos < limit) (past : Char) :
    src₁.charD pos past = src₂.charD pos past :=
  congrArg (Option.getD · past) (agree.char pos less)

theorem symm (agree : AgreeTo limit src₁ src₂) : AgreeTo limit src₂ src₁ :=
  ⟨fun pos less => (agree.char pos less).symm, agree.starts₂, agree.starts₁⟩

theorem succ_lt_of_not_endsLineAt (agree : AgreeTo limit src₁ src₂) {pos : Nat} (less : pos < limit)
    (inLine : endsLineAt src₁.bytes pos = false) : pos + 1 < limit := by
  rcases Nat.lt_or_eq_of_le (Nat.succ_le_of_lt less) with lt | same
  · exact lt
  · have starts := agree.starts₁
    rw [← same, startsLine_succ, inLine] at starts
    cases starts

theorem succ_lt (agree : AgreeTo limit src₁ src₂) {pos : Nat} (less : pos < limit) {past : Char}
    (inLine : isLineEnd (src₁.charD pos past) = false) : pos + 1 < limit := by
  apply agree.succ_lt_of_not_endsLineAt less
  apply Bool.eq_false_iff.2
  intro ends
  rw [isLineEnd_of_endsLineAt past ends] at inLine
  cases inLine

theorem endsLineAt_eq (agree : AgreeTo limit src₁ src₂) {pos : Nat} (less : pos < limit) :
    endsLineAt src₁.bytes pos = endsLineAt src₂.bytes pos := by
  rcases Nat.lt_or_eq_of_le (Nat.succ_le_of_lt less) with lt | same
  · have here := agree.char pos less
    have after := agree.char (pos + 1) lt
    unfold char? at here after
    rw [endsLineAt, endsLineAt, here, after]
  · have starts₁ := agree.starts₁
    have starts₂ := agree.starts₂
    rw [← same, startsLine_succ] at starts₁ starts₂
    rw [starts₁, starts₂]

theorem startsLine_iff (agree : AgreeTo limit src₁ src₂) {pos : Nat} (le : pos ≤ limit) :
    src₁.StartsLine pos ↔ src₂.StartsLine pos := by
  cases pos with
  | zero => simp
  | succ pos => rw [startsLine_succ, startsLine_succ, agree.endsLineAt_eq le]

theorem lineAt_eq (agree : AgreeTo limit src₁ src₂) (table₁ : src₁.Tabled) (table₂ : src₂.Tabled)
    {pos : Nat} (le : pos ≤ limit) : src₁.lineAt pos = src₂.lineAt pos := by
  induction pos with
  | zero => rw [lineAt_zero table₁, lineAt_zero table₂]
  | succ pos ih =>
    rw [lineAt_succ table₁, lineAt_succ table₂, agree.endsLineAt_eq le, ih (Nat.le_of_lt le)]

theorem lineStart_lineAt_eq (agree : AgreeTo limit src₁ src₂) (table₁ : src₁.Tabled)
    (table₂ : src₂.Tabled) {pos : Nat} (le : pos ≤ limit) :
    src₁.lineStart (src₁.lineAt pos) = src₂.lineStart (src₂.lineAt pos) := by
  induction pos with
  | zero => simp [lineAt_zero, table₁, table₂]
  | succ pos ih =>
    by_cases starts : src₁.StartsLine (pos + 1)
    · rw [lineStart_lineAt_of_startsLine table₁ starts, lineStart_lineAt_of_startsLine table₂
        ((agree.startsLine_iff le).1 starts)]
    · have starts₂ := mt (agree.startsLine_iff le).2 starts
      rw [startsLine_succ] at starts starts₂
      rw [lineAt_succ table₁, lineAt_succ table₂, if_neg starts, if_neg starts₂]
      exact ih (Nat.le_of_lt le)

/-- Text that begins before the limit and holds no line end in the class ends at one place. -/
theorem skipWhile_eq (agree : AgreeTo limit src₁ src₂) {inClass : Char → Bool}
    (inLine : ∀ c, inClass c = true → isLineEnd c = false) (stop pos : Nat) (less : pos < limit) :
    src₁.skipWhile inClass (min stop src₁.size) pos =
        src₂.skipWhile inClass (min stop src₂.size) pos ∧
      src₁.skipWhile inClass (min stop src₁.size) pos < limit := by
  have size₁ := le_size_of_startsLine agree.starts₁
  have size₂ := le_size_of_startsLine agree.starts₂
  fun_induction skipWhile src₁ inClass (min stop src₁.size) pos with
  | case1 pos before inside ih =>
    have next := agree.succ_lt less (inLine _ inside)
    have found := ih next
    refine ⟨?_, found.2⟩
    rw [found.1]
    conv => rhs; unfold skipWhile
    rw [if_pos (by omega), if_pos (by rw [← agree.charD less ' ']; exact inside)]
  | case2 pos before outside =>
    refine ⟨?_, less⟩
    unfold skipWhile
    rw [if_pos (by omega), if_neg (by rw [← agree.charD less ' ']; exact outside)]
  | case3 pos after =>
    refine ⟨?_, less⟩
    unfold skipWhile
    rw [if_neg (by omega)]

end AgreeTo

end Source

end FortranMarkup
