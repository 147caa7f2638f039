import FortranMarkup.Proofs.Folding.Repeat

/-!
# What a fold pass writes

A fold pass sets the comment levels before its first line right and then emits level after level,
each with the number that its line counter shows (`FoldPass.emissions`). The result is that of
writing these levels one by one (`Document.foldRange_eq_withEmitted`). The counter is right at every
byte, so each line that ends within the pass is emitted once, and no other level changes
(`Document.foldRange_writes`). Where a pass begins with the first line, the levels that it finds have
no effect on those that it emits (`Document.levelAt_foldRange_of_firstLine`).
-/

namespace FortranMarkup

namespace FoldPass

variable {pass : FoldPass} {s : FoldState}

/-- The lines that a pass emits at some positions, each with its level. -/
def emissions (pass : FoldPass) (s : FoldState) : List Nat → List (Nat × FoldLevel)
  | [] => []
  | pos :: rest =>
    let looked := pass.looked s pos
    if endsLineAt pass.doc.source.bytes pos then
      (pass.line looked, pass.lineLevel looked) :: pass.emissions (pass.step s pos) rest
    else pass.emissions (pass.step s pos) rest

theorem line_looked (pass : FoldPass) (s : FoldState) (pos : Nat) :
    pass.line (pass.looked s pos) = pass.line s := by
  simp [line, pass.looked_frame s pos]

/-- Of the emissions, the state keeps the levels. -/
theorem emitted_foldl (pass : FoldPass) (s : FoldState) (positions : List Nat) :
    (positions.foldl pass.step s).emitted.toList =
      s.emitted.toList ++ (pass.emissions s positions).map Prod.snd := by
  induction positions generalizing s with
  | nil => simp [emissions]
  | cons pos rest ih =>
    rw [List.foldl_cons, ih, emitted_step, emissions]
    split <;> simp

/-- The emitted lines follow each other without gaps. -/
theorem lines_emissions (pass : FoldPass) (s : FoldState) (positions : List Nat) :
    (pass.emissions s positions).map Prod.fst =
      List.range' (pass.line s) (pass.emissions s positions).length := by
  induction positions generalizing s with
  | nil => rfl
  | cons pos rest ih =>
    have next := ih (pass.step s pos)
    rw [line_step] at next
    rw [emissions]
    split
    · rename_i ends
      rw [if_pos ends] at next
      simp [next, line_looked, List.range'_succ]
    · rename_i inLine
      rwa [if_neg inLine] at next

/-- The emitted lines are those whose last byte is among the positions, by the table of lines. -/
theorem lines_emissions_range (table : pass.doc.source.Tabled) {first : Nat}
    (begun : pass.line s = pass.doc.source.lineAt first) (count : Nat) :
    (pass.emissions s (List.range' first count)).map Prod.fst =
      ((List.range' first count).filter (endsLineAt pass.doc.source.bytes)).map
        pass.doc.source.lineAt := by
  induction count generalizing s first with
  | zero => rfl
  | succ count ih =>
    have next : pass.line (pass.step s first) = pass.doc.source.lineAt (first + 1) := by
      rw [line_step, Source.lineAt_succ table, begun]
    have rest := ih next
    rw [List.range'_succ, emissions]
    split
    · rename_i ends
      simp [rest, ends, line_looked, begun]
    · rename_i inLine
      simp [rest, inLine]

theorem SameText.lineLevel_eq {p₀ p₁ : FoldPass} (same : SameText p₀ p₁) (s : FoldState) :
    p₀.lineLevel s = p₁.lineLevel s := by
  have change : p₀.lineChange s = p₁.lineChange s := by
    rw [lineChange, lineChange, same.foldsComments_eq]
  rw [lineLevel, lineLevel, opensLine, opensLine, change, same.marksWhite_eq]

theorem SameText.emissions_eq {p₀ p₁ : FoldPass} (same : SameText p₀ p₁)
    (firstLine : p₀.firstLine = p₁.firstLine) (s : FoldState) (positions : List Nat) :
    p₀.emissions s positions = p₁.emissions s positions := by
  induction positions generalizing s with
  | nil => rfl
  | cons pos rest ih =>
    simp only [emissions, same.source, same.looked_eq firstLine, same.step_eq firstLine,
      same.lineLevel_eq, line, firstLine, ih]

end FoldPass

namespace Document

variable {doc : Document} {form : SourceForm} {outside : Style} {start length : Nat}

/-! ## Writing levels one by one -/

/-- The document in which each of some lines is given its level, in turn. -/
def withEmitted (doc : Document) (emissions : List (Nat × FoldLevel)) : Document :=
  emissions.foldl (fun doc emission => doc.setLevel emission.1 emission.2) doc

theorem withEmitted_cons (doc : Document) (line : Nat) (level : FoldLevel)
    (rest : List (Nat × FoldLevel)) :
    doc.withEmitted ((line, level) :: rest) = (doc.setLevel line level).withEmitted rest := rfl

theorem withEmitted_eq (doc : Document) {first : Nat} {emissions : List (Nat × FoldLevel)}
    (lines : emissions.map Prod.fst = List.range' first emissions.length) :
    doc.withEmitted emissions =
      { doc with levels := overwrite doc.levels first (emissions.map Prod.snd) } := by
  induction emissions generalizing doc first with
  | nil => rfl
  | cons emission rest ih =>
    obtain ⟨line, level⟩ := emission
    rw [List.map_cons, List.length_cons, List.range'_succ, List.cons.injEq] at lines
    obtain ⟨rfl, lines⟩ := lines
    rw [withEmitted_cons, ih _ lines]
    rfl

theorem levelAt_setLevel (doc : Document) (line : Nat) (level : FoldLevel) (other : Nat) :
    (doc.setLevel line level).levelAt other =
      if other = line ∧ line < doc.levels.size then level else doc.levelAt other := by
  rw [levelAt, setLevel, Array.getElem?_setIfInBounds]
  by_cases same : line = other
  · subst same
    by_cases inside : line < doc.levels.size
    · simp [inside]
    · simp [inside, levelAt]
  · simp [same, Ne.symm same, levelAt]

theorem levelAt_withEmitted_of_not_mem {emissions : List (Nat × FoldLevel)} {line : Nat}
    (silent : line ∉ emissions.map Prod.fst) :
    (doc.withEmitted emissions).levelAt line = doc.levelAt line := by
  induction emissions generalizing doc with
  | nil => rfl
  | cons emission rest ih =>
    rw [List.map_cons, List.mem_cons, not_or] at silent
    rw [withEmitted_cons, ih silent.2, levelAt_setLevel, if_neg fun same => silent.1 same.1]

theorem levelAt_withEmitted_of_mem {emissions : List (Nat × FoldLevel)} {line : Nat}
    {level : FoldLevel} (once : (emissions.map Prod.fst).Nodup) (emitted : (line, level) ∈ emissions)
    (inside : line < doc.levels.size) : (doc.withEmitted emissions).levelAt line = level := by
  induction emissions generalizing doc with
  | nil => cases emitted
  | cons emission rest ih =>
    rw [List.map_cons, List.nodup_cons] at once
    rw [withEmitted_cons]
    cases emitted with
    | head => rw [levelAt_withEmitted_of_not_mem once.1, levelAt_setLevel, if_pos ⟨rfl, inside⟩]
    | tail _ later =>
      exact ih once.2 later (by rwa [setLevel, Array.size_setIfInBounds])

/-! ## The emissions of a pass over a range -/

/-- The state of the pass over a range before a position. -/
def foldStateOver (doc : Document) (form : SourceForm) (outside : Style) (start length pos : Nat) :
    FoldState :=
  (doc.foldPassOver form outside start length).after (doc.foldBegun form outside start)
    (doc.foldStart start) pos

/-- The lines that the pass over a range emits, each with its level. -/
def emissions (doc : Document) (form : SourceForm) (outside : Style) (start length : Nat) :
    List (Nat × FoldLevel) :=
  (doc.foldPassOver form outside start length).emissions (doc.foldBegun form outside start)
    (List.range' (doc.foldStart start) (min (start + length) doc.size - doc.foldStart start))

theorem nodup_emissions (doc : Document) (form : SourceForm) (outside : Style)
    (start length : Nat) : ((doc.emissions form outside start length).map Prod.fst).Nodup := by
  rw [emissions, FoldPass.lines_emissions]
  exact List.nodup_range'

theorem mem_lines_emissions (table : doc.source.Tabled) {line : Nat} :
    line ∈ (doc.emissions form outside start length).map Prod.fst ↔
      ∃ pos, doc.foldStart start ≤ pos ∧ pos < min (start + length) doc.size ∧
        endsLineAt doc.source.bytes pos = true ∧ doc.source.lineAt pos = line := by
  have lines := (doc.foldPassOver form outside start length).lines_emissions_range table
    (line_foldBegun table form outside start)
    (min (start + length) doc.size - doc.foldStart start)
  rw [emissions, lines]
  simp only [List.mem_map, List.mem_filter, List.mem_range'_1, foldPassOver]
  constructor
  · rintro ⟨pos, ⟨⟨low, high⟩, ends⟩, same⟩
    exact ⟨pos, low, by omega, ends, same⟩
  · rintro ⟨pos, low, high, ends, same⟩
    exact ⟨pos, ⟨⟨low, by omega⟩, ends⟩, same⟩

/-- A fold pass writes the levels that it emits one by one, after those of the comments before. -/
theorem foldRange_eq_withEmitted (doc : Document) (form : SourceForm) (outside : Style)
    (start length : Nat) :
    doc.foldRange form start length outside =
      (doc.rechecked form outside start).withEmitted
        (doc.emissions form outside start length) := by
  have lines : (doc.emissions form outside start length).map Prod.fst = List.range' _ _ :=
    (doc.foldPassOver form outside start length).lines_emissions
      (doc.foldBegun form outside start) _
  have levels : doc.levelsGiven form outside start length =
      (doc.emissions form outside start length).map Prod.snd :=
    (doc.foldPassOver form outside start length).emitted_foldl _ _
  rw [withEmitted_eq _ lines, ← levels]
  rfl

theorem levelAt_rechecked_of_outer {line : Nat}
    (outer : line + 2 < doc.source.lineAt start - 1 ∨ doc.source.lineAt start - 1 < line) :
    (doc.rechecked form outside start).levelAt line = doc.levelAt line := by
  have unchanged : (doc.rechecked form outside start).levels[line]? = doc.levels[line]? := by
    unfold rechecked
    dsimp only
    split
    · apply CommentWindow.getElem?_recheckLines
      refine outer.symm.imp id fun before back near _ => ?_
      simp [windowReach] at near
      omega
    · rfl
  rw [levelAt, unchanged, levelAt]

theorem levelAt_foldRange_of_silent {line : Nat}
    (outer : line + 2 < doc.source.lineAt start - 1 ∨ doc.source.lineAt start - 1 < line)
    (silent : line ∉ (doc.emissions form outside start length).map Prod.fst) :
    (doc.foldRange form start length outside).levelAt line = doc.levelAt line := by
  rw [foldRange_eq_withEmitted, levelAt_withEmitted_of_not_mem silent,
    levelAt_rechecked_of_outer outer]

theorem levelAt_foldRange_of_emitted (fits : doc.Fits) {line : Nat} {level : FoldLevel}
    (emitted : (line, level) ∈ doc.emissions form outside start length) :
    (doc.foldRange form start length outside).levelAt line = level := by
  have inside : line < doc.levels.size := by
    obtain ⟨pos, -, -, -, rfl⟩ :=
      (mem_lines_emissions fits.table).1 (List.mem_map_of_mem (f := Prod.fst) emitted)
    rw [fits.levels]
    exact Source.lineAt_lt_lines fits.table pos
  rw [foldRange_eq_withEmitted]
  exact levelAt_withEmitted_of_mem (nodup_emissions _ _ _ _ _) emitted
    (by rwa [size_levels_rechecked])

/-- A fold pass changes levels only. Those that it can change are the levels of its first line, of
the two lines before it, and of lines that end before the pass does. On its way, the line counter of
the pass agrees with the table of lines. What it emits is all that it writes after it has set the
comments before right, and each line that ends between the first line of the pass and its stop is
emitted once. -/
theorem foldRange_writes (fits : doc.Fits) (form : SourceForm) (outside : Style)
    (start length : Nat) :
    let first := doc.source.lineAt start - 1
    let stop := min (start + length) doc.size
    let folded := doc.foldRange form start length outside
    let pass := doc.foldPassOver form outside start length
    let emitted := (doc.emissions form outside start length).map Prod.fst
    (folded.source = doc.source ∧ folded.styles = doc.styles ∧
      folded.properties = doc.properties ∧ folded.styledTo = doc.styledTo ∧
      folded.levels.size = doc.levels.size) ∧
    (∀ line, folded.levelAt line ≠ doc.levelAt line →
      first - 2 ≤ line ∧ (line ≤ first ∨ ∃ pos, pos < stop ∧
        endsLineAt doc.source.bytes pos = true ∧ doc.source.lineAt pos = line)) ∧
    (∀ pos, doc.source.lineStart first ≤ pos → pos < stop →
      pass.line (doc.foldStateOver form outside start length pos) = doc.source.lineAt pos) ∧
    folded = (doc.rechecked form outside start).withEmitted
      (doc.emissions form outside start length) ∧
    emitted.Nodup ∧
    ∀ line, line ∈ emitted ↔ ∃ pos, doc.source.lineStart first ≤ pos ∧ pos < stop ∧
      endsLineAt doc.source.bytes pos = true ∧ doc.source.lineAt pos = line := by
  intro first stop folded pass emitted
  have emits (line : Nat) : line ∈ emitted ↔ _ := mem_lines_emissions fits.table
  have bound : first < doc.source.lines :=
    Nat.lt_of_le_of_lt (Nat.sub_le _ _) (Source.lineAt_lt_lines fits.table start)
  refine ⟨⟨rfl, rfl, rfl, rfl, size_levels_foldRange _ _ _ _ _⟩, ?_, ?_,
    foldRange_eq_withEmitted _ _ _ _ _, nodup_emissions _ _ _ _ _, emits⟩
  · intro line changed
    by_cases mem : line ∈ emitted
    · obtain ⟨pos, low, before, ends, here⟩ := (emits line).1 mem
      have le : first ≤ line := here ▸ (Source.lineStart_le_iff fits.table bound pos).1 low
      exact ⟨Nat.le_trans (Nat.sub_le first 2) le, .inr ⟨pos, before, ends, here⟩⟩
    · have inner : ¬(line + 2 < first ∨ first < line) :=
        fun outer => changed (levelAt_foldRange_of_silent outer mem)
      exact ⟨by omega, .inl (by omega)⟩
  · intro pos low _
    exact FoldPass.line_after fits.table (line_foldBegun fits.table form outside start) low

/-- Three comment lines between statements, with line ends of all kinds. -/
def remarks : Document :=
  ofBytes #[120, 10, 33, 97, 13, 10, 33, 98, 13, 10, 33, 99, 13, 120, 10]

/-- A pass over the second statement without its line end. -/
theorem foldRange_writes_remarks :
    (∀ line, (remarks.foldRange .free 13 1 .plain).levelAt line ≠ remarks.levelAt line →
      1 ≤ line ∧ (line ≤ 3 ∨ ∃ pos, pos < 14 ∧
        endsLineAt remarks.source.bytes pos = true ∧ remarks.source.lineAt pos = line)) ∧
    (∀ pos, 10 ≤ pos → pos < 14 →
      (remarks.foldPassOver .free .plain 13 1).line
        (remarks.foldStateOver .free .plain 13 1 pos) = remarks.source.lineAt pos) ∧
    remarks.foldRange .free 13 1 .plain =
      (remarks.rechecked .free .plain 13).withEmitted (remarks.emissions .free .plain 13 1) ∧
    ((remarks.emissions .free .plain 13 1).map Prod.fst).Nodup ∧
    ∀ line, line ∈ (remarks.emissions .free .plain 13 1).map Prod.fst ↔
      ∃ pos, 10 ≤ pos ∧ pos < 14 ∧ endsLineAt remarks.source.bytes pos = true ∧
        remarks.source.lineAt pos = line := by
  have fits : remarks.Fits := fits_ofBytes _
  have writes := foldRange_writes fits .free .plain 13 1
  have first : remarks.source.lineAt 13 - 1 = 3 := by decide +kernel
  have begins : remarks.source.lineStart 3 = 10 := by decide +kernel
  have stop : min (13 + 1) remarks.size = 14 := by decide +kernel
  dsimp only at writes
  rw [first, begins, stop] at writes
  exact writes.2

/-! ## Passes from the first line -/

variable {doc₁ doc₂ : Document}

theorem emissions_of_firstLine (source : doc₁.source = doc₂.source)
    (styles : doc₁.styles = doc₂.styles) (properties : doc₁.properties = doc₂.properties)
    (first : doc₁.source.lineAt start = 0) :
    doc₁.emissions form outside start length = doc₂.emissions form outside start length := by
  have same : (doc₁.foldPassOver form outside start length).SameText
      (doc₂.foldPassOver form outside start length) := by
    refine ⟨source, styles, properties, rfl, rfl, ?_⟩
    simp only [foldPassOver, size, source]
  have firstLine : (doc₁.foldPassOver form outside start length).firstLine =
      (doc₂.foldPassOver form outside start length).firstLine := by
    simp only [foldPassOver, source]
  have begun : doc₁.foldBegun form outside start = doc₂.foldBegun form outside start := by
    apply foldBegun_congr source properties
    rw [foldLevel, foldLevel, ← source, if_pos first, if_pos first]
  rw [emissions, emissions, same.emissions_eq firstLine, begun]
  simp only [foldStart, size, source]

/-- A pass that begins with the first line emits the same levels whatever levels it finds. -/
theorem levelAt_foldRange_of_firstLine (fits₁ : doc₁.Fits) (fits₂ : doc₂.Fits)
    (source : doc₁.source = doc₂.source) (styles : doc₁.styles = doc₂.styles)
    (properties : doc₁.properties = doc₂.properties) (form : SourceForm) (outside : Style)
    {start : Nat} (length : Nat) {pos : Nat} (first : doc₁.source.lineAt start = 0)
    (before : pos < min (start + length) doc₁.size)
    (ends : endsLineAt doc₁.source.bytes pos = true) :
    (doc₁.foldRange form start length outside).levelAt (doc₁.source.lineAt pos) =
      (doc₂.foldRange form start length outside).levelAt (doc₁.source.lineAt pos) := by
  have from_top : doc₁.foldStart start ≤ pos := by
    simp [foldStart, first, Source.lineStart_zero fits₁.table]
  have emitted : doc₁.source.lineAt pos ∈
      (doc₁.emissions form outside start length).map Prod.fst :=
    (mem_lines_emissions fits₁.table).2 ⟨pos, from_top, before, ends, rfl⟩
  obtain ⟨⟨line, level⟩, mem, here⟩ := List.mem_map.1 emitted
  rw [← here, levelAt_foldRange_of_emitted fits₁ mem]
  rw [emissions_of_firstLine source styles properties first] at mem
  rw [levelAt_foldRange_of_emitted fits₂ mem]

/-- A branch of a construct on the first line, which stands one block further out. -/
def branchOnTop : Document :=
  (ofBytes #[101, 108, 115, 101, 10, 120, 13, 10]).styleRange .fortran .free 0 8 .plain

theorem levelAt_foldRange_of_firstLine_branchOnTop :
    (branchOnTop.foldRange .free 2 9 .plain).levelAt 0 =
      (foldRange { branchOnTop with levels := #[⟨0x3FF⟩, ⟨7⟩, ⟨0x2405⟩] } .free 2 9
        .plain).levelAt 0 := by
  have fits₁ : branchOnTop.Fits := ⟨rfl, by decide +kernel, by decide +kernel⟩
  have fits₂ : Fits { branchOnTop with levels := #[⟨0x3FF⟩, ⟨7⟩, ⟨0x2405⟩] } :=
    ⟨rfl, by decide +kernel, by decide +kernel⟩
  have first : branchOnTop.source.lineAt 2 = 0 := by decide +kernel
  have before : 4 < min (2 + 9) branchOnTop.size := by decide +kernel
  have ends : endsLineAt branchOnTop.source.bytes 4 = true := by decide +kernel
  have line : branchOnTop.source.lineAt 4 = 0 := by decide +kernel
  have same :=
    levelAt_foldRange_of_firstLine fits₁ fits₂ rfl rfl rfl .free .plain 9 first before ends
  rwa [line] at same

end Document

end FortranMarkup
