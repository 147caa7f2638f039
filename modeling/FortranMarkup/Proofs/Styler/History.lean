import FortranMarkup.Proofs.Folding.Ranges
import FortranMarkup.Proofs.Styler.Session

/-!
# Histories of documents

An `Operation` is anything that can be asked of a document or of a styler that works on it. Whatever
operations follow each other, the parts of the document stay in step (`Document.InStep`), so no
operation takes a range or a difference that does not exist (`Operation.performAll?_ofBytes`).
-/

namespace FortranMarkup

theorem overwrite_append {α : Type} (values : Array α) (first : Nat) (news later : List α) :
    overwrite values first (news ++ later) =
      overwrite (overwrite values first news) (first + news.length) later := by
  induction news generalizing values first with
  | nil => rfl
  | cons value rest ih =>
    rw [List.cons_append, overwrite, ih, overwrite, List.length_cons, Nat.add_assoc,
      Nat.add_comm rest.length]

namespace Document

variable {doc : Document}

/-! ## Styling within range -/

/-- Paints spans in turn, within range. -/
def paintSpans? (doc : Document) (spans : List Span) : Option Document :=
  spans.foldlM (fun doc span => doc.paint? span.start span.stop span.style) doc

theorem paintSpans?_eq (doc : Document) {start : Nat} {painted : List Span}
    (joined : Span.Joined start painted) (inside : Span.edge start painted ≤ doc.styles.size) :
    doc.paintSpans? painted.reverse =
      some { doc with styles := overwrite doc.styles start (Span.shades painted) } := by
  induction painted with
  | nil => rfl
  | cons last before ih =>
    obtain ⟨meets, filled, rest⟩ := joined
    have length := Span.length_shades rest
    have within : last.stop ≤ doc.styles.size := inside
    have painted := ih rest (by omega)
    rw [paintSpans?] at painted ⊢
    rw [List.reverse_cons, List.foldlM_append, painted, Option.bind_eq_bind, Option.bind_some,
      List.foldlM_cons, paint?_eq, paint]
    simp only [size_overwrite, Nat.min_eq_left within]
    rw [Span.shades_cons, overwrite_append, length, ← meets]
    rfl

/-- `styleRange` within range. -/
def styleRange? (doc : Document) (words : Dictionary) (form : SourceForm) (start length : Nat)
    (outside : Style) : Option Document := do
  let stop := min (start + length) doc.size
  let restart := doc.restartPosition form (min start stop)
  let length ← sub? stop restart
  let walked := (Scan.fresh doc.source restart (doc.source.walkEnd (restart + length))
    (doc.styleBefore restart outside)).run words form
  doc.paintSpans? walked.cursor.paint.painted.reverse

theorem styleRange?_eq (fits : doc.Fits) (words : Dictionary) (form : SourceForm)
    (start length : Nat) (outside : Style) :
    doc.styleRange? words form start length outside =
      some (doc.styleRange words form start length outside) := by
  unfold styleRange? styleRange
  dsimp only
  generalize stopEq : min (start + length) doc.size = stop
  have restart := restartPosition_le form fits.table (min start stop)
  generalize doc.restartPosition form (min start stop) = first at restart ⊢
  have le : first ≤ stop := by omega
  have begun : (Scan.fresh doc.source first (doc.source.walkEnd stop)
      (doc.styleBefore first outside)).cursor.Sound :=
    Cursor.sound_atStart _ (by change first ≤ doc.size; omega)
  have ended := Cursor.sound_paint ((Scan.leads_run words form _).sound begun)
  have within := ended.segment_le_size
  rw [Cursor.segment_eq_edge] at within
  rw [sub?_of_le le, Option.bind_eq_bind, Option.bind_some, Nat.add_sub_cancel' le,
    paintSpans?_eq doc ended.joined (fits.styles ▸ within)]
  rfl

end Document

/-! ## Stylers within range -/

namespace Styler

variable {doc : Document}

/-- `refresh` within range. -/
def refresh? (styler : Styler) (doc : Document) (start stop : Nat) : Option Document := do
  let before := doc.styleBefore start .plain
  let length ← sub? stop start
  let styled ← doc.styleRange? styler.words styler.form start length before
  let folded ← styled.foldRange? styler.form start length before
  some (folded.setStyledTo stop)

/-- `ensure` within range. -/
def ensure? (styler : Styler) (doc : Document) (pos : Nat) : Option Document :=
  let stop := min (doc.source.lineEnd (doc.source.lineAt pos)) doc.size
  let start := doc.source.lineStart (doc.source.lineAt doc.styledTo)
  if stop ≤ start then some doc else styler.refresh? doc start stop

/-- `spans` within range. -/
def spans? (styler : Styler) (doc : Document) (line : Nat) : Option (List Span × Document) :=
  let start := doc.source.lineStart line
  let stop := doc.source.lineEnd line
  if stop ≤ start then some ([], doc)
  else do
    let styled ← styler.ensure? doc start
    let styles ← slice? styled.styles start stop
    some (Span.runs start styles.toList, styled)

theorem refresh?_eq (fits : doc.Fits) (styler : Styler) {start stop : Nat} (le : start ≤ stop) :
    styler.refresh? doc start stop = some (styler.refresh doc start stop) := by
  unfold refresh?
  dsimp only
  rw [sub?_of_le le, Option.bind_eq_bind, Option.bind_some, Document.styleRange?_eq fits,
    Option.bind_eq_bind, Option.bind_some,
    Document.foldRange?_eq (Document.fits_styleRange fits _ _ _ _ _).table]
  rfl

theorem ensure?_eq (fits : doc.Fits) (styler : Styler) (pos : Nat) :
    styler.ensure? doc pos = some (styler.ensure doc pos) := by
  unfold ensure? ensure
  dsimp only
  split
  · rfl
  · exact refresh?_eq fits styler (by omega)

theorem spans?_eq (fits : doc.Fits) (styler : Styler) (line : Nat) :
    styler.spans? doc line = some (styler.spans doc line) := by
  unfold spans? spans
  dsimp only
  split
  · rfl
  · have styles := (fits_ensure fits styler (doc.source.lineStart line)).styles
    have inside : doc.source.lineEnd line ≤
        (styler.ensure doc (doc.source.lineStart line)).styles.size := by
      rw [styles, Document.size, source_ensure]
      exact Source.lineEnd_le_size fits.table line
    rw [ensure?_eq fits, Option.bind_eq_bind, Option.bind_some, slice?_of_le (by omega) inside]
    rfl

end Styler

/-! ## What stays in step -/

namespace Document

variable {doc : Document}

/-- The parts of a document belong together: there is a style for each byte and a level for each
line, the lines start where the text says, and what is current lies in the text. -/
structure InStep (doc : Document) : Prop where
  styles : doc.styles.size = doc.size
  starts : doc.source.starts = lineStarts doc.source.bytes
  first : doc.source.starts[0]? = some 0
  ascending : doc.source.starts.toList.Pairwise (· < ·)
  within : ∀ start ∈ doc.source.starts, start ≤ doc.size
  levels : doc.levels.size = doc.source.starts.size
  styledTo : doc.styledTo ≤ doc.size

theorem InStep.fits (inStep : doc.InStep) : doc.Fits :=
  ⟨inStep.starts, inStep.styles, inStep.levels⟩

theorem Fits.inStep (fits : doc.Fits) (styledTo : doc.styledTo ≤ doc.size) : doc.InStep where
  styles := fits.styles
  starts := fits.table
  first := by
    rw [fits.table]
    rfl
  ascending := Source.ascending_starts fits.table
  within := fun _ mem => Source.le_size_of_startsLine ((Source.mem_starts_iff fits.table).1 mem)
  levels := fits.levels
  styledTo := styledTo

theorem inStep_ofBytes (bytes : Array UInt8) : (ofBytes bytes).InStep :=
  (fits_ofBytes bytes).inStep (Nat.zero_le _)

theorem EditedFrom.inStep {pos : Nat} {edited : Document} (step : EditedFrom pos doc edited) :
    edited.InStep :=
  step.fits.inStep (step.styledTo ▸ Nat.le_trans (Nat.min_le_right _ _) step.within)

namespace InStep

variable (inStep : doc.InStep)
include inStep

theorem insert (pos : Nat) (bytes : Array UInt8) : (doc.insert pos bytes).InStep :=
  (editedFrom_insert inStep.fits pos bytes).inStep

theorem delete (first stop : Nat) : (doc.delete first stop).InStep := by
  rcases delete_eq_or_editedFrom inStep.fits first stop with same | ⟨pos, edited⟩
  · rw [same]
    exact inStep
  · exact edited.inStep

theorem paint (first stop : Nat) (style : Style) : (doc.paint first stop style).InStep :=
  { inStep with styles := (size_overwrite _ _ _).trans inStep.styles }

theorem setLevel (line : Nat) (level : FoldLevel) : (doc.setLevel line level).InStep :=
  { inStep with levels := Array.size_setIfInBounds.trans inStep.levels }

theorem setStyledTo (pos : Nat) : (doc.setStyledTo pos).InStep :=
  { inStep with styledTo := Nat.min_le_right _ _ }

theorem styleRange (words : Dictionary) (form : SourceForm) (start length : Nat) (outside : Style) :
    (doc.styleRange words form start length outside).InStep :=
  { inStep with styles := (size_overwrite _ _ _).trans inStep.styles }

theorem foldRange (form : SourceForm) (start length : Nat) (outside : Style) :
    (doc.foldRange form start length outside).InStep :=
  { inStep with
    levels := (size_levels_foldRange doc form start length outside).trans inStep.levels }

theorem ensure (styler : Styler) (pos : Nat) : (styler.ensure doc pos).InStep := by
  unfold Styler.ensure
  dsimp only
  split
  · exact inStep
  · exact ((inStep.styleRange _ _ _ _ _).foldRange _ _ _ _).setStyledTo _

end InStep

end Document

/-! ## Operations -/

/-- Anything that can be asked of a document, or of a styler that works on it. -/
inductive Operation
  | insert (pos : Nat) (bytes : Array UInt8)
  | delete (first stop : Nat)
  | replace (first stop : Nat) (bytes : Array UInt8)
  | paint (first stop : Nat) (style : Style)
  | setLevel (line : Nat) (level : FoldLevel)
  | setStyledTo (pos : Nat)
  | setProperty (key : String) (value : Int)
  | styleRange (words : Dictionary) (form : SourceForm) (start length : Nat) (outside : Style)
  | foldRange (form : SourceForm) (start length : Nat) (outside : Style)
  | setForm (styler : Styler) (form : SourceForm)
  | ensure (styler : Styler) (pos : Nat)
  | restyle (styler : Styler)
  | spans (styler : Styler) (line : Nat)

namespace Operation

/-- The document after an operation. -/
def perform (doc : Document) : Operation → Document
  | insert pos bytes => doc.insert pos bytes
  | delete first stop => doc.delete first stop
  | replace first stop bytes => doc.replace first stop bytes
  | paint first stop style => doc.paint first stop style
  | setLevel line level => doc.setLevel line level
  | setStyledTo pos => doc.setStyledTo pos
  | setProperty key value => doc.setProperty key value
  | styleRange words form start length outside => doc.styleRange words form start length outside
  | foldRange form start length outside => doc.foldRange form start length outside
  | setForm styler form => (styler.setForm doc form).2
  | ensure styler pos => styler.ensure doc pos
  | restyle styler => styler.restyle doc
  | spans styler line => (styler.spans doc line).2

/-- `perform` within range. Operations that take neither ranges nor differences are as they are. -/
def perform? (doc : Document) : Operation → Option Document
  | insert pos bytes => doc.insert? pos bytes
  | delete first stop => doc.delete? first stop
  | replace first stop bytes => doc.replace? first stop bytes
  | paint first stop style => doc.paint? first stop style
  | setLevel line level => some (doc.setLevel line level)
  | setStyledTo pos => some (doc.setStyledTo pos)
  | setProperty key value => some (doc.setProperty key value)
  | styleRange words form start length outside => doc.styleRange? words form start length outside
  | foldRange form start length outside => doc.foldRange? form start length outside
  | setForm styler form => some (styler.setForm doc form).2
  | ensure styler pos => styler.ensure? doc pos
  | restyle styler => styler.ensure? (doc.setStyledTo 0) doc.size
  | spans styler line => (styler.spans? doc line).map (·.2)

/-- The document after some operations. -/
def performAll (doc : Document) (operations : List Operation) : Document :=
  operations.foldl perform doc

/-- `performAll` within range. -/
def performAll? (doc : Document) (operations : List Operation) : Option Document :=
  operations.foldlM perform? doc

variable {doc : Document}

theorem inStep_perform (inStep : doc.InStep) (operation : Operation) :
    (operation.perform doc).InStep := by
  cases operation with
  | insert pos bytes => exact inStep.insert pos bytes
  | delete first stop => exact inStep.delete first stop
  | replace first stop bytes => exact (inStep.delete first stop).insert _ bytes
  | paint first stop style => exact inStep.paint first stop style
  | setLevel line level => exact inStep.setLevel line level
  | setStyledTo pos => exact inStep.setStyledTo pos
  | setProperty key value => exact { inStep with }
  | styleRange words form start length outside =>
    exact inStep.styleRange words form start length outside
  | foldRange form start length outside => exact inStep.foldRange form start length outside
  | setForm styler form =>
    rw [perform, Styler.setForm]
    split
    · exact inStep
    · exact inStep.setStyledTo 0
  | ensure styler pos => exact inStep.ensure styler pos
  | restyle styler => exact (inStep.setStyledTo 0).ensure styler _
  | spans styler line =>
    rw [perform, Styler.spans]
    dsimp only
    split
    · exact inStep
    · exact inStep.ensure styler _

theorem perform?_eq (inStep : doc.InStep) (operation : Operation) :
    operation.perform? doc = some (operation.perform doc) := by
  have fits := inStep.fits
  cases operation with
  | insert pos bytes => exact Document.insert?_eq fits pos bytes
  | delete first stop => exact Document.delete?_eq fits first stop
  | replace first stop bytes => exact Document.replace?_eq fits first stop bytes
  | paint first stop style => exact Document.paint?_eq doc first stop style
  | setLevel | setStyledTo | setProperty | setForm => rfl
  | styleRange words form start length outside =>
    exact Document.styleRange?_eq fits words form start length outside
  | foldRange form start length outside =>
    exact Document.foldRange?_eq fits.table form start length outside
  | ensure styler pos => exact Styler.ensure?_eq fits styler pos
  | restyle styler => exact Styler.ensure?_eq (Document.fits_setStyledTo fits 0) styler _
  | spans styler line =>
    rw [perform?, Styler.spans?_eq fits]
    rfl

theorem performAll?_eq (inStep : doc.InStep) (operations : List Operation) :
    performAll? doc operations = some (performAll doc operations) ∧
      (performAll doc operations).InStep := by
  induction operations generalizing doc with
  | nil => exact ⟨rfl, inStep⟩
  | cons operation rest ih =>
    rw [performAll?, List.foldlM_cons, perform?_eq inStep, Option.bind_eq_bind, Option.bind_some]
    exact ih (inStep_perform inStep operation)

/-- Whatever is asked of a document, its parts stay in step, and no operation on the way takes a
range or a difference that does not exist. -/
theorem performAll?_ofBytes (bytes : Array UInt8) (operations : List Operation) :
    performAll? (.ofBytes bytes) operations = some (performAll (.ofBytes bytes) operations) ∧
      (performAll (.ofBytes bytes) operations).InStep :=
  performAll?_eq (Document.inStep_ofBytes bytes) operations

end Operation

end FortranMarkup
