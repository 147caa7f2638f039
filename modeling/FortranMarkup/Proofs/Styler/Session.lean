import FortranMarkup.Proofs.Document.Edit
import FortranMarkup.Proofs.Folding.Frame
import FortranMarkup.Proofs.Styling.Consistency
import FortranMarkup.Styler

/-!
# Sessions

A styler works on a document that is edited meanwhile. What it has styled stays right: the styles
before the line of the position up to which they are current are those that a fresh document with
the text gets (`Styler.Current`). Every request keeps that invariant, so it holds in each session
that requests lead to (`Session.fresh_of_reached`).

Texts have no carriage returns here. An edit between a carriage return and a line feed moves a line
start that lies before it.
-/

namespace FortranMarkup

/-! ## Lines of a document -/

namespace Source

variable {src : Source}

theorem lineEnd_le_size (table : src.Tabled) (line : Nat) : src.lineEnd line ≤ src.size :=
  lineStart_le_size table (line + 1)

theorem ends_lineEnd (table : src.Tabled) (line : Nat) :
    src.StartsLine (src.lineEnd line) ∨ src.lineEnd line = src.size := by
  by_cases more : line + 1 < src.lines
  · exact .inl (startsLine_lineStart table more)
  · exact .inr (lineStart_of_le (Nat.le_of_not_lt more))

theorem le_lineEnd_lineAt (table : src.Tabled) {pos : Nat} (inside : pos ≤ src.size) :
    pos ≤ src.lineEnd (src.lineAt pos) := by
  by_cases more : src.lineAt pos + 1 < src.lines
  · exact Nat.le_of_lt (lt_lineEnd_lineAt table more)
  · rw [lineEnd, lineStart_of_le (Nat.le_of_not_lt more)]
    exact inside

theorem lineEnd_lineAt_size (table : src.Tabled) : src.lineEnd (src.lineAt src.size) = src.size :=
  Nat.le_antisymm (lineEnd_le_size table _) (le_lineEnd_lineAt table (Nat.le_refl _))

theorem le_lineStart_lineAt (table : src.Tabled) {first pos : Nat} (starts : src.StartsLine first)
    (le : first ≤ pos) : first ≤ src.lineStart (src.lineAt pos) := by
  rw [← lineStart_lineAt_of_startsLine table starts]
  exact lineStart_mono table (lineAt_mono table le)

end Source

namespace Styler

variable {styler : Styler} {doc : Document}

/-- The style that the styler gives to a position of a fresh document with a text. -/
def freshStyle (styler : Styler) (src : Source) (pos : Nat) : Style :=
  src.freshStyle styler.words styler.form .plain pos

/-- The start of the line of the position up to which a document is current. -/
def currentStart (doc : Document) : Nat :=
  doc.source.lineStart (doc.source.lineAt doc.styledTo)

/-- The end of the line of a position. -/
def lineEndOf (doc : Document) (pos : Nat) : Nat :=
  doc.source.lineEnd (doc.source.lineAt pos)

/-- Making a document current up to a position does not cut off the way back to the line with which
the pass begins, if there is a pass. -/
def Uncut (styler : Styler) (doc : Document) (pos : Nat) : Prop :=
  currentStart doc < lineEndOf doc pos →
    doc.previous? styler.form (doc.restartLine styler.form (currentStart doc)) = none

/-! ## One pass -/

@[simp] theorem source_refresh (styler : Styler) (doc : Document) (start stop : Nat) :
    (styler.refresh doc start stop).source = doc.source := rfl

theorem styledTo_refresh (styler : Styler) (start : Nat) {stop : Nat} (inside : stop ≤ doc.size) :
    (styler.refresh doc start stop).styledTo = stop :=
  Nat.min_eq_left inside

theorem fits_refresh (fits : doc.Fits) (start stop : Nat) :
    (styler.refresh doc start stop).Fits := by
  have styled := Document.fits_styleRange fits styler.words styler.form start (stop - start)
    (doc.styleBefore start .plain)
  have folded := Document.fits_foldRange styled styler.form start (stop - start)
    (doc.styleBefore start .plain)
  exact Document.fits_setStyledTo folded stop

theorem fits_ensure (fits : doc.Fits) (styler : Styler) (pos : Nat) :
    (styler.ensure doc pos).Fits := by
  unfold ensure
  dsimp only
  split
  · exact fits
  · exact fits_refresh fits _ _

@[simp] theorem source_ensure (styler : Styler) (doc : Document) (pos : Nat) :
    (styler.ensure doc pos).source = doc.source := by
  unfold ensure
  dsimp only
  split <;> rfl

theorem styleAt_refresh (styler : Styler) (doc : Document) (start stop pos : Nat) :
    (styler.refresh doc start stop).styleAt pos =
      (doc.styleRange styler.words styler.form start (stop - start)
        (doc.styleBefore start .plain)).styleAt pos := rfl

theorem ensure_eq (table : doc.source.Tabled) (pos : Nat) :
    styler.ensure doc pos =
      if lineEndOf doc pos ≤ currentStart doc then doc
      else styler.refresh doc (currentStart doc) (lineEndOf doc pos) := by
  have stop : min (lineEndOf doc pos) doc.size = lineEndOf doc pos :=
    Nat.min_eq_left (Source.lineEnd_le_size table _)
  unfold lineEndOf at stop
  rw [ensure, stop]
  rfl

/-! ## The invariant -/

/-- The styles before the line up to which a document is current are fresh. -/
structure Current (styler : Styler) (doc : Document) : Prop where
  fits : doc.Fits
  crFree : CrFree doc.source.bytes
  styledTo_le : doc.styledTo ≤ doc.size
  held : ∀ pos, pos < currentStart doc → doc.styleAt pos = styler.freshStyle doc.source pos

theorem currentStart_of_zero (table : doc.source.Tabled) (zero : doc.styledTo = 0) :
    currentStart doc = 0 := by
  rw [currentStart, zero, Source.lineAt_zero table, Source.lineStart_zero table]

theorem current_of_zero (styler : Styler) (fits : doc.Fits) (crFree : CrFree doc.source.bytes)
    (zero : doc.styledTo = 0) : styler.Current doc where
  fits := fits
  crFree := crFree
  styledTo_le := zero ▸ Nat.zero_le _
  held := by
    intro pos before
    rw [currentStart_of_zero fits.table zero] at before
    exact absurd before (Nat.not_lt_zero pos)

theorem current_ofBytes (styler : Styler) {bytes : Array UInt8} (crFree : CrFree bytes) :
    styler.Current (.ofBytes bytes) :=
  current_of_zero styler (Document.fits_ofBytes bytes) crFree rfl

theorem current_setStyledTo (styler : Styler) (fits : doc.Fits) (crFree : CrFree doc.source.bytes) :
    styler.Current (doc.setStyledTo 0) :=
  current_of_zero styler (Document.fits_setStyledTo fits 0) crFree (Nat.zero_min _)

theorem Current.edited {pos : Nat} {edited : Document} (current : styler.Current doc)
    (step : Document.EditedFrom pos doc edited) (crFree : CrFree edited.source.bytes) :
    styler.Current edited where
  fits := step.fits
  crFree := crFree
  styledTo_le := by
    have := step.within
    rw [step.styledTo]
    omega
  held := by
    intro i before
    have table := current.fits.table
    have table' := step.fits.table
    have starts : edited.source.StartsLine (currentStart edited) :=
      Source.startsLine_lineStart table' (Source.lineAt_lt_lines table' _)
    have start_le : currentStart edited ≤ edited.styledTo := Source.lineStart_lineAt_le table' _
    rw [step.styledTo] at start_le
    have agree : doc.source.AgreeTo (currentStart edited) edited.source :=
      Source.agreeTo_of_crFree current.crFree crFree step.bytes (by omega) starts
    have already : currentStart edited ≤ currentStart doc :=
      Source.le_lineStart_lineAt table agree.starts₁ (by omega)
    rw [← step.styles i (by omega), current.held i (Nat.lt_of_lt_of_le before already), freshStyle,
      freshStyle, Source.freshStyle_of_agree table table' agree _ _ _ before]

/-- Making a current document current up to the line of a position. -/
structure Ensured (styler : Styler) (doc : Document) (pos : Nat) (ensured : Document) : Prop where
  source : ensured.source = doc.source
  current : styler.Current ensured
  styles : ∀ i, i < lineEndOf doc pos → ensured.styleAt i = styler.freshStyle doc.source i
  styledTo : ensured.styledTo = max doc.styledTo (lineEndOf doc pos)

theorem le_lineEndOf_of_lt (current : styler.Current doc) {pos : Nat}
    (less : currentStart doc < lineEndOf doc pos) : doc.styledTo ≤ lineEndOf doc pos := by
  have table := current.fits.table
  have lines : doc.source.lineAt doc.styledTo ≤ doc.source.lineAt pos := by
    apply Nat.le_of_not_lt
    intro earlier
    have le : doc.source.lineEnd (doc.source.lineAt pos) ≤
        doc.source.lineStart (doc.source.lineAt doc.styledTo) :=
      Source.lineStart_mono table (Nat.succ_le_of_lt earlier)
    exact Nat.not_lt_of_le le less
  exact Nat.le_trans (Source.le_lineEnd_lineAt table current.styledTo_le)
    (Source.lineStart_mono table (Nat.succ_le_succ lines))

theorem Current.ensure (current : styler.Current doc) {pos : Nat} (uncut : styler.Uncut doc pos) :
    styler.Ensured doc pos (styler.ensure doc pos) := by
  have table := current.fits.table
  have start_le : currentStart doc ≤ doc.styledTo := Source.lineStart_lineAt_le table _
  rw [ensure_eq table]
  by_cases done : lineEndOf doc pos ≤ currentStart doc
  · rw [if_pos done]
    refine ⟨rfl, current, fun i before => current.held i (by omega), ?_⟩
    omega
  · rw [if_neg done]
    have less := Nat.lt_of_not_le done
    have ends := Source.ends_lineEnd table (doc.source.lineAt pos)
    have inside : lineEndOf doc pos ≤ doc.size := Source.lineEnd_le_size table _
    have fresh (i : Nat) : styler.freshStyle doc.source i =
        doc.source.freshStyle styler.words styler.form
          (doc.styleBefore (currentStart doc) .plain) i := by
      unfold freshStyle Source.freshStyle
      rw [Source.allStyles_outside table]
    have styles : ∀ i, i < lineEndOf doc pos →
        (styler.refresh doc (currentStart doc) (lineEndOf doc pos)).styleAt i =
          styler.freshStyle doc.source i := by
      intro i before
      rw [styleAt_refresh, fresh]
      refine Document.styleAt_styleRange_of_lt current.fits (Nat.le_of_lt less) ends ?_ (uncut less)
        before
      intro earlier before
      rw [current.held earlier before, fresh]
    have styledTo := styledTo_refresh styler (currentStart doc) inside
    refine ⟨rfl, ⟨fits_refresh current.fits _ _, current.crFree, ?_, ?_⟩, styles, ?_⟩
    · rw [styledTo]
      exact inside
    · intro i before
      refine styles i (Nat.lt_of_lt_of_le before ?_)
      have le : currentStart (styler.refresh doc (currentStart doc) (lineEndOf doc pos)) ≤
          (styler.refresh doc (currentStart doc) (lineEndOf doc pos)).styledTo :=
        Source.lineStart_lineAt_le table _
      rwa [styledTo] at le
    · rw [styledTo]
      have := le_lineEndOf_of_lt current less
      omega

theorem uncut_of_zero (styler : Styler) (table : doc.source.Tabled) (zero : doc.styledTo = 0)
    (pos : Nat) :
    styler.Uncut doc pos := by
  intro _
  rw [currentStart_of_zero table zero, Document.restartLine_zero table, Document.previous?_zero]

theorem ensured_restyle (styler : Styler) (fits : doc.Fits) (crFree : CrFree doc.source.bytes) :
    styler.Ensured (doc.setStyledTo 0) doc.size (styler.restyle doc) :=
  (current_setStyledTo styler fits crFree).ensure
    (uncut_of_zero styler (Document.fits_setStyledTo fits 0).table (Nat.zero_min _) _)

theorem restyle_eq (styler : Styler) (table : doc.source.Tabled) (some : 0 < doc.size) :
    styler.restyle doc = styler.refresh (doc.setStyledTo 0) 0 doc.size := by
  have table : (doc.setStyledTo 0).source.Tabled := table
  have start : currentStart (doc.setStyledTo 0) = 0 :=
    currentStart_of_zero table (Nat.zero_min _)
  have stop : lineEndOf (doc.setStyledTo 0) doc.size = doc.size :=
    Source.lineEnd_lineAt_size table
  rw [restyle, ensure_eq table, start, stop, if_neg (Nat.not_le_of_lt some)]

theorem styleAt_restyle (fits : doc.Fits) (crFree : CrFree doc.source.bytes) (pos : Nat) :
    (styler.restyle doc).styleAt pos = styler.freshStyle doc.source pos := by
  have ensured := ensured_restyle styler fits crFree
  have all : lineEndOf (doc.setStyledTo 0) doc.size = doc.size :=
    Source.lineEnd_lineAt_size fits.table
  by_cases inside : pos < doc.size
  · exact ensured.styles pos (all.symm ▸ inside)
  · have past := Nat.le_of_not_lt inside
    have past' : (styler.restyle doc).size ≤ pos := by
      rw [Document.size, ensured.source]
      exact past
    rw [Document.styleAt_of_le ensured.current.fits past', freshStyle,
      Source.freshStyle_of_le past]

/-! ## Lines shown -/

theorem Current.spans (current : styler.Current doc) {line : Nat}
    (uncut : doc.source.lineStart line < doc.source.lineEnd line →
      styler.Uncut doc (doc.source.lineStart line)) :
    styler.Current (styler.spans doc line).2 ∧
      (styler.spans doc line).2.source = doc.source ∧
      (styler.spans doc line).1 = Span.runs (doc.source.lineStart line)
        ((List.range' (doc.source.lineStart line)
          (doc.source.lineEnd line - doc.source.lineStart line)).map
            (styler.freshStyle doc.source)) := by
  have table := current.fits.table
  by_cases empty : doc.source.lineEnd line ≤ doc.source.lineStart line
  · have none : styler.spans doc line = ([], doc) := by rw [Styler.spans, if_pos empty]
    rw [none, Nat.sub_eq_zero_of_le empty]
    exact ⟨current, rfl, rfl⟩
  · have less := Nat.lt_of_not_le empty
    have shown : styler.spans doc line =
        (Span.runs (doc.source.lineStart line)
          ((styler.ensure doc (doc.source.lineStart line)).stylesIn (doc.source.lineStart line)
            (doc.source.lineEnd line)), styler.ensure doc (doc.source.lineStart line)) := by
      rw [Styler.spans, if_neg empty]
    have bound : line < doc.source.lines := by
      apply Nat.lt_of_not_le
      intro past
      rw [Source.lineStart_of_le past] at less
      exact Nat.not_lt_of_le (Source.lineEnd_le_size table line) less
    have line_end : lineEndOf doc (doc.source.lineStart line) = doc.source.lineEnd line := by
      rw [lineEndOf, Source.lineAt_lineStart table bound]
    have ensured := current.ensure (uncut less)
    have inside : doc.source.lineEnd line ≤
        (styler.ensure doc (doc.source.lineStart line)).size := by
      rw [Document.size, ensured.source]
      exact Source.lineEnd_le_size table line
    rw [shown]
    refine ⟨ensured.current, ensured.source, ?_⟩
    dsimp only
    rw [Document.stylesIn_eq_map ensured.current.fits inside]
    refine congrArg (Span.runs _) (List.map_congr_left ?_)
    intro pos mem
    rw [List.mem_range'_1] at mem
    exact ensured.styles pos (by omega)

end Styler

/-! ## Requests -/

/-- A styler at work on a document. -/
structure Session where
  styler : Styler
  doc : Document

/-- What can be asked of a session. -/
inductive Request where
  | insert (pos : Nat) (bytes : Array UInt8)
  | delete (first stop : Nat)
  | replace (first stop : Nat) (bytes : Array UInt8)
  | ensure (pos : Nat)
  | restyle
  | spans (line : Nat)
  | setForm (form : SourceForm)

/-- The bytes that a request brings in have no carriage returns. -/
def Request.CrFree : Request → Prop
  | .insert _ bytes | .replace _ _ bytes => FortranMarkup.CrFree bytes
  | .delete .. | .ensure _ | .restyle | .spans _ | .setForm _ => True

namespace Session

/-- Carries out a request. -/
def perform (s : Session) : Request → Session
  | .insert pos bytes => { s with doc := s.doc.insert pos bytes }
  | .delete first stop => { s with doc := s.doc.delete first stop }
  | .replace first stop bytes => { s with doc := s.doc.replace first stop bytes }
  | .ensure pos => { s with doc := s.styler.ensure s.doc pos }
  | .restyle => { s with doc := s.styler.restyle s.doc }
  | .spans line => { s with doc := (s.styler.spans s.doc line).2 }
  | .setForm form =>
    let (styler, doc) := s.styler.setForm s.doc form
    ⟨styler, doc⟩

/-- A request does not cut off the way back to the line with which its pass begins. -/
def Uncut (s : Session) : Request → Prop
  | .ensure pos => s.styler.Uncut s.doc pos
  | .spans line =>
    s.doc.source.lineStart line < s.doc.source.lineEnd line →
      s.styler.Uncut s.doc (s.doc.source.lineStart line)
  | .insert .. | .delete .. | .replace .. | .restyle | .setForm _ => True

/-- A session to which requests lead that begin with a text and a styler. -/
inductive Reached (styler : Styler) (bytes : Array UInt8) : Session → Prop
  | opened : Reached styler bytes ⟨styler, .ofBytes bytes⟩
  | performed {s : Session} {request : Request} (before : Reached styler bytes s)
      (crFree : request.CrFree) (uncut : s.Uncut request) :
      Reached styler bytes (s.perform request)

theorem current_delete {styler : Styler} {doc : Document} (current : styler.Current doc)
    (first stop : Nat) : styler.Current (doc.delete first stop) := by
  rcases Document.delete_eq_or_editedFrom current.fits first stop with same | ⟨pos, edited⟩
  · rwa [same]
  · exact current.edited edited (Document.crFree_delete current.crFree first stop)

theorem current_insert {styler : Styler} {doc : Document} (current : styler.Current doc)
    (pos : Nat) {bytes : Array UInt8} (crFree : CrFree bytes) :
    styler.Current (doc.insert pos bytes) :=
  current.edited (Document.editedFrom_insert current.fits pos bytes)
    (Document.crFree_insert current.crFree pos crFree)

/-- Every request keeps what is current. -/
theorem current_perform {s : Session} (current : s.styler.Current s.doc) {request : Request}
    (crFree : request.CrFree) (uncut : s.Uncut request) :
    (s.perform request).styler.Current (s.perform request).doc := by
  cases request with
  | insert pos bytes => exact current_insert current pos crFree
  | delete first stop => exact current_delete current first stop
  | replace first stop bytes => exact current_insert (current_delete current first stop) _ crFree
  | ensure pos => exact (current.ensure uncut).current
  | restyle => exact (Styler.ensured_restyle s.styler current.fits current.crFree).current
  | spans line => exact (current.spans uncut).1
  | setForm form =>
    simp only [perform, Styler.setForm]
    split
    · exact current
    · exact Styler.current_setStyledTo _ current.fits current.crFree

theorem current_of_reached {styler : Styler} {bytes : Array UInt8} {s : Session}
    (crFree : CrFree bytes) (reached : Reached styler bytes s) : s.styler.Current s.doc := by
  induction reached with
  | opened => exact Styler.current_ofBytes styler crFree
  | performed _ crFree uncut ih => exact current_perform ih crFree uncut

/-- In every session, what is styled has the styles of a fresh document with the text: before the
line up to which the document is current, up to the end of a line that is made current, and on a
line that is shown. -/
theorem fresh_of_reached {styler : Styler} {bytes : Array UInt8} {s : Session}
    (crFree : CrFree bytes) (reached : Reached styler bytes s) :
    (∀ pos, pos < s.doc.source.lineStart (s.doc.source.lineAt s.doc.styledTo) →
      s.doc.styleAt pos = (s.styler.restyle (.ofBytes s.doc.source.bytes)).styleAt pos) ∧
    (∀ pos, s.Uncut (.ensure pos) →
      (∀ i, i < s.doc.source.lineEnd (s.doc.source.lineAt pos) →
        (s.perform (.ensure pos)).doc.styleAt i =
          (s.styler.restyle (.ofBytes s.doc.source.bytes)).styleAt i) ∧
      (s.perform (.ensure pos)).doc.styledTo =
        max s.doc.styledTo (s.doc.source.lineEnd (s.doc.source.lineAt pos))) ∧
    ∀ line, s.Uncut (.spans line) →
      (s.styler.spans s.doc line).1 = Span.runs (s.doc.source.lineStart line)
        ((s.styler.restyle (.ofBytes s.doc.source.bytes)).stylesIn (s.doc.source.lineStart line)
          (s.doc.source.lineEnd line)) := by
  have current := current_of_reached crFree reached
  have table := current.fits.table
  have fresh_fits := Document.fits_ofBytes s.doc.source.bytes
  have fresh (pos : Nat) : (s.styler.restyle (.ofBytes s.doc.source.bytes)).styleAt pos =
      s.styler.freshStyle s.doc.source pos := by
    rw [Styler.styleAt_restyle fresh_fits current.crFree]
    exact congrArg (s.styler.freshStyle · pos) (Source.ofBytes_bytes table)
  refine ⟨?_, ?_, ?_⟩
  · intro pos before
    rw [fresh]
    exact current.held pos before
  · intro pos uncut
    have ensured := current.ensure uncut
    refine ⟨?_, ensured.styledTo⟩
    intro i before
    rw [fresh]
    exact ensured.styles i before
  · intro line uncut
    have restyled := Styler.ensured_restyle s.styler fresh_fits current.crFree
    have inside : s.doc.source.lineEnd line ≤
        (s.styler.restyle (.ofBytes s.doc.source.bytes)).size := by
      rw [Document.size, restyled.source]
      exact Source.lineEnd_le_size table line
    rw [(current.spans uncut).2.2, Document.stylesIn_eq_map restyled.current.fits inside]
    refine congrArg (Span.runs _) (List.map_congr_left ?_)
    intro pos _
    exact (fresh pos).symm

/-- A session that styles a loop, puts a literal that goes on inside it, and shows its first line.
-/
def loopSession : Session :=
  let text : Array UInt8 := #[100, 111, 10, 101, 110, 100, 32, 100, 111, 10]
  let literal : Array UInt8 := #[120, 61, 39, 38, 10, 38, 39, 10]
  (((Session.mk { form := .free } (.ofBytes text)).perform (.ensure 9)).perform
    (.insert 3 literal)).perform (.spans 0)

theorem reached_loopSession :
    Reached { form := .free } #[100, 111, 10, 101, 110, 100, 32, 100, 111, 10] loopSession := by
  have begun : Reached { form := .free } #[100, 111, 10, 101, 110, 100, 32, 100, 111, 10] _ :=
    .opened
  have styled : Reached _ _ (Session.perform _ (.ensure 9)) :=
    begun.performed trivial (fun _ => by decide +kernel)
  have inserted : Reached _ _ (Session.perform _ (.insert 3 #[120, 61, 39, 38, 10, 38, 39, 10])) :=
    styled.performed (show CrFree _ by decide) trivial
  have shown : Reached _ _ (Session.perform _ (.spans 0)) :=
    inserted.performed trivial (fun _ _ => by decide +kernel)
  exact shown

theorem fresh_loopSession :
    (∀ i, i < 11 → (loopSession.perform (.ensure 9)).doc.styleAt i =
      (loopSession.styler.restyle (.ofBytes loopSession.doc.source.bytes)).styleAt i) ∧
    (loopSession.perform (.ensure 9)).doc.styledTo = 11 := by
  have uncut : loopSession.Uncut (.ensure 9) := fun _ => by decide +kernel
  have ensured := (fresh_of_reached (by decide) reached_loopSession).2.1 9 uncut
  have line_end : loopSession.doc.source.lineEnd (loopSession.doc.source.lineAt 9) = 11 := by
    decide +kernel
  have styledTo : loopSession.doc.styledTo = 3 := by decide +kernel
  rw [line_end, styledTo] at ensured
  exact ensured

end Session

end FortranMarkup
