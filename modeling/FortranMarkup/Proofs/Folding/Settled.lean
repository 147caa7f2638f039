import FortranMarkup.Proofs.Folding.ConstructLevels
import FortranMarkup.Proofs.Folding.Repeat

/-!
# Comment levels are settled

Setting comment levels right after a pass over the whole document changes nothing, before whatever
line it is done (`Document.recheck_folded`). The pass takes the lines of a long comment run one
block further in after the first of them and back out after the last one
(`Document.levelAt_of_commentRun`). `CommentWindow.recheckLines` finds where a run begins among the
last three lines only, and writes the levels of the lines up to the current one. Both come to one
level for each line, as long as no comment line has a keyword on it.
-/

namespace FortranMarkup

theorem isSpace_of_toLower_eq {c : Char} (lower : c.toLower = 'c') : isSpace c = false := by
  cases letter : c.isAlpha with
  | true => exact isSpace_of_isNameChar (isNameChar_of_isAlpha letter)
  | false =>
    rw [toLower_of_not_isAlpha letter] at lower
    rw [lower]
    rfl

namespace Source

variable {src : Source} {form : SourceForm} {line column : Nat}

/-- In front of a comment mark there are only blanks. -/
theorem exists_mark_from {pos start : Nat}
    (comment : src.commentColumnFrom? form pos start = some column) :
    ∃ mark, pos ≤ mark ∧ mark < src.size ∧ isSpace (src.charD mark ' ') = false ∧
      ∀ before, pos ≤ before → before < mark → isBlank (src.charD before ' ') = true := by
  fun_induction commentColumnFrom? src form pos start with
  | case1 pos start inside c marked =>
    refine ⟨pos, Nat.le_refl _, inside, ?_, fun before low high => absurd high (Nat.not_lt.2 low)⟩
    rcases marked with marked | ⟨-, -, marked | marked⟩
    · exact (congrArg isSpace marked).trans rfl
    · exact isSpace_of_toLower_eq marked
    · exact (congrArg isSpace marked).trans rfl
  | case2 pos start inside c marked blank ih =>
    obtain ⟨mark, le, bound, visible, before⟩ := ih comment
    refine ⟨mark, Nat.le_of_succ_le le, bound, visible, ?_⟩
    intro other low high
    rcases Nat.lt_or_eq_of_le low with later | rfl
    · exact before other later high
    · exact blank
  | case3 => cases comment
  | case4 => cases comment

/-- A comment line shows its mark. -/
theorem exists_mark (table : src.Tabled) (more : line + 1 < src.lines)
    (comment : src.commentColumn? form line = some column) :
    ∃ mark, src.lineStart line ≤ mark ∧ mark + 1 < src.lineEnd line ∧
      isSpace (src.charD mark ' ') = false := by
  obtain ⟨mark, low, -, visible, blanks⟩ := exists_mark_from comment
  obtain ⟨stop, ends, on_line, next⟩ := exists_end_of_lt table more
  have line_end : src.lineEnd line = stop + 1 := next.symm
  have isEnd := isLineEnd_of_endsLineAt ' ' ends
  refine ⟨mark, low, ?_, visible⟩
  have before : ¬stop < mark := by
    intro less
    have from_start : src.lineStart line ≤ stop := on_line ▸ lineStart_lineAt_le table stop
    have inLine := isLineEnd_of_isBlank (blanks stop from_start less)
    rw [isEnd] at inLine
    cases inLine
  have other : mark ≠ stop := by
    rintro rfl
    rw [isLineEnd_of_not_isSpace visible] at isEnd
    cases isEnd
  omega

theorem lt_lines_of_lt_lineCount (table : src.Tabled)
    (terminated : endsLineAt src.bytes (src.size - 1) = true) (bound : line < src.lineCount) :
    line + 1 < src.lines := by
  have inside := lt_size_of_endsLineAt terminated
  have size : src.size - 1 + 1 = src.size := by omega
  have starts : src.StartsLine src.size := by
    have starts := startsLine_succ.2 terminated
    rwa [size] at starts
  have last : src.lineStart (src.lines - 1) = src.size := by
    rw [← lineAt_size table, Nat.add_sub_cancel]
    exact lineStart_lineAt_of_startsLine table starts
  rw [lineCount, if_pos ⟨by omega, last⟩] at bound
  omega

end Source

namespace Document

variable {doc : Document} {form : SourceForm} {outside : Style} {line first last column : Nat}

/-- No comment line has a byte with the style of keywords. -/
def CommentsQuiet (doc : Document) (form : SourceForm) : Prop :=
  ∀ line, doc.source.commentColumn? form line ≠ none → ∀ pos, pos < doc.source.lineEnd line →
    doc.source.lineStart line ≤ pos → doc.styleAt pos ≠ .keyword

theorem CommentsQuiet.rests (quiet : doc.CommentsQuiet form) (table : doc.source.Tabled)
    (more : line + 1 < doc.source.lines)
    (comment : doc.source.commentColumn? form line = some column) {start stop : Nat}
    (low : doc.source.lineStart line ≤ start) (le : start ≤ stop)
    (high : stop < doc.source.lineEnd line) :
    FoldPass.Rests (doc.foldStateAt form outside 0 start) (doc.foldStateAt form outside 0 stop) := by
  rw [← after_foldStateAt doc form outside (foldStart_zero_le table start) le]
  apply FoldPass.rests_after _ le
  · exact fun pos later before => not_ends_of_more table more (by omega) (by omega)
  · intro pos later before
    have other : doc.styleAt pos ≠ .keyword :=
      quiet line (by simp [comment]) pos (by omega) (by omega)
    rw [FoldPass.endsWord, foldPass, decide_eq_false other, Bool.false_and, Bool.false_and]

/-- What a comment line without keywords does to the levels. -/
theorem levels_of_comment (fits : doc.Fits)
    (folds : (doc.foldPass form outside 0).foldsComments = true) (quiet : doc.CommentsQuiet form)
    (more : line + 1 < doc.source.lines)
    (comment : doc.source.commentColumn? form line = some column) :
    (doc.folded form outside).levelAt line =
        FoldLevel.withFlags ⟨doc.levelBefore form outside line⟩
          ⟨false, 0 < doc.source.commentChange form line⟩ ∧
      doc.levelBefore form outside (line + 1) =
        doc.levelBefore form outside line + doc.source.commentChange form line := by
  have table := fits.table
  obtain ⟨stop, ends, on_line, next⟩ := Source.exists_end_of_lt table more
  have line_end : doc.source.lineEnd line = stop + 1 := next.symm
  have isEnd := Source.isLineEnd_of_endsLineAt ' ' ends
  have from_start : doc.source.lineStart line ≤ stop :=
    on_line ▸ Source.lineStart_lineAt_le table stop
  have rests : FoldPass.Rests _ (doc.foldStateAt form outside 0 stop) :=
    quiet.rests table more comment (Nat.le_refl _) from_start (by omega)
  have change := (foldStateAt_lineStart table form outside (Nat.lt_of_succ_lt more)).1
  -- The line shows its mark, and to the line end that stays so.
  have visible : (doc.foldStateAt form outside 0 stop).visible = true := by
    obtain ⟨mark, low, high, visible⟩ := Source.exists_mark table more comment
    have shown : (doc.foldStateAt form outside 0 (mark + 1)).visible = true := by
      rw [foldStateAt_succ (foldStart_zero_le table mark),
        FoldPass.step_of_visible _ (not_ends_of_more table more low high) visible]
    exact (quiet.rests table more comment (by omega) (by omega) (by omega)).visible shown
  have lineChange : (doc.foldPass form outside 0).lineChange (doc.foldStateAt form outside 0 stop) =
      doc.source.commentChange form line := by
    have tells := (alongside_self table form outside stop).tells₀ folds
      (FoldPass.Alongside.lt_lineCount_of_ends table ends)
    have change_of_window : (doc.foldStateAt form outside 0 stop).window.foldChange =
        doc.source.commentChange form line :=
      on_line ▸ CommentWindow.foldChange_of_tells tells
    rw [FoldPass.lineChange, if_pos folds, rests.change, change, change_of_window, Int.zero_add]
  constructor
  · rw [← on_line, levelAt_folded_of_ends fits form outside ends, FoldPass.lineLevel,
      FoldPass.opensLine, lineChange, visible, rests.level, on_line, Bool.and_true]
    rfl
  · obtain ⟨looked_level, looked_change⟩ := (doc.foldPass form outside 0).looked_frame_of_isLineEnd
      (doc.foldStateAt form outside 0 stop) isEnd
    have window := ((doc.foldPass form outside 0).looked_frame
      (doc.foldStateAt form outside 0 stop) stop).2.2.1
    rw [FoldPass.lineChange] at lineChange
    rw [levelBefore, ← next, foldStateAt_succ_of_ends (foldStart_zero_le table stop) ends,
      FoldPass.level_endLine, FoldPass.lineChange, looked_level, looked_change, window, lineChange,
      rests.level]
    rfl

/-- The levels of a document are settled where comments fold, no comment line has a keyword on it,
and the running level fits the level numbers. -/
structure Settled (doc : Document) (form : SourceForm) (outside : Style) : Prop where
  fits : doc.Fits
  folds : (doc.foldPass form outside 0).foldsComments = true
  quiet : doc.CommentsQuiet form
  levels : doc.LevelsFit form outside

namespace Settled

variable (settled : doc.Settled form outside)
include settled

/-- From its second line on, the lines of a long run are one block further in than the first. -/
theorem levelBefore_of_commentRun (run : doc.source.CommentRun form first last column)
    (low : first ≤ line) (high : line ≤ last) (more : line < doc.source.lines) :
    doc.levelBefore form outside line = doc.levelBefore form outside first +
      if first < line ∧ Source.LongRun first last then 1 else 0 := by
  induction low with
  | refl => rw [if_neg (fun both => Nat.lt_irrefl _ both.1), Int.add_zero]
  | @step line low ih =>
    have before := ih (by omega) (by omega)
    have next : doc.levelBefore form outside (line + 1) = _ :=
      (levels_of_comment settled.fits settled.folds settled.quiet more
        (run.inside line low (by omega))).2
    have change := run.commentChange_eq low (by omega)
    rw [if_neg (c := line = last ∧ _) (by omega), Int.sub_zero] at change
    rw [Nat.succ_eq_add_one, next, before, change, Int.add_assoc]
    congr 1
    by_cases long : Source.LongRun first last
    · rcases Nat.lt_or_eq_of_le low with later | rfl
      · simp [long, later, Nat.lt_succ_of_lt later, Nat.ne_of_gt later]
      · simp [long]
    · simp [long]

theorem levelAt_of_commentRun (run : doc.source.CommentRun form first last column)
    (low : first ≤ line) (high : line ≤ last) (more : line + 1 < doc.source.lines) :
    (doc.folded form outside).levelAt line = FoldLevel.withFlags
      ⟨doc.levelBefore form outside first +
        if first < line ∧ Source.LongRun first last then 1 else 0⟩
      ⟨false, line = first ∧ Source.LongRun first last⟩ := by
  have level : (doc.folded form outside).levelAt line = _ :=
    (levels_of_comment settled.fits settled.folds settled.quiet more (run.inside line low high)).1
  have opens : 0 < doc.source.commentChange form line ↔
      line = first ∧ Source.LongRun first last := by
    rw [run.commentChange_eq low high]
    unfold Source.LongRun minCommentRun
    split <;> split <;> omega
  rw [level, decide_eq_decide.2 opens,
    settled.levelBefore_of_commentRun run low high (Nat.lt_of_succ_lt more)]

/-- The first line of a run is as many blocks in as the pass has come to. -/
theorem levelAt_first (run : doc.source.CommentRun form first last column)
    (more : first + 1 < doc.source.lines) :
    (doc.folded form outside).levelAt first =
        FoldLevel.withFlags ⟨doc.levelBefore form outside first⟩ ⟨false, Source.LongRun first last⟩ ∧
      ((doc.folded form outside).levelAt first).number = doc.levelBefore form outside first := by
  have level := settled.levelAt_of_commentRun run (Nat.le_refl _) run.le more
  rw [if_neg (fun both => Nat.lt_irrefl _ both.1), Int.add_zero] at level
  simp only [true_and] at level
  obtain ⟨stop, ends, on_line, -⟩ := Source.exists_end_of_lt settled.fits.table more
  have from_start : doc.source.lineStart first ≤ stop :=
    on_line ▸ Source.lineStart_lineAt_le settled.fits.table stop
  have line_end := Source.lt_lineEnd_lineAt settled.fits.table (on_line.symm ▸ more)
  have rests : FoldPass.Rests _ (doc.foldStateAt form outside 0 stop) :=
    settled.quiet.rests settled.fits.table more (run.inside first (Nat.le_refl _) run.le)
      (Nat.le_refl _) from_start (by rwa [on_line] at line_end)
  obtain ⟨low, high⟩ := settled.levels stop ends
  rw [rests.level] at low high
  exact ⟨level, level ▸ FoldLevel.number_withFlags low high _⟩

/-- The later lines of a long run have no flags. -/
theorem levelAt_later (run : doc.source.CommentRun form first last column)
    (long : Source.LongRun first last) (low : first < line) (high : line ≤ last)
    (more : line + 1 < doc.source.lines) :
    (doc.folded form outside).levelAt line = ⟨doc.levelBefore form outside first + 1⟩ := by
  rw [settled.levelAt_of_commentRun run (Nat.le_of_lt low) high more, if_pos ⟨low, long⟩,
    decide_eq_false (fun both => Nat.ne_of_gt low both.1)]
  exact congrArg FoldLevel.mk (Int.add_zero _)

/-- The lines of a short run have one level, without flags. -/
theorem levelAt_short (run : doc.source.CommentRun form first last column)
    (short : ¬Source.LongRun first last) (low : first ≤ line) (high : line ≤ last)
    (more : line + 1 < doc.source.lines) :
    (doc.folded form outside).levelAt line = ⟨doc.levelBefore form outside first⟩ := by
  rw [settled.levelAt_of_commentRun run low high more, if_neg (fun both => short both.2),
    Int.add_zero, decide_eq_false (fun both => short both.2)]
  exact congrArg FoldLevel.mk (Int.add_zero _)

end Settled

end Document

/-! ## Setting right -/

namespace CommentWindow

variable {src : Source} {form : SourceForm} {line back first last column : Nat}

/-- The window that is built for a line sees the comments before it up to the nearest line that is
no comment. -/
theorem at?_around_ne_none (reach : back < windowReach)
    (comment : src.commentColumn? form line ≠ none)
    (next : 0 < back → src.commentColumn? form (line + 1) ≠ none) :
    (around src form (line + back)).at? (-back) ≠ none := by
  have tells := tells_around src form (line + back)
  match back, reach with
  | 0, _ =>
    rw [show (around src form (line + 0)).at? (-(0 : Nat)) = _ from tells.ahead 0 (by decide)]
    exact comment
  | 1, _ =>
    rw [show (around src form (line + 1)).at? (-(1 : Nat)) = _ from tells.first]
    exact comment
  | 2, _ =>
    have first : (around src form (line + 2)).at? (-1) ≠ none := by
      rw [tells.first]
      exact next (by decide)
    rw [show (around src form (line + 2)).at? (-(2 : Nat)) = _ from tells.second first]
    exact comment

theorem holds_of_begins (reach : back < windowReach)
    (begins : (around src form (line + back)).begins back = true) :
    Holds src form line (around src form (line + back)) back := by
  apply holds_around reach
  simp only [CommentWindow.begins, Bool.and_eq_true] at begins
  exact Option.isSome_iff_ne_none.1 begins.1

/-- Where a run begins so many lines before, it is a run from that line on. -/
theorem exists_run_of_begins (reach : back < windowReach)
    (begins : (around src form (line + back)).begins back = true) :
    ∃ last column, src.CommentRun form line last column := by
  obtain ⟨here, before⟩ := (holds_of_begins reach begins).begins_iff.1 begins
  obtain ⟨column, here⟩ := Option.ne_none_iff_exists'.1 here
  obtain ⟨first, last, low, high, run⟩ := Source.exists_commentRun here
  obtain rfl : line = first := by
    rcases Nat.lt_or_eq_of_le low with later | same
    · exact absurd ((run.columnBefore?_eq later high).trans here.symm) before
    · exact same.symm
  exact ⟨last, column, run⟩

theorem folds_iff_of_run (reach : back < windowReach)
    (begins : (around src form (line + back)).begins back = true)
    (run : src.CommentRun form line last column) :
    (around src form (line + back)).folds back = true ↔ Source.LongRun line last := by
  rw [(holds_of_begins reach begins).folds_iff, run.inside line (Nat.le_refl _) run.le]
  unfold Source.LongRun minCommentRun
  constructor
  · rintro ⟨one, two⟩
    have le := run.le
    have further : last ≠ line := by
      rintro rfl
      exact run.after one
    have furthest : last ≠ line + 1 := by
      rintro rfl
      exact run.after two
    omega
  · intro long
    exact ⟨run.inside _ (by omega) (by omega), run.inside _ (by omega) (by omega)⟩

/-- On a later line of a run, none begins. -/
theorem not_begins_of_run (reach : back < windowReach)
    (run : src.CommentRun form first last column) (low : first < line) (high : line ≤ last) :
    ¬(around src form (line + back)).begins back = true := by
  intro begins
  obtain ⟨_, _, run'⟩ := exists_run_of_begins reach begins
  have same := (run'.inside line (Nat.le_refl _) run'.le).symm.trans
    (run.inside line (Nat.le_of_lt low) high)
  exact run'.before ((run.columnBefore?_eq low high).trans same.symm)

/-- Where none begins on a comment line that the window knows of, the run of it has begun before. -/
theorem first_lt_of_not_begins (reach : back < windowReach)
    (comment : (around src form (line + back)).at? (-back) ≠ none)
    (notBegins : ¬(around src form (line + back)).begins back = true)
    (run : src.CommentRun form first last column) (low : first ≤ line) (high : line ≤ last) :
    first < line := by
  apply Nat.lt_of_le_of_ne low
  rintro rfl
  have here := run.inside first low high
  refine notBegins ((holds_around reach comment).begins_iff.2 ⟨by simp [here], ?_⟩)
  rw [here]
  exact run.before

end CommentWindow

namespace Document.Settled

variable {doc : Document} {form : SourceForm} {outside : Style} {line back : Nat}

/-- What is known of the run at hand: the lines of it that are still to be set right have the level
number of its first line, and it is too short to fold. -/
def RunAt (doc : Document) (form : SourceForm) (outside : Style) (next : Nat) (run? : Option Int) :
    Prop :=
  ∀ number, run? = some number → ∀ first last column, doc.source.CommentRun form first last column →
    first < next → next ≤ last →
      number = doc.levelBefore form outside first ∧ ¬Source.LongRun first last

variable (settled : doc.Settled form outside)
include settled

theorem overwrite_longRun {first last column : Nat}
    (run : doc.source.CommentRun form first last column) (long : Source.LongRun first last)
    (reach : back < windowReach) (more : first + back + 1 < doc.source.lines) :
    overwrite ((doc.folded form outside).levels.setIfInBounds first
        (FoldLevel.withFlags ⟨((doc.folded form outside).levelAt first).number⟩ ⟨false, true⟩))
      (first + 1)
      (.replicate back ⟨((doc.folded form outside).levelAt first).number + 1⟩) =
      (doc.folded form outside).levels := by
  obtain ⟨level, number⟩ := settled.levelAt_first run (by omega)
  rw [number, setIfInBounds_of_getD (level.trans (by rw [decide_eq_true long]))]
  apply Array.ext_getElem?
  intro i
  rw [getElem?_overwrite, List.length_replicate]
  split
  · rename_i within
    unfold Source.LongRun minCommentRun at long
    unfold windowReach at reach
    rw [List.getElem?_replicate, if_pos (by omega), getElem?_levels within.2.2,
      settled.levelAt_later run long (by omega) (by omega) (by omega)]
  · rfl

theorem recheckLines_eq (bound : line + 1 < doc.source.lines) {count : Nat}
    (le : count ≤ windowReach) {run? : Option Int}
    (runAt : RunAt doc form outside (line + 1 - count) run?) :
    (CommentWindow.around doc.source form line).recheckLines line (List.range count).reverse
      (doc.folded form outside).levels run? = (doc.folded form outside).levels := by
  induction count generalizing run? with
  | zero => rfl
  | succ back ih =>
    rw [List.range_succ, List.reverse_append, List.reverse_singleton, List.singleton_append]
    unfold CommentWindow.recheckLines
    dsimp only
    split
    · rename_i outside
      apply ih (Nat.le_of_succ_le le)
      intro number _ first _ _ _ low
      omega
    rename_i inside
    obtain ⟨current, rfl⟩ : ∃ current, line = current + back := ⟨line - back, by omega⟩
    have next : current + back + 1 - back = current + 1 := by omega
    have here : current + back + 1 - (back + 1) = current := by omega
    rw [here] at runAt
    rw [next] at ih
    rw [Nat.add_sub_cancel]
    rw [show (doc.folded form outside).levels[current]?.getD .base =
      (doc.folded form outside).levelAt current from rfl]
    split
    · rename_i begins
      obtain ⟨last, column, run⟩ := CommentWindow.exists_run_of_begins le begins
      have folds := CommentWindow.folds_iff_of_run le begins run
      obtain ⟨level, number⟩ := settled.levelAt_first run (by omega)
      split
      · rename_i isFolding
        exact settled.overwrite_longRun run (folds.1 isFolding) le bound
      · rename_i isShort
        have short := mt folds.2 isShort
        have same : (doc.folded form outside).levels.setIfInBounds current
            ⟨((doc.folded form outside).levelAt current).number⟩ = _ :=
          setIfInBounds_of_getD ((settled.levelAt_short run short (Nat.le_refl _) run.le
            (by omega)).trans (congrArg FoldLevel.mk number.symm))
        rw [same]
        apply ih (Nat.le_of_succ_le le)
        intro _ isNumber first last' column' run' low high
        cases isNumber
        obtain rfl : first = current := by
          rcases Nat.lt_or_eq_of_le (Nat.le_of_lt_succ low) with later | same
          · exact absurd begins
              (CommentWindow.not_begins_of_run le run' later (Nat.le_of_succ_le high))
          · exact same
        exact ⟨number, mt (CommentWindow.folds_iff_of_run le begins run').2 isShort⟩
    · rename_i notBegins
      split
      · rename_i number column isComment
        have comment := Option.ne_none_iff_exists'.2 ⟨column, isComment⟩
        have here := (CommentWindow.holds_around le comment).here.symm.trans isComment
        obtain ⟨first, last, low, high, run⟩ := Source.exists_commentRun here
        have later := CommentWindow.first_lt_of_not_begins le comment notBegins run low high
        obtain ⟨rfl, short⟩ := runAt number rfl first last column run later high
        rw [setIfInBounds_of_getD (settled.levelAt_short run short low high (by omega))]
        apply ih (Nat.le_of_succ_le le)
        rintro _ ⟨⟩ first' last' column' run' low' high'
        have later' := CommentWindow.first_lt_of_not_begins le comment notBegins run'
          (Nat.le_of_lt_succ low') (Nat.le_of_succ_le high')
        exact runAt _ rfl first' last' column' run' later' (Nat.le_of_succ_le high')
      · rename_i other
        apply ih (Nat.le_of_succ_le le)
        intro number isNumber first last column run low high
        -- A run that reaches the next line is seen here, and then its level is at hand.
        have here := run.inside current (Nat.le_of_lt_succ low) (Nat.le_of_succ_le high)
        have after := run.inside (current + 1) (Nat.le_of_lt low) high
        have comment := CommentWindow.at?_around_ne_none le
          (by rw [here]; exact Option.some_ne_none _)
          (fun _ => by rw [after]; exact Option.some_ne_none _)
        obtain ⟨column, isComment⟩ := Option.ne_none_iff_exists'.1 comment
        exact (other number column isNumber isComment).elim

end Document.Settled

namespace Document

variable {doc : Document} {form : SourceForm} {outside : Style}

/-- Setting the levels of the comments before a line right changes none of the levels that a pass
over the whole document leaves. -/
theorem recheck_folded (settled : doc.Settled form outside)
    (terminated : endsLineAt doc.source.bytes (doc.size - 1) = true) (line : Nat)
    (bound : line < doc.source.lineCount) :
    (CommentWindow.around doc.source form line).recheck (doc.folded form outside).levels line =
      (doc.folded form outside).levels :=
  settled.recheckLines_eq
    (Source.lt_lines_of_lt_lineCount settled.fits.table terminated bound) (Nat.le_refl _) nofun

theorem commentsQuiet_of_lineCount
    (quiet : ∀ line, line < doc.source.lineCount → doc.source.commentColumn? form line ≠ none →
      ∀ pos, pos < doc.source.lineEnd line → doc.source.lineStart line ≤ pos →
        doc.styleAt pos ≠ .keyword) : doc.CommentsQuiet form := by
  intro line comment
  obtain ⟨column, here⟩ := Option.ne_none_iff_exists'.1 comment
  exact quiet line (Source.lt_lineCount_of_commentColumn? here) comment

/-- A loop that begins with four comments in a row, styled. -/
def commentedLoop : Document :=
  let bytes : Array UInt8 :=
    #[100, 111, 10, 33, 97, 10, 33, 98, 10, 33, 99, 10, 33, 100, 10, 101, 110, 100, 100, 111, 10]
  (ofBytes bytes).styleRange .fortran .free 0 21 .plain

/-- The run folds, and setting right the levels up to its third line finds them as they should be.
-/
theorem recheck_folded_commentedLoop :
    (commentedLoop.Settled .free .plain ∧ 3 < commentedLoop.source.lineCount) ∧
      (CommentWindow.around commentedLoop.source .free 3).folds 2 = true ∧
      (CommentWindow.around commentedLoop.source .free 3).recheck
          (commentedLoop.folded .free .plain).levels 3 =
        (commentedLoop.folded .free .plain).levels := by
  have settled : commentedLoop.Settled .free .plain :=
    ⟨⟨rfl, by decide +kernel, by decide +kernel⟩, by decide +kernel,
      commentsQuiet_of_lineCount (by decide +kernel), levelsFit_of_size (by decide +kernel)⟩
  have bound : 3 < commentedLoop.source.lineCount := by decide +kernel
  exact ⟨⟨settled, bound⟩, by decide +kernel,
    recheck_folded settled (by decide +kernel) 3 bound⟩

end Document

end FortranMarkup
