import FortranMarkup.Proofs.Folding.Construct
import FortranMarkup.Proofs.Styler.Session
import FortranMarkup.Proofs.Tokens.Reading

/-!
# Levels of lines of tokens

A fold pass over styled tokens reads what they tell (`Document.readingAt_tokens`), so each line of a
text of tokens tells its level and that of the next one, on its own (`FoldEffect.levels`). These are
the levels of a restyled document (`Styler.levels_restyle_lines`).
-/

namespace FortranMarkup

namespace Document

variable {doc : Document} {pos : Nat} {words : Dictionary}

/-! ## The effect of a keyword -/

/-- Tokens, each in its style, stand at a position, and the line ends after them. -/
structure Shows (doc : Document) (words : Dictionary) (pos : Nat) (tokens : List Token) : Prop where
  spells : doc.source.Spells pos (tokens.flatMap Token.chars ++ ['\n'])
  shades : doc.Shades pos (tokens.flatMap (Token.styles words))
  proper : ∀ token ∈ tokens, token.Proper

theorem Shows.later {token : Token} {rest : List Token} (shows : doc.Shows words pos (token :: rest)) :
    doc.Shows words (pos + token.chars.length) rest := by
  obtain ⟨spells, shades, proper⟩ := shows
  rw [List.flatMap_cons, List.append_assoc, Source.spells_append] at spells
  rw [List.flatMap_cons, shades_append, Token.styles, List.length_replicate] at shades
  exact ⟨spells.2, shades.2, fun other mem => proper other (List.mem_cons_of_mem _ mem)⟩

theorem Shows.first {token : Token} {rest : List Token} (shows : doc.Shows words pos (token :: rest)) :
    doc.source.Spells pos token.chars := by
  have spells := shows.spells
  rw [List.flatMap_cons, List.append_assoc, Source.spells_append] at spells
  exact spells.1

theorem Shows.styleAt {token : Token} {rest : List Token}
    (shows : doc.Shows words pos (token :: rest)) {i : Nat} (less : i < token.chars.length) :
    doc.styleAt (pos + i) = token.style words := by
  have shades := shows.shades
  rw [List.flatMap_cons, shades_append] at shades
  exact styleAt_of_shades shades.1 less

theorem style_word_ne_operator (words : Dictionary) (letters : List Char) :
    (Token.word letters).style words ≠ .operator := by
  unfold Token.style Dictionary.classify
  dsimp only
  split
  · decide
  · split
    · decide
    · split
      · decide
      · decide

/-- A word in parentheses at the end of a line is followed by a block. -/
theorem opensBlock_of_isCondition {rest : List Token} (shows : doc.Shows words (pos + 1) rest)
    (condition : Token.isCondition rest = true) (line : Nat) :
    doc.opensBlock .free doc.size line pos = true := by
  unfold Token.isCondition at condition
  split at condition
  · rename_i name
    have opened := shows.later
    have named := opened.later
    have closed := named.later
    let opening := pos + 1 + 1
    let closing := opening + 1 + name.length
    have opens : doc.source.char? opening = some '(' := opened.first.1
    have closes : doc.source.char? closing = some ')' := closed.first.1
    have newline : doc.source.char? (closing + 1) = some '\n' := closed.spells.2.1
    have style : doc.styleAt opening = .operator := opened.styleAt (i := 0) (Nat.succ_pos _)
    have style' : doc.styleAt closing = .operator := closed.styleAt (i := 0) (Nat.succ_pos _)
    have depth {count : Nat} (le : count ≤ name.length) :
        doc.depthAfter (doc.styleAt opening) opening count = 1 := by
      apply depthAfter_of_ne
      intro i less
      rw [style, show doc.styleAt (opening + 1 + i) = _ from
        named.styleAt (Nat.lt_of_lt_of_le less le)]
      exact style_word_ne_operator words name
    have width : closing - opening = name.length + 1 := by omega
    have encloses : doc.Encloses opening closing := by
      refine ⟨by omega, fun count less => ?_, ?_⟩
      · rw [depth (by omega)]
        decide
      · have nesting : doc.nestingAt (doc.styleAt opening) closing = -1 := by
          rw [nestingAt, style, style', Source.charD_of_char? closes]
          rfl
        rw [width, depthAfter_succ, depth (Nat.le_refl _), Nat.add_right_comm, nesting]
        rfl
    have controls : doc.Controls pos opening closing := by
      refine ⟨by omega, fun p high low => ?_, Source.charD_of_char? opens _, encloses⟩
      obtain rfl : p = pos + 1 := by omega
      rw [Source.charD_of_char? shows.first.1]
      rfl
    have blank : doc.BlankToEnd closing := by
      refine ⟨closing + 1, Nat.lt_succ_self _, ?_, fun p high low => by omega⟩
      rw [Source.charD_of_char? newline]
      rfl
    exact (opensBlock_iff controls blank).2 (fun fixed => absurd fixed (by decide))
  · cases condition

theorem wordEffect_of_tokens {rest : List Token} (shows : doc.Shows words (pos + 1) rest)
    {word previous : String} {effect : FoldEffect}
    (tells : Token.effect? word previous rest = some effect) :
    doc.freePass.wordEffect 0 pos word previous = effect := by
  unfold Token.effect? at tells
  unfold FoldPass.wordEffect
  split at tells
  · rename_i opener
    rw [if_pos opener]
    split at tells
    · rename_i ended
      obtain rfl := Option.some.inj tells
      rw [if_neg (fun both => both.1 ended)]
    · rename_i ended
      split at tells
      · rename_i condition
        obtain rfl := Option.some.inj tells
        have opens : doc.freePass.doc.opensBlock doc.freePass.form doc.freePass.stop 0 pos = true :=
          opensBlock_of_isCondition shows condition 0
        rw [if_pos ⟨ended, opens⟩]
      · cases tells
  · rename_i other
    obtain rfl := Option.some.inj tells
    obtain ⟨blanks, c, more, whole, all, shown, alike⟩ := Token.exists_next shows.proper
    have spells := shows.spells
    rw [whole, List.append_cons, Source.spells_append] at spells
    have here : doc.source.char? (pos + 1 + blanks.length) = some c :=
      (Source.spells_append.1 spells.1).2.1
    have inside := Source.lt_size_of_char? here
    have found : doc.freePass.doc.source.skipWhile isBlank doc.freePass.stop (pos + 1) =
        pos + 1 + blanks.length :=
      Source.skipWhile_of_spells spells.1 all shown inside
    have byte : doc.freePass.doc.source.charD (pos + 1 + blanks.length) ' ' = c :=
      Source.charD_of_char? here _
    have before : pos + 1 + blanks.length ≠ doc.freePass.stop := Nat.ne_of_lt inside
    rw [if_neg other]
    dsimp only
    rw [found, byte, decide_eq_false before, Bool.or_false, alike.foldEffect_eq, alike.lineEnd]

/-! ## Lines -/

theorem isFoldWordChar_of_line {shown : Bool} {rest : List Token}
    (line : Token.Line true shown rest) (shows : doc.Shows words pos rest) :
    isFoldWordChar (doc.source.charD pos ' ') = false := by
  cases rest with
  | nil => rw [Source.charD_of_char? shows.spells.1]; rfl
  | cons token rest =>
    have first := shows.first
    obtain ⟨proper, apart, -⟩ := line
    cases token with
    | blank => rw [Source.charD_of_char? first.1]; rfl
    | mark c =>
      rw [Source.charD_of_char? first.1]
      rcases proper with rfl | rfl | rfl
      · rfl
      · rfl
      · rfl
    | word letters => cases apart rfl
    | digits letters => cases apart rfl

theorem readingAt_quiet (table : doc.source.Tabled) {token : Token} {rest : List Token}
    (shows : doc.Shows words pos (token :: rest)) (quiet : token.style words ≠ .keyword) :
    doc.readingAt (pos + token.chars.length) = (doc.readingAt pos).shown (token ≠ .blank) := by
  have proper := shows.proper token List.mem_cons_self
  have first := shows.first
  have style : ∀ i, i < token.chars.length → doc.styleAt (pos + i) ≠ .keyword := by
    intro i less
    rwa [shows.styleAt less]
  cases token with
  | blank => exact readingAt_succ table first.1 rfl (style 0 (Nat.succ_pos _))
  | mark c =>
    have read := readingAt_succ table first.1 (c := c)
    rcases proper with rfl | rfl | rfl
    · exact read rfl (style 0 (Nat.succ_pos _))
    · exact read rfl (style 0 (Nat.succ_pos _))
    · exact read rfl (style 0 (Nat.succ_pos _))
  | word letters =>
    obtain ⟨some, names⟩ := Token.letters_of_proper proper rfl
    have read := readingAt_add table first names style
    rwa [List.isEmpty_eq_false_iff.2 some] at read
  | digits letters =>
    obtain ⟨some, names⟩ := Token.letters_of_proper proper rfl
    have read := readingAt_add table first names style
    rwa [List.isEmpty_eq_false_iff.2 some] at read

theorem afterSeparator_of_token {token : Token} {rest : List Token}
    (shows : doc.Shows words pos (token :: rest)) (apart : token.isWordy = false) :
    doc.freePass.afterSeparator (pos + token.chars.length) = true := by
  have last := shows.styleAt (i := 0)
  cases token with
  | blank =>
    have style : doc.freePass.doc.styleBefore (pos + 1) .plain = .plain := last (Nat.succ_pos _)
    change doc.freePass.afterSeparator (pos + 1) = true
    rw [FoldPass.afterSeparator, show doc.freePass.outside = .plain from rfl, style]
  | mark c =>
    have style : doc.freePass.doc.styleBefore (pos + 1) .plain = .operator := last (Nat.succ_pos _)
    change doc.freePass.afterSeparator (pos + 1) = true
    rw [FoldPass.afterSeparator, show doc.freePass.outside = .plain from rfl, style]
  | word letters => cases apart
  | digits letters => cases apart

theorem readingAt_tokens (table : doc.source.Tabled) {tokens : List Token} {wordy shown : Bool}
    (line : Token.Line wordy shown tokens) (shows : doc.Shows words pos tokens)
    (starts : wordy = false → doc.freePass.afterSeparator pos = true) {r : Reading}
    (tells : Token.read? words (doc.readingAt pos) tokens = some r) :
    doc.readingAt (pos + (tokens.flatMap Token.chars).length) = r := by
  induction tokens generalizing pos wordy shown with
  | nil => exact Option.some.inj tells
  | cons token rest ih =>
    have later := shows.later
    have separated := fun apart => afterSeparator_of_token shows apart
    have proper := line.1
    rw [List.flatMap_cons, List.length_append, ← Nat.add_assoc]
    apply ih line.2.2.2 later separated
    rw [Token.read?] at tells
    split at tells
    · rename_i keyword
      obtain ⟨effect, told, tells⟩ := Option.bind_eq_some_iff.1 tells
      have wordy' : token.isWordy = true := by
        cases token with
        | blank => cases keyword
        | mark c => cases keyword
        | word letters => rfl
        | digits letters => rfl
      obtain ⟨some, names⟩ := Token.letters_of_proper proper wordy'
      have line' := line.2.2.2
      rw [wordy'] at line'
      have read := readingAt_word table shows.first names
        (fun i less => (shows.styleAt less).trans keyword) (starts (line.2.1 wordy')) some
        (isFoldWordChar_of_line line' later)
      obtain ⟨n, length⟩ : ∃ n, token.chars.length = n + 1 :=
        ⟨token.chars.length - 1, by have := List.length_pos_iff.2 some; omega⟩
      have after : doc.Shows words (pos + n + 1) rest := by
        rwa [length] at later
      have last : pos + token.chars.length - 1 = pos + n := by omega
      rwa [read, last, wordEffect_of_tokens after told]
    · rename_i quiet
      rwa [readingAt_quiet table shows quiet]

/-! ## Line ends -/

theorem commentColumn?_of_commentless {src : Source}
    (commentless : ∀ pos, src.char? pos ≠ some '!') (line : Nat) :
    src.commentColumn? .free line = none := by
  unfold Source.commentColumn?
  generalize src.lineStart line = pos
  generalize 0 = column
  fun_induction Source.commentColumnFrom? src .free pos column with
  | case1 pos column inside c mark =>
    rcases mark with mark | fixed
    · exact absurd (Source.char?_of_charD mark (by decide)) (commentless pos)
    · cases fixed.1
  | case2 pos column inside c mark blank ih => exact ih
  | case3 => rfl
  | case4 => rfl

theorem lineChange_of_commentless (table : doc.source.Tabled)
    (commentless : ∀ pos, doc.source.char? pos ≠ some '!')
    (ends : endsLineAt doc.source.bytes pos = true) :
    doc.freePass.lineChange (doc.freeStateAt pos) = (doc.freeStateAt pos).change := by
  unfold FoldPass.lineChange
  split
  · rename_i folds
    have tells := (alongside_self table .free .plain pos).tells₀ folds
      (FoldPass.Alongside.lt_lineCount_of_ends table ends)
    have none : doc.source.commentChange .free (doc.source.lineAt pos) = 0 := by
      rw [Source.commentChange, commentColumn?_of_commentless commentless]
    have change : (doc.freeStateAt pos).window.foldChange = 0 :=
      (CommentWindow.foldChange_of_tells tells).trans none
    rw [change, Int.add_zero]
  · rfl

theorem freeStateAt_newline (table : doc.source.Tabled)
    (commentless : ∀ pos, doc.source.char? pos ≠ some '!')
    (newline : doc.source.char? pos = some '\n') {level change : Int} {previous : String}
    (reading : doc.readingAt pos = ⟨level, change, previous, true⟩) :
    doc.readingAt (pos + 1) = .begun (level + change) ∧
      (doc.freeStateAt (pos + 1)).emitted =
        (doc.freeStateAt pos).emitted.push (FoldLevel.withFlags ⟨level⟩ ⟨false, 0 < change⟩) := by
  have ends := Source.endsLineAt_newline newline
  have lineEnd : isLineEnd (doc.freePass.doc.source.charD pos ' ') = true :=
    Source.isLineEnd_of_endsLineAt ' ' ends
  have step : doc.freeStateAt (pos + 1) =
      doc.freePass.endLine (doc.freePass.looked (doc.freeStateAt pos) pos) :=
    foldStateAt_succ_of_ends (foldStart_zero_le table pos) ends
  have level₀ : (doc.freeStateAt pos).level = level := congrArg Reading.level reading
  have change₀ : (doc.freeStateAt pos).change = change := congrArg Reading.change reading
  have visible₀ : (doc.freeStateAt pos).visible = true := congrArg Reading.visible reading
  have turned := lineChange_of_commentless table commentless ends
  rw [change₀] at turned
  have emits : doc.freePass.lineLevel (doc.freeStateAt pos) =
      FoldLevel.withFlags ⟨level⟩ ⟨false, 0 < change⟩ := by
    rw [FoldPass.lineLevel, FoldPass.opensLine, turned, level₀, visible₀]
    simp
  have frame := FoldPass.looked_of_isLineEnd (s := doc.freeStateAt pos) lineEnd
  have same : doc.freePass.lineChange (doc.freePass.looked (doc.freeStateAt pos) pos) = change ∧
      (doc.freePass.looked (doc.freeStateAt pos) pos).level = level ∧
      (doc.freePass.looked (doc.freeStateAt pos) pos).emitted = (doc.freeStateAt pos).emitted := by
    rw [frame, FoldPass.noteStart_eq]
    split
    · exact ⟨turned, level₀, rfl⟩
    · exact ⟨turned, level₀, rfl⟩
  refine ⟨?_, ?_⟩
  · rw [readingAt, step, FoldState.reading, FoldPass.level_endLine, same.1, same.2.1]
    rfl
  · rw [step, FoldPass.emitted_endLine, same.2.2, FoldPass.lineLevel_looked lineEnd, emits]

theorem emitted_add (table : doc.source.Tabled) {chars : List Char}
    (spells : doc.source.Spells pos chars) (inLine : ∀ c ∈ chars, isLineEnd c = false) :
    (doc.freeStateAt (pos + chars.length)).emitted = (doc.freeStateAt pos).emitted := by
  induction chars generalizing pos with
  | nil => rfl
  | cons c rest ih =>
    have later := ih spells.2 (fun d mem => inLine d (List.mem_cons_of_mem _ mem))
    have here := freeStateAt_succ_of_char? table spells.1 (inLine c List.mem_cons_self)
    rw [List.length_cons, Nat.add_comm rest.length, ← Nat.add_assoc, later, here]
    exact (doc.freePass.looked_frame _ _).2.2.2.1

end Document

/-! ## Texts -/

namespace FoldEffect

/-- The level number of a line with an effect. -/
def stand (effect : FoldEffect) (level : Int) : Int :=
  if effect.dedent then level - 1 else level

/-- The levels of lines with some effects, one after the other. -/
def levels (level : Int) : List FoldEffect → List FoldLevel
  | [] => []
  | effect :: rest =>
    FoldLevel.withFlags ⟨effect.stand level⟩ ⟨false, 0 < effect.change⟩ ::
      levels (effect.stand level + effect.change) rest

end FoldEffect

/-- The tokens of a line have an effect whatever its level is. -/
def Token.Tells (words : Dictionary) (tokens : List Token) (effect : FoldEffect) : Prop :=
  ∀ level, ∃ previous, Token.read? words (.begun level) tokens =
    some ⟨effect.stand level, effect.change, previous, true⟩

theorem CommentWindow.recheckLines_of_not_begins (window : CommentWindow) (line : Nat)
    (backs : List Nat) (levels : Array FoldLevel)
    (nothing : ∀ back ∈ backs, back ≤ line → window.begins back = false) :
    window.recheckLines line backs levels none = levels := by
  induction backs with
  | nil => rfl
  | cons back rest ih =>
    have later := ih (fun other mem => nothing other (List.mem_cons_of_mem _ mem))
    rw [recheckLines]
    split
    · exact later
    · rename_i le
      rw [nothing back List.mem_cons_self (Nat.le_of_not_lt le), if_neg Bool.false_ne_true]
      exact later
    · intro _ _ same
      cases same

namespace Document

variable {doc : Document} {pos : Nat} {words : Dictionary}

theorem emitted_lines (table : doc.source.Tabled)
    (commentless : ∀ pos, doc.source.char? pos ≠ some '!') {rows : List (List Token × FoldEffect)}
    (lines : ∀ row ∈ rows, Token.Line false false row.1)
    (tells : ∀ row ∈ rows, Token.Tells words row.1 row.2)
    (spells : doc.source.Spells pos (rows.flatMap fun row => Token.lineChars row.1))
    (shades : doc.Shades pos (rows.flatMap fun row => Token.lineStyles words row.1))
    {level : Int} (begun : doc.readingAt pos = .begun level)
    (starts : doc.freePass.afterSeparator pos = true) :
    (doc.freeStateAt (pos + (rows.flatMap fun row => Token.lineChars row.1).length)).emitted.toList =
      (doc.freeStateAt pos).emitted.toList ++ FoldEffect.levels level (rows.map (·.2)) := by
  induction rows generalizing pos level with
  | nil => rw [List.map_nil, FoldEffect.levels, List.append_nil]; rfl
  | cons row rest ih =>
    obtain ⟨tokens, effect⟩ := row
    have line := lines _ List.mem_cons_self
    have proper := Token.proper_of_line line
    obtain ⟨previous, told⟩ := tells _ List.mem_cons_self level
    rw [List.flatMap_cons, Source.spells_append] at spells
    rw [List.flatMap_cons, shades_append, Token.length_lineStyles] at shades
    have shows : doc.Shows words pos tokens := ⟨spells.1, (shades_append.1 shades.1).1, proper⟩
    rw [← begun] at told
    have read := readingAt_tokens table line shows (fun _ => starts) told
    obtain ⟨own, newline, -⟩ := Source.spells_append.1 spells.1
    have kept := emitted_add table own
      (fun c mem => Token.isLineEnd_of_isTokenChar (Token.isTokenChar_of_mem proper mem))
    obtain ⟨read', emits⟩ := freeStateAt_newline table commentless newline read
    have length : pos + (Token.lineChars tokens).length =
        pos + (tokens.flatMap Token.chars).length + 1 := by
      rw [Token.lineChars, List.length_append, List.length_singleton, Nat.add_assoc]
    have plain : doc.styleAt (pos + (tokens.flatMap Token.chars).length) = .plain := by
      rw [← Token.length_flatMap_styles words]
      exact (shades_append.1 shades.1).2.1
    have starts' : doc.freePass.afterSeparator (pos + (Token.lineChars tokens).length) = true := by
      rw [length, FoldPass.afterSeparator]
      have style : doc.freePass.doc.styleBefore (pos + (tokens.flatMap Token.chars).length + 1)
        doc.freePass.outside = .plain := plain
      rw [style]
    rw [← length] at read' emits
    have later := ih (fun row mem => lines row (List.mem_cons_of_mem _ mem))
      (fun row mem => tells row (List.mem_cons_of_mem _ mem)) spells.2 shades.2 read' starts'
    rw [List.flatMap_cons, List.length_append, ← Nat.add_assoc, later, emits, Array.toList_push, kept,
      List.append_assoc]
    rfl

/-- Without comments, no level before a pass from the first line on is set right. -/
theorem levels_rechecked_of_commentless (table : doc.source.Tabled)
    (commentless : ∀ pos, doc.source.char? pos ≠ some '!') :
    (doc.rechecked .free .plain 0).levels = doc.levels := by
  unfold rechecked foldWindow
  dsimp only
  split
  · rename_i folds
    have tells := CommentWindow.tells_around doc.source .free 0
    have none : (CommentWindow.around doc.source .free 0).at? 0 = none :=
      (tells.ahead 0 (Nat.zero_le _)).trans (commentColumn?_of_commentless commentless _)
    have begins : (CommentWindow.around doc.source .free 0).begins 0 = false := by
      rw [CommentWindow.begins, show -((0 : Nat) : Int) = 0 from rfl, none]
      rfl
    rw [Source.lineAt_zero table]
    apply CommentWindow.recheckLines_of_not_begins
    intro back _ le
    obtain rfl : back = 0 := Nat.le_zero.1 le
    exact begins
  · rfl

/-- After a fold pass over lines of tokens, each line has the level that the effects tell, and the
empty line at the end stands outside. -/
theorem levels_folded (fits : doc.Fits) (base : doc.levels = .replicate doc.source.lines .base)
    (commentless : ∀ pos, doc.source.char? pos ≠ some '!') {rows : List (List Token × FoldEffect)}
    (lines : ∀ row ∈ rows, Token.Line false false row.1)
    (tells : ∀ row ∈ rows, Token.Tells words row.1 row.2)
    (spells : doc.source.Spells 0 (rows.flatMap fun row => Token.lineChars row.1))
    (size : doc.size = (rows.flatMap fun row => Token.lineChars row.1).length)
    (styles : doc.styles.toList = rows.flatMap fun row => Token.lineStyles words row.1) :
    (doc.folded .free .plain).levels.toList =
      FoldEffect.levels 0x400 (rows.map (·.2)) ++ [.base] := by
  have table := fits.table
  have zero : doc.freeStateAt 0 = doc.foldBegun .free .plain 0 := by
    rw [freeStateAt, foldStateAt, foldStart_zero table, FoldPass.after_self]
  have begun : doc.readingAt 0 = .begun 0x400 := by
    rw [readingAt, zero, foldBegun, FoldState.reading, foldLevel, if_pos (Source.lineAt_zero table)]
    rfl
  have emits := emitted_lines table commentless lines tells spells (styles ▸ shades_styles doc) begun
    rfl
  rw [Nat.zero_add, ← size, zero] at emits
  have emits : (doc.foldStateAt .free .plain 0 doc.size).emitted.toList =
      FoldEffect.levels 0x400 (rows.map (·.2)) := emits
  have count : (FoldEffect.levels 0x400 (rows.map (·.2))).length + 1 = doc.source.lines := by
    rw [← emits, Array.length_toList, size_emitted table]
  have whole := foldRange_eq doc .free .plain 0
  rw [Nat.sub_zero] at whole
  rw [folded, whole, Source.lineAt_zero table, emits, levels_rechecked_of_commentless table commentless,
    toList_overwrite _ _ (by rw [fits.levels]; omega), base, Array.toList_replicate,
    List.drop_replicate, ← count, Nat.add_sub_cancel_left]
  rfl

end Document

/-! ## Restyled texts -/

theorem Token.toNat_of_lines {lines : List (List Token)} {wordy shown : Bool}
    (proper : ∀ tokens ∈ lines, Token.Line wordy shown tokens) {c : Char}
    (mem : c ∈ lines.flatMap Token.lineChars) : c.toNat < 256 := by
  rcases Token.isTokenChar_of_lines proper mem with token | rfl
  · exact Token.toNat_of_isTokenChar token
  · decide

theorem Styler.levels_restyle_lines (words : Dictionary) {rows : List (List Token × FoldEffect)}
    (lines : ∀ row ∈ rows, Token.Line false false row.1)
    (tells : ∀ row ∈ rows, Token.Tells words row.1 row.2) :
    (Styler.restyle ⟨.free, words⟩ (.ofBytes ((rows.flatMap fun row =>
      Token.lineChars row.1).map Char.toUInt8).toArray)).levels.toList =
      FoldEffect.levels 0x400 (rows.map (·.2)) ++ [.base] := by
  let text := rows.flatMap fun row => Token.lineChars row.1
  let doc : Document := .ofBytes (text.map Char.toUInt8).toArray
  cases shape : rows with
  | nil => rfl
  | cons row rest =>
    rw [← shape]
    have fits : doc.Fits := Document.fits_ofBytes _
    have texts : text = (rows.map (·.1)).flatMap Token.lineChars := by rw [List.flatMap_map]
    have proper : ∀ tokens ∈ rows.map (·.1), Token.Line false false tokens := by
      intro tokens mem
      obtain ⟨row, among, rfl⟩ := List.mem_map.1 mem
      exact lines row among
    have bytes : ∀ c ∈ text, c.toNat < 256 := by
      intro c mem
      rw [texts] at mem
      exact Token.toNat_of_lines proper mem
    have spells : doc.source.Spells 0 text := Source.spells_ofChars text bytes
    have size : doc.size = text.length := Source.size_ofChars text
    have absent (c : Char) (other : Token.isTokenChar c = false) (inLine : c ≠ '\n') (pos : Nat) :
        doc.source.char? pos ≠ some c := by
      intro here
      rw [show doc.source.char? pos = text[pos]? from Source.char?_ofChars text bytes pos] at here
      have mem := List.mem_of_getElem? here
      rw [texts] at mem
      rcases Token.isTokenChar_of_lines proper mem with token | newline
      · rw [other] at token
        cases token
      · exact inLine newline
    let styled := (doc.setStyledTo 0).styleRange words .free 0 doc.size .plain
    have styled_fits : styled.Fits :=
      Document.fits_styleRange (Document.fits_setStyledTo fits 0) words .free 0 doc.size .plain
    have styles : styled.styles.toList = rows.flatMap fun row => Token.lineStyles words row.1 := by
      have all : styled.styles.toList = doc.source.allStyles words .free .plain :=
        Document.toList_styleRange_all (Document.fits_setStyledTo fits 0) words .free .plain
      rw [all, Source.allStyles_of_lines fits.table words
        (fun pos => ⟨absent '"' rfl (by decide) pos, absent '\'' rfl (by decide) pos⟩) proper
        (texts ▸ spells) (texts ▸ size), List.flatMap_map]
    have folded := Document.levels_folded styled_fits rfl
      (absent '!' rfl (by decide)) lines tells spells size styles
    have nonempty : 0 < doc.size := by
      have first : text = Token.lineChars row.1 ++ rest.flatMap fun row => Token.lineChars row.1 := by
        change (rows.flatMap fun row => Token.lineChars row.1) = _
        rw [shape, List.flatMap_cons]
      rw [size, first, Token.lineChars, List.length_append, List.length_append,
        List.length_singleton]
      omega
    have restyled := Styler.restyle_eq ⟨.free, words⟩ fits.table nonempty
    rw [restyled]
    exact folded

end FortranMarkup
