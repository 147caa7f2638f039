import FortranMarkup.Proofs.Nesting.Statement

/-!
# Nested constructs

A source of statements and constructs, in which constructs hold such sources again, is a `Tree`. Its
outline tells how many blocks each line is in, by recursion on the tree: the lines of a construct are as
far in as the construct, its items are further in, and the line that closes it is as far in as they are.

Main statement: restyling the text of a tree leaves exactly the levels of its outline, however deep the
constructs are nested (`Tree.levels_restyle`).
-/

namespace FortranMarkup

/-- What a tree stands for: items, or the branches of a construct. -/
inductive Part where
  | items
  | branches (f : Family)
deriving Repr, DecidableEq

/-- Items one after the other, or the branches of a construct with their items. -/
inductive Tree : Part → Type where
  | done : Tree .items
  | plain (line : Line .item) (rest : Tree .items) : Tree .items
  | construct {f : Family} (head : Line (.head f)) (body : Tree .items)
      (branches : Tree (.branches f)) (finish : Line (.finish f)) (rest : Tree .items) : Tree .items
  | unbranched {f : Family} : Tree (.branches f)
  | branch {f : Family} (line : Line (.branch f)) (body : Tree .items)
      (more : Tree (.branches f)) : Tree (.branches f)
  | lastBranch {f : Family} (line : Line (.lastBranch f)) (body : Tree .items) :
      Tree (.branches f)

/-- What is told of a line: how many blocks it is in, and whether it opens one. -/
structure Row where
  depth : Nat
  opens : Bool
deriving Repr, DecidableEq

/-- The level of a line. -/
def Row.level (row : Row) : FoldLevel :=
  FoldLevel.withFlags ⟨0x400 + row.depth⟩ ⟨false, row.opens⟩

namespace Tree

/-- The lines of a tree, each with its role. -/
def lines {part : Part} : Tree part → List (Sigma Line)
  | done | unbranched => []
  | plain line rest => ⟨_, line⟩ :: rest.lines
  | construct head body branches finish rest =>
    ⟨_, head⟩ :: (body.lines ++ branches.lines ++ ⟨_, finish⟩ :: rest.lines)
  | branch line body more => ⟨_, line⟩ :: (body.lines ++ more.lines)
  | lastBranch line body => ⟨_, line⟩ :: body.lines

/-- The characters of a tree, each line with a line feed. -/
def text {part : Part} (tree : Tree part) : List Char :=
  tree.lines.flatMap fun line => Token.lineChars line.2.tokens

/-- The bytes of a tree. -/
def bytes {part : Part} (tree : Tree part) : Array UInt8 :=
  (tree.text.map Char.toUInt8).toArray

/-- How far in the lines of a tree are, if its items, or the construct of its branches, are in some
blocks. -/
def outline {part : Part} (depth : Nat) : Tree part → List Row
  | done | unbranched => []
  | plain _ rest => ⟨depth, false⟩ :: rest.outline depth
  | @construct f _ body branches _ rest =>
    ⟨depth, true⟩ :: (body.outline (depth + f.inner) ++ branches.outline depth ++
      ⟨depth + f.inner, false⟩ :: rest.outline depth)
  | @branch f _ body more =>
    ⟨depth + f.offset, true⟩ :: (body.outline (depth + f.inner) ++ more.outline depth)
  | @lastBranch f _ body => ⟨depth + f.offset, true⟩ :: body.outline (depth + f.inner)

end Tree

/-! ## The effects of the lines -/

namespace FoldEffect

variable {f : Family} {depth : Nat} {after : List FoldEffect}

theorem levels_cons {effect : FoldEffect} {level next : Int} (row : Row)
    (stands : effect.stand level = 0x400 + row.depth) (opens : decide (0 < effect.change) = row.opens)
    (goes : effect.stand level + effect.change = next) :
    levels level (effect :: after) = row.level :: levels next after := by
  rw [levels, goes, stands, opens]
  rfl

theorem levels_item : levels (0x400 + depth) (Role.item.effect :: after) =
    Row.level ⟨depth, false⟩ :: levels (0x400 + depth) after :=
  levels_cons ⟨depth, false⟩ rfl rfl (Int.add_zero _)

theorem levels_head : levels (0x400 + depth) ((Role.head f).effect :: after) =
    Row.level ⟨depth, true⟩ :: levels (0x400 + (depth + f.inner : Nat)) after := by
  apply levels_cons ⟨depth, true⟩
  · rfl
  · exact decide_eq_true (Int.natCast_pos.2 (Nat.succ_pos f.offset))
  · change 0x400 + (depth : Int) + f.inner = _
    omega

theorem levels_branch : levels (0x400 + (depth + f.inner : Nat)) (⟨1, true⟩ :: after) =
    Row.level ⟨depth + f.offset, true⟩ :: levels (0x400 + (depth + f.inner : Nat)) after := by
  have inner : f.inner = f.offset + 1 := rfl
  apply levels_cons ⟨depth + f.offset, true⟩
  · change 0x400 + ((depth + f.inner : Nat) : Int) - 1 = 0x400 + ((depth + f.offset : Nat) : Int)
    omega
  · rfl
  · change 0x400 + ((depth + f.inner : Nat) : Int) - 1 + 1 = _
    omega

theorem levels_finish :
    levels (0x400 + (depth + f.inner : Nat)) ((Role.finish f).effect :: after) =
      Row.level ⟨depth + f.inner, false⟩ :: levels (0x400 + depth) after := by
  apply levels_cons ⟨depth + f.inner, false⟩
  · rfl
  · rfl
  · change 0x400 + ((depth + f.inner : Nat) : Int) + -(f.inner : Int) = _
    omega

end FoldEffect

namespace Tree

variable {part : Part}

/-- The level number with which the lines of a tree begin and end. -/
def startLevel : Part → Nat → Int
  | .items, depth => 0x400 + depth
  | .branches f, depth => 0x400 + (depth + f.inner : Nat)

theorem levels_lines (tree : Tree part) (depth : Nat) (after : List FoldEffect) :
    FoldEffect.levels (startLevel part depth) (tree.lines.map (·.1.effect) ++ after) =
      (tree.outline depth).map Row.level ++ FoldEffect.levels (startLevel part depth) after := by
  induction tree generalizing depth after with
  | done => rfl
  | unbranched => rfl
  | plain line rest later =>
    refine FoldEffect.levels_item.trans ?_
    exact congrArg (Row.level ⟨depth, false⟩ :: ·) (later depth after)
  | @construct f head body branches finish rest inBody inBranches later =>
    rw [lines, outline]
    simp only [List.map_cons, List.map_append, List.cons_append, List.append_assoc]
    refine FoldEffect.levels_head.trans ?_
    refine congrArg (Row.level ⟨depth, true⟩ :: ·) ?_
    refine (inBody (depth + f.inner) _).trans ?_
    refine congrArg ((body.outline (depth + f.inner)).map Row.level ++ ·) ?_
    refine (inBranches depth _).trans ?_
    refine congrArg ((branches.outline depth).map Row.level ++ ·) ?_
    refine FoldEffect.levels_finish.trans ?_
    exact congrArg (Row.level ⟨depth + f.inner, false⟩ :: ·) (later depth after)
  | @branch f line body more inBody later =>
    rw [lines, outline]
    simp only [List.map_cons, List.map_append, List.cons_append, List.append_assoc]
    refine FoldEffect.levels_branch.trans ?_
    refine congrArg (Row.level ⟨depth + f.offset, true⟩ :: ·) ?_
    refine (inBody (depth + f.inner) _).trans ?_
    exact congrArg ((body.outline (depth + f.inner)).map Row.level ++ ·) (later depth after)
  | @lastBranch f line body inBody =>
    refine FoldEffect.levels_branch.trans ?_
    exact congrArg (Row.level ⟨depth + f.offset, true⟩ :: ·) (inBody (depth + f.inner) after)

end Tree

/-! ## Levels of a tree -/

theorem Row.number_level (row : Row) : row.level.number = (0x400 + row.depth) % 0x1000 := by
  obtain ⟨k, bits⟩ := FoldLevel.exists_bits
    ⟨false && !FoldLevel.isWhite ⟨0x400 + row.depth⟩,
      row.opens && !FoldLevel.isHeader ⟨0x400 + row.depth⟩⟩
  rw [level, FoldLevel.withFlags, FoldLevel.number, bits]
  exact Int.add_mul_emod_self_left _ _ _

namespace Tree

/-- Restyling a tree leaves the levels of its outline, and the empty line at the end stands outside.
The level numbers are those of the outline as far as twelve bits go. -/
theorem levels_restyle (tree : Tree .items) :
    let doc := Styler.restyle ⟨.free, .fortran⟩ (.ofBytes tree.bytes)
    doc.levels.toList = (tree.outline 0).map Row.level ++ [.base] ∧
      doc.levels.toList.map FoldLevel.number =
        (tree.outline 0).map (fun row => (0x400 + row.depth : Int) % 0x1000) ++ [0x400] := by
  let rows := tree.lines.map fun line => (line.2.tokens, line.1.effect)
  have lines : ∀ row ∈ rows, Token.Line false false row.1 := by
    intro row mem
    obtain ⟨line, -, rfl⟩ := List.mem_map.1 mem
    exact line.2.proper
  have tells : ∀ row ∈ rows, Token.Tells .fortran row.1 row.2 := by
    intro row mem
    obtain ⟨line, -, rfl⟩ := List.mem_map.1 mem
    exact line.2.tells
  have text : (rows.flatMap fun row => Token.lineChars row.1) = tree.text := List.flatMap_map ..
  have effects : rows.map (·.2) = tree.lines.map (·.1.effect) := List.map_map ..
  have outlined : FoldEffect.levels 0x400 (tree.lines.map (·.1.effect)) =
      (tree.outline 0).map Row.level := by
    have whole := levels_lines tree 0 []
    rwa [List.append_nil, FoldEffect.levels, List.append_nil] at whole
  have restyled := Styler.levels_restyle_lines .fortran lines tells
  rw [text, effects, outlined] at restyled
  refine ⟨restyled, ?_⟩
  have numbers : FoldLevel.number ∘ Row.level = fun row => (0x400 + row.depth : Int) % 0x1000 :=
    funext Row.number_level
  refine (congrArg (List.map FoldLevel.number) restyled).trans ?_
  rw [List.map_append, List.map_map, numbers]
  rfl

example (head : Line (.head .select)) (case : Line (.branch .select)) (item : Line .item)
    (finish : Line (.finish .select)) :
    (construct head done (branch case (plain item done) unbranched) finish done).outline 0 =
      [⟨0, true⟩, ⟨2, true⟩, ⟨3, false⟩, ⟨3, false⟩] := rfl

end Tree

end FortranMarkup
