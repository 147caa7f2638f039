/-!
# Fold levels

The fold level of a line is one number: a nesting number in the low twelve bits and two flags above
them. The running level of a pass is not confined to twelve bits, so very deep nesting carries into
the flags and unbalanced source leads to negative levels, whose bits are those of the two's
complement.
-/

namespace FortranMarkup

/-- What a line is marked with beside its nesting number. -/
structure FoldFlags where
  /-- The line shows nothing. -/
  white : Bool := false
  /-- The line opens a block. -/
  header : Bool := false
deriving Repr, DecidableEq

namespace FoldFlags

/-- The flags among the bits of a number. -/
def ofBits (bits : Int) : FoldFlags where
  white := bits / 0x1000 % 2 = 1
  header := bits / 0x2000 % 2 = 1

/-- The number with exactly the bits of some flags. -/
def bits (flags : FoldFlags) : Int :=
  (if flags.white then 0x1000 else 0) + (if flags.header then 0x2000 else 0)

end FoldFlags

/-- The level of a line: its nesting number and flags in one number. -/
structure FoldLevel where
  raw : Int
deriving Repr, DecidableEq

namespace FoldLevel

/-- The level of a line outside every block. -/
def base : FoldLevel := ⟨0x400⟩

instance : Inhabited FoldLevel := ⟨base⟩

/-- The nesting number, without the flags. -/
def number (level : FoldLevel) : Int :=
  level.raw % 0x1000

/-- How many blocks the line is in. -/
def depth (level : FoldLevel) : Int :=
  level.number - base.raw

/-- The flags of the line. -/
def flags (level : FoldLevel) : FoldFlags :=
  .ofBits level.raw

/-- Whether the line is marked as opening a block. -/
def isHeader (level : FoldLevel) : Bool :=
  level.flags.header

/-- Whether the line is marked as showing nothing. -/
def isWhite (level : FoldLevel) : Bool :=
  level.flags.white

/-- The level with some flags set in addition to its own. -/
def withFlags (level : FoldLevel) (flags : FoldFlags) : FoldLevel :=
  ⟨level.raw +
    FoldFlags.bits ⟨flags.white && !level.isWhite, flags.header && !level.isHeader⟩⟩

/-- The level a number of blocks further in. -/
def plus (level : FoldLevel) (blocks : Int) : FoldLevel :=
  ⟨level.raw + blocks⟩

end FoldLevel

end FortranMarkup
