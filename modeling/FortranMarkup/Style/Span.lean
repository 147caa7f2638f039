import FortranMarkup.Style.Basic

/-!
# Spans

A `Span` is a run of bytes of one style. `Span.runs` cuts a sequence of styles into the longest
runs, and `Span.expand` turns spans back into the styles of their bytes.
-/

namespace FortranMarkup

/-- The bytes from `start` up to `stop`, all of one style. -/
structure Span where
  start : Nat
  stop : Nat
  style : Style
deriving Repr, DecidableEq

namespace Span

/-- Puts a byte of a style in front of some spans, the first of which starts right after it. -/
def extend (pos : Nat) (style : Style) : List Span → List Span
  | [] => [⟨pos, pos + 1, style⟩]
  | span :: rest =>
    if span.style = style then ⟨pos, span.stop, style⟩ :: rest
    else ⟨pos, pos + 1, style⟩ :: span :: rest

/-- The longest runs of equal styles in a sequence whose first style is that of position `base`. -/
def runs (base : Nat) : List Style → List Span
  | [] => []
  | style :: rest => extend base style (runs (base + 1) rest)

/-- The styles of the bytes of some spans, span after span. -/
def expand : List Span → List Style
  | [] => []
  | span :: rest => List.replicate (span.stop - span.start) span.style ++ expand rest

/-- The longest runs in a sequence of style numbers. -/
def runsOfCodes (base : Nat) (codes : List UInt8) : List Span :=
  runs base (codes.map (fun code => Style.ofCode code.toNat))

end Span

end FortranMarkup
