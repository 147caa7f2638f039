import FortranMarkup.Styler
import FortranMarkup.Text.Utf8

/-!
# Reports

The three ways in which a styled document is shown: its source with colours, the fold levels of its
lines, and its style runs. A report is a list of pieces, in which what comes from the source is told
apart from what controls the terminal.
-/

namespace FortranMarkup

/-- A piece of output. -/
inductive Piece where
  /-- Bytes to be shown. -/
  | text (bytes : List UInt8)
  /-- A sequence that changes how the terminal shows what follows. -/
  | control (sequence : String)
deriving Repr, DecidableEq

namespace Piece

/-- The bytes written for a piece. -/
def bytes : Piece → List UInt8
  | text bytes => bytes
  | control sequence => Utf8.encode sequence

/-- The bytes that a piece shows. -/
def shown : Piece → List UInt8
  | text bytes => bytes
  | control _ => []

end Piece

/-- What is shown of a document. -/
inductive Report where
  | highlight
  | folds
  | spans
deriving Repr, DecidableEq

namespace Report

/-- The control sequences that set a look. -/
def controls (look : Look) : List Piece :=
  ((look.color.palette?.map (fun number => "\x1b[38;5;" ++ toString number ++ "m")).toList ++
    (if look.bold then ["\x1b[1m"] else []) ++ (if look.italic then ["\x1b[3m"] else []) ++
    (if look.underline then ["\x1b[4m"] else [])).map Piece.control

/-- The control sequence that ends a look. -/
def reset : Piece := .control "\x1b[0m"

/-- Whether a byte goes on with a character that begins before it. -/
def isTrailing (c : Char) : Bool :=
  0x80 ≤ c.toNat && c.toNat < 0xC0

/-- The pieces for a style run of a line that ends at `lineEnd`. A character that the run's ends cut
goes with the run in which it begins. -/
def spanPieces (src : Source) (lineEnd : Nat) (span : Span) : List Piece :=
  let start := src.skipWhile isTrailing lineEnd span.start
  let stop := src.skipWhile isTrailing lineEnd span.stop
  let shown := Piece.text (src.bytes.extract start stop).toList
  if stop ≤ start then []
  else if span.style.look.isPlain then [shown]
  else controls span.style.look ++ [shown, reset]

/-- The source, with each style run in its look. -/
def colored (styler : Styler) (doc : Document) : List Piece × Document :=
  let (runs, styled) :=
    styler.spansOfLines (List.range doc.source.lines) (styler.ensure doc doc.size)
  let shown := runs.flatMap fun (line, ofLine) =>
    ofLine.flatMap (spanPieces doc.source (doc.source.lineEnd line))
  (shown, styled)

/-- The source with colours, or as it is. -/
def highlighted (styler : Styler) (doc : Document) (color : Bool) : List Piece × Document :=
  if color then colored styler doc
  else ([.text doc.source.bytes.toList], styler.ensure doc doc.size)

/-- A text filled up with a character on the left to a width. -/
def padLeft (width : Nat) (fill : Char) (text : String) : String :=
  String.ofList (List.replicate (width - text.length) fill) ++ text

/-- The marks of a line in the fold report: `H` if it opens a block, `W` if it shows nothing. -/
def marks (level : FoldLevel) : String :=
  match level.isHeader, level.isWhite with
  | true, true => "HW"
  | true, false => "H "
  | false, true => "W "
  | false, false => "- "

/-- The row of a line in the fold report: its number from 1 on, its nesting number, its marks and
its text. -/
def foldRow (doc : Document) (line : Nat) : String :=
  let level := doc.levelAt line
  padLeft 5 ' ' (toString (line + 1)) ++ " 0x" ++
    padLeft 3 '0' (String.ofList (Nat.toDigits 16 level.number.toNat)) ++ " " ++
    marks level ++ " " ++ Utf8.decodeLossy (doc.source.lineBytes line).toList ++ "\n"

/-- The fold levels, a row for each line. -/
def foldRows (styler : Styler) (doc : Document) : List Piece × Document :=
  let styled := styler.ensure doc doc.size
  let rows := (List.range doc.source.lineCount).map (foldRow styled)
  (rows.map (fun row => .text (Utf8.encode row)), styled)

/-- The row of a style run: its line from 1 on, its positions and its style. -/
def spanRow (line : Nat) (span : Span) : String :=
  toString (line + 1) ++ ":" ++ toString span.start ++ ".." ++ toString span.stop ++ " " ++
    span.style.name ++ "\n"

/-- The style runs, a row for each. -/
def spanRows (styler : Styler) (doc : Document) : List Piece × Document :=
  let (runs, styled) := styler.spansOfLines (List.range doc.source.lineCount) doc
  let rows := runs.flatMap (fun (line, ofLine) => ofLine.map (spanRow line))
  (rows.map (fun row => .text (Utf8.encode row)), styled)

/-- The pieces of a report, and the document as making the report leaves it. -/
def pieces (report : Report) (styler : Styler) (doc : Document) (color : Bool) :
    List Piece × Document :=
  match report with
  | highlight => highlighted styler doc color
  | folds => foldRows styler doc
  | spans => spanRows styler doc

/-- The bytes of a report. -/
def bytes (pieces : List Piece) : List UInt8 :=
  pieces.flatMap Piece.bytes

end Report

end FortranMarkup
