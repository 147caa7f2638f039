import FortranMarkup.Main
import FortranMarkup.Proofs.Folding.Restart
import FortranMarkup.Proofs.Styler.Session
import FortranMarkup.Proofs.Nesting.Tree
import FortranMarkup.Proofs.Folding.CommentRun
import FortranMarkup.Proofs.Styling.WordSpans
import FortranMarkup.Proofs.Styling.WordStyles
import FortranMarkup.Proofs.Styling.Field
import FortranMarkup.Proofs.Styling.Continuation
import FortranMarkup.Proofs.Folding.Construct
import FortranMarkup.Proofs.Folding.ConstructLevels
import FortranMarkup.Proofs.Styler.History
import FortranMarkup.Proofs.Styler.Respelling
import FortranMarkup.Proofs.Folding.Settled
import FortranMarkup.Proofs.Folding.Search
import FortranMarkup.Proofs.Tokens.Literals
import FortranMarkup.Proofs.Styling.Tail
import FortranMarkup.Proofs.Styling.NumberSign
import FortranMarkup.Proofs.Styling.LineTable
import FortranMarkup.Proofs.Styling.Coverage
import FortranMarkup.Proofs.Folding.Emission
import FortranMarkup.Proofs.Report.Characters
import FortranMarkup.Proofs.Settings.Accepted
import FortranMarkup.Proofs.Document.Realigned
import FortranMarkup.Proofs.Styling.Backtracking
import FortranMarkup.Proofs.Styler.LastLine
import FortranMarkup.Proofs.Styling.ContinuationLines
