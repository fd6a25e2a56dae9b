import BoardHighlight.Cursor
import BoardHighlight.Document.Edit
import BoardHighlight.Main
import BoardHighlight.Proofs.CursorView
import BoardHighlight.Proofs.Relexing
import BoardHighlight.Proofs.Progress
import BoardHighlight.Proofs.CommentNesting
import BoardHighlight.Proofs.StringLayout
import BoardHighlight.Proofs.ModeBehind
import BoardHighlight.Proofs.RelexedLines
import BoardHighlight.Proofs.ProblemOrder
import BoardHighlight.Proofs.HiddenErrors
import BoardHighlight.Proofs.Overlay
import BoardHighlight.Proofs.ReadingBack
import BoardHighlight.Proofs.Terminators
import BoardHighlight.Proofs.PlainRows
import BoardHighlight.Proofs.DumpRows
import BoardHighlight.Proofs.Markup
import BoardHighlight.Proofs.Colouring
import BoardHighlight.Proofs.JsonGrammar
import BoardHighlight.Proofs.JsonRecords
import BoardHighlight.Proofs.CommentBreaks
import BoardHighlight.Proofs.UnnoticedEdits
import BoardHighlight.Proofs.InputOrder
import BoardHighlight.Proofs.Highlighting
import BoardHighlight.Proofs.LineEndings
import BoardHighlight.Proofs.OpenAtEnd
import BoardHighlight.Proofs.OperatorRuns
import BoardHighlight.Proofs.CheckedEdits
import BoardHighlight.Proofs.FirstCharacter
import BoardHighlight.Proofs.LongestNumber
import BoardHighlight.Proofs.QualifiedNames
import BoardHighlight.Proofs.Columns
import BoardHighlight.Proofs.UnreportedEnd
import BoardHighlight.Proofs.ByteOffsets
import BoardHighlight.Proofs.StyleWords
import BoardHighlight.Proofs.CursorLexer
