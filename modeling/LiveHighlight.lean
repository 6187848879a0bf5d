import LiveHighlight.Queue
import LiveHighlight.Worker
import LiveHighlight.Layer.Recorded
import LiveHighlight.Embedding.TreeLayer
import LiveHighlight.Unicode.Fold
import LiveHighlight.Unicode.Word
import LiveHighlight.Unicode.Number
import LiveHighlight.Rules.RuleLayer
import LiveHighlight.Definition.Reader
import LiveHighlight.Proofs.Cutting
import LiveHighlight.Proofs.LineStarts
import LiveHighlight.Proofs.Editing
import LiveHighlight.Proofs.EditedLines
import LiveHighlight.Proofs.SpanSets
import LiveHighlight.Proofs.Patchwork
import LiveHighlight.Proofs.Tracking
import LiveHighlight.Proofs.Searching
import LiveHighlight.Proofs.Surroundings
import LiveHighlight.Proofs.Scanning
import LiveHighlight.Proofs.Strides
import LiveHighlight.Proofs.Finding
import LiveHighlight.Proofs.FinderLines
import LiveHighlight.Proofs.Occurrences
import LiveHighlight.Proofs.SweepLines
import LiveHighlight.Proofs.Regions
import LiveHighlight.Proofs.LineWindows
import LiveHighlight.Proofs.Compiled
import LiveHighlight.Proofs.Rescan
import LiveHighlight.Proofs.Parting
import LiveHighlight.Proofs.PartedRegions
import LiveHighlight.Proofs.Colours
import LiveHighlight.Proofs.Origins
import LiveHighlight.Proofs.Repaint
import LiveHighlight.Proofs.Moves
import LiveHighlight.Proofs.FixedWidth
import LiveHighlight.Proofs.Convergence
import LiveHighlight.Proofs.Telling
import LiveHighlight.Proofs.Rendering
import LiveHighlight.Proofs.Rereading
import LiveHighlight.Proofs.Retaking
import LiveHighlight.Proofs.Cancelling
import LiveHighlight.Proofs.LineByLine
import LiveHighlight.Proofs.Owing
import LiveHighlight.Proofs.NestedReading
import LiveHighlight.Proofs.Serving
import LiveHighlight.Proofs.Acceptance
import LiveHighlight.Proofs.Points
import LiveHighlight.Proofs.SpanSearch
import LiveHighlight.Proofs.SpanAlgebra
import LiveHighlight.Proofs.Remembering
import LiveHighlight.Proofs.SweptRegions
import LiveHighlight.Proofs.Reporting
import LiveHighlight.Proofs.Agendas
import LiveHighlight.Proofs.Depths
import LiveHighlight.Proofs.LineComments
import LiveHighlight.Proofs.Literals
import LiveHighlight.Proofs.PairSearch
import LiveHighlight.Proofs.PairRegions
import LiveHighlight.Proofs.WholeWords
import LiveHighlight.Proofs.RepeatedPairs
import LiveHighlight.Proofs.PointNames
import LiveHighlight.Proofs.Bytes
import LiveHighlight.Proofs.LineTiles
import LiveHighlight.Proofs.Titles
import LiveHighlight.Proofs.ByteLines
import LiveHighlight.Proofs.CheckedSweep
import LiveHighlight.Proofs.CheckedSearch
import LiveHighlight.Proofs.Extraction
import LiveHighlight.Proofs.LinesAround
import LiveHighlight.Proofs.LineNumbers
import LiveHighlight.Proofs.GuardedWords
import LiveHighlight.Proofs.EmptyEnds
