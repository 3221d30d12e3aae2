import SourceCensus.Json.Reader
import SourceCensus.Glob
import SourceCensus.Output.Format
import SourceCensus.Settings.Environment
import SourceCensus.Log
import SourceCensus.Encoding
import SourceCensus.Main
import SourceCensus.Settings.Sources
import SourceCensus.FileSystem.Edit
import SourceCensus.FileSystem.RealPath
import SourceCensus.Toml.Document
import SourceCensus.Proofs.Graph.Reachability
import SourceCensus.Proofs.Graph.Construction
import SourceCensus.Proofs.Graph.Dependencies
import SourceCensus.Proofs.Accessor.Windows
import SourceCensus.Proofs.Count.Candidates
import SourceCensus.Proofs.Line.Lockstep
import SourceCensus.Proofs.Count.Order
import SourceCensus.Proofs.Count.Boilerplate
import SourceCensus.Proofs.Graph.Readings
import SourceCensus.Proofs.Analysis.Excluding
import SourceCensus.Proofs.FileSystem.Emptying
import SourceCensus.Proofs.SourceFile.Reading
import SourceCensus.Proofs.Analysis.Undecodable
import SourceCensus.Proofs.Analysis.Unreadable
import SourceCensus.Proofs.FileSystem.Descent
import SourceCensus.Proofs.Walk.Routes
import SourceCensus.Proofs.Walk.Visits
import SourceCensus.Proofs.Walk.Completeness
import SourceCensus.Proofs.Settings.Precedence
import SourceCensus.Proofs.FileSystem.Rewriting
import SourceCensus.Proofs.Cli.Output
import SourceCensus.Proofs.Path.Written
import SourceCensus.Proofs.Output.Outcome
import SourceCensus.Proofs.Output.Canonical
import SourceCensus.Proofs.Csv.Reading
import SourceCensus.Proofs.Json.Reading
import SourceCensus.Output.Record
import SourceCensus.Proofs.Output.Rows
import SourceCensus.Proofs.Output.Agreement
import SourceCensus.Line.Flags
import SourceCensus.Line.Places
import SourceCensus.Proofs.Pattern.Rests
import SourceCensus.Proofs.Line.Places
import SourceCensus.Proofs.Line.Flags
import SourceCensus.Proofs.Graph.Propagation
import SourceCensus.Proofs.Pattern.Describing
import SourceCensus.Proofs.Pattern.Ends
import SourceCensus.Proofs.Accessor.Greedy
import SourceCensus.Proofs.Count.Joining
import SourceCensus.Proofs.Text.Trimming
import SourceCensus.Proofs.Line.Unmarked
import SourceCensus.Proofs.Count.Comments
import SourceCensus.Proofs.Count.CommentLines
import SourceCensus.Proofs.Count.TextBlocks
import SourceCensus.Proofs.Count.Layout
import SourceCensus.Proofs.Accessor.Joining
import SourceCensus.Proofs.Count.Concatenation
import SourceCensus.Proofs.Accessor.OneLine
import SourceCensus.Proofs.Count.OneLine
import SourceCensus.Proofs.Graph.Edges
import SourceCensus.Proofs.Graph.Stopping
import SourceCensus.Proofs.Graph.Unguarded
import SourceCensus.Proofs.FileSystem.Reordering
import SourceCensus.Proofs.Walk.Downward
import SourceCensus.Proofs.Analysis.Namespaces
import SourceCensus.Proofs.Import.Grammar
import SourceCensus.Proofs.Report.SharedNames
import SourceCensus.Proofs.Dotted.Files
import SourceCensus.Proofs.Dotted.Namespaces
import SourceCensus.Proofs.Encoding.RoundTrip
import SourceCensus.Proofs.Text.LineEnds
import SourceCensus.Proofs.SourceFile.Written
