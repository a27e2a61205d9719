import CaretName.Main
import CaretName.Surroundings.Directory
import CaretName.Proofs.Caret
import CaretName.Proofs.Clipboard.Writing
import CaretName.Proofs.CommandLine.Copying
import CaretName.Proofs.Config.Command
import CaretName.Proofs.CopyName
import CaretName.Proofs.Failure
import CaretName.Proofs.Grammar.Apart
import CaretName.Proofs.Grammar.Blanks
import CaretName.Proofs.Grammar.Comments
import CaretName.Proofs.Grammar.Paths
import CaretName.Proofs.Grammar.Plain
import CaretName.Proofs.Json.Encoding
import CaretName.Proofs.Resolution
import CaretName.Proofs.SourceFile.Classification
import CaretName.Proofs.SourceFile.Coherence
import CaretName.Proofs.SourceFile.Constructors
import CaretName.Proofs.SourceFile.Dotted
import CaretName.Proofs.SourceFile.Earlier
import CaretName.Proofs.SourceFile.Enclosing
import CaretName.Proofs.SourceFile.Fidelity
import CaretName.Proofs.SourceFile.Flow
import CaretName.Proofs.SourceFile.Header
import CaretName.Proofs.SourceFile.Identity
import CaretName.Proofs.SourceFile.Inference
import CaretName.Proofs.SourceFile.Labels
import CaretName.Proofs.SourceFile.Order
import CaretName.Proofs.SourceFile.ParameterText
import CaretName.Proofs.SourceFile.Parentheses
import CaretName.Proofs.SourceFile.Pattern
import CaretName.Proofs.SourceFile.Rendering
import CaretName.Proofs.SourceFile.Shown
import CaretName.Proofs.SourceFile.Stability
import CaretName.Proofs.SourceFile.Uncommented
import CaretName.Proofs.Text.Compact
import CaretName.Proofs.Text.Normal
import CaretName.Proofs.Text.Split
import CaretName.Proofs.Tree.Pieces
import CaretName.Proofs.Tree.Plain
