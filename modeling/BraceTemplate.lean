import BraceTemplate.Json.Reader
import BraceTemplate.Json.Writer
import BraceTemplate.Proofs.Joining.Templates
import BraceTemplate.Proofs.Lines.Removal
import BraceTemplate.Proofs.Reading.Items
import BraceTemplate.Proofs.Scanning.Printing
import BraceTemplate.Proofs.Scanning.Concatenation
import BraceTemplate.Proofs.Scanning.Progress
import BraceTemplate.Proofs.Reading.Names
import BraceTemplate.Proofs.Reading.Nesting
import BraceTemplate.Proofs.Rendering.Failures
import BraceTemplate.Proofs.Rendering.Weakening
import BraceTemplate.Proofs.Reading.Paths
import BraceTemplate.Proofs.Reading.Calls
import BraceTemplate.Proofs.Reading.Compiling
import BraceTemplate.Proofs.Reading.Derivations
import BraceTemplate.Proofs.Merging
import BraceTemplate.Proofs.Rendering.Loops
import BraceTemplate.Proofs.Rendering.Navigation
import BraceTemplate.Proofs.Rendering.Inlining
import BraceTemplate.Proofs.Rendering.Agreement
import BraceTemplate.Proofs.Rendering.LoopVariables
import BraceTemplate.Proofs.Registering.Sessions
import BraceTemplate.Proofs.Joining.CommentLines
import BraceTemplate.Proofs.Joining.LineEndings
import BraceTemplate.Proofs.Rendering.Conditions
import BraceTemplate.Proofs.Scanning.Words
import BraceTemplate.Proofs.Rendering.Lists
