import CellShader.CommandLine.Arguments
import CellShader.CommandLine.Help
import CellShader.CommandLine.Run
import CellShader.CommandLine.Switch
import CellShader.Files.Fault
import CellShader.Files.Listing
import CellShader.Files.Opening
import CellShader.Files.Path
import CellShader.Files.RealPlace
import CellShader.Files.Tree
import CellShader.Grid.Box
import CellShader.Grid.Fault
import CellShader.Grid.Field
import CellShader.Grid.NumberArray
import CellShader.Grid.Numbers
import CellShader.Grid.Torus
import CellShader.Log.Level
import CellShader.Log.Logger
import CellShader.Main
import CellShader.Number.Fault
import CellShader.Number.Floating
import CellShader.Number.IntegerType
import CellShader.Number.Machine
import CellShader.Number.Reading
import CellShader.Number.Shortest
import CellShader.Packaged.Templates
import CellShader.Proofs.CommandLine.Numbering
import CellShader.Proofs.CommandLine.Outcome
import CellShader.Proofs.Files.Leading
import CellShader.Proofs.Files.Pieces
import CellShader.Proofs.Files.Refusal
import CellShader.Proofs.Files.Writing
import CellShader.Proofs.Grid.CellByCell
import CellShader.Proofs.Grid.Influence
import CellShader.Proofs.Grid.Integers
import CellShader.Proofs.Grid.LifeLike
import CellShader.Proofs.Grid.Masks
import CellShader.Proofs.Grid.Membership
import CellShader.Proofs.Grid.NeighborCounts
import CellShader.Proofs.Grid.Symmetry
import CellShader.Proofs.Grid.Torus
import CellShader.Proofs.Log.Filtering
import CellShader.Proofs.Number.Rounding
import CellShader.Proofs.Recipe.Canonical
import CellShader.Proofs.Recipe.Construction
import CellShader.Proofs.Recipe.Counts
import CellShader.Proofs.Recipe.Registry
import CellShader.Proofs.Recipe.Rulestring
import CellShader.Proofs.Shader.Agreement
import CellShader.Proofs.Shader.Bookkeeping
import CellShader.Proofs.Shader.Brackets
import CellShader.Proofs.Shader.CallStack
import CellShader.Proofs.Shader.Confined
import CellShader.Proofs.Shader.CopyPlace
import CellShader.Proofs.Shader.CopyText
import CellShader.Proofs.Shader.Cycle
import CellShader.Proofs.Shader.DirectiveRows
import CellShader.Proofs.Shader.Effects
import CellShader.Proofs.Shader.Exchange
import CellShader.Proofs.Shader.Failing
import CellShader.Proofs.Shader.ImportGraph
import CellShader.Proofs.Shader.Moments
import CellShader.Proofs.Shader.PlainInlining
import CellShader.Proofs.Shader.Reporting
import CellShader.Proofs.Shader.Scan
import CellShader.Proofs.Shader.ScanLaws
import CellShader.Proofs.Shader.Spelling
import CellShader.Proofs.Shader.Splicing
import CellShader.Proofs.Shader.Strays
import CellShader.Proofs.Shader.Substitution
import CellShader.Proofs.Shader.Walk
import CellShader.Proofs.Shader.Weight
import CellShader.Proofs.Text.Occurrences
import CellShader.Proofs.Text.Rows
import CellShader.Proofs.Text.Utf8
import CellShader.Proofs.Wgsl.Compiled
import CellShader.Proofs.Wgsl.Reading
import CellShader.Proofs.Wgsl.Running
import CellShader.Recipe.Build
import CellShader.Recipe.Counts
import CellShader.Recipe.Fault
import CellShader.Recipe.Order
import CellShader.Recipe.Registry
import CellShader.Recipe.Rulestring
import CellShader.Recipe.Term
import CellShader.Recipe.Value
import CellShader.Rule.Basic
import CellShader.Rule.Display
import CellShader.Rule.LifeLike
import CellShader.Rule.Meaning
import CellShader.Rule.Wgsl
import CellShader.Shader.Assembly
import CellShader.Shader.Config
import CellShader.Shader.Directive
import CellShader.Shader.Event
import CellShader.Shader.Expansion
import CellShader.Shader.Failure
import CellShader.Shader.Inlining
import CellShader.Shader.Source
import CellShader.Shader.Sources
import CellShader.Shader.Told
import CellShader.Text.Blank
import CellShader.Text.Cut
import CellShader.Text.Digit
import CellShader.Text.Line
import CellShader.Text.Occurrence
import CellShader.Text.Printable
import CellShader.Text.Quoted
import CellShader.Text.Resemblance
import CellShader.Text.Utf8
