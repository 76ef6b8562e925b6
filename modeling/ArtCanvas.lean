import ArtCanvas.Artwork.Builder
import ArtCanvas.Main
import ArtCanvas.Proofs.Artwork.Links
import ArtCanvas.Proofs.Artwork.Walks
import ArtCanvas.Proofs.Artwork.Sight
import ArtCanvas.Proofs.Artwork.Rows
import ArtCanvas.Proofs.Artwork.Building
import ArtCanvas.Proofs.Geometry.Unions
import ArtCanvas.Proofs.Geometry.Maps
import ArtCanvas.Proofs.Identifier.Unique
import ArtCanvas.Proofs.Identifier.Name
import ArtCanvas.Proofs.Identifier.Reading
import ArtCanvas.Proofs.Identifier.Letters
import ArtCanvas.Proofs.Identifier.Strict
import ArtCanvas.Proofs.Identifier.Counting
import ArtCanvas.Proofs.Text.Cleaning
import ArtCanvas.Proofs.Text.Lines
import ArtCanvas.Proofs.Text.Pieces
import ArtCanvas.Proofs.Text.Literal
import ArtCanvas.Proofs.Trigger.Text
import ArtCanvas.Proofs.LayerName.Grammar
import ArtCanvas.Proofs.Function.Registration
import ArtCanvas.Proofs.Function.Reuse
import ArtCanvas.Proofs.Clock.Fields
import ArtCanvas.Proofs.Function.Settings
import ArtCanvas.Proofs.Setting.Sequence
import ArtCanvas.Proofs.Setting.Order
import ArtCanvas.Proofs.Pattern.Table
import ArtCanvas.Proofs.Pattern.Names
import ArtCanvas.Proofs.Pattern.Canvases
import ArtCanvas.Proofs.Pattern.Calls
import ArtCanvas.Proofs.Scan.Tour
import ArtCanvas.Proofs.Scan.Measure
import ArtCanvas.Proofs.Scan.Registering
import ArtCanvas.Proofs.Scan.Effect
import ArtCanvas.Proofs.Scan.PathSearch
import ArtCanvas.Proofs.Scan.Limit
import ArtCanvas.Proofs.Scan.Once
import ArtCanvas.Proofs.Scan.Records
import ArtCanvas.Proofs.Scan.Visits
import ArtCanvas.Proofs.Scan.LeftOut
import ArtCanvas.Proofs.Scan.Uses
import ArtCanvas.Proofs.Scan.Mentions
import ArtCanvas.Proofs.Scan.Unfolding
import ArtCanvas.Proofs.Compile.Drawn
import ArtCanvas.Proofs.Compile.PaintingOrder
import ArtCanvas.Proofs.Compile.Functions
import ArtCanvas.Proofs.Compile.Crop
import ArtCanvas.Proofs.Compile.Dependence
import ArtCanvas.Proofs.Compile.DepthLimit
import ArtCanvas.Proofs.Compile.Sight
import ArtCanvas.Proofs.Compile.Warnings
import ArtCanvas.Proofs.Function.Binding
import ArtCanvas.Proofs.Function.Place
import ArtCanvas.Proofs.Compile.Page
import ArtCanvas.Proofs.Compile.Canvases
import ArtCanvas.Proofs.Compile.Quotes
import ArtCanvas.Proofs.Compile.References
import ArtCanvas.Proofs.Compile.SymbolNames
import ArtCanvas.Proofs.Script.Locals
import ArtCanvas.Proofs.Script.Painted
import ArtCanvas.Proofs.Script.Written
import ArtCanvas.Proofs.Script.Scopes
import ArtCanvas.Proofs.Script.Outlines
import ArtCanvas.Proofs.Script.Opacity
import ArtCanvas.Proofs.Script.SymbolCalls
import ArtCanvas.Proofs.Script.SymbolRecursion
import ArtCanvas.Proofs.Script.TileOrder
import ArtCanvas.Proofs.Script.Sight
import ArtCanvas.Proofs.Script.ClockClosure
import ArtCanvas.Proofs.Script.SymbolLines
import ArtCanvas.Proofs.Script.ModuleNames
import ArtCanvas.Proofs.Script.Declarations
import ArtCanvas.Proofs.Script.Writing
import ArtCanvas.Proofs.Script.Summary
import ArtCanvas.Proofs.Script.Literals
import ArtCanvas.Proofs.Script.Movement
import ArtCanvas.Proofs.Script.HostNames
import ArtCanvas.Proofs.Script.Delimiters
import ArtCanvas.Proofs.Script.ContextCalls
import ArtCanvas.Proofs.Script.Nesting
import ArtCanvas.Proofs.Script.CanvasMap
import ArtCanvas.Proofs.Script.SymbolFactors
import ArtCanvas.Proofs.Script.SymbolPlaces
import ArtCanvas.Proofs.Scalar.Exact
import ArtCanvas.Proofs.Scalar.Binary64
import ArtCanvas.Proofs.Scalar.Rounding
import ArtCanvas.Proofs.Scalar.Within
import ArtCanvas.Proofs.Decimal.Written
import ArtCanvas.Proofs.Decimal.Coordinates
import ArtCanvas.Proofs.Geometry.Flips
import ArtCanvas.Proofs.Clock.History
import ArtCanvas.Proofs.Clock.Language
import ArtCanvas.Proofs.Clock.Execution
import ArtCanvas.Proofs.Clock.Program
import ArtCanvas.Proofs.Clock.Sampling
import ArtCanvas.Proofs.Clock.Course
import ArtCanvas.Proofs.Clock.Methods
import ArtCanvas.Proofs.Clock.Agreement
import ArtCanvas.Proofs.Motion.Lengths
import ArtCanvas.Proofs.Motion.Code
import ArtCanvas.Proofs.Motion.Agreement
import ArtCanvas.Proofs.Easing.Shapes
import ArtCanvas.Proofs.Easing.Formulas
import ArtCanvas.Proofs.Easing.Algebraic
