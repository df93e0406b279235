import GrowthGrammar.Expr.Outline
import GrowthGrammar.Growth
import GrowthGrammar.Main
import GrowthGrammar.Proofs.CommandLine.DryRun
import GrowthGrammar.Proofs.CommandLine.Endings
import GrowthGrammar.Proofs.CommandLine.Overrides
import GrowthGrammar.Proofs.CommandLine.Stages
import GrowthGrammar.Proofs.CommandLine.Summary
import GrowthGrammar.Proofs.Config.Pieces
import GrowthGrammar.Proofs.Config.Random
import GrowthGrammar.Proofs.Config.Shorthand
import GrowthGrammar.Proofs.Config.Validity
import GrowthGrammar.Proofs.Curve.ArcLength
import GrowthGrammar.Proofs.Curve.Rings
import GrowthGrammar.Proofs.Expr.RoundTrip
import GrowthGrammar.Proofs.Files.Alike
import GrowthGrammar.Proofs.Files.Refusal
import GrowthGrammar.Proofs.Geometry.Rigid
import GrowthGrammar.Proofs.Geometry.Seams
import GrowthGrammar.Proofs.Geometry.Watertight
import GrowthGrammar.Proofs.Grammar.Canonical
import GrowthGrammar.Proofs.Grammar.Constant
import GrowthGrammar.Proofs.Grammar.RuleList
import GrowthGrammar.Proofs.Grammar.Word
import GrowthGrammar.Proofs.Preset.Sakura
import GrowthGrammar.Proofs.Rewrite.Balance
import GrowthGrammar.Proofs.Rewrite.Completion
import GrowthGrammar.Proofs.Rewrite.Composition
import GrowthGrammar.Proofs.Rewrite.Descent
import GrowthGrammar.Proofs.Rewrite.Draws
import GrowthGrammar.Proofs.Text.Lines
import GrowthGrammar.Proofs.Turtle.Brackets
import GrowthGrammar.Proofs.Turtle.Emission
import GrowthGrammar.Proofs.Turtle.Failure
import GrowthGrammar.Proofs.Turtle.Frames
import GrowthGrammar.Proofs.Turtle.Ownership
import GrowthGrammar.Proofs.Turtle.Session
import GrowthGrammar.Proofs.Wavefront.Comments
import GrowthGrammar.Proofs.Wavefront.Numbers
import GrowthGrammar.Proofs.Wavefront.Shading
import GrowthGrammar.Proofs.Wavefront.Storing
import GrowthGrammar.Text.Quoted
