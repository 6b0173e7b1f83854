import PlainSteps.Main
import PlainSteps.Regex.SearchLemmas
import PlainSteps.Proofs.Regex.Choices
import PlainSteps.Proofs.Template.Lines
import PlainSteps.Proofs.Template.Ways
import PlainSteps.Proofs.Template.Captures
import PlainSteps.Proofs.Template.Preferred
import PlainSteps.Proofs.Template.Filled
import PlainSteps.Proofs.Source.Unfolding
import PlainSteps.Proofs.Effect
import PlainSteps.Proofs.Step.Tree
import PlainSteps.Proofs.Resolve.Addresses
import PlainSteps.Proofs.Resolve.Order
import PlainSteps.Proofs.Run.Scores
import PlainSteps.Proofs.Run.Negation
import PlainSteps.Proofs.Regex.Written
import PlainSteps.Proofs.Regex.Alike
import PlainSteps.Proofs.Regex.ReadBack
import PlainSteps.Proofs.Template.Source
import PlainSteps.Proofs.Regex.Reached
import PlainSteps.Proofs.Builtin.Forms
import PlainSteps.Proofs.Builtin.Setting
import PlainSteps.Proofs.Resolve.Offered
import PlainSteps.Proofs.Run.Calls
import PlainSteps.Proofs.Run.Ending
import PlainSteps.Proofs.Run.Isolation
import PlainSteps.Proofs.Resolve.Known
import PlainSteps.Proofs.Config.Splits
import PlainSteps.Proofs.Template.Phrase
import PlainSteps.Proofs.Resolve.Backgrounds
import PlainSteps.Proofs.Domain.Calls
import PlainSteps.Proofs.Domain.Required
import PlainSteps.Proofs.FilePath
import PlainSteps.Proofs.Source.FullPath
import PlainSteps.Proofs.Cli.Precedence
import PlainSteps.Proofs.Domain.Unions
import PlainSteps.Proofs.Resolve.Nesting
import PlainSteps.Proofs.Template.Introduced
import PlainSteps.Proofs.Regex.Heading
import PlainSteps.Proofs.Builtin.Unique
import PlainSteps.Proofs.Resolve.Fallbacks
import PlainSteps.Proofs.Source.Directories
import PlainSteps.Proofs.Resolve.Defined
import PlainSteps.Proofs.Run.Options
import PlainSteps.Proofs.Variables
import PlainSteps.Proofs.Builtin.Stored
import PlainSteps.Proofs.Run.Finalizers
import PlainSteps.Proofs.Config.Order
import PlainSteps.Proofs.Source.Lines
import PlainSteps.Proofs.Template.Parts
import PlainSteps.Proofs.Template.Faults
import PlainSteps.Proofs.World.Calls
