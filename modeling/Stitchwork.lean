import Stitchwork.Main
import Stitchwork.Proofs.Command.Settings
import Stitchwork.Proofs.Command.Status
import Stitchwork.Proofs.Formula.Mentions
import Stitchwork.Proofs.Formula.Multiples
import Stitchwork.Proofs.Formula.Scanning
import Stitchwork.Proofs.Pattern.Storing
import Stitchwork.Proofs.Project.Colors
import Stitchwork.Proofs.Project.Conditions
import Stitchwork.Proofs.Project.Gathering
import Stitchwork.Proofs.Project.Handing
import Stitchwork.Proofs.Project.LiteralTexts
import Stitchwork.Proofs.Project.Nesting
import Stitchwork.Proofs.Project.Numbering
import Stitchwork.Proofs.Project.Restoring
import Stitchwork.Proofs.Project.Reuse
import Stitchwork.Proofs.Project.Runs
import Stitchwork.Proofs.Project.StitchCount
import Stitchwork.Proofs.Project.WellFormed
import Stitchwork.Proofs.Workbench
