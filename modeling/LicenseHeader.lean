import LicenseHeader.FileTree
import LicenseHeader.Main
import LicenseHeader.Proofs.Arguments.Order
import LicenseHeader.Proofs.Arguments.Prefixes
import LicenseHeader.Proofs.Check.Continuation
import LicenseHeader.Proofs.Check.Pieces
import LicenseHeader.Proofs.Detection.Choice
import LicenseHeader.Proofs.Detection.Completion
import LicenseHeader.Proofs.Detection.Matching
import LicenseHeader.Proofs.Detection.Monotone
import LicenseHeader.Proofs.Detection.Refinement
import LicenseHeader.Proofs.Detection.Settled
import LicenseHeader.Proofs.Moonfire.Contract
import LicenseHeader.Proofs.Moonfire.Pieces
import LicenseHeader.Proofs.Reader.Failures
import LicenseHeader.Proofs.Reader.Joining
import LicenseHeader.Proofs.Reader.Normalization
import LicenseHeader.Proofs.Reader.Progress
import LicenseHeader.Proofs.Reader.Validity
import LicenseHeader.Proofs.Report.ReadBack
import LicenseHeader.Proofs.Report.Verdicts
import LicenseHeader.Proofs.Run.Presentation
