import LicenseHeader.Config
import LicenseHeader.Detection.Basic
import LicenseHeader.Reader.Lines

/-!
# Checking content

The expected header is looked for among lines that are given, or among those of a reader.
Reading goes no further than detection does.

## Main definitions

* `Config.detectLines`: detection among given lines.
* `Config.detectRead`: detection among the lines of a reader.
-/

namespace LicenseHeader

/-- Detects the expected header among given lines, some of which may be failures. -/
def Config.detectLines {ε : Type} (config : Config) (items : List (Except ε Line)) :
    Outcome Rule (List (Except ε Line)) ε :=
  detectList Rule.accepts config.rules config.window items

/-- Detects the expected header among the lines of a reader. -/
def Config.detectRead (config : Config) (style : LineStyle) (reader : Reader) :
    Outcome Rule Reader Failure :=
  detect Rule.accepts (Reader.next style) config.rules config.window reader

end LicenseHeader
