/-!
# Help

The texts that the program prints about itself, line by line.

## Main definitions

* `versionText`: the name and version.
* `helpText`: the help, in short or in full.
-/

namespace LicenseHeader

/-- The name and version of the program. -/
def versionText : String := "has-license 0.1.0\n"

/-- Lines of text, each with its line feed. -/
def textOfLines (lines : List String) : String :=
  String.join (lines.map (· ++ "\n"))

/-- What stands above the arguments in either help. -/
def helpIntroduction : List String :=
  ["has-license v0.1.0",
    "",
    "Checks that source files carry the expected Moonfire NVR copyright/license header " ++
      "lines. Runs as a CI gate over a file list or as a pre-commit formatter hook over " ++
      "standard input.",
    "",
    "Usage: has-license [OPTIONS] [FILES]...",
    "",
    "Arguments:"]

/-- What the file names are, in a sentence. -/
def helpFiles : String :=
  "Files to check. Only .js, .jsx, .ts, .tsx, .html, .css, .py, .rs, .sh and .sql files " ++
    "are inspected. Reads standard input when omitted"

/-- The arguments, one to a line. -/
def shortHelpArguments : List String :=
  ["  [FILES]...  " ++ helpFiles,
    "",
    "Options:",
    "  -v, --verbose...       Increase verbosity (-v info, -vv debug, -vvv trace)",
    "  -q, --quiet            Only print the names of files missing the header",
    "      --colors [<WHEN>]  Control when to use colored output (auto, never, always) " ++
      "[default: auto] [possible values: auto, never, always]",
    "  -h, --help             Print help (see more with '--help')",
    "  -V, --version          Print version"]

/-- The arguments, each with a paragraph of its own. -/
def fullHelpArguments : List String :=
  ["  [FILES]...",
    "          " ++ helpFiles,
    "",
    "Options:",
    "  -v, --verbose...",
    "          Increase verbosity (-v info, -vv debug, -vvv trace)",
    "",
    "  -q, --quiet",
    "          Only print the names of files missing the header",
    "",
    "      --colors [<WHEN>]",
    "          Control when to use colored output (auto, never, always)",
    "",
    "          Possible values:",
    "          - auto:   Use colors only when the output stream supports them",
    "          - never:  Never use colors",
    "          - always: Always use colors",
    "          ",
    "          [default: auto]",
    "",
    "  -h, --help",
    "          Print help (see a summary with '-h')",
    "",
    "  -V, --version",
    "          Print version"]

/-- What stands below the arguments in either help. -/
def helpExamples : List String :=
  ["",
    "Examples:",
    "  # CI: check that every web, Python, Rust, shell and SQL file has the header",
    "  has-license $(git ls-files)",
    "",
    "  # Pre-commit: check staged content on stdin, reporting only by exit code",
    "  git-format-staged --no-write --formatter 'has-license' '*.rs'",
    "",
    "  # Print only the offending file names",
    "  has-license --quiet src/*.rs"]

/-- The help, in short or in full. -/
def helpText (full : Bool) : String :=
  textOfLines
    (helpIntroduction ++ (if full then fullHelpArguments else shortHelpArguments) ++
      helpExamples)

end LicenseHeader
