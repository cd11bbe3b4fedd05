/-! The texts of the command line. -/
namespace RelaxDoc.Cli

/-- The name and the version of the program. -/
def versionText : String := "rng2doc 0.1.0\n"

/-- The explanation of the command line. -/
def helpText : String :=
  "Converts a RELAX NG schema into documentation\n" ++
  "\n" ++
  "Usage: rng2doc [OPTIONS] <RNGFILE>\n" ++
  "\n" ++
  "Arguments:\n" ++
  "  <RNGFILE>  RELAX NG grammar in XML syntax\n" ++
  "\n" ++
  "Options:\n" ++
  "  -v, --verbose...         Raise verbosity level (-v info, -vv debug, -vvv trace)\n" ++
  "  -o, --output <OUTPUT>    Output file (defaults to stdout; HTML goes to ./html/index.html)\n" ++
  "  -f, --format <FORMAT>    Output format: xml, html or json [default: xml]\n" ++
  "      --pretty             Indent XML and JSON output\n" ++
  "      --timing             Report the time spent in each phase on stderr\n" ++
  "      --validate           Check the structure of the grammar before documenting it\n" ++
  "      --diagram <DIAGRAM>  Diagram detail for HTML output: full or simple [default: full]\n" ++
  "  -h, --help               Print help\n" ++
  "  -V, --version            Print version\n"

/-- The explanation of a misuse. -/
def misuseText : String :=
  "error: the arguments cannot be understood\n" ++
  "\n" ++
  "Usage: rng2doc [OPTIONS] <RNGFILE>\n" ++
  "\n" ++
  "For more information, try '--help'.\n"

end RelaxDoc.Cli
