import SyntaxTriage.CommandLine.Arguments

/-!
The commands of the program, their options, and the texts that explain them.
-/

namespace SyntaxTriage.CommandLine

def programName : String := "pyfront"

def helpFlag : Flag := ⟨["-h", "--help"], false⟩

def verboseFlag : Flag := ⟨["-v", "--verbose"], false⟩

def modeFlag : Flag := ⟨["--mode"], true⟩

def interactiveFlag : Flag := ⟨["--interactive"], false⟩

def programFlags : List Flag := [helpFlag, verboseFlag]

inductive Command where
  /-- Tells whether a file is valid. -/
  | check
  /-- Shows the tree of a file. -/
  | tree
  deriving DecidableEq

namespace Command

def all : List Command := [check, tree]

def name : Command → String
  | check => "check"
  | tree => "tree"

def ofName? (name : String) : Option Command := all.find? (·.name = name)

def flags : Command → List Flag
  | check => [helpFlag, modeFlag, interactiveFlag]
  | tree => [helpFlag, modeFlag]

def usage : Command → String
  | check => "usage: pyfront check [-h] [--mode MODE] [--interactive] file\n"
  | tree => "usage: pyfront tree [-h] [--mode MODE] file\n"

def help : Command → String
  | check => check.usage ++ "\n" ++
    "positional arguments:\n" ++
    "  file           Input .py file\n" ++
    "\n" ++
    "options:\n" ++
    "  -h, --help     show this help message and exit\n" ++
    "  --mode MODE    exec, eval or single\n" ++
    "  --interactive  Report incomplete input (exit 2) separately from hard errors\n"
  | tree => tree.usage ++ "\n" ++
    "positional arguments:\n" ++
    "  file         Input .py file\n" ++
    "\n" ++
    "options:\n" ++
    "  -h, --help   show this help message and exit\n" ++
    "  --mode MODE  exec, eval or single\n"

end Command

def programUsage : String := "usage: pyfront [-h] [-v] \x7bcheck,tree\x7d ...\n"

def programHelp : String :=
  programUsage ++ "\n" ++
  "Parse Python sources and report classified syntax errors\n" ++
  "\n" ++
  "positional arguments:\n" ++
  "  \x7bcheck,tree\x7d\n" ++
  "    check        Parse a file and report the first syntax error\n" ++
  "    tree         Show the parse tree (debug)\n" ++
  "\n" ++
  "options:\n" ++
  "  -h, --help     show this help message and exit\n" ++
  "  -v, --verbose  Enable debug logging\n"

end SyntaxTriage.CommandLine
