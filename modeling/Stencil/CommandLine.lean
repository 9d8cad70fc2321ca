import Stencil.Arguments

/-!
# The command line of a program

How a command line is read, and how a fault is shown, is left open here.

* `Outcome`: what a program leaves behind.
* `CommandLine`: what reads command lines and shows faults.
* `Request.jobOf`, `Report.text`: the command line that `Request.parse` makes, which serves where no
  other is given.
-/

namespace Stencil

/-- What a program leaves behind: its exit code and what it wrote. -/
structure Outcome where
  exitCode : Nat := 0
  output : String := ""
  errors : String := ""
  deriving DecidableEq, Repr

/-- What reads command lines and shows faults. -/
class CommandLine where
  /-- The job that a command line asks for, or what is left behind without one. -/
  job : List String → Except Outcome Job
  /-- What is written of a fault, given its messages from the outside in. -/
  report : List String → String

/-! ## Requests -/

def versionText : String := "undertemplate 0.1.0\n"

def helpText : String :=
  String.intercalate "\n"
    ["Render a template against a JSON or YAML data file",
     "",
     "Usage: undertemplate [OPTIONS] <TEMPLATE>",
     "",
     "Arguments:",
     "  <TEMPLATE>  Template file to render",
     "",
     "Options:",
     "  -d, --data <FILE>    Data context (.json, .yaml or .yml); defaults to an empty context",
     "  -s, --syntax <FILE>  TOML file overriding directive patterns",
     "  -o, --output <FILE>  Write output to FILE instead of stdout",
     "      --check          Only compile the template and report structural errors",
     "  -v, --verbose...     Verbose output (-v for info, -vv for debug)",
     "  -h, --help           Print help",
     "  -V, --version        Print version",
     ""]

/-- The job of a command line, or what is left behind where it asks for help, for the version or
for nothing. -/
def Request.jobOf (arguments : List String) : Except Outcome Job :=
  match parse arguments with
  | .ok (.run job) => .ok job
  | .ok .help => .error { output := helpText }
  | .ok .version => .error { output := versionText }
  | .error fault => .error { exitCode := 2, errors := "error: " ++ fault.message ++ "\n" }

/-! ## Reports -/

namespace Report

/-- A text with something before its first line, and something else before the others. -/
def indented (first later text : String) : String :=
  first ++ String.ofList (text.toList.flatMap fun c => if c = '\n' then c :: later.toList else [c])

def numbered (cause : String × Nat) : String :=
  let number := toString cause.2
  indented ("".pushn ' ' (5 - number.length) ++ number ++ ": ") "       " cause.1

def causes : List String → String
  | [] => ""
  | [cause] => "\n\nCaused by:\n" ++ indented "    " "    " cause
  | causes => "\n\nCaused by:\n" ++ "\n".intercalate (causes.zipIdx.map numbered)

/-- What is written of a fault: its message, and what caused it below. -/
def text : List String → String
  | [] => "Error: \n"
  | message :: causes => "Error: " ++ message ++ Report.causes causes ++ "\n"

end Report

instance (priority := low) : CommandLine := ⟨Request.jobOf, Report.text⟩

end Stencil
