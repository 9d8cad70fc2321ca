/-!
# Command lines

* `Arguments`: what a command line asks for.
* `Request.parse`: the request of a command line, or its fault.
-/

namespace Stencil

inductive FileOption where
  | data | dialect | output
  deriving DecidableEq, Repr

/-- What a command line says. -/
structure Arguments where
  template : Option String := none
  data : Option String := none
  dialect : Option String := none
  output : Option String := none
  check : Bool := false
  deriving DecidableEq, Repr

/-- A template to render, with what else a command line says. -/
structure Job where
  template : String
  data : Option String := none
  dialect : Option String := none
  output : Option String := none
  check : Bool := false
  deriving DecidableEq, Repr

/-- What a command line asks for. -/
inductive Request where
  | run (job : Job)
  | help
  | version
  deriving DecidableEq, Repr

/-- Why a command line asks for nothing. -/
inductive UsageFault where
  | unknownOption (text : String)
  | valueMissing (option : FileOption)
  | valueEmpty
  | valueUnexpected (text : String)
  | optionRepeated
  | argumentUnexpected (text : String)
  | templateMissing
  deriving DecidableEq, Repr

def UsageFault.message : UsageFault → String
  | unknownOption text => "unexpected argument '" ++ text ++ "' found"
  | valueMissing _ => "a value is required but none was supplied"
  | valueEmpty => "a value is required but an empty one was supplied"
  | valueUnexpected text => "unexpected value for '" ++ text ++ "' found"
  | optionRepeated => "an argument cannot be used multiple times"
  | argumentUnexpected text => "unexpected argument '" ++ text ++ "' found"
  | templateMissing => "the following required arguments were not provided: <TEMPLATE>"

namespace Arguments

def file? (a : Arguments) : FileOption → Option String
  | .data => a.data
  | .dialect => a.dialect
  | .output => a.output

def setFile (a : Arguments) (option : FileOption) (name : String) :
    Except UsageFault Arguments :=
  if name = "" then .error .valueEmpty
  else if (a.file? option).isSome then .error .optionRepeated
  else
    match option with
    | .data => .ok { a with data := some name }
    | .dialect => .ok { a with dialect := some name }
    | .output => .ok { a with output := some name }

def setTemplate (a : Arguments) (name : String) : Except UsageFault Arguments :=
  if a.template.isSome then .error (.argumentUnexpected name)
  else if name = "" then .error .valueEmpty
  else .ok { a with template := some name }

def setCheck (a : Arguments) : Except UsageFault Arguments :=
  if a.check then .error .optionRepeated else .ok { a with check := true }

def job (a : Arguments) : Except UsageFault Job :=
  match a.template with
  | some template =>
    .ok { template, data := a.data, dialect := a.dialect, output := a.output, check := a.check }
  | none => .error .templateMissing

end Arguments

/-- What follows from one argument. -/
inductive ArgumentStep where
  | done (a : Arguments)
  | awaits (a : Arguments) (option : FileOption)
  | stop (r : Request)

namespace Request

/-- Whether an argument is read as options. -/
def isOption (text : String) : Bool :=
  match text.toList with
  | '-' :: _ :: _ => true
  | _ => false

inductive Flag where
  | file (option : FileOption)
  | check | verbose | help | version
  deriving DecidableEq, Repr

def letterFlag? : Char → Option Flag
  | 'd' => some (.file .data)
  | 's' => some (.file .dialect)
  | 'o' => some (.file .output)
  | 'v' => some .verbose
  | 'h' => some .help
  | 'V' => some .version
  | _ => none

def namedFlag? : String → Option Flag
  | "data" => some (.file .data)
  | "syntax" => some (.file .dialect)
  | "output" => some (.file .output)
  | "check" => some .check
  | "verbose" => some .verbose
  | "help" => some .help
  | "version" => some .version
  | _ => none

/-- A flag that takes no value; how much is logged does not concern the job. -/
def applyFlag (a : Arguments) : Flag → Except UsageFault ArgumentStep
  | .file option => .ok (.awaits a option)
  | .check => a.setCheck.map .done
  | .verbose => .ok (.done a)
  | .help => .ok (.stop .help)
  | .version => .ok (.stop .version)

/-- Flags by their letters, one after another; what follows a letter that takes a file is
its name, with or without an equals sign before it. -/
def readLetters (a : Arguments) : List Char → Except UsageFault ArgumentStep
  | [] => .ok (.done a)
  | c :: cs =>
    match letterFlag? c with
    | none => .error (.unknownOption (String.ofList ['-', c]))
    | some (.file option) =>
      match cs with
      | [] => .ok (.awaits a option)
      | '=' :: name => (a.setFile option (String.ofList name)).map .done
      | name => (a.setFile option (String.ofList name)).map .done
    | some flag =>
      match applyFlag a flag with
      | .ok (.done a) => readLetters a cs
      | step => step

/-- A flag by its name, with a value after an equals sign or without. -/
def readNamed (a : Arguments) (text : List Char) : Except UsageFault ArgumentStep :=
  let (name, value) := text.span (· != '=')
  match namedFlag? (String.ofList name), value with
  | none, _ => .error (.unknownOption (String.ofList ('-' :: '-' :: name)))
  | some (.file option), _ :: value => (a.setFile option (String.ofList value)).map .done
  | some flag, [] => applyFlag a flag
  | some _, _ :: _ => .error (.valueUnexpected (String.ofList ('-' :: '-' :: name)))

def readArgument (a : Arguments) (text : String) : Except UsageFault ArgumentStep :=
  match text.toList with
  | '-' :: '-' :: name => readNamed a name
  | '-' :: c :: cs => readLetters a (c :: cs)
  | _ => (a.setTemplate text).map .done

def readOperands (a : Arguments) : List String → Except UsageFault Request
  | [] => a.job.map .run
  | text :: rest =>
    match a.setTemplate text with
    | .ok a => readOperands a rest
    | .error e => .error e

/-- Arguments one after another.  `awaited` is the option whose value comes next. -/
def readArguments (a : Arguments) (awaited : Option FileOption) :
    List String → Except UsageFault Request
  | [] =>
    match awaited with
    | some option => .error (.valueMissing option)
    | none => a.job.map .run
  | text :: rest =>
    match awaited with
    | some option =>
      if isOption text then .error (.valueMissing option)
      else
        match a.setFile option text with
        | .ok a => readArguments a none rest
        | .error e => .error e
    | none =>
      if text = "--" then readOperands a rest
      else
        match readArgument a text with
        | .ok (.done a) => readArguments a none rest
        | .ok (.awaits a option) => readArguments a (some option) rest
        | .ok (.stop r) => .ok r
        | .error e => .error e

def parse (arguments : List String) : Except UsageFault Request :=
  readArguments {} none arguments

end Request

end Stencil
