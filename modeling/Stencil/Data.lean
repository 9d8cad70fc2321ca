import Stencil.Context
import Stencil.Document.Dialect
import Stencil.Files.Host
import Stencil.Files.Name
import Stencil.Text.Quoted

/-!
# Loading data and dialects

* `DataFormat.ofName`: the format of a data file, by its name.
* `Context.parse`, `Dialect.parse`: the context and the dialect that a text describes.
* `Context.load`, `Dialect.load`: the same from a file.
* `LoadFault.message`, `LoadFault.causes`: what is told when that fails.
-/

namespace Stencil

open Text

inductive DataFormat where
  | json | yaml
  deriving DecidableEq, Repr

/-- The format of a data file: YAML for the extensions `yaml` and `yml`, else JSON. -/
def DataFormat.ofName (name : String) : DataFormat :=
  if FileName.extension? name = some "yaml" || FileName.extension? name = some "yml" then .yaml
  else .json

/-- What a document is that has no members. -/
inductive RootKind where
  | boolean | number | string | array
  deriving DecidableEq, Repr

def RootKind.name : RootKind → String
  | boolean => "a boolean"
  | number => "a number"
  | string => "a string"
  | array => "an array"

/-- Why a text is no data document, with what its reader says. -/
inductive DataFault where
  | invalidJson (cause : String)
  | invalidYaml (cause : String)
  /-- The document is read, but it has no members. -/
  | root (found : RootKind)
  deriving DecidableEq, Repr

namespace DataFault

def message : DataFault → String
  | invalidJson _ => "Invalid JSON data"
  | invalidYaml _ => "Invalid YAML data"
  | root found => "Data root must be an object, found " ++ found.name

def causes : DataFault → List String
  | invalidJson cause => [cause]
  | invalidYaml cause => [cause]
  | root _ => []

end DataFault

variable [DocumentReader]

def Document.parse (format : DataFormat) (text : String) : Except DataFault Document :=
  match format with
  | .json => (DocumentReader.json text).mapError .invalidJson
  | .yaml => (DocumentReader.yaml text).mapError .invalidYaml

namespace Context

/-- The context of a document: of an object its members, of null nothing. -/
def ofDocument : Document → Except DataFault Context
  | .object members => .ok (.ofPairs (Document.pairs members))
  | .null => .ok empty
  | .bool _ => .error (.root .boolean)
  | .number _ => .error (.root .number)
  | .string _ => .error (.root .string)
  | .array _ => .error (.root .array)

def parse (format : DataFormat) (text : String) : Except DataFault Context :=
  (Document.parse format text).bind ofDocument

end Context

def Dialect.parse (text : String) : Except String Dialect :=
  (DocumentReader.toml text).bind ofSettings

/-! ## Files -/

inductive FileRole where
  | template | dialect | data
  deriving DecidableEq, Repr

/-- A file or directory that cannot be used, with what is said of it. -/
structure Refused where
  name : String
  cause : String
  deriving DecidableEq, Repr

/-- Why a file could not be loaded. -/
inductive LoadFault where
  | unreadable (role : FileRole) (file : Refused)
  | data (name : String) (fault : DataFault)
  | dialect (file : Refused)
  deriving DecidableEq, Repr

namespace LoadFault

def message : LoadFault → String
  | unreadable .template file => "Failed to read template: " ++ quoted file.name
  | unreadable .dialect file => "Failed to read syntax file: " ++ quoted file.name
  | unreadable .data file => "Failed to read data file: " ++ quoted file.name
  | data name _ => "Failed to load data file: " ++ quoted name
  | dialect file => "Invalid syntax file: " ++ quoted file.name

/-- What is told below the message, from the outside in. -/
def causes : LoadFault → List String
  | unreadable _ file => [file.cause]
  | data _ fault => fault.message :: fault.causes
  | dialect file => [file.cause]

end LoadFault

variable {m : Type → Type} [Monad m] [Host m]

def loadText (role : FileRole) (name : String) : ExceptT LoadFault m String := do
  match ← (Host.readText name : m (Except String String)) with
  | .ok text => return text
  | .error cause => throw (.unreadable role ⟨name, cause⟩)

/-- The context of a data file, the empty one when no file is given. -/
def Context.load (name : Option String) : ExceptT LoadFault m Context := do
  match name with
  | none => return .empty
  | some name =>
    let text ← loadText .data name
    match Context.parse (.ofName name) text with
    | .ok c => return c
    | .error fault => throw (.data name fault)

/-- The dialect of a file, the standard one when no file is given. -/
def Dialect.load (name : Option String) : ExceptT LoadFault m Dialect := do
  match name with
  | none => return .standard
  | some name =>
    let text ← loadText .dialect name
    match Dialect.parse text with
    | .ok d => return d
    | .error cause => throw (.dialect ⟨name, cause⟩)

end Stencil
