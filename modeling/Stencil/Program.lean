import Stencil.CommandLine
import Stencil.Data
import Stencil.Template.Compile
import Stencil.Template.Render
import Stencil.Text.Position

/-!
# The program

* `TemplateError.describe`: a fault of a template with its place.
* `Job.run`: what a job does on a host.
* `runProgram`: what a command line does on a host.
-/

namespace Stencil

open Text

def TemplateError.describe (name source : String) (e : TemplateError) : String :=
  match e.offset? with
  | some offset =>
    let p := Position.ofOffset source offset
    name ++ ":" ++ toString p.line ++ ":" ++ toString p.column ++ ": " ++ e.message
  | none => name ++ ": " ++ e.message

inductive JobFault where
  | load (fault : LoadFault)
  | template (name source : String) (e : TemplateError)
  | directoryNotCreated (file : Refused)
  | outputNotWritten (file : Refused)
  deriving DecidableEq, Repr

/-- What went wrong, in words, from the outside in. -/
def JobFault.messages : JobFault → List String
  | load fault => fault.message :: fault.causes
  | template name source e => [e.describe name source]
  | directoryNotCreated file =>
    ["Failed to create output directory: " ++ quoted file.name, file.cause]
  | outputNotWritten file => ["Failed to write output file: " ++ quoted file.name, file.cause]

variable [PatternCompiler] [DocumentReader] [CommandLine]
variable {m : Type → Type} [Monad m] [Host m]

def loading {α : Type} (x : ExceptT LoadFault m α) : ExceptT JobFault m α := x.adapt .load

def resulting {α ε : Type} (x : Except ε α) : ExceptT ε m α := .mk (pure x)

def createParents (name : String) : ExceptT JobFault m Unit := do
  match FileName.parent? name with
  | none => pure ()
  | some directory =>
    if directory ≠ "" then
      match ← (Host.createDirectories directory : m (Except String Unit)) with
      | .ok () => pure ()
      | .error cause => throw (.directoryNotCreated ⟨directory, cause⟩)

def writeFile (name text : String) : ExceptT JobFault m Unit := do
  match ← (Host.writeText name text : m (Except String Unit)) with
  | .ok () => pure ()
  | .error cause => throw (.outputNotWritten ⟨name, cause⟩)

def writeOutput (name text : String) : ExceptT JobFault m Unit := do
  createParents name
  writeFile name text

namespace Job

def compile (job : Job) : ExceptT JobFault m Template := do
  let source ← loading (loadText .template job.template)
  let dialect ← loading (Dialect.load job.dialect)
  resulting ((Template.compile dialect source).mapError (.template job.template source))

/-- Puts an output out, in the file that is named for it or else on standard output. -/
def putOut (job : Job) (text : String) : ExceptT JobFault m Outcome := do
  match job.output with
  | some name =>
    writeOutput name text
    return {}
  | none => return { output := text }

/-- What a job does: it reads the template, the dialect and the data, in this order, and
writes the output. -/
def steps (job : Job) : ExceptT JobFault m Outcome := do
  let template ← job.compile
  if job.check then return { errors := job.template ++ ": ok\n" }
  let context ← loading (Context.load job.data)
  job.putOut (template.render context)

def run (job : Job) : m Outcome := do
  match ← job.steps.run with
  | .ok outcome => return outcome
  | .error fault => return { exitCode := 1, errors := CommandLine.report fault.messages }

end Job

/-- What a command line leaves behind. -/
def runProgram (arguments : List String) : m Outcome :=
  match CommandLine.job arguments with
  | .ok job => job.run
  | .error outcome => pure outcome

end Stencil
