import Stencil.Files.Host
import Stencil.Files.Name

/-!
# Trees of files

* `FileTree`: files and directories by their parts.
* `FileTree.readText?`, `FileTree.createDirectories`, `FileTree.writeText?`: the uses of
  a tree.
* A tree of files is a host for programs, under a system that says why it refuses
  (`SystemMessages`).
-/

namespace Stencil

inductive FileNode where
  | file (text : String)
  /-- A file whose bytes are no text. -/
  | bytes
  | directory
  deriving DecidableEq, Repr

/-- Files and directories by their parts.  The root is a directory. -/
structure FileTree where
  nodes : List (List String × FileNode) := []
  /-- The paths at which a program may not read. -/
  unreadable : List (List String) := []
  /-- The paths at which a program may neither write nor create anything. -/
  unwritable : List (List String) := []
  deriving DecidableEq, Repr

namespace FileTree

def node? (t : FileTree) (path : List String) : Option FileNode :=
  if path = [] then some .directory else t.nodes.lookup path

def set (t : FileTree) (path : List String) (n : FileNode) : FileTree :=
  { t with nodes := (path, n) :: t.nodes.filter fun e => e.1 ≠ path }

/-- The path that parts lead to from a directory; every part but the last has to lead to
a directory. -/
def walk? (t : FileTree) (here : List String) : List String → Option (List String)
  | [] => some here
  | part :: parts =>
    if t.node? here = some .directory then t.walk? (FileName.step here part) parts else none

def resolve? (t : FileTree) (name : String) : Option (List String) :=
  if name = "" then none else t.walk? [] (FileName.parts name)

def readText? (t : FileTree) (name : String) : Option String :=
  match t.resolve? name with
  | none => none
  | some path =>
    match t.node? path with
    | some (.file text) =>
      if FileName.namesDirectory name || t.unreadable.contains path then none else some text
    | _ => none

/-- The tree with the directories that a path goes through, and whether all of them are
there; what is created before one that cannot be stays. -/
def addDirectories (t : FileTree) (here : List String) : List String → Bool × FileTree
  | [] => (true, t)
  | part :: parts =>
    let next := FileName.step here part
    match t.node? next with
    | some .directory => t.addDirectories next parts
    | none =>
      if t.unwritable.contains next then (false, t)
      else (t.set next .directory).addDirectories next parts
    | some _ => (false, t)

/-- The tree with a directory and those around it, and whether all of them are there. -/
def createDirectories (t : FileTree) (name : String) : Bool × FileTree :=
  t.addDirectories [] (FileName.parts name)

def createDirectories? (t : FileTree) (name : String) : Option FileTree :=
  match t.createDirectories name with
  | (true, t) => some t
  | (false, _) => none

def writeText? (t : FileTree) (name text : String) : Option FileTree :=
  match t.resolve? name with
  | none => none
  | some path =>
    if FileName.namesDirectory name || t.node? path = some .directory ||
        t.unwritable.contains path then none
    else some (t.set path (.file text))

/-! ## Trees as hosts -/

end FileTree

inductive FileUse where
  | read | create | write
  deriving DecidableEq, Repr

/-- What a system says when it refuses the use of a file of that name. -/
class SystemMessages where
  refusal : FileTree → FileUse → String → String

namespace FileTree

/-- What a system may say, by what stands in the way of the use. -/
def refusal (t : FileTree) (use : FileUse) (name : String) : String :=
  match (t.resolve? name).map t.node?, use with
  | some (some .directory), _ => "Is a directory (os error 21)"
  | some (some .bytes), .read => "stream did not contain valid UTF-8"
  | some (some _), _ => "Permission denied (os error 13)"
  | some none, .read => "No such file or directory (os error 2)"
  | some none, _ => "Permission denied (os error 13)"
  | none, _ => "No such file or directory (os error 2)"

instance (priority := low) : SystemMessages := ⟨refusal⟩

variable [SystemMessages]

/-- The text of a file, or what the system says of it. -/
def read (t : FileTree) (name : String) : Except String String :=
  match t.readText? name with
  | some text => .ok text
  | none => .error (SystemMessages.refusal t .read name)

instance : Host (StateM FileTree) where
  readText name := fun t => (t.read name, t)
  createDirectories name := fun t =>
    let (created, after) := t.createDirectories name
    (if created then .ok () else .error (SystemMessages.refusal t .create name), after)
  writeText name text := fun t =>
    match t.writeText? name text with
    | some after => (.ok (), after)
    | none => (.error (SystemMessages.refusal t .write name), t)

end FileTree

end Stencil
