import Stencil.Directive
import Stencil.Document.Reader

/-!
# Dialects in documents

A document may set the pattern of each kind of directive under the name of the kind.
Names of no kind are ignored, and kinds it does not name keep the standard pattern.

* `Dialect.ofSettings`: the dialect that a table describes.
* `Dialect.ofJson`: the dialect of a JSON document.
-/

namespace Stencil

def DirectiveKind.ofName? (name : String) : Option DirectiveKind :=
  all.find? fun kind => kind.name == name

namespace Dialect

/-- The dialect with what a key is set to; a kind can be set to a text only. -/
def set (d : Dialect) (key : String) (setting : Setting) : Except String Dialect :=
  match DirectiveKind.ofName? key with
  | some kind => setting.map (d.withPattern kind)
  | none => .ok d

/-- The dialect that a table describes, its keys taken one after another. -/
def ofSettings (es : Entries Setting) : Except String Dialect :=
  es.foldlM (fun d (key, setting) => d.set key setting) standard

/-- The dialect of a JSON document; none when it is no object, or when a kind is set to something
else than a string. -/
def ofJson : Json → Option Dialect
  | .object members =>
    (ofSettings ((Entries.ofPairs members).map fun (key, v) => (key, v.setting))).toOption
  | _ => none

end Dialect

end Stencil
