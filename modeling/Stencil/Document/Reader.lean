import Stencil.Document.Json
import Stencil.Document.Toml.Parse
import Stencil.Document.Yaml.Node

/-!
# Readers of documents

How texts are read as documents is left open here.

* `Setting`: what a key of a table is set to.
* `DocumentReader`: what reads texts as documents and as tables.
* `Json.read`, `Yaml.read`, `Toml.read`: the readers that the parsers of these formats make.  They
  serve where no others are given; that of YAML knows neither anchors nor tags.
-/

namespace Stencil

/-- What a key of a table is set to: a text, or something else, with what is said of that where a
text is asked for. -/
abbrev Setting := Except String String

/-- What reads texts; of a text that it cannot read it says why. -/
class DocumentReader where
  json : String → Except String Document
  yaml : String → Except String Document
  toml : String → Except String (Entries Setting)

def Json.depthLimit : Nat := 127

def Json.read (text : String) : Except String Document :=
  match parse depthLimit text with
  | .error _ => .error "the text is no JSON document"
  | .ok json =>
    match json.document? Numeral.quick? with
    | some doc => .ok doc
    | none => .error "a number is out of range"

/-- What a member is as a setting. -/
def Json.setting : Json → Setting
  | string s => .ok s
  | _ => .error "a string was expected"

def Yaml.read (text : String) : Except String Document :=
  (parse text).mapError fun _ => "the text is no YAML document"

def Toml.setting : Toml → Setting
  | string s => .ok s
  | _ => .error "a string was expected"

def Toml.read (text : String) : Except String (Entries Setting) :=
  match parse text with
  | .ok es => .ok (es.map fun (key, v) => (key, v.setting))
  | .error _ => .error "the text is no TOML document"

instance (priority := low) : DocumentReader := ⟨Json.read, Yaml.read, Toml.read⟩

end Stencil
