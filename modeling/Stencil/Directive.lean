import Stencil.Pattern.Compiled

/-!
# Directives and their dialects

* `DirectiveKind`: the six kinds of directives, in order of priority.
* `Dialect`: a pattern for each kind; `Dialect.standard` is the one that is used
  unless another is given.
* `Rule`: a search for the pattern of a kind, with the groups that hold its path and
  item name.
* `RuleSet`: a rule for each kind, as a dialect makes them.
-/

namespace Stencil

/-- What a directive is for. -/
inductive DirectiveKind where
  /-- Inserts a value, escaped. -/
  | escape
  /-- Inserts a value as it is. -/
  | interpolate
  /-- Opens a loop. -/
  | loop
  /-- Opens a conditional. -/
  | conditional
  /-- Separates the branches of a conditional. -/
  | alternative
  /-- Closes a loop or a conditional. -/
  | terminate
  deriving DecidableEq, Repr

namespace DirectiveKind

/-- All kinds, the one of highest priority first. -/
def all : List DirectiveKind :=
  [escape, interpolate, loop, conditional, alternative, terminate]

def name : DirectiveKind → String
  | escape => "escape"
  | interpolate => "interpolate"
  | loop => "loop"
  | conditional => "conditional"
  | alternative => "alternative"
  | terminate => "terminate"

end DirectiveKind

/-- A pattern for each kind of directive. -/
structure Dialect where
  escape : String := "<%-([\\s\\S]+?)%>"
  interpolate : String := "<%=([\\s\\S]+?)%>"
  loop : String := "<%\\s*for\\s*\\(\\s*([^,)]+?)\\s*,\\s*([^)]+?)\\s*\\)\\s*%>"
  conditional : String := "<%\\s*if\\s*\\(([^)]+?)\\)\\s*%>"
  alternative : String := "<%\\s*(else)\\s*%>"
  terminate : String := "<%\\s*(end)\\s*%>"
  deriving DecidableEq, Repr

namespace Dialect

def standard : Dialect := {}

def pattern (d : Dialect) : DirectiveKind → String
  | .escape => d.escape
  | .interpolate => d.interpolate
  | .loop => d.loop
  | .conditional => d.conditional
  | .alternative => d.alternative
  | .terminate => d.terminate

def withPattern (d : Dialect) (kind : DirectiveKind) (text : String) : Dialect :=
  match kind with
  | .escape => { d with escape := text }
  | .interpolate => { d with interpolate := text }
  | .loop => { d with loop := text }
  | .conditional => { d with conditional := text }
  | .alternative => { d with alternative := text }
  | .terminate => { d with terminate := text }

end Dialect

/-! ## Rules -/

/-- Why a pattern cannot serve a kind of directive. -/
inductive RuleFault where
  /-- The text is no pattern, with what the compiler says of it. -/
  | malformed (message : String)
  | pathMissing
  | loopGroupsMissing
  deriving DecidableEq, Repr

def RuleFault.message : RuleFault → String
  | malformed message => message
  | pathMissing => "expected a `path` group or at least one capture group"
  | loopGroupsMissing =>
    "expected `collection` and `alias` groups or at least two capture groups"

/-- The groups that hold the path and the item name of a directive. -/
structure Slots where
  path : Option Nat := none
  itemName : Option Nat := none
  deriving DecidableEq, Repr

namespace Slots

def ofPath (p : CompiledPattern) : Except RuleFault Slots :=
  match p.groupNamed? "path" with
  | some i => .ok { path := some i }
  | none => if p.groupCount ≥ 1 then .ok { path := some 1 } else .error .pathMissing

def ofLoop (p : CompiledPattern) : Except RuleFault Slots :=
  match p.groupNamed? "collection", p.groupNamed? "alias" with
  | some i, some j => .ok ⟨some i, some j⟩
  | _, _ =>
    if p.groupCount ≥ 2 then .ok ⟨some 1, some 2⟩ else .error .loopGroupsMissing

def of (kind : DirectiveKind) (p : CompiledPattern) : Except RuleFault Slots :=
  match kind with
  | .escape | .interpolate | .conditional => ofPath p
  | .loop => ofLoop p
  | .alternative | .terminate => .ok {}

end Slots

/-- How a kind of directive is found: a search for its pattern in any text, and the
groups that hold its path and item name. -/
structure Rule where
  search : (text : List Char) → Search text
  slots : Slots

variable [PatternCompiler]

def Rule.make (kind : DirectiveKind) (text : String) : Except RuleFault Rule :=
  match PatternCompiler.compile text with
  | .error message => .error (.malformed message)
  | .ok p => (Slots.of kind p).map fun slots => ⟨p.search, slots⟩

structure InvalidPattern where
  kind : DirectiveKind
  fault : RuleFault
  deriving DecidableEq, Repr

/-- A rule for each kind of directive. -/
structure RuleSet where
  escape : Rule
  interpolate : Rule
  loop : Rule
  conditional : Rule
  alternative : Rule
  terminate : Rule

namespace RuleSet

def rule (rules : RuleSet) : DirectiveKind → Rule
  | .escape => rules.escape
  | .interpolate => rules.interpolate
  | .loop => rules.loop
  | .conditional => rules.conditional
  | .alternative => rules.alternative
  | .terminate => rules.terminate

/-- The rules of a dialect, or its first pattern that cannot serve. -/
def make (d : Dialect) : Except InvalidPattern RuleSet := do
  let rule (kind : DirectiveKind) : Except InvalidPattern Rule :=
    (Rule.make kind (d.pattern kind)).mapError fun fault => ⟨kind, fault⟩
  let escape ← rule .escape
  let interpolate ← rule .interpolate
  let loop ← rule .loop
  let conditional ← rule .conditional
  let alternative ← rule .alternative
  let terminate ← rule .terminate
  return { escape, interpolate, loop, conditional, alternative, terminate }

end RuleSet

end Stencil
