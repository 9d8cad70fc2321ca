import Stencil.Directive

/-!
# Tokens of a text

The rules of a dialect divide a text into literals and directives.  At each step
the directive that starts first comes next; of several that start at one place,
the one of highest priority.

* `Token`: a literal or a directive.
* `Lane`: a rule at work on a text, with its next match kept until the scan has passed
  its start.
* `Scanner`: a scan of a text with a lane for each rule.
* `Scanner.next`: the next token, if there is one.
* `RuleSet.tokens`: all tokens of a text.
-/

namespace Stencil

open Text

/-- A directive found in a text.  The path and the item name are as they stand there. -/
structure Directive where
  kind : DirectiveKind
  path : Option String
  itemName : Option String
  raw : String
  start : Nat
  stop : Nat
  deriving DecidableEq, Repr

/-- A piece of a text. -/
inductive Token where
  | literal (text : String) (offset : Nat)
  | directive (d : Directive)
  deriving DecidableEq, Repr

namespace Token

def text : Token → String
  | literal text _ => text
  | directive d => d.raw

def start : Token → Nat
  | literal _ offset => offset
  | directive d => d.start

def stop : Token → Nat
  | literal text offset => offset + byteLength text.toList
  | directive d => d.stop

def directive? : Token → Option Directive
  | literal _ _ => none
  | directive d => some d

end Token

/-- A rule for a kind of directive at work on a text. -/
structure Finder (text : List Char) where
  kind : DirectiveKind
  search : Search text
  slots : Slots

def Finder.directive {text : List Char} (f : Finder text) (m : Match) : Directive :=
  let part (start stop : Nat) : String := String.ofList (slice start stop text)
  let group (slot : Option Nat) : Option String :=
    (slot.bind m.group?).map fun (start, stop) => part start stop
  { kind := f.kind, path := group f.slots.path, itemName := group f.slots.itemName,
    raw := part m.start m.stop, start := m.start, stop := m.stop }

/-- What is known of the next match of a rule. -/
inductive Upcoming where
  /-- Nothing: no search was made since the last match was used. -/
  | unknown
  /-- There are no more matches. -/
  | exhausted
  | found (m : Match)
  deriving DecidableEq, Repr

/-- A rule at work on a text, with its next match as it was found last. -/
structure Lane (text : List Char) where
  finder : Finder text
  upcoming : Upcoming := .unknown

namespace Lane

variable {text : List Char}

/-- Whether a lane has to search anew at an offset. -/
def isStale (l : Lane text) (offset : Nat) : Bool :=
  match l.upcoming with
  | .unknown => true
  | .exhausted => false
  | .found m => m.start < offset

def refresh (l : Lane text) (offset : Nat) : Lane text :=
  if l.isStale offset then
    match l.finder.search.find? offset with
    | some m => { l with upcoming := .found m }
    | none => { l with upcoming := .exhausted }
  else l

def next? (l : Lane text) : Option Match :=
  match l.upcoming with
  | .found m => some m
  | _ => none

def clear (l : Lane text) : Lane text := { l with upcoming := .unknown }

/-- Of the next matches of the lanes the one that starts first, with its finder; of
several that start there, that of the first lane.  The lanes after it was used come
with it. -/
def choose : List (Lane text) → Option (Finder text × Match × List (Lane text))
  | [] => none
  | l :: ls =>
    match l.next?, choose ls with
    | some m, some (f, n, ls') =>
      if n.start < m.start then some (f, n, l :: ls') else some (l.finder, m, l.clear :: ls)
    | some m, none => some (l.finder, m, l.clear :: ls)
    | none, some (f, n, ls') => some (f, n, l :: ls')
    | none, none => none

end Lane

/-- A scan of a text. -/
structure Scanner (text : List Char) where
  lanes : List (Lane text)
  cursor : Nat
  /-- The directive that follows the literal just returned. -/
  pending : Option Directive
  finished : Bool

namespace RuleSet

/-- The rules at work on a text, the one of highest priority first. -/
def finders (rules : RuleSet) (text : List Char) : List (Finder text) :=
  DirectiveKind.all.map fun kind => ⟨kind, (rules.rule kind).search text, (rules.rule kind).slots⟩

end RuleSet

namespace Scanner

variable {text : List Char}

def start (finders : List (Finder text)) : Scanner text :=
  { lanes := finders.map fun finder => { finder }, cursor := 0, pending := none,
    finished := false }

def nextDirective (s : Scanner text) : Option Directive × Scanner text :=
  let lanes := s.lanes.map (·.refresh s.cursor)
  match Lane.choose lanes with
  | some (f, m, lanes) => (some (f.directive m), { s with lanes })
  | none => (none, { s with lanes })

/-- The scan at a directive, which the text up to it precedes as a literal, unless it
is empty. -/
def reach (s : Scanner text) (d : Directive) : Option Token × Scanner text :=
  let after := { s with cursor := d.stop }
  if d.start = s.cursor then (some (.directive d), after)
  else
    (some (.literal (String.ofList (slice s.cursor d.start text)) s.cursor),
      { after with pending := some d })

/-- The end of the scan: the rest of the text is a literal, unless it is empty. -/
def finish (s : Scanner text) : Option Token × Scanner text :=
  let rest := dropBytes s.cursor text
  (if rest.isEmpty then none else some (.literal (String.ofList rest) s.cursor),
    { s with cursor := byteLength text, finished := true })

/-- The next token, or none at the end of the text, and the scan after it. -/
def next (s : Scanner text) : Option Token × Scanner text :=
  match s.pending with
  | some d => (some (.directive d), { s with pending := none })
  | none =>
    if s.finished then (none, s)
    else
      match s.nextDirective with
      | (some d, s) => s.reach d
      | (none, s) => s.finish

/-- The tokens of a scan, each with the cursor after it, and the scan at its end; at
most `fuel` tokens are taken. -/
def run : Nat → Scanner text → List (Token × Nat) × Scanner text
  | 0, s => ([], s)
  | fuel + 1, s =>
    match s.next with
    | (some t, s) =>
      let (ts, last) := s.run fuel
      ((t, s.cursor) :: ts, last)
    | (none, s) => ([], s)

end Scanner

namespace RuleSet

/-- The tokens of a text, each with the cursor after it, and the scan at its end.
Each byte starts one directive and one literal at most. -/
def scan (rules : RuleSet) (text : String) : List (Token × Nat) × Scanner text.toList :=
  (Scanner.start (rules.finders text.toList)).run (2 * byteLength text.toList + 2)

def tokens (rules : RuleSet) (text : String) : List Token := (rules.scan text).1.map (·.1)

end RuleSet

end Stencil
