import Stencil.Proofs.Scan

/-!
# Directives of the standard dialect

The standard dialect writes directives as

    <%- path %>   <%= path %>
    <% for ( collection , item ) %>   <% if ( condition ) %>
    <% else %>   <% end %>

with any blanks around words and parentheses.

* `Form`: a directive as it is written, with its blanks (`Form.raw`); of what is written not
  everything is one (`Form.Valid`).
* `Form.eq_of_raw_append`: what a text begins with is one form at most.
* `Form.StandsAt`: a form at a place of a text.
* `Form.Plain`: text in which no form stands (`Form.Plain.not_standsAt`).
* `Form.Tells`: the directive that a form is.
* `Form.Reading`: the tokens of a text from a place on, as the forms in it tell them.
-/

namespace Stencil

open Text

/-- A directive as it is written: the blanks before its keyword, after it and at its end, and
what it holds. -/
inductive Form where
  | escape (path : List Char)
  | interpolate (path : List Char)
  | loop (w v collection itemName u : List Char)
  | conditional (w v condition u : List Char)
  | alternative (w u : List Char)
  | terminate (w u : List Char)
  deriving DecidableEq

namespace Form

/-! ## How forms are written -/

def insertion (sign : Char) (path : List Char) : List Char :=
  ['<', '%', sign] ++ path ++ ['%', '>']

def keyword (word w u : List Char) : List Char := ['<', '%'] ++ w ++ word ++ u ++ ['%', '>']

def opening (word w v : List Char) : List Char := ['<', '%'] ++ w ++ word ++ v ++ ['(']

def block (word w v inner u : List Char) : List Char :=
  opening word w v ++ inner ++ [')'] ++ u ++ ['%', '>']

theorem insertion_append (sign : Char) (path r : List Char) :
    insertion sign path ++ r = ['<', '%', sign] ++ (path ++ '%' :: '>' :: r) := by
  simp only [insertion, List.cons_append, List.append_assoc, List.nil_append]

theorem insertion_eq (sign : Char) (path : List Char) :
    insertion sign path = ['<', '%', sign] ++ (path ++ ['%', '>']) := by
  rw [← insertion_append, List.append_nil]

theorem keyword_append (word w u r : List Char) :
    keyword word w u ++ r = ['<', '%'] ++ (w ++ (word ++ (u ++ '%' :: '>' :: r))) := by
  simp only [keyword, List.cons_append, List.append_assoc, List.nil_append]

theorem keyword_eq (word w u : List Char) :
    keyword word w u = ['<', '%'] ++ (w ++ (word ++ (u ++ ['%', '>']))) := by
  rw [← keyword_append, List.append_nil]

theorem block_append (word w v inner u r : List Char) :
    block word w v inner u ++ r =
      ['<', '%'] ++ (w ++ (word ++ (v ++ '(' :: (inner ++ ')' :: (u ++ '%' :: '>' :: r))))) := by
  simp only [block, opening, List.cons_append, List.append_assoc, List.nil_append]

theorem block_eq (word w v inner u : List Char) :
    block word w v inner u =
      ['<', '%'] ++ (w ++ (word ++ (v ++ '(' :: (inner ++ ')' :: (u ++ ['%', '>']))))) := by
  rw [← block_append, List.append_nil]

def raw : Form → List Char
  | escape path => insertion '-' path
  | interpolate path => insertion '=' path
  | loop w v collection itemName u =>
    block ['f', 'o', 'r'] w v (collection ++ [','] ++ itemName) u
  | conditional w v condition u => block ['i', 'f'] w v condition u
  | alternative w u => keyword ['e', 'l', 's', 'e'] w u
  | terminate w u => keyword ['e', 'n', 'd'] w u

/-- Whether a path ends where `%>` first follows some of it. -/
def EndsFirst (path : List Char) : Prop :=
  path ≠ [] ∧ ∀ a b, a ≠ [] → path ++ ['%', '>'] = a ++ ['%', '>'] ++ b → b = []

/-- Whether a form is a directive: its blanks are blank and each of its parts has some text,
without the characters that end the part. -/
def Valid : Form → Prop
  | escape path => EndsFirst path
  | interpolate path => EndsFirst path
  | loop w v collection itemName u =>
    (AllBlank w ∧ AllBlank v ∧ AllBlank u) ∧
      (collection ≠ [] ∧ ',' ∉ collection ∧ ')' ∉ collection) ∧ itemName ≠ [] ∧ ')' ∉ itemName
  | conditional w v condition u =>
    (AllBlank w ∧ AllBlank v ∧ AllBlank u) ∧ condition ≠ [] ∧ ')' ∉ condition
  | alternative w u => AllBlank w ∧ AllBlank u
  | terminate w u => AllBlank w ∧ AllBlank u

def kind : Form → DirectiveKind
  | escape _ => .escape
  | interpolate _ => .interpolate
  | loop _ _ _ _ _ => .loop
  | conditional _ _ _ _ => .conditional
  | alternative _ _ => .alternative
  | terminate _ _ => .terminate

def path? : Form → Option String
  | escape path => some (String.ofList path)
  | interpolate path => some (String.ofList path)
  | loop _ _ collection _ _ => some (String.ofList collection)
  | conditional _ _ condition _ => some (String.ofList condition)
  | alternative _ _ => none
  | terminate _ _ => none

def itemName? : Form → Option String
  | loop _ _ _ itemName _ => some (String.ofList itemName)
  | _ => none

theorem length_lt_of_append_eq {path a b : List Char} (hb : b ≠ [])
    (h : path ++ ['%', '>'] = a ++ ['%', '>'] ++ b) : a.length < path.length := by
  have hSame := congrArg List.length h
  have := List.length_pos_iff.mpr hb
  simp only [List.length_append, List.length_cons, List.length_nil] at hSame
  omega

/-- **Where `%>` follows some text, a path ends.** -/
theorem exists_endsFirst {path after : List Char} (h : path ≠ []) :
    ∃ first more, EndsFirst first ∧
      path ++ ['%', '>'] ++ after = first ++ ['%', '>'] ++ more := by
  induction hLength : path.length using Nat.strongRecOn generalizing path after with
  | ind n ih =>
    by_cases hFirst : EndsFirst path
    · exact ⟨path, after, hFirst, rfl⟩
    · -- an earlier end leaves a shorter path
      obtain ⟨a, hNot⟩ := Classical.not_forall.mp fun hAll => hFirst ⟨h, hAll⟩
      obtain ⟨b, hNot⟩ := Classical.not_forall.mp hNot
      obtain ⟨ha, hNot⟩ := Classical.not_imp.mp hNot
      obtain ⟨hab, hb⟩ := Classical.not_imp.mp hNot
      have hLess : a.length < n := hLength ▸ length_lt_of_append_eq hb hab
      rw [hab, List.append_assoc]
      exact ih _ hLess ha rfl

/-! ## One form at most -/

/-- What stands before the first character that is not of a kind is the same in equal texts,
and so is what follows it. -/
theorem append_cons_inj {p : Char → Prop} {a b r s : List Char} {c d : Char}
    (ha : ∀ x ∈ a, p x) (hb : ∀ x ∈ b, p x) (hc : ¬p c) (hd : ¬p d)
    (h : a ++ c :: r = b ++ d :: s) : a = b ∧ c = d ∧ r = s := by
  induction a generalizing b with
  | nil =>
    cases b with
    | nil => exact ⟨rfl, List.cons.inj h⟩
    | cons x b =>
      obtain ⟨rfl, -⟩ := List.cons.inj h
      exact absurd (hb c (List.mem_cons_self ..)) hc
  | cons x a ih =>
    cases b with
    | nil =>
      obtain ⟨rfl, -⟩ := List.cons.inj h
      exact absurd (ha x (List.mem_cons_self ..)) hd
    | cons y b =>
      obtain ⟨rfl, hRest⟩ := List.cons.inj h
      obtain ⟨rfl, hSame⟩ := ih (List.forall_mem_cons.mp ha).2 (List.forall_mem_cons.mp hb).2 hRest
      exact ⟨rfl, hSame⟩

theorem append_cons_inj_of_allBlank {w v r s : List Char} {c d : Char} (hw : AllBlank w)
    (hv : AllBlank v) (hc : isBlank c = false) (hd : isBlank d = false)
    (h : w ++ c :: r = v ++ d :: s) : w = v ∧ c = d ∧ r = s :=
  append_cons_inj hw hv (Bool.not_eq_true _ ▸ hc) (Bool.not_eq_true _ ▸ hd) h

theorem append_cons_inj_of_notMem {a b r s : List Char} {c : Char} (ha : c ∉ a) (hb : c ∉ b)
    (h : a ++ c :: r = b ++ c :: s) : a = b ∧ r = s := by
  have hne {l : List Char} (hl : c ∉ l) : ∀ x ∈ l, x ≠ c := fun x hx hEq => hl (hEq ▸ hx)
  obtain ⟨hab, -, hrs⟩ :=
    append_cons_inj (p := (· ≠ c)) (hne ha) (hne hb) (not_not_intro rfl) (not_not_intro rfl) h
  exact ⟨hab, hrs⟩

def lead : Form → List Char
  | escape _ => []
  | interpolate _ => []
  | loop w _ _ _ _ => w
  | conditional w _ _ _ => w
  | alternative w _ => w
  | terminate w _ => w

def kindOf : List Char → Option DirectiveKind
  | '-' :: _ => some .escape
  | '=' :: _ => some .interpolate
  | 'f' :: _ => some .loop
  | 'i' :: _ => some .conditional
  | 'e' :: 'l' :: _ => some .alternative
  | 'e' :: 'n' :: _ => some .terminate
  | _ => none

/-- A form begins with `<%` and blanks; the characters after these tell its kind. -/
theorem exists_raw_append (f : Form) (hf : f.Valid) (r : List Char) :
    AllBlank f.lead ∧ ∃ c body, isBlank c = false ∧
      f.raw ++ r = ['<', '%'] ++ (f.lead ++ c :: body) ∧ kindOf (c :: body) = some f.kind := by
  cases f with
  | escape path => exact ⟨nofun, '-', _, rfl, insertion_append .., rfl⟩
  | interpolate path => exact ⟨nofun, '=', _, rfl, insertion_append .., rfl⟩
  | loop w v collection itemName u => exact ⟨hf.1.1, 'f', _, rfl, block_append .., rfl⟩
  | conditional w v condition u => exact ⟨hf.1.1, 'i', _, rfl, block_append .., rfl⟩
  | alternative w u => exact ⟨hf.1, 'e', _, rfl, keyword_append .., rfl⟩
  | terminate w u => exact ⟨hf.1, 'e', _, rfl, keyword_append .., rfl⟩

theorem kind_eq_of_raw_append {f g : Form} {r s : List Char} (hf : f.Valid) (hg : g.Valid)
    (h : f.raw ++ r = g.raw ++ s) : f.kind = g.kind := by
  obtain ⟨hBlank, c, body, hc, hRaw, hKind⟩ := f.exists_raw_append hf r
  obtain ⟨hBlank', d, body', hd, hRaw', hKind'⟩ := g.exists_raw_append hg s
  rw [hRaw, hRaw'] at h
  obtain ⟨-, hLetter, hBody⟩ := append_cons_inj_of_allBlank hBlank hBlank' hc hd
    (List.append_cancel_left h)
  rw [hLetter, hBody, hKind'] at hKind
  exact (Option.some.inj hKind).symm

theorem EndsFirst.eq {path other r s : List Char} (hPath : EndsFirst path)
    (hOther : EndsFirst other) (h : path ++ '%' :: '>' :: r = other ++ '%' :: '>' :: s) :
    path = other := by
  have hAll : (path ++ ['%', '>']) ++ r = (other ++ ['%', '>']) ++ s := by
    rw [List.append_assoc, List.append_assoc]
    exact h
  rcases List.append_eq_append_iff.mp hAll with ⟨b, hLonger, -⟩ | ⟨b, hLonger, -⟩
  · have hb := hOther.2 path b hPath.1 hLonger
    rw [hb, List.append_nil] at hLonger
    exact (List.append_cancel_right hLonger).symm
  · have hb := hPath.2 other b hOther.1 hLonger
    rw [hb, List.append_nil] at hLonger
    exact List.append_cancel_right hLonger

theorem keyword_inj {c : Char} {word w u w' u' r s : List Char} (hc : isBlank c = false)
    (hw : AllBlank w) (hu : AllBlank u) (hw' : AllBlank w') (hu' : AllBlank u')
    (h : keyword (c :: word) w u ++ r = keyword (c :: word) w' u' ++ s) : w = w' ∧ u = u' := by
  rw [keyword_append, keyword_append] at h
  have hAfter := List.append_cancel_left h
  obtain ⟨rfl, -, hWord⟩ := append_cons_inj_of_allBlank hw hw' hc hc hAfter
  obtain ⟨rfl, -⟩ :=
    append_cons_inj_of_allBlank hu hu' rfl rfl (List.append_cancel_left hWord)
  exact ⟨rfl, rfl⟩

theorem block_inj {c : Char} {word w v inner u w' v' inner' u' r s : List Char}
    (hc : isBlank c = false) (hBlank : AllBlank w ∧ AllBlank v ∧ AllBlank u)
    (hBlank' : AllBlank w' ∧ AllBlank v' ∧ AllBlank u') (hInner : ')' ∉ inner)
    (hInner' : ')' ∉ inner')
    (h : block (c :: word) w v inner u ++ r = block (c :: word) w' v' inner' u' ++ s) :
    w = w' ∧ v = v' ∧ inner = inner' ∧ u = u' := by
  rw [block_append, block_append] at h
  have hAfter := List.append_cancel_left h
  obtain ⟨rfl, -, hWord⟩ := append_cons_inj_of_allBlank hBlank.1 hBlank'.1 hc hc hAfter
  obtain ⟨rfl, -, hParen⟩ :=
    append_cons_inj_of_allBlank hBlank.2.1 hBlank'.2.1 rfl rfl (List.append_cancel_left hWord)
  obtain ⟨rfl, hEnd⟩ := append_cons_inj_of_notMem hInner hInner' hParen
  obtain ⟨rfl, -⟩ := append_cons_inj_of_allBlank hBlank.2.2 hBlank'.2.2 rfl rfl hEnd
  exact ⟨rfl, rfl, rfl, rfl⟩

theorem notMem_loop_inner {c : Char} {collection itemName : List Char} (hc : c ≠ ',')
    (h : c ∉ collection) (h' : c ∉ itemName) : c ∉ collection ++ [','] ++ itemName := by
  simp only [List.mem_append, List.mem_singleton, h, h', hc, or_self, not_false_eq_true]

/-- **A text begins with one form at most.** -/
theorem eq_of_raw_append {f g : Form} {r s : List Char} (hf : f.Valid) (hg : g.Valid)
    (h : f.raw ++ r = g.raw ++ s) : f = g := by
  have hKind := kind_eq_of_raw_append hf hg h
  cases f <;> cases g <;> cases hKind
  case escape.escape path other =>
    rw [raw, raw, insertion_append, insertion_append] at h
    rw [EndsFirst.eq hf hg (List.append_cancel_left h)]
  case interpolate.interpolate path other =>
    rw [raw, raw, insertion_append, insertion_append] at h
    rw [EndsFirst.eq hf hg (List.append_cancel_left h)]
  case loop.loop =>
    obtain ⟨hBlank, ⟨-, hComma, hParen⟩, -, hItem⟩ := hf
    obtain ⟨hBlank', ⟨-, hComma', hParen'⟩, -, hItem'⟩ := hg
    obtain ⟨rfl, rfl, hInner, rfl⟩ := block_inj rfl hBlank hBlank'
      (notMem_loop_inner (by decide) hParen hItem) (notMem_loop_inner (by decide) hParen' hItem') h
    rw [List.append_assoc, List.append_assoc] at hInner
    obtain ⟨rfl, rfl⟩ := append_cons_inj_of_notMem hComma hComma' hInner
    rfl
  case conditional.conditional =>
    obtain ⟨hBlank, -, hParen⟩ := hf
    obtain ⟨hBlank', -, hParen'⟩ := hg
    obtain ⟨rfl, rfl, rfl, rfl⟩ := block_inj rfl hBlank hBlank' hParen hParen' h
    rfl
  case alternative.alternative =>
    obtain ⟨rfl, rfl⟩ := keyword_inj rfl hf.1 hf.2 hg.1 hg.2 h
    rfl
  case terminate.terminate =>
    obtain ⟨rfl, rfl⟩ := keyword_inj rfl hf.1 hf.2 hg.1 hg.2 h
    rfl

/-! ## Forms in a text -/

def StandsAt (f : Form) (text : List Char) (offset : Nat) : Prop :=
  f.Valid ∧ ∃ before after, text = before ++ f.raw ++ after ∧ byteLength before = offset

/-- Whether a directive is what a form at a place says.  The blanks around the path and the
item name of a loop do not count. -/
structure Tells (f : Form) (offset : Nat) (d : Directive) : Prop where
  kind : d.kind = f.kind
  raw : d.raw = String.ofList f.raw
  start : d.start = offset
  stop : d.stop = offset + byteLength f.raw
  path : f.kind ≠ .loop → d.path = f.path?
  trimmedPath : d.path.map trimmed = f.path?.map trimmed
  trimmedItemName : d.itemName.map trimmed = f.itemName?.map trimmed

/-- The tokens of a text from a place on, as the forms in it tell them: a form that stands at
the place is the next token; else the text up to the next form, or to the end, is a literal. -/
inductive Reading (text : List Char) : Nat → List Token → Prop
  | stop : Reading text (byteLength text) []
  | directive {i : Nat} {f : Form} {d : Directive} {ts : List Token} :
      f.StandsAt text i → f.Tells i d → Reading text d.stop ts →
      Reading text i (.directive d :: ts)
  | literal {i j : Nat} {ts : List Token} : i < j →
      (∀ k, i ≤ k → k < j → ∀ f : Form, ¬f.StandsAt text k) →
      (j = byteLength text ∨ ∃ f : Form, f.StandsAt text j) → Reading text j ts →
      Reading text i (.literal (String.ofList (slice i j text)) i :: ts)

variable {f g : Form} {text : List Char} {offset : Nat}

theorem raw_ne_nil (f : Form) : f.raw ≠ [] := by
  cases f <;> exact List.cons_ne_nil _ _

theorem StandsAt.isBoundary (h : f.StandsAt text offset) : IsBoundary text offset := by
  obtain ⟨-, before, after, rfl, rfl⟩ := h
  exact ⟨before, f.raw ++ after, List.append_assoc .., rfl⟩

theorem StandsAt.lt (h : f.StandsAt text offset) : offset < byteLength text := by
  obtain ⟨-, before, after, rfl, rfl⟩ := h
  have := byteLength_pos f.raw_ne_nil
  simp only [byteLength_append]
  omega

/-- **Where `%>` follows some text after a sign, a form stands**: it ends where `%>` does so
first. -/
theorem exists_insertion_standsAt (before : List Char) {path : List Char} (h : path ≠ [])
    (after : List Char) :
    (∃ first, (escape first).StandsAt (before ++ insertion '-' path ++ after)
      (byteLength before)) ∧
      ∃ first, (interpolate first).StandsAt (before ++ insertion '=' path ++ after)
        (byteLength before) := by
  obtain ⟨first, more, hFirst, hSame⟩ := @exists_endsFirst path after h
  have hText (sign : Char) : before ++ insertion sign path ++ after =
      before ++ insertion sign first ++ more := by
    simp only [insertion, List.append_assoc, List.append_cancel_left_eq] at hSame ⊢
    exact hSame
  exact ⟨⟨first, hFirst, before, more, hText '-', rfl⟩,
    ⟨first, hFirst, before, more, hText '=', rfl⟩⟩

theorem StandsAt.exists_dropBytes (h : f.StandsAt text offset) :
    ∃ after, dropBytes offset text = f.raw ++ after := by
  obtain ⟨-, before, after, rfl, rfl⟩ := h
  have hDrop := dropBytes_byteLength_add before (f.raw ++ after) 0
  rw [Nat.add_zero, dropBytes_zero, ← List.append_assoc] at hDrop
  exact ⟨after, hDrop⟩

theorem exists_raw_eq (f : Form) : ∃ body, f.raw = '<' :: '%' :: body := by
  cases f <;> exact ⟨_, rfl⟩

/-- A form that stands in a text stands there whatever text comes before and after. -/
theorem StandsAt.append (h : f.StandsAt text offset) (a b : List Char) :
    f.StandsAt (a ++ text ++ b) (byteLength a + offset) := by
  obtain ⟨hf, before, after, rfl, rfl⟩ := h
  refine ⟨hf, a ++ before, after ++ b, ?_, byteLength_append a before⟩
  simp only [List.append_assoc]

theorem StandsAt.of_append {a : List Char} (h : f.StandsAt (a ++ text) (byteLength a + offset)) :
    f.StandsAt text offset := by
  obtain ⟨hf, before, after, hText, hOffset⟩ := h
  rw [List.append_assoc] at hText
  obtain ⟨m, rfl, hRest⟩ := exists_of_byteLength_le hText (by omega)
  rw [byteLength_append] at hOffset
  refine ⟨hf, m, after, ?_, by omega⟩
  rw [hRest, List.append_assoc]

/-- **One form at most stands at a place.** -/
theorem StandsAt.eq (hf : f.StandsAt text offset) (hg : g.StandsAt text offset) : f = g := by
  obtain ⟨r, hr⟩ := hf.exists_dropBytes
  obtain ⟨s, hs⟩ := hg.exists_dropBytes
  exact eq_of_raw_append hf.1 hg.1 (hr.symm.trans hs)

/-! ## Text without forms -/

/-- Whether no form begins in a text with another after it: `<%` does not occur in the text, nor
where the other begins. -/
def Plain (cs rest : List Char) : Prop := ¬['<', '%'] <:+: cs ++ rest.take 1

theorem plain_iff {cs rest : List Char} : Plain cs rest ↔
    ¬['<', '%'] <:+: cs ∧ ¬(['<'] <:+ cs ∧ rest.head? = some '%') := by
  cases rest with
  | nil => simp [Plain]
  | cons c rest =>
    have hLast : ['<', '%'] <:+ cs ++ [c] ↔ ['<'] <:+ cs ∧ c = '%' := by
      rw [List.suffix_concat_iff]
      constructor
      · rintro (hNil | ⟨t, ht, hSuffix⟩)
        · cases hNil
        · have hSplit : ['<'] ++ ['%'] = t ++ [c] := ht
          obtain ⟨rfl, hSame⟩ := List.append_inj' hSplit rfl
          exact ⟨hSuffix, (List.cons.inj hSame).1.symm⟩
      · rintro ⟨hSuffix, rfl⟩
        exact .inr ⟨['<'], rfl, hSuffix⟩
    rw [Plain, List.take_succ_cons, List.take_zero, List.infix_concat_iff, hLast, List.head?_cons,
      Option.some.injEq, not_or, and_comm]

/-- **In plain text no form stands**, though one may in what follows it. -/
theorem Plain.not_standsAt {before cs rest : List Char} (h : Plain cs rest)
    (hText : text = before ++ cs ++ rest) {k : Nat} (hk : byteLength before ≤ k)
    (hlt : k < byteLength (before ++ cs)) (f : Form) : ¬f.StandsAt text k := by
  rintro ⟨-, p, after, hSplit, rfl⟩
  obtain ⟨body, hRaw⟩ := f.exists_raw_eq
  rw [hText, List.append_assoc, List.append_assoc] at hSplit
  obtain ⟨a, rfl, hInside⟩ := exists_of_byteLength_le hSplit hk
  simp only [byteLength_append] at hlt
  obtain ⟨b, rfl, hRest⟩ := exists_of_byteLength_le hInside.symm (by omega)
  rw [hRaw, List.cons_append, List.cons_append] at hRest
  -- the text goes on with `<%`, of which the first character at least is plain
  refine h ⟨a, (b ++ rest.take 1).drop 2, ?_⟩
  cases b with
  | nil =>
    simp only [List.append_nil] at hlt
    omega
  | cons c b =>
    rw [List.cons_append] at hRest
    obtain ⟨rfl, hMore⟩ := List.cons.inj hRest
    cases b with
    | nil =>
      rw [List.nil_append] at hMore
      rw [← hMore]
      simp
    | cons d b =>
      obtain ⟨rfl, -⟩ := List.cons.inj hMore
      simp

end Form

end Stencil
