import Mathlib.Data.List.Basic
import Stencil.Path

/-!
# Spelled paths

A path is spelled step by step: by bare names after dots, by keys in brackets between quotes, and
by keys in brackets without quotes.  Whatever steps spell its keys, they are read back.

* `Path.Step`: a step as it is spelled; `Path.spelling` is the text of steps.
* `Path.Breaks`: texts at which a bare name is over; then it does not matter any more that it was
  a name (`Path.split_name_of_breaks`).
* `Path.split_steps_append`: what is read of steps and a text after them.
* `Path.parse_spelling`: the path that steps spell.
-/

namespace Stencil.Path

open Text

/-! ## Steps -/

/-- A step of a path as it is spelled. -/
inductive Step where
  | name (key : String)
  | quoted (quote : Char) (key : String)
  /-- A key in a bracket, with what stands around it. -/
  | bracketed (before key after : String)
  deriving DecidableEq, Repr

namespace Step

def key : Step → String
  | name k => k
  | quoted _ k => k
  | bracketed _ k _ => k

def text : Step → List Char
  | name k => k.toList
  | quoted q k => '[' :: q :: (k.toList ++ [q, ']'])
  | bracketed before k after => '[' :: (before.toList ++ k.toList ++ after.toList ++ [']'])

/-- The text of a step after other steps: a name follows a dot. -/
def laterText : Step → List Char
  | name k => '.' :: k.toList
  | quoted q k => (quoted q k).text
  | bracketed before k after => (bracketed before k after).text

def Valid : Step → Prop
  | name k => k ≠ "" ∧ '.' ∉ k.toList ∧ '[' ∉ k.toList
  | quoted q k => (q = '"' ∨ q = '\'') ∧ q ∉ k.toList
  | bracketed before k after =>
    (AllBlank before.toList ∧ AllBlank after.toList) ∧ trimmed k = k ∧ ']' ∉ k.toList ∧
      k.toList.head? ≠ some '"' ∧ k.toList.head? ≠ some '\''

instance : DecidablePred Valid
  | name k => inferInstanceAs (Decidable (k ≠ "" ∧ '.' ∉ k.toList ∧ '[' ∉ k.toList))
  | quoted q k => inferInstanceAs (Decidable ((q = '"' ∨ q = '\'') ∧ q ∉ k.toList))
  | bracketed before k after =>
    inferInstanceAs (Decidable ((AllBlank before.toList ∧ AllBlank after.toList) ∧
      trimmed k = k ∧ ']' ∉ k.toList ∧ k.toList.head? ≠ some '"' ∧ k.toList.head? ≠ some '\''))

end Step

def spelling : List Step → List Char
  | [] => []
  | s :: ss => s.text ++ ss.flatMap Step.laterText

/-! ## Reading a step -/

/-- Whether a bare name is over where a text begins. -/
def Breaks (rest : List Char) : Prop := ∀ c ∈ rest.head?, c = '.' ∨ c = '['

variable {key k rest : List Char}

/-- Whether a character becomes part of the key that is read in a mode. -/
def Mode.Keeps : Mode → Char → Prop
  | name, c => c ≠ '.' ∧ c ≠ '['
  | plain, c => c ≠ ']'
  | quoted q, c => c ≠ q
  | opened, _ => False
  | unquoted, _ => False
  | closed, _ => False

theorem split_cons_of_keeps {m : Mode} {c : Char} (h : m.Keeps c) :
    split m key (c :: rest) = split m (c :: key) rest := by
  cases m with
  | name => exact split_name_of_ne h.1 h.2
  | plain => exact split_plain_of_ne h
  | quoted q => exact split_quoted_of_ne h
  | _ => exact h.elim

/-- **A stretch of characters that become part of the key.** -/
theorem split_append_of_keeps {m : Mode} (h : ∀ c ∈ k, m.Keeps c) :
    split m key (k ++ rest) = split m (k.reverse ++ key) rest := by
  induction k generalizing key with
  | nil => rfl
  | cons c k ih =>
    obtain ⟨hc, hk⟩ := List.forall_mem_cons.mp h
    rw [List.cons_append, split_cons_of_keeps hc, ih hk, List.reverse_cons, List.append_assoc,
      List.singleton_append]

theorem ne_of_notMem {c d : Char} (h : c ∉ k) (hd : d ∈ k) : d ≠ c := fun hSame => h (hSame ▸ hd)

/-- **Where a name is over it is a key**, and the rest is read as after a bracket. -/
theorem split_name_of_breaks (hKey : key ≠ []) (hRest : Breaks rest) :
    split .name key rest = key.reverse :: split .closed [] rest := by
  have hSome : keyUnlessEmpty key.reverse = [key.reverse] := by
    rw [keyUnlessEmpty, if_neg]
    simpa using hKey
  cases rest with
  | nil => rw [split_name_nil, split_closed_nil, hSome]
  | cons c cs =>
    rcases hRest c rfl with rfl | rfl
    · rw [split_name_dot, split_closed_dot]
    · rw [split_name_bracket, split_closed_bracket, hSome]
      rfl

theorem split_opened_plain {c : Char} (h : ']' ∉ c :: k) (hQuote : c ≠ '"' ∧ c ≠ '\'') :
    split .opened [] (c :: k ++ rest) = split .plain (c :: k).reverse rest := by
  obtain ⟨hc, hk⟩ := List.forall_mem_cons.mp fun d => ne_of_notMem (d := d) h
  rw [List.cons_append, split_opened_of_ne hc (not_or.mpr hQuote), split_append_of_keeps hk,
    List.reverse_cons]

theorem split_opened_append (h : ']' ∉ k) (hQuote : ∀ c ∈ k.head?, c ≠ '"' ∧ c ≠ '\'') :
    split .opened [] (k ++ ']' :: rest) = trim k :: split .closed [] rest := by
  cases k with
  | nil => exact split_opened_close
  | cons c k =>
    rw [split_opened_plain h (hQuote c rfl), split_plain_close, List.reverse_reverse]

theorem split_quoted_append {q : Char} (h : q ∉ k) :
    split (.quoted q) [] (k ++ q :: rest) = split .unquoted k.reverse rest := by
  have hKeeps : ∀ c ∈ k, (Mode.quoted q).Keeps c := fun _ => ne_of_notMem h
  rw [split_append_of_keeps hKeeps, split_quoted_close, List.append_nil]

/-- What stands after the closing quote in a bracket is no part of the key. -/
theorem split_unquoted_append (h : ']' ∉ k) :
    split .unquoted key (k ++ rest) = split .unquoted key rest := by
  induction k with
  | nil => rfl
  | cons c k ih =>
    obtain ⟨hc, hk⟩ := List.forall_mem_cons.mp fun d => ne_of_notMem (d := d) h
    rw [List.cons_append, split_unquoted_of_ne hc, ih fun hMem => hk _ hMem rfl]

/-- What is read of a bracket with quotes, whatever stands between the closing quote and the
end of the bracket. -/
theorem split_opened_quoted {q : Char} (junk : List Char) (hq : q = '"' ∨ q = '\'') (h : q ∉ k)
    (hJunk : ']' ∉ junk) :
    split .opened [] (q :: (k ++ q :: (junk ++ ']' :: rest))) = k :: split .closed [] rest := by
  rw [split_opened_quote hq, split_quoted_append h, split_unquoted_append hJunk,
    split_unquoted_close, List.reverse_reverse]

namespace Step

variable {s : Step}

theorem bracketed_valid_plain {before k after : String} (h : (bracketed before k after).Valid) :
    ']' ∉ before.toList ++ k.toList ++ after.toList ∧
      ∀ c ∈ (before.toList ++ k.toList ++ after.toList).head?, c ≠ '"' ∧ c ≠ '\'' := by
  obtain ⟨⟨hBefore, hAfter⟩, -, hClose, hDouble, hSingle⟩ := h
  have hBlank {c : Char} (hc : isBlank c = true) : c ≠ '"' ∧ c ≠ '\'' := by
    constructor <;> (rintro rfl; cases hc)
  refine ⟨?_, fun c hc => ?_⟩
  · rw [List.mem_append, List.mem_append, not_or, not_or]
    exact ⟨⟨hBefore.notMem rfl, hClose⟩, hAfter.notMem rfl⟩
  · rw [List.append_assoc, List.head?_append, Option.mem_def, Option.or_eq_some_iff,
      List.head?_append, Option.or_eq_some_iff] at hc
    rcases hc with hc | ⟨-, hc | ⟨-, hc⟩⟩
    · exact hBlank (hBefore c (List.mem_of_head? hc))
    · exact ⟨fun hc' => hDouble (hc' ▸ hc), fun hc' => hSingle (hc' ▸ hc)⟩
    · exact hBlank (hAfter c (List.mem_of_head? hc))

theorem split_bracketed {before k after : String} (h : (bracketed before k after).Valid) :
    split .opened [] (before.toList ++ k.toList ++ after.toList ++ ']' :: rest) =
      k.toList :: split .closed [] rest := by
  obtain ⟨hClose, hQuote⟩ := bracketed_valid_plain h
  obtain ⟨⟨hBefore, hAfter⟩, hTrimmed, -⟩ := h
  have hKey : trim (before.toList ++ k.toList ++ after.toList) = k.toList := by
    rw [trim_append_append hBefore hAfter, ← String.toList_ofList (l := trim k.toList)]
    exact congrArg String.toList hTrimmed
  rw [split_opened_append hClose hQuote, hKey]

/-- **What is read of a step** after others, when a name would be over where it ends. -/
theorem split_laterText_append (h : s.Valid) (hRest : Breaks rest) :
    split .closed [] (s.laterText ++ rest) = s.key.toList :: split .closed [] rest := by
  cases s with
  | name k =>
    obtain ⟨hEmpty, hDot, hBracket⟩ := h
    have hKey : k.toList.reverse ++ [] ≠ [] := by simpa using hEmpty
    have hKeeps : ∀ c ∈ k.toList, Mode.name.Keeps c := fun _ hc =>
      ⟨ne_of_notMem hDot hc, ne_of_notMem hBracket hc⟩
    rw [laterText, List.cons_append, split_closed_dot, split_append_of_keeps hKeeps,
      split_name_of_breaks hKey hRest, List.append_nil, List.reverse_reverse, key]
  | quoted q k =>
    rw [laterText, text, List.cons_append, List.cons_append, List.append_assoc,
      split_closed_bracket]
    exact split_opened_quoted [] h.1 h.2 List.not_mem_nil
  | bracketed before k after =>
    rw [laterText, text, List.cons_append, List.append_assoc, split_closed_bracket]
    exact split_bracketed h

theorem split_text_append (s : Step) (rest : List Char) :
    split .name [] (s.text ++ rest) = split .closed [] (s.laterText ++ rest) := by
  cases s with
  | name k => rw [laterText, text, List.cons_append, split_closed_dot]
  | _ =>
    rw [laterText, text, List.cons_append, split_name_bracket, split_closed_bracket]
    rfl

theorem breaks_laterText (s : Step) (rest : List Char) : Breaks (s.laterText ++ rest) := by
  intro c hc
  cases s with
  | name k => exact .inl (Option.some.inj hc).symm
  | _ => exact .inr (Option.some.inj hc).symm

end Step

/-! ## Reading steps -/

/-- **What is read of steps** after others: their keys, and then what is read of the text after
them. -/
theorem split_steps_append {steps : List Step} (h : ∀ s ∈ steps, s.Valid) (hRest : Breaks rest) :
    split .closed [] (steps.flatMap Step.laterText ++ rest) =
      steps.map (·.key.toList) ++ split .closed [] rest := by
  induction steps with
  | nil => rfl
  | cons s ss ih =>
    obtain ⟨hHead, hTail⟩ := List.forall_mem_cons.mp h
    have hBreaks : Breaks (ss.flatMap Step.laterText ++ rest) := by
      cases ss with
      | nil => exact hRest
      | cons s' ss =>
        rw [List.flatMap_cons, List.append_assoc]
        exact s'.breaks_laterText _
    rw [List.flatMap_cons, List.append_assoc, Step.split_laterText_append hHead hBreaks, ih hTail,
      List.map_cons, List.cons_append]

theorem split_spelling {steps : List Step} (h : ∀ s ∈ steps, s.Valid) :
    split .name [] (spelling steps) = steps.map (·.key.toList) := by
  cases steps with
  | nil => rfl
  | cons s ss =>
    have hSteps : split .closed [] ((s :: ss).flatMap Step.laterText ++ []) = _ :=
      split_steps_append h nofun
    rw [List.append_nil, List.flatMap_cons] at hSteps
    rw [spelling, Step.split_text_append, hSteps]
    exact List.append_nil _

/-! ## The ends of a spelling -/

namespace Step

variable {s : Step}

theorem text_ne_nil (h : s.Valid) : s.text ≠ [] := by
  cases s with
  | name k => simpa [text] using h.1
  | _ => exact List.cons_ne_nil _ _

theorem eq_of_mem_head?_text {c : Char} (h : c ∈ s.text.head?) :
    c = '[' ∨ ∃ k, s = name k ∧ c ∈ k.toList.head? := by
  cases s with
  | name k => exact .inr ⟨k, rfl, h⟩
  | _ => exact .inl (Option.some.inj h).symm

theorem eq_of_mem_getLast?_text {c : Char} (h : c ∈ s.text.getLast?) :
    c = ']' ∨ ∃ k, s = name k ∧ c ∈ k.toList.getLast? := by
  cases s with
  | name k => exact .inr ⟨k, rfl, h⟩
  | quoted q k =>
    have hSplit : (quoted q k).text = ('[' :: q :: k.toList ++ [q]) ++ [']'] := by simp [text]
    rw [hSplit, List.getLast?_concat] at h
    exact .inl (Option.some.inj h).symm
  | bracketed before k after =>
    rw [text, ← List.cons_append, List.getLast?_concat] at h
    exact .inl (Option.some.inj h).symm

theorem exists_laterText_eq (s : Step) : ∃ cs, s.laterText = cs ++ s.text := by
  cases s with
  | name k => exact ⟨['.'], rfl⟩
  | _ => exact ⟨[], rfl⟩

end Step

theorem exists_spelling_eq {steps : List Step} {s : Step} (h : steps.getLast? = some s) :
    ∃ cs, spelling steps = cs ++ s.text := by
  obtain ⟨init, rfl⟩ := List.getLast?_eq_some_iff.mp h
  cases init with
  | nil => exact ⟨[], List.append_nil _⟩
  | cons s' init =>
    obtain ⟨cs, hLater⟩ := s.exists_laterText_eq
    refine ⟨s'.text ++ init.flatMap Step.laterText ++ cs, ?_⟩
    rw [List.cons_append, spelling, List.flatMap_append, List.flatMap_singleton, hLater]
    simp only [List.append_assoc]

/-- A spelling neither begins nor ends with a blank, when no name at its start or its end
does. -/
theorem trim_spelling {steps : List Step} (h : ∀ s ∈ steps, s.Valid)
    (hFirst : ∀ k, steps.head? = some (.name k) → ∀ c ∈ k.toList.head?, isBlank c = false)
    (hLast : ∀ k, steps.getLast? = some (.name k) → ∀ c ∈ k.toList.getLast?, isBlank c = false) :
    trim (spelling steps) = spelling steps := by
  refine trim_eq_self (fun c hc => ?_) fun c hc => ?_
  · cases steps with
    | nil => cases hc
    | cons s ss =>
      rw [spelling, List.head?_append_of_ne_nil _ (Step.text_ne_nil (h s List.mem_cons_self))] at hc
      rcases Step.eq_of_mem_head?_text hc with rfl | ⟨k, rfl, hc⟩
      · rfl
      · exact hFirst k rfl c hc
  · cases hSteps : steps.getLast? with
    | none =>
      rw [List.getLast?_eq_none_iff.mp hSteps] at hc
      cases hc
    | some s =>
      have hValid := h s (List.mem_of_getLast? hSteps)
      obtain ⟨cs, hSpelling⟩ := exists_spelling_eq hSteps
      rw [hSpelling, List.getLast?_append_of_ne_nil _ (Step.text_ne_nil hValid)] at hc
      rcases Step.eq_of_mem_getLast?_text hc with rfl | ⟨k, rfl, hc⟩
      · rfl
      · exact hLast k hSteps c hc

/-! ## The path of a spelling -/

/-- **Parsing undoes spelling**: whatever steps spell the keys of a path, and whatever blanks
stand around, the path has these keys, in order.  Blanks at the start of a first name and at the
end of a last one would be taken for such blanks. -/
theorem parse_spelling {steps : List Step} {w v : List Char} (h : ∀ s ∈ steps, s.Valid)
    (hFirst : ∀ k, steps.head? = some (.name k) → ∀ c ∈ k.toList.head?, isBlank c = false)
    (hLast : ∀ k, steps.getLast? = some (.name k) → ∀ c ∈ k.toList.getLast?, isBlank c = false)
    (hw : AllBlank w) (hv : AllBlank v) :
    parse (String.ofList (w ++ spelling steps ++ v)) =
      ⟨String.ofList (spelling steps), steps.map Step.key⟩ := by
  have hKeys : (steps.map (·.key.toList)).map String.ofList = steps.map Step.key := by
    rw [List.map_map]
    exact List.map_congr_left fun s _ => String.ofList_toList
  have hTrim : trim (w ++ spelling steps ++ v) = spelling steps := by
    rw [trim_append_append hw hv, trim_spelling h hFirst hLast]
  rw [parse, String.toList_ofList, hTrim, split_spelling h, hKeys]

/-- Keys with the delimiters of other steps, an empty one, and blanks that count. -/
theorem parse_spelling_mixed :
    let steps : List Step := [.name "a] ", .quoted '"' "it's [x].y", .name " b", .quoted '\'' "",
      .bracketed " " "" "\t", .bracketed "\n" "k.[" " ", .name "'c'"]
    (∀ s ∈ steps, s.Valid) ∧
      (∀ k, steps.head? = some (.name k) → ∀ c ∈ k.toList.head?, isBlank c = false) ∧
      (∀ k, steps.getLast? = some (.name k) → ∀ c ∈ k.toList.getLast?, isBlank c = false) ∧
      AllBlank ['\t'] ∧ AllBlank ['\u2003'] ∧
      parse (String.ofList (['\t'] ++ spelling steps ++ ['\u2003'])) =
        ⟨"a] [\"it's [x].y\"]. b[''][ \t][\nk.[ ].'c'",
          ["a] ", "it's [x].y", " b", "", "", "k.[", "'c'"]⟩ := by
  intro steps
  have hValid : ∀ s ∈ steps, s.Valid := by decide +kernel
  have hFirst : ∀ k, steps.head? = some (.name k) → ∀ c ∈ k.toList.head?, isBlank c = false := by
    rintro k ⟨⟩ c ⟨⟩
    rfl
  have hLast : ∀ k, steps.getLast? = some (.name k) →
      ∀ c ∈ k.toList.getLast?, isBlank c = false := by
    rintro k ⟨⟩ c ⟨⟩
    rfl
  have hTab : AllBlank ['\t'] := List.forall_mem_singleton.mpr rfl
  have hSpace : AllBlank ['\u2003'] := List.forall_mem_singleton.mpr rfl
  refine ⟨hValid, hFirst, hLast, hTab, hSpace, ?_⟩
  rw [parse_spelling hValid hFirst hLast hTab hSpace]
  decide +kernel

end Stencil.Path
