import Stencil.Proofs.Path.Spelling

/-!
# Unclosed brackets

A bracket that is never closed gives a path its last key: the opening bracket, and what is in it
without the blanks at its start, or without its quotes and all that follows the closing one.  So
this key is the text from the bracket on only where there are neither blanks nor quotes after it.

* `Path.Closed`: texts all brackets of which are closed; `Path.OpenBracket`: a bracket that is not.
* `Path.Closed.split_append`: a closed text is read alike whatever bracket follows it.
* `Path.closed_or_exists_openBracket`: every text is closed, or it is so up to an open bracket.
* `Path.OpenBracket.key_eq_text_iff`: where the last key is the text as it stands.
* `Path.parse_openBracket`: the keys of a path with an open bracket.
-/

namespace Stencil.Path

open Text

/-! ## Closed texts -/

/-- The text of a bracket that is closed.  Between the closing quote and the end of the bracket
anything may stand. -/
inductive ClosedBracket : List Char → Prop
  | plain {key : List Char} : ']' ∉ key → (∀ c ∈ key.head?, c ≠ '"' ∧ c ≠ '\'') →
      ClosedBracket ('[' :: (key ++ [']']))
  | quoted {q : Char} {key junk : List Char} : q = '"' ∨ q = '\'' → q ∉ key → ']' ∉ junk →
      ClosedBracket ('[' :: q :: (key ++ q :: (junk ++ [']'])))

inductive Closed : List Char → Prop
  | nil : Closed []
  | char {c : Char} {cs : List Char} : c ≠ '[' → Closed cs → Closed (c :: cs)
  | bracket {b cs : List Char} : ClosedBracket b → Closed cs → Closed (b ++ cs)

/-- The keys that a text spells as it stands, blanks around it included. -/
def keys (text : List Char) : List String := (split .name [] text).map String.ofList

theorem ClosedBracket.exists_key {b : List Char} (h : ClosedBracket b) :
    ∃ body key, b = '[' :: body ∧
      ∀ rest, split .opened [] (body ++ rest) = key :: split .closed [] rest := by
  cases h with
  | @plain key hClose hQuote =>
    refine ⟨key ++ [']'], trim key, rfl, fun rest => ?_⟩
    rw [List.append_assoc]
    exact split_opened_append hClose hQuote
  | @quoted q key junk hq hKey hJunk =>
    refine ⟨q :: (key ++ q :: (junk ++ [']'])), key, rfl, fun rest => ?_⟩
    rw [List.cons_append, List.append_assoc, List.cons_append, List.append_assoc]
    exact split_opened_quoted junk hq hKey hJunk

def Mode.Outside : Mode → Prop
  | name => True
  | closed => True
  | _ => False

/-- **A closed text is read alike whatever bracket follows it.** -/
theorem Closed.split_append {pre : List Char} (h : Closed pre) {m : Mode} {key : List Char}
    (hm : m.Outside) (rest : List Char) :
    split m key (pre ++ '[' :: rest) = split m key pre ++ split .opened [] rest := by
  -- a character leads into a name, and a bracket to the place after it
  induction h generalizing m key with
  | nil =>
    cases m with
    | name => rw [List.nil_append, split_name_bracket, split_name_nil]
    | closed => rw [List.nil_append, split_closed_bracket, split_closed_nil, List.nil_append]
    | _ => exact hm.elim
  | @char c cs hc _ ih =>
    cases m with
    | name =>
      by_cases hDot : c = '.'
      · subst hDot
        rw [List.cons_append, split_name_dot, split_name_dot, ih (m := .name) trivial,
          List.cons_append]
      · rw [List.cons_append, split_name_of_ne hDot hc, split_name_of_ne hDot hc,
          ih (m := .name) trivial]
    | closed =>
      by_cases hDot : c = '.'
      · subst hDot
        rw [List.cons_append, split_closed_dot, split_closed_dot, ih (m := .name) trivial]
      · rw [List.cons_append, split_closed_of_ne hDot hc, split_closed_of_ne hDot hc,
          ih (m := .name) trivial]
    | _ => exact hm.elim
  | @bracket b cs hb _ ih =>
    obtain ⟨body, k, rfl, hBody⟩ := hb.exists_key
    rw [List.append_assoc, List.cons_append, List.cons_append]
    cases m with
    | name =>
      rw [split_name_bracket, split_name_bracket, hBody, hBody, ih (m := .closed) trivial,
        List.append_assoc, List.cons_append]
    | closed =>
      rw [split_closed_bracket, split_closed_bracket, hBody, hBody, ih (m := .closed) trivial,
        List.cons_append]
    | _ => exact hm.elim

/-! ## Spelled steps are closed -/

theorem Closed.append_of_notMem {k cs : List Char} (h : '[' ∉ k) (hcs : Closed cs) :
    Closed (k ++ cs) := by
  induction k with
  | nil => exact hcs
  | cons c k ih =>
    obtain ⟨hc, hk⟩ := not_or.mp (List.mem_cons.not.mp h)
    exact .char (Ne.symm hc) (ih hk)

theorem Step.closed_text_append {s : Step} (h : s.Valid) {cs : List Char} (hcs : Closed cs) :
    Closed (s.text ++ cs) := by
  cases s with
  | name k => exact hcs.append_of_notMem h.2.2
  | quoted q k =>
    have hBracket : ClosedBracket ('[' :: q :: (k.toList ++ q :: ([] ++ [']']))) :=
      .quoted h.1 h.2 List.not_mem_nil
    exact .bracket hBracket hcs
  | bracketed before k after =>
    obtain ⟨hClose, hQuote⟩ := bracketed_valid_plain h
    exact .bracket (.plain hClose hQuote) hcs

theorem Step.closed_laterText_append {s : Step} (h : s.Valid) {cs : List Char} (hcs : Closed cs) :
    Closed (s.laterText ++ cs) := by
  cases s with
  | name k => exact .char (by decide) (closed_text_append h hcs)
  | _ => exact closed_text_append h hcs

theorem closed_flatMap_laterText {steps : List Step} (h : ∀ s ∈ steps, s.Valid) :
    Closed (steps.flatMap Step.laterText) := by
  induction steps with
  | nil => exact .nil
  | cons s ss ih =>
    obtain ⟨hHead, hTail⟩ := List.forall_mem_cons.mp h
    rw [List.flatMap_cons]
    exact Step.closed_laterText_append hHead (ih hTail)

theorem closed_spelling {steps : List Step} (h : ∀ s ∈ steps, s.Valid) :
    Closed (spelling steps) := by
  cases steps with
  | nil => exact .nil
  | cons s ss =>
    obtain ⟨hHead, hTail⟩ := List.forall_mem_cons.mp h
    exact Step.closed_text_append hHead (closed_flatMap_laterText hTail)

/-! ## Open brackets -/

/-- A bracket that is never closed. -/
inductive OpenBracket where
  | plain (body : String)
  /-- With a quote that is not closed either. -/
  | quoted (quote : Char) (body : String)
  /-- With quotes that are closed, and what follows them. -/
  | unquoted (quote : Char) (body junk : String)
  deriving DecidableEq, Repr

namespace OpenBracket

def content : OpenBracket → List Char
  | plain body => body.toList
  | quoted q body => q :: body.toList
  | unquoted q body junk => q :: (body.toList ++ q :: junk.toList)

def text (b : OpenBracket) : List Char := '[' :: b.content

/-- What is taken for the last key: quotes are lost, with all that follows the closing one, and so
are blanks around what has no quotes. -/
def key : OpenBracket → List Char
  | plain body => '[' :: trim body.toList
  | quoted _ body => '[' :: body.toList
  | unquoted _ body _ => '[' :: body.toList

def Valid : OpenBracket → Prop
  | plain body => ']' ∉ body.toList ∧ body.toList.head? ≠ some '"' ∧ body.toList.head? ≠ some '\''
  | quoted q body => (q = '"' ∨ q = '\'') ∧ q ∉ body.toList
  | unquoted q body junk => (q = '"' ∨ q = '\'') ∧ q ∉ body.toList ∧ ']' ∉ junk.toList

instance : DecidablePred Valid
  | plain body => inferInstanceAs (Decidable (']' ∉ body.toList ∧
      body.toList.head? ≠ some '"' ∧ body.toList.head? ≠ some '\''))
  | quoted q body => inferInstanceAs (Decidable ((q = '"' ∨ q = '\'') ∧ q ∉ body.toList))
  | unquoted q body junk =>
    inferInstanceAs (Decidable ((q = '"' ∨ q = '\'') ∧ q ∉ body.toList ∧ ']' ∉ junk.toList))

variable {b : OpenBracket}

/-- **What is read of an open bracket** is one key. -/
theorem split_content (h : b.Valid) : split .opened [] b.content = [b.key] := by
  cases b with
  | plain body =>
    obtain ⟨hClose, hDouble, hSingle⟩ := h
    rw [content, key]
    cases hBody : body.toList with
    | nil => rfl
    | cons c cs =>
      rw [hBody] at hClose hDouble hSingle
      have hQuote : c ≠ '"' ∧ c ≠ '\'' :=
        ⟨fun hq => hDouble (hq ▸ rfl), fun hq => hSingle (hq ▸ rfl)⟩
      have hRead : split .opened [] (c :: cs ++ []) = _ := split_opened_plain hClose hQuote
      rw [List.append_nil] at hRead
      rw [hRead, split_plain_nil, List.reverse_reverse]
  | quoted q body =>
    obtain ⟨hq, hBody⟩ := h
    have hRead : split (.quoted q) [] (body.toList ++ []) = _ :=
      split_append_of_keeps fun _ => ne_of_notMem hBody
    rw [List.append_nil, List.append_nil] at hRead
    rw [content, split_opened_quote hq, hRead, split_quoted_nil, List.reverse_reverse, key]
  | unquoted q body junk =>
    obtain ⟨hq, hBody, hJunk⟩ := h
    have hRead : split .unquoted body.toList.reverse (junk.toList ++ []) = _ :=
      split_unquoted_append hJunk
    rw [List.append_nil] at hRead
    rw [content, split_opened_quote hq, split_quoted_append hBody, hRead, split_unquoted_nil,
      List.reverse_reverse, key]

/-- **Where the last key is the text as it stands**: there are no quotes and no blank at the start
of what is in the bracket. -/
theorem key_eq_text_iff {pre : List Char} (hTrim : trim (pre ++ b.text) = pre ++ b.text) :
    b.key = b.text ↔
      ∃ body, b = .plain body ∧ ∀ c ∈ body.toList.head?, isBlank c = false := by
  cases b with
  | plain body =>
    have hLast : ∀ c ∈ body.toList.getLast?, isBlank c = false := by
      intro c hc
      refine (trim_eq_self_iff.mp hTrim).2 c ?_
      have hSplit : pre ++ (plain body).text = (pre ++ ['[']) ++ body.toList := by
        rw [text, content, List.append_assoc, List.singleton_append]
      rw [hSplit, List.getLast?_append, Option.mem_def.mp hc]
      rfl
    rw [key, text, content, List.cons.injEq, trim_eq_self_iff]
    constructor
    · exact fun h => ⟨body, rfl, h.2.1⟩
    · rintro ⟨_, ⟨⟩, hFirst⟩
      exact ⟨rfl, hFirst, hLast⟩
  | quoted q body =>
    constructor
    · intro h
      have hLength := congrArg List.length h
      simp only [key, text, content, List.length_cons] at hLength
      omega
    · rintro ⟨_, ⟨⟩, -⟩
  | unquoted q body junk =>
    constructor
    · intro h
      have hLength := congrArg List.length h
      simp only [key, text, content, List.length_cons, List.length_append] at hLength
      omega
    · rintro ⟨_, ⟨⟩, -⟩

end OpenBracket

/-! ## All texts -/

theorem closedBracket_or_openBracket (cs : List Char) :
    (∃ b rest, ClosedBracket b ∧ '[' :: cs = b ++ rest) ∨
      ∃ b : OpenBracket, b.Valid ∧ '[' :: cs = b.text := by
  by_cases hHead : ∃ q ds, cs = q :: ds ∧ (q = '"' ∨ q = '\'')
  · obtain ⟨q, ds, rfl, hq⟩ := hHead
    by_cases hQuote : q ∈ ds
    · obtain ⟨body, more, rfl, hBody⟩ := List.eq_append_cons_of_mem hQuote
      by_cases hClose : ']' ∈ more
      · obtain ⟨junk, rest, rfl, hJunk⟩ := List.eq_append_cons_of_mem hClose
        exact .inl ⟨_, rest, .quoted hq hBody hJunk, by simp⟩
      · refine .inr ⟨.unquoted q (String.ofList body) (String.ofList more), ?_, ?_⟩
        · simpa [OpenBracket.Valid] using ⟨hq, hBody, hClose⟩
        · simp [OpenBracket.text, OpenBracket.content]
    · refine .inr ⟨.quoted q (String.ofList ds), ?_, ?_⟩
      · simpa [OpenBracket.Valid] using ⟨hq, hQuote⟩
      · simp [OpenBracket.text, OpenBracket.content]
  · have hPlain : ∀ c ∈ cs.head?, c ≠ '"' ∧ c ≠ '\'' := by
      intro c hc
      obtain ⟨ds, rfl⟩ := List.head?_eq_some_iff.mp hc
      exact not_or.mp fun hq => hHead ⟨c, ds, rfl, hq⟩
    by_cases hClose : ']' ∈ cs
    · obtain ⟨body, rest, rfl, hBody⟩ := List.eq_append_cons_of_mem hClose
      refine .inl ⟨_, rest, .plain hBody fun c hc => hPlain c ?_, by simp⟩
      rw [List.head?_append, Option.mem_def.mp hc]
      rfl
    · refine .inr ⟨.plain (String.ofList cs), ?_, ?_⟩
      · rw [OpenBracket.Valid, String.toList_ofList]
        exact ⟨hClose, fun hq => (hPlain _ hq).1 rfl, fun hq => (hPlain _ hq).2 rfl⟩
      · simp [OpenBracket.text, OpenBracket.content]

/-- **Every text is closed, or it is so up to an open bracket.** -/
theorem closed_or_exists_openBracket (cs : List Char) :
    Closed cs ∨ ∃ pre b, Closed pre ∧ OpenBracket.Valid b ∧ cs = pre ++ b.text := by
  -- a bracket takes several characters at once, so the induction is on the length
  induction hLength : cs.length using Nat.strongRecOn generalizing cs with
  | ind n ih =>
    subst hLength
    cases cs with
    | nil => exact .inl .nil
    | cons c cs =>
      by_cases hc : c = '['
      · subst hc
        rcases closedBracket_or_openBracket cs with ⟨b, rest, hb, hText⟩ | ⟨b, hb, hText⟩
        · have hShorter : rest.length < ('[' :: cs).length := by
            obtain ⟨body, -, rfl, -⟩ := hb.exists_key
            rw [hText, List.cons_append, List.length_cons, List.length_append]
            omega
          rw [hText]
          rcases ih _ hShorter rest rfl with hRest | ⟨pre, o, hPre, ho, rfl⟩
          · exact .inl (.bracket hb hRest)
          · exact .inr ⟨b ++ pre, o, .bracket hb hPre, ho, (List.append_assoc ..).symm⟩
        · exact .inr ⟨[], b, .nil, hb, hText⟩
      · rcases ih _ (Nat.lt_succ_self _) cs rfl with hRest | ⟨pre, b, hPre, hb, rfl⟩
        · exact .inl (.char hc hRest)
        · exact .inr ⟨c :: pre, b, .char hc hPre, hb, rfl⟩

/-! ## The path of a text with an open bracket -/

/-- **The keys of a text with an open bracket** are those of the closed text before the bracket and
the key of the bracket. -/
theorem segments_append_openBracket {pre : List Char} {b : OpenBracket} (hPre : Closed pre)
    (hb : b.Valid) (hTrim : trim (pre ++ b.text) = pre ++ b.text) :
    (parse (String.ofList (pre ++ b.text))).segments = keys pre ++ [String.ofList b.key] := by
  have hSplit : split .name [] (pre ++ b.text) =
      split .name [] pre ++ split .opened [] b.content :=
    hPre.split_append (m := .name) trivial b.content
  rw [parse, String.toList_ofList, hTrim, hSplit, OpenBracket.split_content hb, List.map_append,
    keys, List.map_singleton]

theorem keys_spelling {steps : List Step} (h : ∀ s ∈ steps, s.Valid) :
    keys (spelling steps) = steps.map Step.key := by
  rw [keys, split_spelling h, List.map_map]
  exact List.map_congr_left fun s _ => String.ofList_toList

/-- **An open bracket gives the last key**, after the keys of the closed text before it; and this
key is the text from the bracket on just when there is neither a quote nor a blank after the
bracket.  The text before it may be any steps as they are spelled, and every text that is not
closed has an open bracket. -/
theorem parse_openBracket (cs : List Char) (hTrim : trim cs = cs) :
    (∀ (pre : List Char) (b : OpenBracket), Closed pre → b.Valid → cs = pre ++ b.text →
      (parse (String.ofList cs)).segments = keys pre ++ [String.ofList b.key] ∧
        ((parse (String.ofList cs)).segments = keys pre ++ [String.ofList b.text] ↔
          ∃ body, b = .plain body ∧ ∀ c ∈ body.toList.head?, isBlank c = false)) ∧
      (∀ steps : List Step, (∀ s ∈ steps, s.Valid) →
        Closed (spelling steps) ∧ keys (spelling steps) = steps.map Step.key) ∧
      (Closed cs ∨ ∃ (pre : List Char) (b : OpenBracket),
        Closed pre ∧ b.Valid ∧ cs = pre ++ b.text) := by
  refine ⟨fun pre b hPre hb hText => ?_,
    fun steps h => ⟨closed_spelling h, keys_spelling h⟩, closed_or_exists_openBracket cs⟩
  subst hText
  have hSegments := segments_append_openBracket hPre hb hTrim
  refine ⟨hSegments, ?_⟩
  rw [hSegments, List.append_right_inj, List.singleton_inj, String.ofList_inj,
    b.key_eq_text_iff hTrim]

/-- A bracket that begins with a blank, so that a quote in it does not count, after a closed one
with more than a quoted key in it and a name that ends with a blank. -/
theorem parse_openBracket_blank :
    let text := "a['x'!].b [ 'c.d["
    let pre : List Char := 'a' :: (['[', '\'', 'x', '\'', '!', ']'] ++ ['.', 'b', ' '])
    let b : OpenBracket := .plain " 'c.d["
    let steps : List Step := [.name "a", .quoted '"' "x", .name "b "]
    (trim text.toList = text.toList ∧ Closed pre ∧ b.Valid ∧ text.toList = pre ++ b.text ∧
      ∀ s ∈ steps, s.Valid) ∧
      (parse text).segments = ["a", "x", "b ", "['c.d["] ∧
      ((parse text).segments = ["a", "x", "b ", "[ 'c.d["] ↔
        ∃ body, b = .plain body ∧ ∀ c ∈ body.toList.head?, isBlank c = false) ∧
      Closed (spelling steps) ∧ keys (spelling steps) = ["a", "x", "b "] := by
  intro text pre b steps
  have hBracket : ClosedBracket ('[' :: '\'' :: (['x'] ++ '\'' :: (['!'] ++ [']']))) :=
    .quoted (.inr rfl) (by decide) (by decide)
  have hName : Closed (['.', 'b', ' '] ++ []) := Closed.nil.append_of_notMem (by decide)
  have hPre : Closed pre := .char (by decide) (.bracket hBracket hName)
  have hValid : b.Valid := by decide +kernel
  have hTrim : trim text.toList = text.toList := by decide +kernel
  have hText : text.toList = pre ++ b.text := by decide +kernel
  have hSteps : ∀ s ∈ steps, s.Valid := by decide +kernel
  have hKey : keys pre ++ [String.ofList b.key] = ["a", "x", "b ", "['c.d["] := by decide +kernel
  have hWhole : keys pre ++ [String.ofList b.text] = ["a", "x", "b ", "[ 'c.d["] := by
    decide +kernel
  obtain ⟨hOpen, hSpelled, -⟩ := parse_openBracket text.toList hTrim
  obtain ⟨hSegments, hKept⟩ := hOpen pre b hPre hValid hText
  rw [String.ofList_toList] at hSegments hKept
  rw [hKey] at hSegments
  rw [hWhole] at hKept
  exact ⟨⟨hTrim, hPre, hValid, hText, hSteps⟩, hSegments, hKept, hSpelled steps hSteps⟩

/-- With quotes the text from the bracket on is not kept: they are dropped, and all that follows
the closing one. -/
theorem parse_openBracket_drops :
    let pre := "data".toList
    let b : OpenBracket := .unquoted '"' "first name" ".age"
    let text := "data[\"first name\".age"
    Closed pre ∧ b.Valid ∧ pre ++ b.text = text.toList ∧ trim text.toList = text.toList ∧
      (parse text).segments = ["data", "[first name"] ∧
      (parse text).segments ≠ keys pre ++ [String.ofList b.text] := by
  intro pre b text
  have hPre : Closed (pre ++ []) := Closed.nil.append_of_notMem (by decide)
  have hSegments : (parse text).segments = ["data", "[first name"] := by decide +kernel
  have hWhole : keys pre ++ [String.ofList b.text] = ["data", "[\"first name\".age"] := by
    decide +kernel
  refine ⟨List.append_nil pre ▸ hPre, by decide +kernel, by decide +kernel, by decide +kernel,
    hSegments, ?_⟩
  rw [hSegments, hWhole]
  decide

end Stencil.Path
