import Stencil.Template.Print
import Stencil.Proofs.Standard.Directives
import Stencil.Proofs.Template.Compile

/-!
# Printed templates

A template that is printed and compiled again is the same, when its literals and names cannot
be mistaken for the directives around them.

* `Part.IsPrintable`: what a part has to be.
* `Form.word`: what a form means to a template (`Form.Tells.word`).
* `Form.Reading.form_inv`, `Form.Reading.literal_inv`: the tokens of a text that goes on with a
  form, or with a text in which no form begins.
* `Form.ReadsAs`: what a stretch of a text is read as, wherever it stands.
* `Part.readsAs_printAll`: printed parts are read as the words of the parts.
* `Template.compile_print`: compiling undoes printing.
-/

namespace Stencil

open Text

namespace Part

def isLiteral : Part → Bool
  | literal _ => true
  | _ => false

mutual

/-- Whether a part can be told from what is printed: what its directive ends with does not
occur before the end, and names and paths are as they are read. -/
def IsPrintable : Part → Prop
  | literal text => text ≠ "" ∧ ¬['<', '%'] <:+: text.toList
  | escape path => Path.parse path.source = path ∧ ¬['%', '>'] <:+: path.source.toList
  | interpolate path => Path.parse path.source = path ∧ ¬['%', '>'] <:+: path.source.toList
  | loop collection itemName indexName body =>
    (Path.parse collection.source = collection ∧ ',' ∉ collection.source.toList ∧
        ')' ∉ collection.source.toList) ∧
      (trimmed itemName = itemName ∧ ')' ∉ itemName.toList) ∧
      indexName = itemName ++ "_index" ∧ AllPrintable body
  | conditional condition thenBranch elseBranch =>
    (Path.parse condition.source = condition ∧ ')' ∉ condition.source.toList) ∧
      AllPrintable thenBranch ∧ BranchPrintable elseBranch
termination_by structural p => p

/-- Whether parts one after another can be told from what is printed: no two literals are side
by side. -/
def AllPrintable : List Part → Prop
  | [] => True
  | p :: ps =>
    p.IsPrintable ∧ ¬(p.isLiteral ∧ ps.head?.any isLiteral) ∧ AllPrintable ps
termination_by structural ps => ps

def BranchPrintable : Option (List Part) → Prop
  | none => True
  | some ps => AllPrintable ps
termination_by structural b => b

end

end Part

/-! ## What forms mean -/

namespace Form

def word : Form → Word
  | escape path => .escape (.parse (String.ofList path))
  | interpolate path => .interpolate (.parse (String.ofList path))
  | loop _ _ collection itemName _ =>
    .openLoop (.parse (String.ofList collection)) (trimmed (String.ofList itemName))
      (trimmed (String.ofList itemName) ++ "_index")
  | conditional _ _ condition _ => .openIf (.parse (String.ofList condition))
  | alternative _ _ => .divide
  | terminate _ _ => .close

variable {f : Form} {text before after : List Char} {offset : Nat} {d : Directive}
  {ts : List Token}

theorem parsedPath_eq {s : String} (h : d.path.map trimmed = some (trimmed s)) :
    d.parsedPath = .parse s := by
  obtain ⟨t, ht, hSame⟩ := Option.map_eq_some_iff.mp h
  rw [Directive.parsedPath, ht]
  exact Path.parse_congr hSame

theorem trimmedItemName_eq {s : String} (h : d.itemName.map trimmed = some (trimmed s)) :
    d.trimmedItemName = trimmed s := by
  obtain ⟨t, ht, hSame⟩ := Option.map_eq_some_iff.mp h
  rw [Directive.trimmedItemName, ht]
  exact hSame

/-- **A directive means what its form does.** -/
theorem Tells.word (h : f.Tells offset d) : d.word = f.word := by
  have hKind := h.kind
  have hPath := h.trimmedPath
  rw [Directive.word, hKind]
  cases f with
  | escape path => exact congrArg Word.escape (parsedPath_eq hPath)
  | interpolate path => exact congrArg Word.interpolate (parsedPath_eq hPath)
  | loop w v collection itemName u =>
    show Word.openLoop _ _ _ = Word.openLoop _ _ _
    rw [parsedPath_eq hPath, trimmedItemName_eq h.trimmedItemName]
  | conditional w v condition u => exact congrArg Word.openIf (parsedPath_eq hPath)
  | alternative w u => rfl
  | terminate w u => rfl

/-! ## Reading on -/

/-- Where a form stands the next token is its directive. -/
theorem Reading.form_inv (h : Reading text (byteLength before) ts) (hf : f.Valid)
    (hText : text = before ++ f.raw ++ after) :
    ∃ t us, ts = t :: us ∧ t.word = f.word ∧ Reading text (byteLength (before ++ f.raw)) us := by
  have hStands : f.StandsAt text (byteLength before) := ⟨hf, before, after, hText, rfl⟩
  generalize hi : byteLength before = i at h hStands
  cases h with
  | stop => exact absurd hStands.lt (Nat.lt_irrefl _)
  | @directive _ g d us hOther hTells hMore =>
    obtain rfl := hStands.eq hOther
    rw [hTells.stop, ← hi, ← byteLength_append] at hMore
    exact ⟨_, us, rfl, hTells.word, hMore⟩
  | literal hlt hNone _ _ => exact absurd hStands (hNone i (Nat.le_refl i) hlt f)

/-- Whether a text is at its end or goes on with a form. -/
def Begins (rest : List Char) : Prop :=
  rest = [] ∨ ∃ (f : Form) (after : List Char), f.Valid ∧ rest = f.raw ++ after

theorem Begins.plain {cs rest : List Char} (hRest : Begins rest) (hFree : ¬['<', '%'] <:+: cs) :
    Plain cs rest := by
  refine plain_iff.mpr ⟨hFree, ?_⟩
  rintro ⟨-, hHead⟩
  rcases hRest with rfl | ⟨f, after, -, rfl⟩
  · cases hHead
  · obtain ⟨body, hRaw⟩ := f.exists_raw_eq
    rw [hRaw] at hHead
    cases hHead

/-- Where a text goes on without forms, up to its end or the next form, the next token is a
literal. -/
theorem Reading.literal_inv {cs rest : List Char} (h : Reading text (byteLength before) ts)
    (hText : text = before ++ cs ++ rest) (hcs : cs ≠ []) (hFree : ¬['<', '%'] <:+: cs)
    (hRest : Begins rest) :
    ∃ t us, ts = t :: us ∧ t.word = .literal (String.ofList cs) ∧
      Reading text (byteLength (before ++ cs)) us := by
  have hNone {k : Nat} (hk : byteLength before ≤ k) (hlt : k < byteLength (before ++ cs)) :=
    (hRest.plain hFree).not_standsAt hText hk hlt
  have hSome : byteLength before < byteLength (before ++ cs) := by
    have := byteLength_pos hcs
    rw [byteLength_append]
    omega
  have hEnd : byteLength (before ++ cs) + byteLength rest = byteLength text := by
    rw [hText, byteLength_append (before ++ cs)]
  generalize hi : byteLength before = i at h
  cases h with
  | stop => omega
  | directive hStands _ _ => exact absurd hStands (hNone (Nat.le_of_eq hi) (hi ▸ hSome) _)
  | @literal _ j us hlt hUntil hNext hMore =>
    -- the literal goes to the end of this stretch, no less and no more
    have hReach : j = byteLength (before ++ cs) := by
      rcases Nat.lt_trichotomy j (byteLength (before ++ cs)) with hLess | hSame | hMore
      · rcases hNext with hStop | ⟨f, hStands⟩
        · omega
        · exact absurd hStands (hNone (by omega) hLess f)
      · exact hSame
      · rcases hRest with rfl | ⟨f, after, hf, rfl⟩
        · have hLast : j ≤ byteLength text := by
            rcases hNext with hStop | ⟨f, hStands⟩
            · exact Nat.le_of_eq hStop
            · exact Nat.le_of_lt hStands.lt
          simp only [byteLength] at hEnd
          omega
        · refine absurd ?_ (hUntil _ (by omega) hMore f)
          exact ⟨hf, before ++ cs, after, by rw [hText, List.append_assoc (before ++ cs)], rfl⟩
    subst hReach
    refine ⟨_, us, rfl, ?_, hMore⟩
    rw [hText, ← hi, Token.word, byteLength_append, slice_append]

theorem Reading.eq_nil (h : Reading text (byteLength text) ts) : ts = [] := by
  generalize hi : byteLength text = i at h
  cases h with
  | stop => rfl
  | directive hStands _ _ => exact absurd hStands.lt (hi ▸ Nat.lt_irrefl i)
  | literal hlt _ hNext _ =>
    rcases hNext with rfl | ⟨f, hStands⟩
    · omega
    · have := hStands.lt
      omega

/-- Whether a stretch of a text is read as words, wherever it stands before the end or a
form. -/
def ReadsAs (cs : List Char) (ws : List Word) : Prop :=
  ∀ ⦃text before rest : List Char⦄ ⦃ts : List Token⦄, text = before ++ cs ++ rest → Begins rest →
    Reading text (byteLength before) ts →
      ∃ us vs, ts = us ++ vs ∧ ws = us.map Token.word ∧ Reading text (byteLength (before ++ cs)) vs

/-- Whether a stretch of a text before the end or a form begins with a form or is empty. -/
def GoesOn (cs : List Char) : Prop := ∀ rest, Begins rest → Begins (cs ++ rest)

theorem goesOn_nil : GoesOn [] := fun _ h => h

theorem goesOn_form (hf : f.Valid) (cs : List Char) : GoesOn (f.raw ++ cs) := fun rest _ =>
  .inr ⟨f, cs ++ rest, hf, List.append_assoc ..⟩

namespace ReadsAs

variable {cs ds : List Char} {ws vs : List Word}

theorem nil : ReadsAs [] [] := by
  intro text before rest ts _ _ h
  rw [List.append_nil]
  exact ⟨[], ts, rfl, rfl, h⟩

theorem append (hcs : ReadsAs cs ws) (hds : ReadsAs ds vs) (hGoesOn : GoesOn ds) :
    ReadsAs (cs ++ ds) (ws ++ vs) := by
  intro text before rest ts hText hRest h
  have hAfter : text = before ++ cs ++ (ds ++ rest) := by
    rw [hText]
    simp only [List.append_assoc]
  obtain ⟨us, ts, rfl, rfl, hMore⟩ := hcs hAfter (hGoesOn rest hRest) h
  rw [← List.append_assoc] at hAfter
  obtain ⟨us', ts, rfl, rfl, hEnd⟩ := hds hAfter hRest hMore
  rw [List.append_assoc] at hEnd
  exact ⟨us ++ us', ts, (List.append_assoc ..).symm, (List.map_append ..).symm, hEnd⟩

theorem form_append (hf : f.Valid) (hds : ReadsAs ds vs) :
    ReadsAs (f.raw ++ ds) (f.word :: vs) := by
  intro text before rest ts hText hRest h
  have hAfter : text = before ++ f.raw ++ (ds ++ rest) := by
    rw [hText]
    simp only [List.append_assoc]
  obtain ⟨t, us, rfl, hWord, hMore⟩ := h.form_inv hf hAfter
  rw [← List.append_assoc] at hAfter
  obtain ⟨us, ts, rfl, rfl, hEnd⟩ := hds hAfter hRest hMore
  rw [List.append_assoc] at hEnd
  exact ⟨t :: us, ts, rfl, by rw [List.map_cons, hWord], hEnd⟩

theorem literal (hcs : cs ≠ []) (hFree : ¬['<', '%'] <:+: cs) :
    ReadsAs cs [.literal (String.ofList cs)] := by
  intro text before rest ts hText hRest h
  obtain ⟨t, us, rfl, hWord, hMore⟩ := h.literal_inv hText hcs hFree hRest
  exact ⟨[t], us, rfl, by rw [List.map_singleton, hWord], hMore⟩

end ReadsAs

/-! ## Printed directives -/

def padded (s : String) : List Char := [' '] ++ s.toList ++ [' ']

theorem allBlank_space : AllBlank [' '] := fun _ hc => List.mem_singleton.mp hc ▸ rfl

theorem trimmed_padded (s : String) : trimmed (String.ofList (padded s)) = trimmed s := by
  rw [padded, trimmed_append_append allBlank_space allBlank_space, String.ofList_toList]

theorem parse_padded (s : String) : Path.parse (String.ofList (padded s)) = Path.parse s :=
  Path.parse_congr (trimmed_padded s)

theorem padded_ne_nil (s : String) : padded s ≠ [] := List.cons_ne_nil _ _

theorem notMem_padded {c : Char} {s : String} (hc : isBlank c = false) (h : c ∉ s.toList) :
    c ∉ padded s :=
  notMem_append_append allBlank_space allBlank_space hc h

theorem exists_of_concat_eq {xs a b : List Char} {c : Char}
    (h : xs ++ [c] = a ++ ['%', '>'] ++ b) (hb : b = [] → c ≠ '>') :
    ∃ b', xs = a ++ ['%', '>'] ++ b' := by
  rcases List.eq_nil_or_concat b with rfl | ⟨b', d, rfl⟩
  · have hLast : xs ++ [c] = (a ++ ['%']) ++ ['>'] := by
      rw [h, List.append_nil, List.append_assoc]
      rfl
    exact absurd (List.cons.inj (List.append_inj' hLast rfl).2).1 (hb rfl)
  · rw [List.concat_eq_append, ← List.append_assoc] at h
    exact ⟨b', (List.append_inj' h rfl).1⟩

/-- A text without `%>` ends where it is printed to end. -/
theorem endsFirst_padded {s : String} (h : ¬['%', '>'] <:+: s.toList) :
    EndsFirst (padded s) := by
  refine ⟨padded_ne_nil s, fun a b ha hab => ?_⟩
  refine Decidable.byContradiction fun hb => ?_
  -- take off the end that was printed, one character after another
  have hEnd : (padded s ++ ['%']) ++ ['>'] = a ++ ['%', '>'] ++ b := by
    rw [← hab, List.append_assoc]
    rfl
  obtain ⟨b, hPercent⟩ := exists_of_concat_eq hEnd fun hNil => absurd hNil hb
  obtain ⟨b, hBlank⟩ := exists_of_concat_eq hPercent fun _ => by decide
  obtain ⟨b, hText⟩ := exists_of_concat_eq hBlank fun _ => by decide
  cases a with
  | nil => exact ha rfl
  | cons c a => exact h ⟨a, b, (List.cons.inj hText).2.symm⟩

def openLoop (collection : Path) (itemName : String) : Form :=
  loop [' '] [' '] (padded collection.source) (padded itemName) [' ']

def openIf (condition : Path) : Form :=
  conditional [' '] [' '] (padded condition.source) [' ']

def divide : Form := alternative [' '] [' ']

def close : Form := terminate [' '] [' ']

theorem valid_escape {s : String} (h : ¬['%', '>'] <:+: s.toList) : (escape (padded s)).Valid :=
  endsFirst_padded h

theorem valid_interpolate {s : String} (h : ¬['%', '>'] <:+: s.toList) :
    (interpolate (padded s)).Valid :=
  endsFirst_padded h

theorem valid_openLoop {collection : Path} {itemName : String}
    (hComma : ',' ∉ collection.source.toList) (hParen : ')' ∉ collection.source.toList)
    (hItem : ')' ∉ itemName.toList) : (openLoop collection itemName).Valid :=
  ⟨⟨allBlank_space, allBlank_space, allBlank_space⟩,
    ⟨padded_ne_nil _, notMem_padded rfl hComma, notMem_padded rfl hParen⟩,
    padded_ne_nil _, notMem_padded rfl hItem⟩

theorem valid_openIf {condition : Path} (hParen : ')' ∉ condition.source.toList) :
    (openIf condition).Valid :=
  ⟨⟨allBlank_space, allBlank_space, allBlank_space⟩, padded_ne_nil _, notMem_padded rfl hParen⟩

theorem word_openLoop {collection : Path} {itemName : String}
    (hPath : Path.parse collection.source = collection) (hItem : trimmed itemName = itemName) :
    (openLoop collection itemName).word =
      .openLoop collection itemName (itemName ++ "_index") := by
  rw [openLoop, word, parse_padded, hPath, trimmed_padded, hItem]

theorem word_openIf {condition : Path} (hPath : Path.parse condition.source = condition) :
    (openIf condition).word = .openIf condition := by
  rw [openIf, word, parse_padded, hPath]

theorem valid_divide : divide.Valid := ⟨allBlank_space, allBlank_space⟩

theorem valid_close : close.Valid := ⟨allBlank_space, allBlank_space⟩

end Form

namespace Part

section

variable (ps : List Part)

theorem toList_printAll_literal (text : String) :
    (printAll (literal text :: ps)).toList = text.toList ++ (printAll ps).toList := by
  rw [printAll, print, String.toList_append]

theorem toList_printAll_escape (path : Path) :
    (printAll (escape path :: ps)).toList =
      (Form.escape (Form.padded path.source)).raw ++ (printAll ps).toList := by
  rw [printAll, print]
  simp only [String.toList_append, Form.raw, Form.insertion, Form.padded, List.append_assoc]
  rfl

theorem toList_printAll_interpolate (path : Path) :
    (printAll (interpolate path :: ps)).toList =
      (Form.interpolate (Form.padded path.source)).raw ++ (printAll ps).toList := by
  rw [printAll, print]
  simp only [String.toList_append, Form.raw, Form.insertion, Form.padded, List.append_assoc]
  rfl

theorem toList_printAll_loop (collection : Path) (itemName indexName : String)
    (body : List Part) :
    (printAll (loop collection itemName indexName body :: ps)).toList =
      (Form.openLoop collection itemName).raw ++
        ((printAll body).toList ++ (Form.close.raw ++ (printAll ps).toList)) := by
  rw [printAll, print]
  simp only [String.toList_append, Form.openLoop, Form.close, Form.raw, Form.block,
    Form.opening, Form.keyword, Form.padded, List.append_assoc]
  rfl

theorem toList_printAll_conditional (condition : Path) (body : List Part) :
    (printAll (conditional condition body none :: ps)).toList =
      (Form.openIf condition).raw ++
        ((printAll body).toList ++ (Form.close.raw ++ (printAll ps).toList)) := by
  rw [printAll, print, printBranch]
  simp only [String.toList_append, Form.openIf, Form.close, Form.raw, Form.block, Form.opening,
    Form.keyword, Form.padded, List.append_assoc]
  rfl

theorem toList_printAll_branches (condition : Path) (first second : List Part) :
    (printAll (conditional condition first (some second) :: ps)).toList =
      (Form.openIf condition).raw ++ ((printAll first).toList ++ (Form.divide.raw ++
        ((printAll second).toList ++ (Form.close.raw ++ (printAll ps).toList)))) := by
  rw [printAll, print, printBranch]
  simp only [String.toList_append, Form.openIf, Form.divide, Form.close, Form.raw, Form.block,
    Form.opening, Form.keyword, Form.padded, List.append_assoc]
  rfl

end

/-- Printed parts of which the first is no literal begin with a form. -/
theorem goesOn_printAll {ps : List Part} (h : AllPrintable ps)
    (hHead : ¬ps.head?.any isLiteral) : Form.GoesOn (printAll ps).toList := by
  cases ps with
  | nil => exact Form.goesOn_nil
  | cons p ps =>
    cases p with
    | literal text => exact absurd rfl hHead
    | escape path =>
      rw [toList_printAll_escape]
      exact Form.goesOn_form (Form.valid_escape h.1.2) _
    | interpolate path =>
      rw [toList_printAll_interpolate]
      exact Form.goesOn_form (Form.valid_interpolate h.1.2) _
    | loop collection itemName indexName body =>
      obtain ⟨⟨-, hComma, hParen⟩, ⟨-, hItem⟩, -⟩ := h.1
      rw [toList_printAll_loop]
      exact Form.goesOn_form (Form.valid_openLoop hComma hParen hItem) _
    | conditional condition first branch =>
      have hOpen := Form.valid_openIf h.1.1.2
      cases branch with
      | none =>
        rw [toList_printAll_conditional]
        exact Form.goesOn_form hOpen _
      | some second =>
        rw [toList_printAll_branches]
        exact Form.goesOn_form hOpen _

/-- **Printed parts are read as the words of the parts.** -/
theorem readsAs_printAll {ps : List Part} (h : AllPrintable ps) :
    Form.ReadsAs (printAll ps).toList (wordsOf ps) := by
  induction ps using Part.listInduction with
  | nil => exact .nil
  | literal text ps ih =>
    obtain ⟨⟨hSome, hFree⟩, hApart, hps⟩ := h
    have hChars : text.toList ≠ [] := fun hNil => hSome (String.toList_eq_nil_iff.mp hNil)
    have hLiteral := Form.ReadsAs.literal hChars hFree
    rw [String.ofList_toList] at hLiteral
    rw [toList_printAll_literal]
    exact hLiteral.append (ih hps) (goesOn_printAll hps fun hHead => hApart ⟨rfl, hHead⟩)
  | escape path ps ih =>
    obtain ⟨⟨hPath, hFree⟩, -, hps⟩ := h
    have hForm := (ih hps).form_append (Form.valid_escape hFree)
    rw [Form.word, Form.parse_padded, hPath] at hForm
    rw [toList_printAll_escape]
    exact hForm
  | interpolate path ps ih =>
    obtain ⟨⟨hPath, hFree⟩, -, hps⟩ := h
    have hForm := (ih hps).form_append (Form.valid_interpolate hFree)
    rw [Form.word, Form.parse_padded, hPath] at hForm
    rw [toList_printAll_interpolate]
    exact hForm
  | loop collection itemName indexName body ps ihBody ih =>
    obtain ⟨⟨⟨hPath, hComma, hParen⟩, ⟨hTrimmed, hItem⟩, rfl, hBody⟩, -, hps⟩ := h
    -- from the end to the start: what follows the block, its end, its body, its opening
    have hClose := (ih hps).form_append Form.valid_close
    have hInside := (ihBody hBody).append hClose (Form.goesOn_form Form.valid_close _)
    have hAll := hInside.form_append (Form.valid_openLoop hComma hParen hItem)
    rw [Form.word_openLoop hPath hTrimmed] at hAll
    rw [toList_printAll_loop, wordsOf, words, List.cons_append, List.append_assoc]
    exact hAll
  | conditional condition body ps ihBody ih =>
    obtain ⟨⟨⟨hPath, hParen⟩, hBody, -⟩, -, hps⟩ := h
    have hClose := (ih hps).form_append Form.valid_close
    have hInside := (ihBody hBody).append hClose (Form.goesOn_form Form.valid_close _)
    have hAll := hInside.form_append (Form.valid_openIf hParen)
    rw [Form.word_openIf hPath] at hAll
    rw [toList_printAll_conditional, wordsOf, words, wordsOfBranch, List.cons_append,
      List.append_assoc]
    exact hAll
  | branches condition first second ps ihFirst ihSecond ih =>
    obtain ⟨⟨⟨hPath, hParen⟩, hFirst, hSecond⟩, -, hps⟩ := h
    have hClose := (ih hps).form_append Form.valid_close
    have hElse := ((ihSecond hSecond).append hClose
      (Form.goesOn_form Form.valid_close _)).form_append Form.valid_divide
    have hInside := (ihFirst hFirst).append hElse (Form.goesOn_form Form.valid_divide _)
    have hAll := hInside.form_append (Form.valid_openIf hParen)
    rw [Form.word_openIf hPath] at hAll
    rw [toList_printAll_branches, wordsOf, words, wordsOfBranch, List.cons_append,
      List.append_assoc, List.cons_append, List.cons_append, List.append_assoc]
    exact hAll

end Part

namespace Template

/-- **Compiling undoes printing**: what is printed of printable parts compiles, to just these
parts. -/
theorem compile_print (t : Template) (h : Part.AllPrintable t.parts) :
    compile .standard t.print = .ok t := by
  have hReading := RuleSet.reading_tokens t.print
  have hText : t.print.toList = [] ++ (Part.printAll t.parts).toList ++ [] := by
    rw [List.nil_append, List.append_nil]
    rfl
  obtain ⟨us, vs, hTokens, hWords, hEnd⟩ :=
    Part.readsAs_printAll h hText (.inl rfl) hReading
  have hNil : vs = [] := Form.Reading.eq_nil hEnd
  rw [hNil, List.append_nil] at hTokens
  have hSpells : Spells t.parts (RuleSet.standard.tokens t.print) := by
    rw [hTokens]
    exact hWords
  rw [compile, RuleSet.make_standard]
  show (compileWith RuleSet.standard t.print).mapError TemplateError.structural = _
  rw [compileWith, ofTokens_of_spells hSpells]
  rfl

/-- Blocks in blocks, empty ones too, and paths that look like directives. -/
theorem compile_print_nested :
    let parts : List Part :=
      [.literal "List <", .escape (.parse "user['full name']"),
        .loop (.parse "user.items") "item" "item_index"
          [.conditional (.parse "item.tags[0]") []
            (some [.literal "%> ", .interpolate (.parse "<% item"),
              .loop (.parse "") "" "_index" []])],
        .conditional (.parse "a, b") [] none]
    Part.AllPrintable parts ∧
      compile .standard (print ⟨parts⟩) = .ok ⟨parts⟩ := by
  intro parts
  have hPrintable : Part.AllPrintable parts := by
    simp only [parts, Part.AllPrintable, Part.IsPrintable, Part.BranchPrintable]
    and_intros <;> decide +kernel
  exact ⟨hPrintable, compile_print ⟨parts⟩ hPrintable⟩

end Template

end Stencil
