import Stencil.Template.Compile

/-!
# The grammar of templates

The tokens of a template are those that the grammar

    T ::= (literal | escape | interpolate | loop T end | if T end | if T else T end)*

derives, and its parts are the tree of the derivation.

* `Balanced`: the lists of tokens that the grammar derives.
* `Word`: what a token means, without its place; `Part.words` writes a tree as the words
  it stands for.
* `Spells`: parts whose words are those of a list of tokens.
* `balanced_iff_spells`: the grammar derives exactly the tokens of trees.
-/

namespace Stencil

def Token.kind? (t : Token) : Option DirectiveKind := t.directive?.map (·.kind)

/-- The lists of tokens that the grammar derives. -/
inductive Balanced : List Token → Prop
  | nil : Balanced []
  | literal {t : Token} {ts : List Token} : t.kind? = none → Balanced ts → Balanced (t :: ts)
  | escape {t : Token} {ts : List Token} :
      t.kind? = some .escape → Balanced ts → Balanced (t :: ts)
  | interpolate {t : Token} {ts : List Token} :
      t.kind? = some .interpolate → Balanced ts → Balanced (t :: ts)
  | loop {t e : Token} {body ts : List Token} :
      t.kind? = some .loop → Balanced body → e.kind? = some .terminate → Balanced ts →
      Balanced (t :: (body ++ e :: ts))
  | conditional {t e : Token} {body ts : List Token} :
      t.kind? = some .conditional → Balanced body → e.kind? = some .terminate → Balanced ts →
      Balanced (t :: (body ++ e :: ts))
  | branches {t a e : Token} {first second ts : List Token} :
      t.kind? = some .conditional → Balanced first → a.kind? = some .alternative →
      Balanced second → e.kind? = some .terminate → Balanced ts →
      Balanced (t :: (first ++ a :: (second ++ e :: ts)))

/-! ## Words -/

/-- What a token means to a template, wherever it stands. -/
inductive Word where
  | literal (text : String)
  | escape (path : Path)
  | interpolate (path : Path)
  | openLoop (collection : Path) (itemName indexName : String)
  | openIf (condition : Path)
  | divide
  | close
  deriving DecidableEq, Repr

/-- The word of a directive: its path is parsed and the blanks around its item name are
gone. -/
def Directive.word (d : Directive) : Word :=
  match d.kind with
  | .escape => .escape d.parsedPath
  | .interpolate => .interpolate d.parsedPath
  | .loop => .openLoop d.parsedPath d.trimmedItemName (d.trimmedItemName ++ "_index")
  | .conditional => .openIf d.parsedPath
  | .alternative => .divide
  | .terminate => .close

def Token.word : Token → Word
  | literal text _ => .literal text
  | directive d => d.word

namespace Part

mutual

/-- The words of a part, those of a block between its opening and its end. -/
def words : Part → List Word
  | literal text => [.literal text]
  | escape path => [.escape path]
  | interpolate path => [.interpolate path]
  | loop collection itemName indexName body =>
    .openLoop collection itemName indexName :: (wordsOf body ++ [.close])
  | conditional condition thenBranch elseBranch =>
    .openIf condition :: (wordsOf thenBranch ++ (wordsOfBranch elseBranch ++ [.close]))
termination_by structural p => p

def wordsOf : List Part → List Word
  | [] => []
  | p :: ps => p.words ++ wordsOf ps
termination_by structural ps => ps

def wordsOfBranch : Option (List Part) → List Word
  | none => []
  | some ps => .divide :: wordsOf ps
termination_by structural b => b

end

theorem wordsOf_append (ps qs : List Part) : wordsOf (ps ++ qs) = wordsOf ps ++ wordsOf qs := by
  induction ps with
  | nil => rfl
  | cons p ps ih => rw [List.cons_append, wordsOf, wordsOf, ih, List.append_assoc]

end Part

def Spells (ps : List Part) (ts : List Token) : Prop := Part.wordsOf ps = ts.map Token.word

instance (ps : List Part) (ts : List Token) : Decidable (Spells ps ts) :=
  inferInstanceAs (Decidable (Part.wordsOf ps = ts.map Token.word))

def Word.kind? : Word → Option DirectiveKind
  | literal _ => none
  | escape _ => some .escape
  | interpolate _ => some .interpolate
  | openLoop _ _ _ => some .loop
  | openIf _ => some .conditional
  | divide => some .alternative
  | close => some .terminate

theorem Token.kind?_eq (t : Token) : t.kind? = t.word.kind? := by
  cases t with
  | literal text offset => rfl
  | directive d =>
    show some d.kind = d.word.kind?
    rw [Directive.word]
    cases d.kind <;> rfl

namespace Token

variable {t : Token}

theorem kind?_of_word {w : Word} (h : t.word = w) : t.kind? = w.kind? := h ▸ t.kind?_eq

theorem word_eq_close (h : t.kind? = some .terminate) : t.word = .close := by
  rw [kind?_eq] at h
  cases hWord : t.word <;> rw [hWord] at h <;> cases h

theorem word_eq_divide (h : t.kind? = some .alternative) : t.word = .divide := by
  rw [kind?_eq] at h
  cases hWord : t.word <;> rw [hWord] at h <;> cases h

theorem exists_word_openLoop (h : t.kind? = some .loop) :
    ∃ collection itemName indexName, t.word = .openLoop collection itemName indexName := by
  rw [kind?_eq] at h
  cases hWord : t.word <;> rw [hWord] at h <;> cases h
  exact ⟨_, _, _, rfl⟩

theorem exists_word_openIf (h : t.kind? = some .conditional) :
    ∃ condition, t.word = .openIf condition := by
  rw [kind?_eq] at h
  cases hWord : t.word <;> rw [hWord] at h <;> cases h
  exact ⟨_, rfl⟩

/-- A token that neither opens nor divides nor closes a block is a part. -/
theorem exists_words_eq (h : t.kind? = none ∨ t.kind? = some .escape ∨
    t.kind? = some .interpolate) : ∃ p : Part, p.words = [t.word] := by
  rw [kind?_eq] at h
  cases hWord : t.word with
  | literal text => exact ⟨.literal text, rfl⟩
  | escape path => exact ⟨.escape path, rfl⟩
  | interpolate path => exact ⟨.interpolate path, rfl⟩
  | openLoop => simp [hWord, Word.kind?] at h
  | openIf => simp [hWord, Word.kind?] at h
  | divide => simp [hWord, Word.kind?] at h
  | close => simp [hWord, Word.kind?] at h

end Token

theorem Token.indexName_of_word {t : Token} {collection : Path} {itemName indexName : String}
    (h : t.word = .openLoop collection itemName indexName) : indexName = itemName ++ "_index" := by
  cases t with
  | literal => cases h
  | directive d =>
    rw [word, Directive.word] at h
    cases hKind : d.kind <;> rw [hKind] at h <;> cases h
    rfl

/-! ## Trees -/

namespace Spells

theorem nil : Spells [] [] := rfl

theorem append {ps qs : List Part} {ts us : List Token} (h₁ : Spells ps ts) (h₂ : Spells qs us) :
    Spells (ps ++ qs) (ts ++ us) := by
  rw [Spells, Part.wordsOf_append, List.map_append, h₁, h₂]

theorem singleton {p : Part} {ts : List Token} (h : p.words = ts.map Token.word) :
    Spells [p] ts := by
  rw [Spells, Part.wordsOf, Part.wordsOf, List.append_nil, h]

theorem cons {p : Part} {ps : List Part} {ts us : List Token}
    (h₁ : p.words = ts.map Token.word) (h₂ : Spells ps us) : Spells (p :: ps) (ts ++ us) :=
  (singleton h₁).append h₂

theorem cons_inv {p : Part} {ps : List Part} {ts : List Token} (h : Spells (p :: ps) ts) :
    ∃ us more, ts = us ++ more ∧ p.words = us.map Token.word ∧ Spells ps more := by
  obtain ⟨us, more, rfl, hp, hps⟩ := List.map_eq_append_iff.mp h.symm
  exact ⟨us, more, rfl, hp.symm, hps.symm⟩

end Spells

section

variable {ts : List Token}

theorem single_eq_map_word {w : Word} :
    [w] = ts.map Token.word ↔ ∃ t, ts = [t] ∧ t.word = w := by
  rw [eq_comm, List.map_eq_singleton_iff]

/-- The tokens of a block: one that opens it, those in it and one that ends it. -/
theorem block_eq_map_word {w : Word} {ws : List Word} :
    w :: (ws ++ [.close]) = ts.map Token.word ↔
      ∃ t us e, ts = t :: (us ++ [e]) ∧ t.word = w ∧ ws = us.map Token.word ∧
        e.word = .close := by
  constructor
  · intro h
    obtain ⟨t, rest, rfl, ht, hRest⟩ := List.map_eq_cons_iff.mp h.symm
    obtain ⟨us, last, rfl, hus, hLast⟩ := List.map_eq_append_iff.mp hRest
    obtain ⟨e, rfl, he⟩ := single_eq_map_word.mp hLast.symm
    exact ⟨t, us, e, rfl, ht, hus.symm, he⟩
  · rintro ⟨t, us, e, rfl, rfl, rfl, he⟩
    rw [List.map_cons, List.map_append, List.map_singleton, he]

theorem divided_eq_map_word {ws vs : List Word} :
    ws ++ .divide :: vs = ts.map Token.word ↔
      ∃ us a more, ts = us ++ a :: more ∧ ws = us.map Token.word ∧ a.word = .divide ∧
        vs = more.map Token.word := by
  constructor
  · intro h
    obtain ⟨us, rest, rfl, hus, hRest⟩ := List.map_eq_append_iff.mp h.symm
    obtain ⟨a, more, rfl, ha, hMore⟩ := List.map_eq_cons_iff.mp hRest
    exact ⟨us, a, more, rfl, hus.symm, ha, hMore.symm⟩
  · rintro ⟨us, a, more, rfl, rfl, ha, rfl⟩
    rw [List.map_append, List.map_cons, ha]

theorem Part.words_loop {collection : Path} {itemName indexName : String} {body : List Part} :
    (loop collection itemName indexName body).words = ts.map Token.word ↔
      ∃ t us e, ts = t :: (us ++ [e]) ∧ t.word = .openLoop collection itemName indexName ∧
        Spells body us ∧ e.word = .close := by
  rw [words]
  exact block_eq_map_word

theorem Part.words_conditional {condition : Path} {body : List Part} :
    (conditional condition body none).words = ts.map Token.word ↔
      ∃ t us e, ts = t :: (us ++ [e]) ∧ t.word = .openIf condition ∧ Spells body us ∧
        e.word = .close := by
  rw [words, wordsOfBranch, List.nil_append]
  exact block_eq_map_word

theorem Part.words_branches {condition : Path} {first second : List Part} :
    (conditional condition first (some second)).words = ts.map Token.word ↔
      ∃ t us a vs e, ts = t :: (us ++ a :: (vs ++ [e])) ∧ t.word = .openIf condition ∧
        Spells first us ∧ a.word = .divide ∧ Spells second vs ∧ e.word = .close := by
  rw [words, wordsOfBranch, ← List.append_assoc]
  constructor
  · intro h
    obtain ⟨t, inner, e, rfl, ht, hInner, he⟩ := block_eq_map_word.mp h
    obtain ⟨us, a, vs, rfl, hus, ha, hvs⟩ := divided_eq_map_word.mp hInner
    refine ⟨t, us, a, vs, e, ?_, ht, hus, ha, hvs, he⟩
    rw [List.append_assoc, List.cons_append]
  · rintro ⟨t, us, a, vs, e, rfl, ht, hus, ha, hvs, he⟩
    refine block_eq_map_word.mpr ⟨t, us ++ a :: vs, e, ?_, ht, ?_, he⟩
    · rw [List.append_assoc, List.cons_append]
    · exact divided_eq_map_word.mpr ⟨us, a, vs, rfl, hus, ha, hvs⟩

end

theorem Spells.balanced {ps : List Part} {ts : List Token} (h : Spells ps ts) : Balanced ts := by
  -- the words of each part fix the kinds of its tokens
  induction ps using Part.listInduction generalizing ts with
  | nil =>
    obtain rfl := List.map_eq_nil_iff.mp h.symm
    exact .nil
  | literal text ps ih =>
    obtain ⟨us, more, rfl, hp, hps⟩ := h.cons_inv
    obtain ⟨t, rfl, ht⟩ := single_eq_map_word.mp hp
    exact .literal (Token.kind?_of_word ht) (ih hps)
  | escape path ps ih =>
    obtain ⟨us, more, rfl, hp, hps⟩ := h.cons_inv
    obtain ⟨t, rfl, ht⟩ := single_eq_map_word.mp hp
    exact .escape (Token.kind?_of_word ht) (ih hps)
  | interpolate path ps ih =>
    obtain ⟨us, more, rfl, hp, hps⟩ := h.cons_inv
    obtain ⟨t, rfl, ht⟩ := single_eq_map_word.mp hp
    exact .interpolate (Token.kind?_of_word ht) (ih hps)
  | loop collection itemName indexName body ps ihBody ih =>
    obtain ⟨us, more, rfl, hp, hps⟩ := h.cons_inv
    obtain ⟨t, vs, e, rfl, ht, hvs, he⟩ := Part.words_loop.mp hp
    rw [List.cons_append, List.append_assoc]
    exact .loop (Token.kind?_of_word ht) (ihBody hvs)
      (Token.kind?_of_word he) (ih hps)
  | conditional condition body ps ihBody ih =>
    obtain ⟨us, more, rfl, hp, hps⟩ := h.cons_inv
    obtain ⟨t, vs, e, rfl, ht, hvs, he⟩ := Part.words_conditional.mp hp
    rw [List.cons_append, List.append_assoc]
    exact .conditional (Token.kind?_of_word ht) (ihBody hvs)
      (Token.kind?_of_word he) (ih hps)
  | branches condition first second ps ihFirst ihSecond ih =>
    obtain ⟨us, more, rfl, hp, hps⟩ := h.cons_inv
    obtain ⟨t, vs, a, ws, e, rfl, ht, hvs, ha, hws, he⟩ := Part.words_branches.mp hp
    rw [List.cons_append, List.append_assoc, List.cons_append, List.append_assoc]
    exact .branches (Token.kind?_of_word ht) (ihFirst hvs)
      (Token.kind?_of_word ha) (ihSecond hws)
      (Token.kind?_of_word he) (ih hps)

/-- A token that is no part of a block may come before the tokens of a tree. -/
theorem Spells.exists_cons {t : Token} {ts : List Token} {ps : List Part}
    (hKind : t.kind? = none ∨ t.kind? = some .escape ∨ t.kind? = some .interpolate)
    (h : Spells ps ts) : ∃ qs, Spells qs (t :: ts) := by
  obtain ⟨p, hp⟩ := Token.exists_words_eq hKind
  have hAll : Spells (p :: ps) ([t] ++ ts) := Spells.cons hp h
  exact ⟨p :: ps, hAll⟩

theorem Balanced.exists_spells {ts : List Token} (h : Balanced ts) : ∃ ps, Spells ps ts := by
  induction h with
  | nil => exact ⟨[], Spells.nil⟩
  | literal hKind _ ih =>
    obtain ⟨ps, hps⟩ := ih
    exact hps.exists_cons (.inl hKind)
  | escape hKind _ ih =>
    obtain ⟨ps, hps⟩ := ih
    exact hps.exists_cons (.inr (.inl hKind))
  | interpolate hKind _ ih =>
    obtain ⟨ps, hps⟩ := ih
    exact hps.exists_cons (.inr (.inr hKind))
  | @loop t e body ts hOpen _ hClose _ ihBody ih =>
    obtain ⟨qs, hqs⟩ := ihBody
    obtain ⟨ps, hps⟩ := ih
    obtain ⟨collection, itemName, indexName, ht⟩ := Token.exists_word_openLoop hOpen
    have hWords := Part.words_loop.mpr ⟨t, body, e, rfl, ht, hqs, Token.word_eq_close hClose⟩
    have hAll := Spells.cons hWords hps
    rw [List.cons_append, List.append_assoc] at hAll
    exact ⟨_, hAll⟩
  | @conditional t e body ts hOpen _ hClose _ ihBody ih =>
    obtain ⟨qs, hqs⟩ := ihBody
    obtain ⟨ps, hps⟩ := ih
    obtain ⟨condition, ht⟩ := Token.exists_word_openIf hOpen
    have hWords :=
      Part.words_conditional.mpr ⟨t, body, e, rfl, ht, hqs, Token.word_eq_close hClose⟩
    have hAll := Spells.cons hWords hps
    rw [List.cons_append, List.append_assoc] at hAll
    exact ⟨_, hAll⟩
  | @branches t a e first second ts hOpen _ hDivide _ hClose _ ihFirst ihSecond ih =>
    obtain ⟨qs, hqs⟩ := ihFirst
    obtain ⟨rs, hrs⟩ := ihSecond
    obtain ⟨ps, hps⟩ := ih
    obtain ⟨condition, ht⟩ := Token.exists_word_openIf hOpen
    have hWords := Part.words_branches.mpr ⟨t, first, a, second, e, rfl, ht, hqs,
      Token.word_eq_divide hDivide, hrs, Token.word_eq_close hClose⟩
    have hAll := Spells.cons hWords hps
    rw [List.cons_append, List.append_assoc, List.cons_append, List.append_assoc] at hAll
    exact ⟨_, hAll⟩

/-- **The grammar derives the tokens of trees**, and no others. -/
theorem balanced_iff_spells {ts : List Token} : Balanced ts ↔ ∃ ps, Spells ps ts :=
  ⟨Balanced.exists_spells, fun ⟨_, h⟩ => h.balanced⟩

end Stencil
