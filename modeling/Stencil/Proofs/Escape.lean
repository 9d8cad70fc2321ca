import Mathlib.Data.List.Basic
import Mathlib.Data.List.TakeWhile
import Stencil.Template.Render

/-!
# Escaped texts

Escaping writes all references in one pass over a text.  It could as well write those of one
character after another, if the ampersand comes first; it loses nothing, and escapes the parts of
a text each for itself.

* `replaceAll`: one character replaced throughout a text.  `replaceEach_eq_flatMap` says when
  replacements one after another are one pass over the text.
* `escape_eq_replaceEach`: escaping as replacements one after another.
* `unescape`: the text that an escaped one stands for; what is written for a character is read
  as the character, whatever follows (`decode_escapeChar_append`).
* `escape_append`, `escape_join`: texts one after another.
* `escape_lossless`: escaping is undone, and a loop over the characters of a text escapes it.
-/

namespace Stencil

/-! ## One replacement after another -/

def replaceAll (c : Char) (r : String) (s : String) : String :=
  String.ofList (s.toList.flatMap fun d => if d = c then r.toList else [d])

/-- A text in which characters are replaced one after another, in the order of a table. -/
def replaceEach (table : List (Char × String)) (s : String) : String :=
  table.foldl (fun t e => replaceAll e.1 e.2 t) s

def replacement (table : List (Char × String)) (c : Char) : List Char :=
  (table.lookup c).elim [c] String.toList

/-- The characters with a meaning in markup, with the references for them.  The ampersand comes
first, as it occurs in all references. -/
def referenceTable : List (Char × String) :=
  [('&', "&amp;"), ('<', "&lt;"), ('>', "&gt;"), ('"', "&quot;"), ('\'', "&#x27;"),
    ('\x60', "&#x60;")]

theorem flatMap_replacement_of_notMem {table : List (Char × String)} {cs : List Char}
    (h : ∀ e ∈ table, e.1 ∉ cs) : cs.flatMap (replacement table) = cs := by
  have hKeep : ∀ c ∈ cs, replacement table c = [c] := by
    intro c hc
    rw [replacement, List.lookup_eq_none_iff.mpr, Option.elim_none]
    intro e he
    rw [bne_iff_ne]
    rintro rfl
    exact h e he hc
  rw [List.flatMap_congr hKeep, List.flatMap_singleton']

/-- **Replacements one after another are one pass** over the text, when what is written for one
character holds none that is replaced later. -/
theorem replaceEach_eq_flatMap {table : List (Char × String)}
    (h : table.Pairwise fun e f => f.1 ∉ e.2.toList) (s : String) :
    replaceEach table s = String.ofList (s.toList.flatMap (replacement table)) := by
  induction table generalizing s with
  | nil =>
    have hKeep : s.toList.flatMap (replacement []) = s.toList :=
      flatMap_replacement_of_notMem nofun
    rw [hKeep, String.ofList_toList]
    rfl
  | cons e table ih =>
    obtain ⟨hFirst, hLater⟩ := List.pairwise_cons.mp h
    have hStep : replaceEach (e :: table) s = replaceEach table (replaceAll e.1 e.2 s) := rfl
    rw [hStep, ih hLater, replaceAll, String.toList_ofList, List.flatMap_assoc]
    refine congrArg String.ofList (List.flatMap_congr fun c _ => ?_)
    by_cases hc : c = e.1
    · -- what the first replacement writes is not touched again
      rw [if_pos hc, flatMap_replacement_of_notMem hFirst, replacement, hc, List.lookup_cons_self,
        Option.elim_some]
    · rw [if_neg hc, List.flatMap_singleton, replacement, replacement, List.lookup_cons,
        beq_eq_false_iff_ne.mpr hc]

theorem lookup_referenceTable (c : Char) : referenceTable.lookup c = reference? c := by
  unfold reference?
  split
  case h_7 hAmp hLt hGt hQuote hTick hGrave =>
    simp only [referenceTable, List.lookup_cons, List.lookup_nil, beq_eq_false_iff_ne.mpr hAmp,
      beq_eq_false_iff_ne.mpr hLt, beq_eq_false_iff_ne.mpr hGt, beq_eq_false_iff_ne.mpr hQuote,
      beq_eq_false_iff_ne.mpr hTick, beq_eq_false_iff_ne.mpr hGrave]
  all_goals rfl

theorem replacement_referenceTable : replacement referenceTable = escapeChar := by
  funext c
  rw [replacement, lookup_referenceTable, escapeChar]
  cases reference? c <;> rfl

theorem mem_referenceTable {c : Char} {r : String} (h : reference? c = some r) :
    (c, r) ∈ referenceTable := by
  rw [← lookup_referenceTable, List.lookup_eq_some_iff] at h
  obtain ⟨before, after, hTable, -⟩ := h
  rw [hTable]
  exact List.mem_append_right _ List.mem_cons_self

/-- No reference holds a character that is replaced later. -/
theorem pairwise_referenceTable : referenceTable.Pairwise fun e f => f.1 ∉ e.2.toList := by
  decide

theorem one_lt_length_of_mem_referenceTable :
    ∀ e ∈ referenceTable, 1 < e.2.toList.length := by
  decide

/-! ## Texts that stay as they are -/

/-- A text has no references to be written when none of its characters has a meaning in
markup. -/
theorem escaped?_eq_none_iff {s : String} :
    escaped? s = none ↔ ∀ c ∈ s.toList, reference? c = none := by
  have hNil : s.toList.dropWhile isUnmarked = [] ↔ ∀ c ∈ s.toList, reference? c = none := by
    rw [List.dropWhile_eq_nil_iff]
    exact forall₂_congr fun c _ => Option.isNone_iff_eq_none
  rw [← hNil, escaped?]
  split
  · rename_i hRest
    exact iff_of_true rfl hRest
  · rename_i c cs hRest
    rw [hRest]
    exact iff_of_false (Option.some_ne_none _) (List.cons_ne_nil _ _)

theorem one_lt_length_escapeChar {c : Char} (h : reference? c ≠ none) :
    1 < (escapeChar c).length := by
  obtain ⟨r, hr⟩ := Option.ne_none_iff_exists'.mp h
  rw [escapeChar, hr]
  exact one_lt_length_of_mem_referenceTable _ (mem_referenceTable hr)

theorem length_escapeChar_pos (c : Char) : 1 ≤ (escapeChar c).length := by
  by_cases h : reference? c = none
  · rw [escapeChar, h]
    exact Nat.le_refl 1
  · exact Nat.le_of_lt (one_lt_length_escapeChar h)

theorem length_le_flatMap_escapeChar (cs : List Char) :
    cs.length ≤ (cs.flatMap escapeChar).length := by
  induction cs with
  | nil => exact Nat.le_refl 0
  | cons c cs ih =>
    have := length_escapeChar_pos c
    rw [List.flatMap_cons, List.length_append, List.length_cons]
    omega

/-- **A text with a character to be escaped becomes longer.** -/
theorem length_lt_flatMap_escapeChar {cs : List Char} {c : Char} (hc : c ∈ cs)
    (h : reference? c ≠ none) : cs.length < (cs.flatMap escapeChar).length := by
  induction cs with
  | nil => cases hc
  | cons d cs ih =>
    rw [List.flatMap_cons, List.length_append, List.length_cons]
    rcases List.mem_cons.mp hc with rfl | hc
    · have := one_lt_length_escapeChar h
      have := length_le_flatMap_escapeChar cs
      omega
    · have := length_escapeChar_pos d
      have := ih hc
      omega

theorem escape_eq_self_iff {s : String} : escape s = s ↔ escaped? s = none := by
  constructor
  · intro h
    rw [escape_eq_flatMap] at h
    have hText := congrArg String.toList h
    rw [String.toList_ofList] at hText
    rw [escaped?_eq_none_iff]
    intro c hc
    by_contra hMarked
    have hLonger := length_lt_flatMap_escapeChar hc hMarked
    rw [hText] at hLonger
    exact Nat.lt_irrefl _ hLonger
  · intro h
    rw [escape, h, Option.getD_none]

/-- **Escaping replaces one character after another**, the ampersand first: no reference that is
written is touched by a later replacement.  Nothing is written, and the text is put out itself,
just when none of its characters has a meaning in markup. -/
theorem escape_eq_replaceEach (s : String) :
    escape s = replaceEach referenceTable s ∧
      (escaped? s = none ↔ ∀ c ∈ s.toList, reference? c = none) ∧
      (escape s = s ↔ escaped? s = none) := by
  refine ⟨?_, escaped?_eq_none_iff, escape_eq_self_iff⟩
  rw [replaceEach_eq_flatMap pairwise_referenceTable, replacement_referenceTable, escape_eq_flatMap]

/-! ## Decoding -/

/-- The character whose reference a text begins with, and the text after the reference. -/
def leadingReference? (cs : List Char) : Option (Char × List Char) :=
  referenceTable.findSome? fun e => (e.2.toList.isPrefixOf? cs).map (e.1, ·)

theorem length_lt_of_leadingReference? {cs rest : List Char} {c : Char}
    (h : leadingReference? cs = some (c, rest)) : rest.length < cs.length := by
  obtain ⟨e, he, hFound⟩ := List.exists_of_findSome?_eq_some h
  obtain ⟨rest', hPrefix, hEq⟩ := Option.map_eq_some_iff.mp hFound
  cases hEq
  have := one_lt_length_of_mem_referenceTable e he
  rw [← List.isPrefixOf?_eq_some_iff_append_eq.mp hPrefix, List.length_append]
  omega

/-- The text that an escaped one stands for, read from left to right: where a reference stands
its character, and else what stands there. -/
def decode (cs : List Char) : List Char :=
  match cs with
  | [] => []
  | c :: cs =>
    match h : leadingReference? (c :: cs) with
    | some (d, rest) =>
      have := length_lt_of_leadingReference? h
      d :: decode rest
    | none => c :: decode cs
termination_by cs.length
decreasing_by
  · assumption
  · exact Nat.lt_succ_self cs.length

def unescape (s : String) : String := String.ofList (decode s.toList)

theorem leadingReference?_append {c : Char} {r : String} (h : reference? c = some r)
    (cs : List Char) : leadingReference? (r.toList ++ cs) = some (c, cs) := by
  unfold reference? at h
  split at h <;> cases h <;> rfl

theorem leadingReference?_cons_of_ne {c : Char} (h : c ≠ '&') (cs : List Char) :
    leadingReference? (c :: cs) = none := by
  have hTable : ∀ e ∈ referenceTable, e.2.toList.head? = some '&' := by decide
  rw [leadingReference?, List.findSome?_eq_none_iff]
  intro e he
  rw [Option.map_eq_none_iff, Option.eq_none_iff_forall_ne_some]
  intro rest hPrefix
  have hHead := congrArg List.head? (List.isPrefixOf?_eq_some_iff_append_eq.mp hPrefix)
  rw [List.head?_append, hTable e he, List.head?_cons] at hHead
  exact h (Option.some.inj hHead).symm

theorem decode_of_leadingReference? {c : Char} {cs rest : List Char}
    (h : leadingReference? cs = some (c, rest)) : decode cs = c :: decode rest := by
  cases cs with
  | nil => exact absurd (length_lt_of_leadingReference? h) (Nat.not_lt_zero _)
  | cons d cs =>
    rw [decode]
    split
    · rename_i hFound
      rw [hFound] at h
      cases h
      rfl
    · rename_i hFound
      rw [hFound] at h
      cases h

theorem decode_cons_of_ne {c : Char} (h : c ≠ '&') (cs : List Char) :
    decode (c :: cs) = c :: decode cs := by
  have hNone := leadingReference?_cons_of_ne h cs
  rw [decode]
  split
  · rename_i hFound
    rw [hFound] at hNone
    cases hNone
  · rfl

/-- **What is written for a character is read as the character**, whatever follows it. -/
theorem decode_escapeChar_append (c : Char) (cs : List Char) :
    decode (escapeChar c ++ cs) = c :: decode cs := by
  rw [escapeChar]
  cases h : reference? c with
  | some r => exact decode_of_leadingReference? (leadingReference?_append h cs)
  | none =>
    have hAmp : c ≠ '&' := by
      rintro rfl
      cases h
    exact decode_cons_of_ne hAmp cs

theorem decode_flatMap_escapeChar (cs : List Char) : decode (cs.flatMap escapeChar) = cs := by
  induction cs with
  | nil => rw [List.flatMap_nil, decode]
  | cons c cs ih => rw [List.flatMap_cons, decode_escapeChar_append, ih]

theorem unescape_escape (s : String) : unescape (escape s) = s := by
  rw [unescape, escape_eq_flatMap, String.toList_ofList, decode_flatMap_escapeChar,
    String.ofList_toList]

/-! ## Texts one after another -/

theorem escape_append (s t : String) : escape (s ++ t) = escape s ++ escape t := by
  rw [escape_eq_flatMap, escape_eq_flatMap, escape_eq_flatMap, String.toList_append,
    List.flatMap_append, String.ofList_append]

theorem escape_join (ss : List String) : escape (.join ss) = .join (ss.map escape) := by
  induction ss with
  | nil => rfl
  | cons s ss ih => rw [String.join_cons, escape_append, ih, List.map_cons, String.join_cons]

theorem join_map_ofList_singleton (cs : List Char) :
    String.join (cs.map fun c => String.ofList [c]) = String.ofList cs := by
  induction cs with
  | nil => rfl
  | cons c cs ih =>
    rw [List.map_cons, String.join_cons, ih, ← String.ofList_append, List.singleton_append]

theorem Scope.resolve_round_item {s : Scope} {p : Path} {itemName indexName : String}
    {item : Value} {index : Nat} (h : p.segments = [itemName]) :
    (Scope.round s itemName item indexName index).resolve p = item := by
  rw [resolve, h]
  simp only [lookup, if_true, Option.bind_some, Value.getPath?, Option.getD_some]

/-- **A loop over the characters of a text** escapes them one after another. -/
theorem Part.pieces_loop_escape {scope : Scope} {collection item : Path} {itemName : String}
    {s : String} (hText : scope.resolve collection = .string s)
    (hItem : item.segments = [itemName]) (indexName : String) :
    (Part.loop collection itemName indexName [.escape item]).pieces scope =
      (s.toList.map fun c => String.ofList [c]).map Stencil.escape := by
  have hRound : ∀ (v : Value) (i : Nat),
      piecesOf [.escape item] (.round scope itemName v indexName i) = [Stencil.escape v.text] := by
    intro v i
    rw [piecesOf, pieces, Scope.resolve_round_item hItem]
    rfl
  rw [pieces, hText, Value.items]
  simp only [hRound]
  rw [← List.map_eq_flatMap, ← Function.comp_def (fun v : Value => Stencil.escape v.text) Prod.fst,
    ← List.map_map, List.zipIdx_map_fst, List.map_map, List.map_map]
  rfl

/-- **Escaping loses nothing** and may be done piece by piece: a text is read back from what is
escaped of it, so different texts are told apart; texts one after another are escaped each for
itself, and so a loop that escapes the characters of a text puts out what escaping the text
does. -/
theorem escape_lossless :
    (∀ s, unescape (escape s) = s) ∧ Function.Injective escape ∧
      (∀ s t, escape (s ++ t) = escape s ++ escape t) ∧
      ∀ (scope : Scope) (collection item : Path) (itemName indexName s : String),
        scope.resolve collection = .string s → item.segments = [itemName] →
          Template.renderIn ⟨[.loop collection itemName indexName [.escape item]]⟩ scope =
              escape s ∧
            Template.renderIn ⟨[.escape collection]⟩ scope = escape s := by
  refine ⟨unescape_escape, Function.LeftInverse.injective unescape_escape, escape_append, ?_⟩
  intro scope collection item itemName indexName s hText hItem
  constructor
  · rw [Template.renderIn, Part.piecesOf, Part.pieces_loop_escape hText hItem, Part.piecesOf,
      List.append_nil, ← escape_join, join_map_ofList_singleton, String.ofList_toList]
  · rw [Template.renderIn, Part.piecesOf, Part.pieces, hText, Part.piecesOf, List.append_nil,
      String.join_cons, String.join_nil, String.append_empty, Value.text]

/-- A text with references, a part of one, and a character of several bytes, escaped in a loop
whose item hides the text. -/
theorem escape_lossless_references :
    let scope := Scope.root ⟨[("s", .string "&amp;lt;é&#x27<&")]⟩
    scope.resolve (.parse "s") = .string "&amp;lt;é&#x27<&" ∧
      (Path.parse " s ").segments = ["s"] ∧
      unescape "&amp;amp;lt;é&amp;#x27&lt;&amp;" = "&amp;lt;é&#x27<&" ∧
      Template.renderIn ⟨[.loopOver (.parse "s") "s" [.escape (.parse " s ")]]⟩ scope =
        "&amp;amp;lt;é&amp;#x27&lt;&amp;" := by
  intro scope
  have hText : scope.resolve (.parse "s") = .string "&amp;lt;é&#x27<&" := by rfl
  have hItem : (Path.parse " s ").segments = ["s"] := by decide +kernel
  have hEscape : escape "&amp;lt;é&#x27<&" = "&amp;amp;lt;é&amp;#x27&lt;&amp;" := by decide +kernel
  refine ⟨hText, hItem, ?_, ?_⟩
  · rw [← hEscape]
    exact escape_lossless.1 _
  · rw [← hEscape]
    exact (escape_lossless.2.2.2 scope (.parse "s") (.parse " s ") "s" _ _ hText hItem).1

end Stencil
