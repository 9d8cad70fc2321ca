import Mathlib.Data.List.Forall2
import Stencil.Context
import Stencil.Proofs.Path.Spelling
import Stencil.Proofs.Text.Digit

/-!
# Locations in a context

Every part of a context has a path: each key on the way to it stands in brackets between quotes,
and each position in a list in brackets in decimal.  A path that leads nowhere gives the empty
string.

* `SpellsPosition`: keys that are positions of lists (`listIndex?_eq_some_iff`).
* `Value.Holds`: what lies in a value at a location, which is told by selectors;
  `Selector.SpelledBy` says how these are spelled.
* `Value.Holds.getPath?`: the keys of a location lead to what lies there.
* `Value.Lacks`, `Context.Lacks`: the keys that lead nowhere (`Value.getPath?_eq_none_iff`,
  `Context.lacks_iff`).
* `Context.resolve_location`: what the path of a location resolves to, and one that leads
  nowhere.
-/

namespace Stencil

open Text

/-! ## Positions -/

/-- Whether a key spells a position: decimal digits, one at least, with a plus sign before them or
without. -/
def SpellsPosition (key : String) (n : Nat) : Prop :=
  ∃ sign digits, key.toList = sign ++ digits ∧ (sign = [] ∨ sign = ['+']) ∧ digits ≠ [] ∧
    (∀ d ∈ digits, d.isDigit = true) ∧ decimalValue digits = n

def unsigned : List Char → List Char
  | '+' :: ds => ds
  | ds => ds

theorem listIndex?_eq (key : String) :
    listIndex? key =
      if !(unsigned key.toList).isEmpty && (unsigned key.toList).all Char.isDigit &&
          decimalValue (unsigned key.toList) < Nat.pow 2 64 then
        some (decimalValue (unsigned key.toList))
      else none :=
  rfl

theorem exists_sign_unsigned (cs : List Char) :
    ∃ sign, (sign = [] ∨ sign = ['+']) ∧ cs = sign ++ unsigned cs := by
  rw [unsigned.eq_def]
  split
  · exact ⟨['+'], .inr rfl, rfl⟩
  · exact ⟨[], .inl rfl, rfl⟩

theorem unsigned_append {sign digits : List Char} (hSign : sign = [] ∨ sign = ['+'])
    (hDigits : ∀ d ∈ digits, d.isDigit = true) : unsigned (sign ++ digits) = digits := by
  rcases hSign with rfl | rfl
  · rw [List.nil_append, unsigned.eq_def]
    split
    · exact absurd (hDigits '+' List.mem_cons_self) (by decide)
    · rfl
  · rfl

/-- **The positions that keys name**: those that they spell, below the limit of lists. -/
theorem listIndex?_eq_some_iff {key : String} {n : Nat} :
    listIndex? key = some n ↔ SpellsPosition key n ∧ n < Nat.pow 2 64 := by
  rw [listIndex?_eq]
  constructor
  · intro h
    obtain ⟨hCond, hValue⟩ := Option.ite_none_right_eq_some.mp h
    rw [Bool.and_eq_true, Bool.and_eq_true, Bool.not_eq_true', decide_eq_true_eq] at hCond
    obtain ⟨⟨hSome, hDigits⟩, hLimit⟩ := hCond
    obtain rfl := Option.some.inj hValue
    obtain ⟨sign, hSign, hKey⟩ := exists_sign_unsigned key.toList
    refine ⟨⟨sign, unsigned key.toList, hKey, hSign, ?_, List.all_eq_true.mp hDigits, rfl⟩, hLimit⟩
    intro hNil
    rw [hNil] at hSome
    cases hSome
  · rintro ⟨⟨sign, digits, hKey, hSign, hSome, hDigits, rfl⟩, hLimit⟩
    have hEmpty : digits.isEmpty = false := List.isEmpty_eq_false_iff.mpr hSome
    rw [hKey, unsigned_append hSign hDigits, hEmpty, List.all_eq_true.mpr hDigits,
      decide_eq_true hLimit]
    rfl

theorem spellsPosition_toString (n : Nat) : SpellsPosition (toString n) n := by
  have hText : (toString n).toList = Nat.toDigits 10 n := Nat.toList_repr
  exact ⟨[], Nat.toDigits 10 n, hText, .inl rfl, Nat.toDigits_ne_nil, isDigit_of_mem_toDigits,
    decimalValue_toDigits n⟩

/-! ## Locations -/

/-- What tells a part of a value: a key of a map, or a position of a list, which is a number of
64 bits. -/
inductive Selector where
  | entry (key : String)
  | item (position : UInt64)
  deriving DecidableEq, Repr

/-- **What lies in a value at a location**: at each step the entry of a map or the item of a
list. -/
inductive Value.Holds : Value → List Selector → Value → Prop
  | here (v : Value) : Holds v [] v
  | entry {es : Entries Value} {key : String} {v w : Value} {ss : List Selector} :
      es.lookup key = some v → Holds v ss w → Holds (.map es) (.entry key :: ss) w
  | item {vs : List Value} {position : UInt64} {v w : Value} {ss : List Selector} :
      vs[position.toNat]? = some v → Holds v ss w → Holds (.list vs) (.item position :: ss) w

/-- **How a selector is spelled** in a path: a key in brackets between quotes that it does not
hold, a position in brackets in decimal. -/
inductive Selector.SpelledBy : Selector → Path.Step → Prop
  | entry {quote : Char} {key : String} : quote = '"' ∨ quote = '\'' → quote ∉ key.toList →
      SpelledBy (.entry key) (.quoted quote key)
  | item (position : UInt64) :
      SpelledBy (.item position) (.bracketed "" (toString position.toNat) "")

theorem isBlank_eq_false_of_isDigit {c : Char} (h : c.isDigit = true) : isBlank c = false := by
  have hRange : 48 ≤ c.toNat ∧ c.toNat ≤ 57 := by
    rwa [Char.isDigit, Bool.and_eq_true, decide_eq_true_eq, decide_eq_true_eq, ge_iff_le,
      UInt32.le_iff_toNat_le, UInt32.le_iff_toNat_le] at h
  simp only [isBlank, Bool.or_eq_false_iff, Bool.and_eq_false_iff, decide_eq_false_iff_not,
    beq_eq_false_iff_ne]
  omega

/-- Digits in brackets are told from their text. -/
theorem Path.Step.valid_bracketed_of_isDigit {key : String}
    (h : ∀ d ∈ key.toList, d.isDigit = true) : (bracketed "" key "").Valid := by
  have hBlank : ∀ d ∈ key.toList, isBlank d = false := fun d hd =>
    isBlank_eq_false_of_isDigit (h d hd)
  have hTrim : trim key.toList = key.toList :=
    trim_eq_self (fun d hd => hBlank d (List.mem_of_head? hd))
      fun d hd => hBlank d (List.mem_of_getLast? hd)
  have hNone {c : Char} (hc : c.isDigit = false) : c ∉ key.toList := fun hMem =>
    Bool.false_ne_true (hc.symm.trans (h c hMem))
  refine ⟨⟨nofun, nofun⟩, ?_, hNone rfl, ?_, ?_⟩
  · rw [trimmed, hTrim, String.ofList_toList]
  · exact fun hQuote => hNone rfl (List.mem_of_head? hQuote)
  · exact fun hQuote => hNone rfl (List.mem_of_head? hQuote)

namespace Selector

variable {s : Selector} {ss : List Selector} {step : Path.Step} {steps : List Path.Step}

theorem SpelledBy.valid (h : s.SpelledBy step) : step.Valid := by
  cases h with
  | entry hQuote hKey => exact ⟨hQuote, hKey⟩
  | item position =>
    refine Path.Step.valid_bracketed_of_isDigit fun d hd => ?_
    exact isDigit_of_mem_toDigits d (Nat.toList_repr ▸ hd)

theorem SpelledBy.ne_name (h : s.SpelledBy step) (key : String) : step ≠ .name key := by
  cases h <;> exact nofun

theorem exists_spelledBy (h : ∀ key, s = .entry key → ¬('"' ∈ key.toList ∧ '\'' ∈ key.toList)) :
    ∃ step, s.SpelledBy step := by
  cases s with
  | entry key =>
    rcases not_and_or.mp (h key rfl) with hQuote | hQuote
    · exact ⟨_, .entry (.inl rfl) hQuote⟩
    · exact ⟨_, .entry (.inr rfl) hQuote⟩
  | item position => exact ⟨_, .item position⟩

theorem exists_spelledBy_all
    (h : ∀ key, .entry key ∈ ss → ¬('"' ∈ key.toList ∧ '\'' ∈ key.toList)) :
    ∃ steps, List.Forall₂ SpelledBy ss steps := by
  induction ss with
  | nil => exact ⟨[], .nil⟩
  | cons s ss ih =>
    obtain ⟨step, hStep⟩ := exists_spelledBy fun key hs => h key (hs ▸ List.mem_cons_self)
    obtain ⟨steps, hSteps⟩ := ih fun key hMem => h key (List.mem_cons_of_mem s hMem)
    exact ⟨step :: steps, .cons hStep hSteps⟩

/-- **The segments of a spelled location** are its keys. -/
theorem segments_parse (h : List.Forall₂ SpelledBy ss steps) :
    (Path.parse (String.ofList (Path.spelling steps))).segments = steps.map Path.Step.key := by
  have hAll : ∀ step ∈ steps, step.Valid ∧ ∀ key, step ≠ .name key := by
    induction h with
    | nil => exact nofun
    | cons hStep _ ih => exact List.forall_mem_cons.mpr ⟨⟨hStep.valid, hStep.ne_name⟩, ih⟩
  have hValid : ∀ step ∈ steps, step.Valid := fun step hStep => (hAll step hStep).1
  -- there is no bare name, so no blank at an end of the text
  have hFirst : ∀ key, steps.head? = some (.name key) → ∀ c ∈ key.toList.head?,
      isBlank c = false := fun key hKey =>
    absurd rfl ((hAll _ (List.mem_of_head? hKey)).2 key)
  have hLast : ∀ key, steps.getLast? = some (.name key) → ∀ c ∈ key.toList.getLast?,
      isBlank c = false := fun key hKey =>
    absurd rfl ((hAll _ (List.mem_of_getLast? hKey)).2 key)
  rw [Path.parse, String.toList_ofList, Path.trim_spelling hValid hFirst hLast,
    Path.split_spelling hValid, List.map_map]
  exact List.map_congr_left fun step _ => String.ofList_toList

end Selector

/-- **The keys of a location lead to what lies there.** -/
theorem Value.Holds.getPath? {v w : Value} {ss : List Selector} {steps : List Path.Step}
    (h : v.Holds ss w) (hSteps : List.Forall₂ Selector.SpelledBy ss steps) :
    v.getPath? (steps.map Path.Step.key) = some w := by
  induction h generalizing steps with
  | here v =>
    cases hSteps
    rfl
  | entry hEntry _ ih =>
    obtain ⟨step, steps, hStep, hRest, rfl⟩ := List.forall₂_cons_left_iff.mp hSteps
    cases hStep
    rw [List.map_cons, Value.getPath?, Value.get?, Path.Step.key, hEntry, Option.bind_some,
      ih hRest]
  | @item vs position v w ss hItem _ ih =>
    obtain ⟨step, steps, hStep, hRest, rfl⟩ := List.forall₂_cons_left_iff.mp hSteps
    cases hStep
    have hIndex : listIndex? (toString position.toNat) = some position.toNat :=
      listIndex?_eq_some_iff.mpr ⟨spellsPosition_toString _, position.toNat_lt⟩
    rw [List.map_cons, Value.getPath?, Value.get?, Path.Step.key, hIndex, Option.bind_some, hItem,
      Option.bind_some, ih hRest]

/-! ## Keys that lead nowhere -/

/-- **Keys that lead nowhere** in a value: one of them names no entry of the map that the keys
before it lead to, no position of the list or none that the list has, however large; or they lead
into a value without parts. -/
inductive Value.Lacks : Value → List String → Prop
  | null {key : String} {keys : List String} : Lacks .null (key :: keys)
  | bool {b : Bool} {key : String} {keys : List String} : Lacks (.bool b) (key :: keys)
  | number {n : Number} {key : String} {keys : List String} : Lacks (.number n) (key :: keys)
  | string {s : String} {key : String} {keys : List String} : Lacks (.string s) (key :: keys)
  | noEntry {es : Entries Value} {key : String} {keys : List String} :
      es.lookup key = none → Lacks (.map es) (key :: keys)
  | noPosition {vs : List Value} {key : String} {keys : List String} :
      (∀ n, ¬SpellsPosition key n) → Lacks (.list vs) (key :: keys)
  | beyond {vs : List Value} {key : String} {keys : List String} {n : Nat} :
      SpellsPosition key n → vs.length ≤ n ∨ Nat.pow 2 64 ≤ n → Lacks (.list vs) (key :: keys)
  | inEntry {es : Entries Value} {key : String} {keys : List String} {v : Value} :
      es.lookup key = some v → Lacks v keys → Lacks (.map es) (key :: keys)
  | inItem {vs : List Value} {key : String} {keys : List String} {n : Nat} {v : Value} :
      SpellsPosition key n → vs[n]? = some v → Lacks v keys → Lacks (.list vs) (key :: keys)

/-- Keys that lead nowhere in a context: the first one names no variable, or the others lead
nowhere in its value. -/
inductive Context.Lacks (c : Context) : List String → Prop
  | noVariable {name : String} {keys : List String} : c.get? name = none → Lacks c (name :: keys)
  | inVariable {name : String} {keys : List String} {v : Value} :
      c.get? name = some v → v.Lacks keys → Lacks c (name :: keys)

theorem SpellsPosition.unique {key : String} {m n : Nat} (hm : SpellsPosition key m)
    (hn : SpellsPosition key n) : m = n := by
  obtain ⟨sign, digits, hKey, hSign, -, hDigits, rfl⟩ := hm
  obtain ⟨sign', digits', hKey', hSign', -, hDigits', rfl⟩ := hn
  have hSame := congrArg unsigned (hKey.symm.trans hKey')
  rw [unsigned_append hSign hDigits, unsigned_append hSign' hDigits'] at hSame
  rw [hSame]

namespace Value

variable {v : Value} {keys : List String}

theorem Lacks.getPath?_eq_none (h : v.Lacks keys) : v.getPath? keys = none := by
  induction h with
  | null | bool | number | string => rfl
  | noEntry hNone => rw [getPath?, get?, hNone, Option.bind_none]
  | @noPosition vs key keys hNone =>
    have hIndex : listIndex? key = none := by
      rw [Option.eq_none_iff_forall_ne_some]
      intro n hSome
      exact hNone n (listIndex?_eq_some_iff.mp hSome).1
    rw [getPath?, get?, hIndex, Option.bind_none, Option.bind_none]
  | @beyond vs key keys n hSpells hBeyond =>
    have hItem : (listIndex? key).bind (fun i => vs[i]?) = none := by
      rw [Option.bind_eq_none_iff]
      intro i hIndex
      obtain ⟨hSpells', hLimit⟩ := listIndex?_eq_some_iff.mp hIndex
      obtain rfl := hSpells.unique hSpells'
      rcases hBeyond with hLength | hLarge
      · exact List.getElem?_eq_none hLength
      · exact absurd hLimit (Nat.not_lt.mpr hLarge)
    rw [getPath?, get?, hItem, Option.bind_none]
  | inEntry hEntry _ ih => rw [getPath?, get?, hEntry, Option.bind_some, ih]
  | @inItem vs key keys n v hSpells hItem _ ih =>
    rw [getPath?, get?, Option.bind_eq_none_iff]
    intro w hw
    obtain ⟨i, hIndex, hFound⟩ := Option.bind_eq_some_iff.mp hw
    obtain rfl := hSpells.unique (listIndex?_eq_some_iff.mp hIndex).1
    obtain rfl := Option.some.inj (hItem.symm.trans hFound)
    exact ih

theorem lacks_of_getPath?_eq_none (h : v.getPath? keys = none) : v.Lacks keys := by
  induction keys generalizing v with
  | nil => cases h
  | cons key keys ih =>
    rw [getPath?] at h
    cases v with
    | null => exact .null
    | bool b => exact .bool
    | number n => exact .number
    | string s => exact .string
    | map es =>
      rw [get?] at h
      cases hEntry : es.lookup key with
      | none => exact .noEntry hEntry
      | some w =>
        rw [hEntry, Option.bind_some] at h
        exact .inEntry hEntry (ih h)
    | list vs =>
      rw [get?] at h
      by_cases hSpells : ∃ n, SpellsPosition key n
      · obtain ⟨n, hn⟩ := hSpells
        by_cases hLimit : n < Nat.pow 2 64
        · cases hItem : vs[n]? with
          | none => exact .beyond hn (.inl (List.getElem?_eq_none_iff.mp hItem))
          | some w =>
            rw [listIndex?_eq_some_iff.mpr ⟨hn, hLimit⟩, Option.bind_some, hItem,
              Option.bind_some] at h
            exact .inItem hn hItem (ih h)
        · exact .beyond hn (.inr (Nat.not_lt.mp hLimit))
      · exact .noPosition (not_exists.mp hSpells)

/-- **Keys lead nowhere just when nothing is found.** -/
theorem getPath?_eq_none_iff : v.getPath? keys = none ↔ v.Lacks keys :=
  ⟨lacks_of_getPath?_eq_none, Lacks.getPath?_eq_none⟩

end Value

/-! ## Paths in a context -/

namespace Context

variable {c : Context}

theorem resolve_root (c : Context) (p : Path) :
    (Scope.root c).resolve p = (c.getPath? p.segments).getD (.string "") := by
  rw [Scope.resolve]
  cases p.segments <;> rfl

theorem getPath?_of_holds {name : String} {v w : Value} {ss : List Selector}
    {steps : List Path.Step} (hName : c.get? name = some v) (h : v.Holds ss w)
    (hSteps : List.Forall₂ Selector.SpelledBy (.entry name :: ss) steps) :
    c.getPath? (steps.map Path.Step.key) = some w := by
  obtain ⟨step, steps, hStep, hRest, rfl⟩ := List.forall₂_cons_left_iff.mp hSteps
  cases hStep
  rw [List.map_cons, getPath?, Path.Step.key, hName, Option.bind_some, h.getPath? hRest]

theorem lacks_iff {keys : List String} : c.Lacks keys ↔ keys ≠ [] ∧ c.getPath? keys = none := by
  constructor
  · intro h
    cases h with
    | noVariable hNone =>
      rw [getPath?, hNone]
      exact ⟨List.cons_ne_nil _ _, rfl⟩
    | inVariable hName hKeys =>
      rw [getPath?, hName]
      exact ⟨List.cons_ne_nil _ _, Value.getPath?_eq_none_iff.mpr hKeys⟩
  · rintro ⟨hSome, hNone⟩
    cases keys with
    | nil => exact absurd rfl hSome
    | cons name keys =>
      rw [getPath?] at hNone
      cases hName : c.get? name with
      | none => exact .noVariable hName
      | some v =>
        rw [hName, Option.bind_some] at hNone
        exact .inVariable hName (Value.getPath?_eq_none_iff.mp hNone)

/-- **Every part of a context has a path**: when no key on the way to it has quotes of both kinds,
the way can be spelled, and however it is, the path resolves to that part.  A path one of whose
keys names nothing resolves to the empty string; those are just the paths with keys for which
nothing is found. -/
theorem resolve_parse_spelling :
    (∀ (c : Context) (name : String) (v w : Value) (ss : List Selector),
      c.get? name = some v → v.Holds ss w →
      (∀ key, .entry key ∈ Selector.entry name :: ss →
        ¬('"' ∈ key.toList ∧ '\'' ∈ key.toList)) →
        (∃ steps, List.Forall₂ Selector.SpelledBy (.entry name :: ss) steps) ∧
          ∀ steps, List.Forall₂ Selector.SpelledBy (.entry name :: ss) steps →
            (Scope.root c).resolve (.parse (String.ofList (Path.spelling steps))) = w) ∧
      (∀ (c : Context) (text : String), c.Lacks (Path.parse text).segments →
        (Scope.root c).resolve (.parse text) = .string "") ∧
      ∀ (c : Context) (keys : List String), c.Lacks keys ↔ keys ≠ [] ∧ c.getPath? keys = none := by
  refine ⟨?_, ?_, fun c keys => lacks_iff⟩
  · intro c name v w ss hName h hQuotes
    refine ⟨Selector.exists_spelledBy_all hQuotes, fun steps hSteps => ?_⟩
    rw [resolve_root, Selector.segments_parse hSteps, getPath?_of_holds hName h hSteps,
      Option.getD_some]
  · intro c text h
    rw [resolve_root, (lacks_iff.mp h).2, Option.getD_none]

/-- An empty key, one that looks like a position and one with delimiters and a quote; and a
position that is larger than any list. -/
theorem resolve_parse_spelling_nested :
    let inner : Value := .map [("a'.][", .string "x")]
    let v : Value := .map [("1", .list [.null, inner])]
    let c : Context := ⟨[("n", .bool true), ("", v)]⟩
    let ss : List Selector := [.entry "1", .item 1, .entry "a'.]["]
    let steps : List Path.Step :=
      [.quoted '"' "", .quoted '\'' "1", .bracketed "" "1" "", .quoted '"' "a'.]["]
    let text := "['']['1'][+018446744073709551616].x"
    (c.get? "" = some v ∧ v.Holds ss (.string "x") ∧
      (∀ key, .entry key ∈ Selector.entry "" :: ss →
        ¬('"' ∈ key.toList ∧ '\'' ∈ key.toList)) ∧
      List.Forall₂ Selector.SpelledBy (.entry "" :: ss) steps ∧
      (Scope.root c).resolve (.parse (String.ofList (Path.spelling steps))) = .string "x") ∧
      c.Lacks (Path.parse text).segments ∧ (Scope.root c).resolve (.parse text) = .string "" := by
  intro inner v c ss steps text
  have hHolds : v.Holds ss (.string "x") := .entry rfl (.item rfl (.entry rfl (.here _)))
  have hQuotes : ∀ key, .entry key ∈ Selector.entry "" :: ss →
      ¬('"' ∈ key.toList ∧ '\'' ∈ key.toList) := by
    intro key hKey
    simp only [ss, List.mem_cons, Selector.entry.injEq, reduceCtorEq, List.not_mem_nil,
      false_or, or_false] at hKey
    rcases hKey with rfl | rfl | rfl <;> decide
  have hSteps : List.Forall₂ Selector.SpelledBy (.entry "" :: ss) steps := by
    refine .cons (.entry (.inl rfl) ?_) (.cons (.entry (.inr rfl) ?_)
      (.cons (.item 1) (.cons (.entry (.inl rfl) ?_) .nil))) <;> decide
  have hLarge : SpellsPosition "+018446744073709551616" (Nat.pow 2 64) :=
    ⟨['+'], "018446744073709551616".toList, by decide, .inr rfl, by decide,
      List.all_eq_true.mp (by decide), by decide⟩
  have hSegments : (Path.parse text).segments = ["", "1", "+018446744073709551616", "x"] := by
    decide +kernel
  have hLacks : c.Lacks (Path.parse text).segments := by
    rw [hSegments]
    exact .inVariable rfl (.inEntry rfl (.beyond hLarge (.inl (by decide))))
  exact ⟨⟨rfl, hHolds, hQuotes, hSteps,
    (resolve_parse_spelling.1 c "" v _ ss rfl hHolds hQuotes).2 steps hSteps⟩, hLacks,
    resolve_parse_spelling.2.1 c text hLacks⟩

end Context

end Stencil
