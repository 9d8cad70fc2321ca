/-!
# Faults of patterns

* `PatternFault`: why a text is no pattern.
-/

namespace Stencil

inductive PatternFault where
  | groupUnclosed
  | groupUnopened
  | groupNameEmpty
  | groupNameInvalid (c : Char)
  | groupNameUnclosed
  | groupNameRepeated (name : String)
  | flagUnknown (c : Char)
  | flagRepeated
  | flagsEmpty
  | flagsUnclosed
  | negationRepeated
  | negationDangling
  | lookAround
  | backReference
  | escapeUnknown (c : Char)
  | escapeUnfinished
  | digitInvalid (c : Char)
  | codePointInvalid
  | propertyUnknown (name : String)
  | wordEdgeUnknown (name : String)
  | wordEdgeUnclosed
  | repetitionOfNothing
  | countMissing
  | countUnclosed
  | countTooLarge
  | countsReversed
  | classUnclosed
  | classRangeReversed
  | classRangeEnd
  | classItemInvalid
  /-- The pattern could match part of a character. -/
  | splitsCharacters
  | nestedTooDeep
  | tooLarge
  deriving DecidableEq, Repr

def PatternFault.message : PatternFault → String
  | groupUnclosed => "unclosed group"
  | groupUnopened => "unopened group"
  | groupNameEmpty => "empty group name"
  | groupNameInvalid c => s!"invalid character in group name: {c}"
  | groupNameUnclosed => "unclosed group name"
  | groupNameRepeated name => s!"repeated group name: {name}"
  | flagUnknown c => s!"unknown flag: {c}"
  | flagRepeated => "repeated flag"
  | flagsEmpty => "no flags"
  | flagsUnclosed => "unclosed flags"
  | negationRepeated => "repeated negation of flags"
  | negationDangling => "negation of no flags"
  | lookAround => "look-around is not supported"
  | backReference => "back-references are not supported"
  | escapeUnknown c => s!"unknown escape: {c}"
  | escapeUnfinished => "unfinished escape"
  | digitInvalid c => s!"invalid hexadecimal digit: {c}"
  | codePointInvalid => "no such character"
  | propertyUnknown name => s!"unknown property: {name}"
  | wordEdgeUnknown name => s!"unknown word boundary: {name}"
  | wordEdgeUnclosed => "unclosed word boundary"
  | repetitionOfNothing => "repetition of nothing"
  | countMissing => "repetition without a count"
  | countUnclosed => "unclosed repetition count"
  | countTooLarge => "repetition count too large"
  | countsReversed => "reversed repetition counts"
  | classUnclosed => "unclosed character class"
  | classRangeReversed => "reversed range"
  | classRangeEnd => "a range ends in a class"
  | classItemInvalid => "invalid item of a character class"
  | splitsCharacters => "the pattern could match part of a character"
  | nestedTooDeep => "nested too deep"
  | tooLarge => "the pattern is too large"

end Stencil
