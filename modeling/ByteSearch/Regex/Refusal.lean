/-!
# Refusals

The reasons for which a source text is not compiled. All of them but one have the same text: the
caller learns that there is no automaton for the expression, not why.
-/

namespace ByteSearch.Regex

/-- Why a source text is refused. -/
inductive Refusal where
  | groupUnopened
  | groupUnclosed
  | groupNameInvalid
  | groupNameRepeated
  | lookAround
  | flagUnknown
  | flagRepeated
  | flagDangling
  | flagsUnclosed
  | operandMissing
  | countUnclosed
  | countInvalid
  | escapeUnclosed
  | escapeUnknown
  | backreference
  | hexadecimalInvalid
  | wordBoundaryUnknown
  | classUnclosed
  | classItemInvalid
  | classRangeInvalid
  | nestingTooDeep
  | unicodeNotAllowed
  | propertyUnknown
  /-- The expression asks for word boundaries between characters beyond ASCII. -/
  | unicodeWordBoundary
  deriving DecidableEq, Repr

/-- The text of a refusal. -/
def Refusal.message : Refusal → String
  | unicodeWordBoundary =>
    "unsupported regex feature for DFAs: cannot build lazy DFAs for regexes with Unicode word " ++
      "boundaries; switch to ASCII word boundaries, or heuristically enable Unicode word " ++
      "boundaries or use a different regex engine"
  | _ => "error building NFA"

end ByteSearch.Regex
