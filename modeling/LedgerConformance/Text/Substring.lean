/-!
Occurrences of one text inside another: whether there is one, and the text
with every occurrence replaced, scanning from the left without overlaps.
-/

namespace LedgerConformance.Text

/-- `needle` occurs somewhere in the given text. -/
def occursIn (needle : List Char) : List Char → Bool
  | [] => needle.isEmpty
  | c :: rest => needle.isPrefixOf (c :: rest) || occursIn needle rest

def contains (haystack needle : String) : Bool := occursIn needle.toList haystack.toList

def startsWith (s start : String) : Bool := start.toList.isPrefixOf s.toList

/-- Copies a text with the occurrences of `pattern` replaced; the first
argument counts the characters that still belong to the last occurrence. -/
def replaceFrom (pattern replacement : List Char) : Nat → List Char → List Char
  | _, [] => []
  | skip + 1, _ :: rest => replaceFrom pattern replacement skip rest
  | 0, c :: rest =>
    if pattern.isPrefixOf (c :: rest) then
      replacement ++ replaceFrom pattern replacement (pattern.length - 1) rest
    else c :: replaceFrom pattern replacement 0 rest

/-- Every occurrence of a non-empty `pattern` replaced, from the left. -/
def replaceAll (pattern replacement : List Char) (s : List Char) : List Char :=
  replaceFrom pattern replacement 0 s

def replaceText (s pattern replacement : String) : String :=
  String.ofList (replaceAll pattern.toList replacement.toList s.toList)

/-- What follows the last `sep`, or the whole text when there is none. -/
def afterLast (sep : Char) (s : List Char) : List Char :=
  (s.reverse.takeWhile (· != sep)).reverse

end LedgerConformance.Text
