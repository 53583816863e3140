/-!
# Blank characters

The characters with the property White_Space, and trimming by it.
-/

namespace SeriesStorage

/-- The characters with the property White_Space, in ascending order. -/
def blanks : List Char :=
  ['\x09', '\x0a', '\x0b', '\x0c', '\x0d', ' ', '\u0085', '\u00a0', '\u1680', '\u2000', '\u2001',
    '\u2002', '\u2003', '\u2004', '\u2005', '\u2006', '\u2007', '\u2008', '\u2009', '\u200a',
    '\u2028', '\u2029', '\u202f', '\u205f', '\u3000']

def isBlank (c : Char) : Bool := blanks.contains c

/-- A text without blanks at its two ends. -/
def trim (s : String) : String :=
  String.ofList ((s.toList.dropWhile isBlank).reverse.dropWhile isBlank).reverse

/-- Two texts are equal up to the case of ASCII letters. -/
def equalUpToCase (s t : String) : Bool := s.toList.map Char.toLower == t.toList.map Char.toLower

end SeriesStorage
