/-!
White space in the sense of the Unicode property White_Space, and trimming by it.
-/
namespace SemanticLayer.Text

/-- The characters with the property White_Space. -/
def isBlank (c : Char) : Bool :=
  let n := c.toNat
  (0x9 ≤ n && n ≤ 0xD) || n == 0x20 || n == 0x85 || n == 0xA0 || n == 0x1680 ||
    (0x2000 ≤ n && n ≤ 0x200A) || n == 0x2028 || n == 0x2029 || n == 0x202F || n == 0x205F ||
    n == 0x3000

def trimLeft (s : List Char) : List Char :=
  s.dropWhile isBlank

def trimRight (s : List Char) : List Char :=
  (s.reverse.dropWhile isBlank).reverse

/-- The text between its first and its last character that is not blank. -/
def trim (s : List Char) : List Char :=
  trimRight (trimLeft s)

def trimmed (s : String) : String :=
  String.ofList (trim s.toList)

/-- The trimmed text in small ASCII letters: the form in which loosely spelt names are looked
up. -/
def looseKey (s : String) : String :=
  (trimmed s).map Char.toLower

/-- The first blank-separated word, if there is one. -/
def firstWord (s : List Char) : List Char :=
  (trimLeft s).takeWhile (fun c => !isBlank c)

/-- The words of a text that has one space between them. -/
def words (s : String) : List String :=
  (s.toList.splitOn ' ').map String.ofList

/-- Equal but for the case of ASCII letters. -/
def sameLetters (a b : List Char) : Bool :=
  a.map Char.toLower == b.map Char.toLower

end SemanticLayer.Text
