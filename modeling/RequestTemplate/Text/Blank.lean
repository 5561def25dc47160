/-!
# Blank characters

White space is the property of that name in Unicode, 25 characters. The template
language and the markup layout also count the four separators of records among
the blank characters. `strip` takes a run of characters off each end of a text.
-/

namespace RequestTemplate.Text

/-- White space as Unicode defines it. -/
def isWhiteSpace (c : Char) : Bool :=
  let n := c.toNat
  (0x09 ≤ n && n ≤ 0x0D) || n == 0x20 || n == 0x85 || n == 0xA0 || n == 0x1680 ||
    (0x2000 ≤ n && n ≤ 0x200A) || n == 0x2028 || n == 0x2029 || n == 0x202F || n == 0x205F ||
    n == 0x3000

/-- A character that separates files, groups, records or units. -/
def isSeparator (c : Char) : Bool :=
  0x1C ≤ c.toNat && c.toNat ≤ 0x1F

/-- A character that separates words, lines, paragraphs or records. -/
def isBlank (c : Char) : Bool :=
  isWhiteSpace c || isSeparator c

/-- The text without the runs of such characters at its two ends. -/
def strip (drops : Char → Bool) (s : List Char) : List Char :=
  ((s.dropWhile drops).reverse.dropWhile drops).reverse

/-- The text from its first character that is not blank. -/
def skipBlank (s : List Char) : List Char :=
  s.dropWhile isBlank

/-- The text without the blank runs at its two ends. -/
def trim (s : List Char) : List Char :=
  strip isBlank s

theorem length_skipBlank_le (s : List Char) : (skipBlank s).length ≤ s.length :=
  (List.dropWhile_suffix isBlank).sublist.length_le

end RequestTemplate.Text
