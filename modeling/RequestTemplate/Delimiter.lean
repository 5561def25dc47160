/-!
# The tag opener and its escaping

A tag opens with a dollar sign, a brace and a bracket. Whether an opener is live
depends on the run of backslashes before it: after an odd run the last backslash
escapes it. Both functions below read the text once, from the left, and carry
along whether the run of backslashes that ends at the current character is odd.
-/

namespace RequestTemplate.Delimiter

/-- Whether the text begins with a tag opener. -/
def opens : List Char → Bool
  | '$' :: '{' :: '[' :: _ => true
  | _ => false

theorem opens_iff {s : List Char} : opens s = true ↔ ∃ rest, s = '$' :: '{' :: '[' :: rest := by
  constructor
  · intro found
    unfold opens at found
    split at found
    · exact ⟨_, rfl⟩
    · simp at found
  · rintro ⟨rest, rfl⟩
    rfl

/-- Whether the text begins with a tag closer. -/
def closes : List Char → Bool
  | ']' :: '}' :: _ => true
  | _ => false

/-- Whether the run of backslashes is odd once `c` has been read. -/
def oddAfter (odd : Bool) (c : Char) : Bool :=
  c == '\\' && !odd

/-- Writes one more backslash before every live opener. -/
def escapeFrom (odd : Bool) : List Char → List Char
  | [] => []
  | c :: rest =>
    let written := c :: escapeFrom (oddAfter odd c) rest
    if opens (c :: rest) && !odd then '\\' :: written else written

/-- Drops the escaping backslash before every escaped opener. -/
def unescapeFrom (odd : Bool) : List Char → List Char
  | [] => []
  | c :: rest =>
    let written := unescapeFrom (oddAfter odd c) rest
    if c == '\\' && !odd && opens rest then written else c :: written

/-- The text with every opener in it escaped. -/
def escape (text : String) : String :=
  String.ofList (escapeFrom false text.toList)

/-- The text that a renderer emits for literal source. -/
def unescape (text : String) : String :=
  String.ofList (unescapeFrom false text.toList)

end RequestTemplate.Delimiter
