/-!
# Text for terminals

A control sequence tells a terminal to move, to colour or to clear: an escape
character, a bracket, parameters and a letter. `plain` takes the sequences out of
a text, from left to right; what their removal brings together stays.
-/

namespace RequestTemplate.Terminal

def isParameter (c : Char) : Bool := c.isDigit || c == ';' || c == '?'

/-- The text behind a control sequence whose bracket has been read. -/
def behindSequence? (s : List Char) : Option (List Char) :=
  match s.dropWhile isParameter with
  | c :: rest => if c.isAlpha then some rest else none
  | [] => none

theorem length_behindSequence? {s rest : List Char} (h : behindSequence? s = some rest) :
    rest.length < s.length := by
  have shorter := (List.dropWhile_suffix isParameter (l := s)).sublist.length_le
  unfold behindSequence? at h
  split at h
  · rename_i c tail eq
    split at h
    · rw [eq, List.length_cons] at shorter
      obtain rfl := Option.some.inj h
      omega
    · simp at h
  · simp at h

/-- The characters that are not part of a control sequence. -/
def withoutSequences (s : List Char) : List Char :=
  match s with
  | [] => []
  | '\x1b' :: '[' :: rest =>
    match _ : behindSequence? rest with
    | some behind => withoutSequences behind
    | none => '\x1b' :: '[' :: withoutSequences rest
  | c :: rest => c :: withoutSequences rest
termination_by s.length
decreasing_by
  · rename_i eq
    have := length_behindSequence? eq
    simp only [List.length_cons]
    omega
  · simp only [List.length_cons]; omega
  · simp

def plain (s : String) : String :=
  String.ofList (withoutSequences s.toList)

end RequestTemplate.Terminal
