import RequestTemplate.Text.Blank
import RequestTemplate.Template.Basic
import RequestTemplate.Template.ParseError

/-!
# The body of a tag

Reading what stands between the delimiters of a tag: a name, or a name and
arguments in parentheses. Every function takes the text still unread and returns
what it read with the text after it. A refusal says how many characters were
unread at the fault, which gives its position in any source around the tag.
-/

namespace RequestTemplate.Tag
open Text (isBlank skipBlank)

/-- Why a body is refused, and how much of it was still unread. -/
structure Refusal where
  reason : Malformed
  unread : Nat
  deriving DecidableEq, Inhabited

/-- What was read, and the text after it. -/
abbrev Reading (α : Type) := Except Refusal (α × List Char)

def refuse {α : Type} (reason : Malformed) (rest : List Char) : Except Refusal α :=
  .error ⟨reason, rest.length⟩

/-! ## Characters -/

def isQuote (c : Char) : Bool := c == '"' || c == '\''

def startsName (c : Char) : Bool := c.isAlpha || c == '_'

def inName (c : Char) : Bool := c.isAlphanum || c == '_' || c == '.' || c == '-'

/-- What a character means after a backslash in quoted text. -/
def afterBackslash (c : Char) : Char :=
  if c = 'n' then '\n' else if c = 't' then '\t' else if c = 'r' then '\r' else c

/-! ## Names and values -/

/-- The longest name at the head of the text. -/
def name : List Char → Reading String
  | [] => refuse (.expectedIdentifier none) []
  | c :: rest =>
    if startsName c then
      .ok (String.ofList (c :: rest.takeWhile inName), rest.dropWhile inName)
    else refuse (.expectedIdentifier (some c)) (c :: rest)

/-- Quoted text after its opening quote; nothing if the closing one is missing. -/
def quotedText (quote : Char) : List Char → Option (List Char × List Char)
  | [] => none
  | '\\' :: c :: rest =>
    (quotedText quote rest).map fun (text, after) => (afterBackslash c :: text, after)
  | c :: rest =>
    if c = quote then some ([], rest)
    else (quotedText quote rest).map fun (text, after) => (c :: text, after)

/-- A name as a value: three names are literals. -/
def ofName (name : String) : Operand :=
  if name = "true" then .bool true
  else if name = "false" then .bool false
  else if name = "null" then .null
  else .variable name

def operand : List Char → Reading Operand
  | [] => refuse .missingValue []
  | c :: rest =>
    if isQuote c then
      match quotedText c rest with
      | some (text, after) => .ok (.text (String.ofList text), after)
      | none => refuse .unterminatedText (c :: rest)
    else
      match name (c :: rest) with
      | .error e => .error e
      | .ok (word, after) =>
        if after.head? = some '(' then refuse .nestedCall after else .ok (ofName word, after)

/-! ## Calls -/

/-- The value of an argument after its name. -/
def assigned (word : String) (s : List Char) : Reading Operand :=
  match skipBlank s with
  | c :: rest =>
    if c = ':' ∨ c = '=' then operand (skipBlank rest)
    else refuse (.expectedAssignment word) (c :: rest)
  | [] => refuse (.expectedAssignment word) []

/-- One argument, whose name is none of `earlier`. -/
def argument (earlier : List String) (s : List Char) : Reading Argument :=
  if s.head?.any isQuote then refuse .unnamedArgument s
  else
    match name s with
    | .error e => .error e
    | .ok (word, afterName) =>
      if word ∈ earlier then refuse (.duplicateArgument word) afterName
      else
        match assigned word afterName with
        | .error e => .error e
        | .ok (value, after) => .ok (⟨word, value⟩, after)

/-- Passes the comma after an argument, or stops before the parenthesis that
    closes the call. -/
def separator (s : List Char) : Except Refusal (List Char) :=
  match skipBlank s with
  | [] => refuse .unbalancedParentheses []
  | ',' :: rest => .ok rest
  | ')' :: rest => .ok (')' :: rest)
  | c :: rest => refuse (.expectedSeparator c) (c :: rest)

/-! ### Each step shortens the text -/

theorem length_of_name {s rest : List Char} {word : String} (h : name s = .ok (word, rest)) :
    rest.length < s.length := by
  cases s with
  | nil => simp [name, refuse] at h
  | cons c s =>
    simp only [name] at h
    split at h
    · simp only [Except.ok.injEq, Prod.mk.injEq] at h
      have := (List.dropWhile_suffix inName (l := s)).sublist.length_le
      simp only [← h.2, List.length_cons]
      omega
    · simp [refuse] at h

theorem length_of_quotedText {quote : Char} {s text rest : List Char}
    (h : quotedText quote s = some (text, rest)) : rest.length < s.length := by
  fun_induction quotedText quote s generalizing text rest with
  | case1 => simp at h
  | case2 c s ih =>
    obtain ⟨⟨t, r⟩, found, heq⟩ := Option.map_eq_some_iff.1 h
    have shorter := ih found
    simp only [Prod.mk.injEq] at heq
    simp only [← heq.2, List.length_cons]
    omega
  | case3 => simp_all
  | case4 c s _ _ ih =>
    obtain ⟨⟨t, r⟩, found, heq⟩ := Option.map_eq_some_iff.1 h
    have shorter := ih found
    simp only [Prod.mk.injEq] at heq
    simp only [← heq.2, List.length_cons]
    omega

theorem length_of_operand {s rest : List Char} {value : Operand}
    (h : operand s = .ok (value, rest)) : rest.length < s.length := by
  cases s with
  | nil => simp [operand, refuse] at h
  | cons c s =>
    simp only [operand] at h
    split at h
    · split at h
      · rename_i found
        have := length_of_quotedText found
        simp only [Except.ok.injEq, Prod.mk.injEq] at h
        simp only [← h.2, List.length_cons]
        omega
      · simp [refuse] at h
    · split at h
      · simp at h
      · rename_i word after found
        have shorter := length_of_name found
        split at h
        · simp [refuse] at h
        · simp only [Except.ok.injEq, Prod.mk.injEq] at h
          simpa [← h.2] using shorter

theorem length_of_assigned {word : String} {s rest : List Char} {value : Operand}
    (h : assigned word s = .ok (value, rest)) : rest.length < s.length := by
  have bound := Text.length_skipBlank_le s
  simp only [assigned] at h
  split at h
  · rename_i c t eq
    split at h
    · have shorter := length_of_operand h
      have := Text.length_skipBlank_le t
      simp only [eq, List.length_cons] at bound
      omega
    · simp [refuse] at h
  · simp [refuse] at h

theorem length_of_argument {earlier : List String} {s rest : List Char} {a : Argument}
    (h : argument earlier s = .ok (a, rest)) : rest.length < s.length := by
  simp only [argument] at h
  split at h
  · simp [refuse] at h
  · split at h
    · simp at h
    · rename_i word afterName found
      have shorter := length_of_name found
      split at h
      · simp [refuse] at h
      · split at h
        · simp at h
        · rename_i v after value
          have := length_of_assigned value
          simp only [Except.ok.injEq, Prod.mk.injEq] at h
          rw [← h.2]
          omega

theorem length_of_separator {s rest : List Char} (h : separator s = .ok rest) :
    rest.length ≤ s.length := by
  have bound := Text.length_skipBlank_le s
  simp only [separator] at h
  split at h
  · simp [refuse] at h
  · simp_all
    omega
  · simp only [Except.ok.injEq] at h
    simp_all
  · simp [refuse] at h

/-- The arguments of a call up to the parenthesis that closes it. A comma may
    follow the last one. -/
def arguments (earlier : List String) (s : List Char) : Reading (List Argument) :=
  match skipBlank s with
  | [] => refuse .unbalancedParentheses []
  | ')' :: rest => .ok ([], rest)
  | _ :: _ =>
    match _ : argument earlier (skipBlank s) with
    | .error e => .error e
    | .ok (a, after) =>
      match _ : separator after with
      | .error e => .error e
      | .ok rest =>
        match arguments (a.name :: earlier) rest with
        | .error e => .error e
        | .ok (others, final) => .ok (a :: others, final)
termination_by s.length
decreasing_by
  rename_i first next
  have := length_of_argument first
  have := length_of_separator next
  have := Text.length_skipBlank_le s
  omega

/-! ## Whole bodies -/

/-- An expression at the head of the text. -/
def expression (s : List Char) : Reading Expression :=
  match name s with
  | .error e => .error e
  | .ok (word, afterName) =>
    match skipBlank afterName with
    | '(' :: rest =>
      match arguments [] rest with
      | .error e => .error e
      | .ok (args, after) => .ok (.call word args, after)
    | rest => .ok (.variable word, rest)

/-- The expression that a whole body holds. -/
def read (body : List Char) : Except Refusal Expression :=
  match skipBlank body with
  | [] => refuse .emptyTag []
  | s =>
    match expression s with
    | .error e => .error e
    | .ok (value, after) =>
      match skipBlank after with
      | [] => .ok value
      | c :: rest => refuse (.unexpectedCharacter c) (c :: rest)

/-- Reads a body that starts at `offset` of a longer source. -/
def readAt (offset : Int) (body : List Char) : Except ParseError Expression :=
  match read body with
  | .ok value => .ok value
  | .error refusal => .error ⟨refusal.reason, some (offset + (body.length - refusal.unread : Nat))⟩

end RequestTemplate.Tag
