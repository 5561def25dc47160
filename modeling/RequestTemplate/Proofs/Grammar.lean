import Mathlib
import RequestTemplate.Template.Tag

/-!
# The grammar of a tag

What may stand between the delimiters of a tag, and the expression that it means,
said without a reader: `BodyText`. The reader accepts exactly these texts and
returns what they mean (`read_eq_ok_iff`); every other text is refused, and no
text means two expressions (`readAt_eq_ok_iff`).
-/

namespace RequestTemplate.Tag
open Text (isBlank skipBlank)

/-! ## The grammar -/

/-- A run of blanks; it may be empty. -/
def Blanks (s : List Char) : Prop := ∀ c ∈ s, isBlank c = true

/-- Text that the language reads as one name. -/
def IsName (word : String) : Prop :=
  ∃ c rest, word.toList = c :: rest ∧ startsName c = true ∧ ∀ d ∈ rest, inName d = true

/-- What a character behind a backslash means. -/
inductive Escape : Char → Char → Prop
  | newline : Escape 'n' '\n'
  | tab : Escape 't' '\t'
  | carriageReturn : Escape 'r' '\r'
  | itself {c : Char} (other : c ≠ 'n' ∧ c ≠ 't' ∧ c ≠ 'r') : Escape c c

/-- What stands between two quotes, and the text that it means. -/
inductive QuotedBody (quote : Char) : List Char → List Char → Prop
  | empty : QuotedBody quote [] []
  | plain {c : Char} {s text : List Char} (ordinary : c ≠ '\\' ∧ c ≠ quote)
      (rest : QuotedBody quote s text) : QuotedBody quote (c :: s) (c :: text)
  | escaped {c d : Char} {s text : List Char} (escape : Escape c d) (rest : QuotedBody quote s text) :
      QuotedBody quote ('\\' :: c :: s) (d :: text)

/-- A value: quoted text, one of three literals, or the name of a variable. -/
inductive OperandText : List Char → Operand → Prop
  | quoted {quote : Char} {s text : List Char} (quotes : quote = '"' ∨ quote = '\'')
      (body : QuotedBody quote s text) : OperandText (quote :: (s ++ [quote])) (.text (String.ofList text))
  | isTrue : OperandText ['t', 'r', 'u', 'e'] (.bool true)
  | isFalse : OperandText ['f', 'a', 'l', 's', 'e'] (.bool false)
  | null : OperandText ['n', 'u', 'l', 'l'] .null
  | reference {word : String} (named : IsName word)
      (other : word ≠ "true" ∧ word ≠ "false" ∧ word ≠ "null") : OperandText word.toList (.variable word)

/-- A name, a colon or an equals sign, and a value. -/
inductive ArgumentText : List Char → Argument → Prop
  | assigned {word : String} {before behind s : List Char} {sign : Char} {value : Operand}
      (named : IsName word) (blank : Blanks before) (signs : sign = ':' ∨ sign = '=')
      (blankBehind : Blanks behind) (valued : OperandText s value) :
      ArgumentText (word.toList ++ (before ++ sign :: (behind ++ s))) ⟨word, value⟩

/-- What may follow an argument and its blanks: more arguments, each behind a comma,
    and one comma at the end. -/
inductive MoreText : List Char → List Argument → Prop
  | stop : MoreText [] []
  | comma {behind : List Char} (blank : Blanks behind) : MoreText (',' :: behind) []
  | next {before s behind t : List Char} {a : Argument} {others : List Argument} (blank : Blanks before)
      (argument : ArgumentText s a) (blankBehind : Blanks behind) (more : MoreText t others) :
      MoreText (',' :: (before ++ (s ++ (behind ++ t)))) (a :: others)

/-- The arguments of a call, behind the blanks that follow its parenthesis. -/
inductive ListText : List Char → List Argument → Prop
  | none : ListText [] []
  | some {s behind t : List Char} {a : Argument} {others : List Argument} (argument : ArgumentText s a)
      (blank : Blanks behind) (more : MoreText t others) : ListText (s ++ (behind ++ t)) (a :: others)

/-- A variable, or a call whose arguments have different names. -/
inductive BodyText : List Char → Expression → Prop
  | reference {word : String} {before behind : List Char} (blank : Blanks before) (named : IsName word)
      (blankBehind : Blanks behind) : BodyText (before ++ (word.toList ++ behind)) (.variable word)
  | call {word : String} {before behind inner s after : List Char} {args : List Argument}
      (blank : Blanks before) (named : IsName word) (blankBehind : Blanks behind)
      (blankInner : Blanks inner) (listed : ListText s args) (distinct : (args.map Argument.name).Nodup)
      (blankAfter : Blanks after) :
      BodyText (before ++ (word.toList ++ (behind ++ '(' :: (inner ++ (s ++ ')' :: after))))) (.call word args)

/-! ## Characters of names -/

theorem inName_of_startsName {c : Char} (starts : startsName c = true) : inName c = true := by
  simp only [startsName, inName, Char.isAlphanum, Bool.or_eq_true] at starts ⊢
  tauto

theorem toNat_of_inName {c : Char} (within : inName c = true) : 45 ≤ c.toNat ∧ c.toNat ≤ 122 := by
  simp only [inName, Char.isAlphanum, Char.isAlpha, Char.isUpper, Char.isLower, Char.isDigit,
    Bool.or_eq_true, Bool.and_eq_true, decide_eq_true_eq, beq_iff_eq, UInt32.le_iff_toNat_le,
    ge_iff_le] at within
  change (((((65 ≤ c.toNat ∧ c.toNat ≤ 90) ∨ (97 ≤ c.toNat ∧ c.toNat ≤ 122)) ∨
    (48 ≤ c.toNat ∧ c.toNat ≤ 57)) ∨ c = '_') ∨ c = '.') ∨ c = '-' at within
  rcases within with (((((_ | _) | _) | rfl) | rfl) | rfl)
  · omega
  · omega
  · omega
  · decide
  · decide
  · decide

theorem isBlank_of_inName {c : Char} (within : inName c = true) : isBlank c = false := by
  have bounds := toNat_of_inName within
  simp only [isBlank, Text.isWhiteSpace, Text.isSeparator, Bool.or_eq_false_iff,
    Bool.and_eq_false_iff, decide_eq_false_iff_not, beq_eq_false_iff_ne]
  omega

theorem isQuote_of_inName {c : Char} (within : inName c = true) : isQuote c = false := by
  have bounds := toNat_of_inName within
  have double : '"'.toNat = 34 := rfl
  have single : '\''.toNat = 39 := rfl
  simp only [isQuote, Bool.or_eq_false_iff, beq_eq_false_iff_ne]
  constructor
  · rintro rfl
    omega
  · rintro rfl
    omega

theorem IsName.inName {word : String} (named : IsName word) : ∀ c ∈ word.toList, inName c = true := by
  obtain ⟨c, rest, eq, starts, within⟩ := named
  intro d member
  rw [eq] at member
  rcases List.mem_cons.1 member with rfl | later
  · exact inName_of_startsName starts
  · exact within d later

theorem ne_of_isQuote {c d : Char} (quotes : isQuote c = true) (other : isQuote d = false) : c ≠ d := by
  rintro rfl
  simp [quotes] at other

/-- A name begins with a character that is neither a blank nor a quote nor a
    parenthesis. -/
theorem IsName.head {word : String} (named : IsName word) :
    ∃ c rest, word.toList = c :: rest ∧ isBlank c = false ∧ isQuote c = false ∧ c ≠ ')' := by
  obtain ⟨c, rest, eq, starts, -⟩ := named
  have within := inName_of_startsName starts
  refine ⟨c, rest, eq, isBlank_of_inName within, isQuote_of_inName within, ?_⟩
  rintro rfl
  exact absurd starts (by decide)

/-! ## Blanks -/

theorem blanks_nil : Blanks [] := by simp [Blanks]

theorem blanks_append {s t : List Char} (first : Blanks s) (later : Blanks t) : Blanks (s ++ t) :=
  List.forall_mem_append.2 ⟨first, later⟩

theorem skipBlank_cons_of_not_blank {c : Char} (solid : isBlank c = false) (s : List Char) :
    skipBlank (c :: s) = c :: s := by
  simp [skipBlank, solid]

theorem skipBlank_append {b : List Char} (blank : Blanks b) (s : List Char) :
    skipBlank (b ++ s) = skipBlank s := List.dropWhile_append_of_pos blank

theorem skipBlank_of_blanks {b : List Char} (blank : Blanks b) : skipBlank b = [] :=
  List.dropWhile_eq_nil_iff.2 blank

/-- What is skipped are blanks. -/
theorem exists_blanks (s : List Char) : ∃ b, Blanks b ∧ s = b ++ skipBlank s :=
  ⟨s.takeWhile isBlank, fun _ member => List.mem_takeWhile_imp member,
    List.takeWhile_append_dropWhile.symm⟩

theorem IsName.skipBlank {word : String} (named : IsName word) (s : List Char) :
    Text.skipBlank (word.toList ++ s) = word.toList ++ s := by
  obtain ⟨c, rest, eq, solid, -⟩ := named.head
  rw [eq, List.cons_append, skipBlank_cons_of_not_blank solid]

/-! ## Names -/

/-- What may follow a name without being part of it. -/
def EndsName (s : List Char) : Prop := ∀ c ∈ s.head?, inName c = false

theorem name_append {word : String} {s : List Char} (named : IsName word) (ends : EndsName s) :
    name (word.toList ++ s) = .ok (word, s) := by
  obtain ⟨c, rest, eq, starts, within⟩ := named
  have taken : (rest ++ s).takeWhile inName = rest := by
    rw [List.takeWhile_append_of_pos within]
    cases s with
    | nil => simp
    | cons d s => simp [ends d rfl]
  have left : (rest ++ s).dropWhile inName = s := by
    rw [List.dropWhile_append_of_pos within]
    cases s with
    | nil => rfl
    | cons d s => simp [ends d rfl]
  rw [eq, List.cons_append, name, if_pos starts, taken, left, ← eq, String.ofList_toList]

theorem isName_of_name {s rest : List Char} {word : String} (read : name s = .ok (word, rest)) :
    IsName word ∧ s = word.toList ++ rest := by
  cases s with
  | nil => simp [name, refuse] at read
  | cons c s =>
    simp only [name] at read
    split at read
    · rename_i starts
      obtain ⟨rfl, rfl⟩ := Prod.mk.inj (Except.ok.inj read)
      refine ⟨⟨c, s.takeWhile inName, by simp, starts, fun d member => List.mem_takeWhile_imp member⟩, ?_⟩
      simp [List.takeWhile_append_dropWhile]
    · simp [refuse] at read

/-! ## Quoted text -/

theorem escape_iff {c d : Char} : Escape c d ↔ afterBackslash c = d := by
  constructor
  · rintro (_ | _ | _ | ⟨newline, tab, carriageReturn⟩)
    · rfl
    · rfl
    · rfl
    · simp [afterBackslash, newline, tab, carriageReturn]
  · rintro rfl
    unfold afterBackslash
    split_ifs with newline tab carriageReturn
    · exact newline ▸ .newline
    · exact tab ▸ .tab
    · exact carriageReturn ▸ .carriageReturn
    · exact .itself ⟨newline, tab, carriageReturn⟩

theorem quotedText_append {quote : Char} {body text : List Char} (quoted : QuotedBody quote body text)
    (visible : quote ≠ '\\') (rest : List Char) :
    quotedText quote (body ++ quote :: rest) = some (text, rest) := by
  induction quoted with
  | empty => rw [List.nil_append, quotedText.eq_3 _ _ _ (by simp [visible])]; simp
  | @plain c s text ordinary _ ih =>
    rw [List.cons_append, quotedText.eq_3 _ _ _ (by simp [ordinary.1])]
    simp [ordinary.2, ih]
  | @escaped c d s text escape _ ih =>
    rw [List.cons_append, List.cons_append, quotedText, ih, escape_iff.1 escape]
    rfl

theorem quotedBody_of_quotedText {quote : Char} {s text rest : List Char}
    (read : quotedText quote s = some (text, rest)) :
    ∃ body, QuotedBody quote body text ∧ s = body ++ quote :: rest := by
  fun_induction quotedText quote s generalizing text rest with
  | case1 => simp at read
  | case2 c s ih =>
    obtain ⟨⟨inner, after⟩, found, eq⟩ := Option.map_eq_some_iff.1 read
    obtain ⟨rfl, rfl⟩ := Prod.mk.inj eq
    obtain ⟨body, quoted, rfl⟩ := ih found
    exact ⟨_, .escaped (escape_iff.2 rfl) quoted, rfl⟩
  | case3 s =>
    obtain ⟨rfl, rfl⟩ := Prod.mk.inj (Option.some.inj read)
    exact ⟨[], .empty, rfl⟩
  | case4 c s escapes other ih =>
    obtain ⟨⟨inner, after⟩, found, eq⟩ := Option.map_eq_some_iff.1 read
    obtain ⟨rfl, rfl⟩ := Prod.mk.inj eq
    obtain ⟨body, quoted, rfl⟩ := ih found
    refine ⟨c :: body, .plain ⟨?_, other⟩ quoted, rfl⟩
    rintro rfl
    -- a backslash here would have taken the next character with it
    cases body with
    | nil => exact escapes _ _ rfl rfl
    | cons d body => exact escapes _ _ rfl rfl

/-! ## Values -/

/-- What follows a value that is written as a name. -/
def EndsValue (s : List Char) : Prop := EndsName s ∧ s.head? ≠ some '('

theorem isName_of_all {word : String} {c : Char} {rest : List Char} (eq : word.toList = c :: rest)
    (starts : startsName c = true) (within : rest.all inName = true) : IsName word :=
  ⟨c, rest, eq, starts, List.all_eq_true.1 within⟩

theorem ofName_eq_variable_iff {word name : String} :
    ofName word = .variable name ↔
      word = name ∧ name ≠ "true" ∧ name ≠ "false" ∧ name ≠ "null" := by
  unfold ofName
  grind

/-- A name as a value means what the reader makes of it. -/
theorem operandText_ofName {word : String} (named : IsName word) : OperandText word.toList (ofName word) := by
  by_cases other : word = "true" ∨ word = "false" ∨ word = "null"
  · rcases other with rfl | rfl | rfl
    · exact .isTrue
    · exact .isFalse
    · exact .null
  · obtain ⟨isTrue, isFalse, isNull⟩ : word ≠ "true" ∧ word ≠ "false" ∧ word ≠ "null" := by tauto
    rw [ofName_eq_variable_iff.2 ⟨rfl, isTrue, isFalse, isNull⟩]
    exact .reference named ⟨isTrue, isFalse, isNull⟩

/-- A value is quoted text, or a name that is read as it. -/
theorem quoted_or_named {s : List Char} {value : Operand} (valued : OperandText s value) :
    (∃ quote body text, isQuote quote = true ∧ quote ≠ '\\' ∧ QuotedBody quote body text ∧
        s = quote :: (body ++ [quote]) ∧ value = .text (String.ofList text)) ∨
      ∃ word, IsName word ∧ s = word.toList ∧ value = ofName word := by
  cases valued with
  | quoted quotes body =>
    refine .inl ⟨_, _, _, ?_, ?_, body, rfl, rfl⟩
    · rcases quotes with rfl | rfl <;> rfl
    · rcases quotes with rfl | rfl <;> decide
  | isTrue => exact .inr ⟨"true", isName_of_all rfl (by decide) (by decide), rfl, rfl⟩
  | isFalse => exact .inr ⟨"false", isName_of_all rfl (by decide) (by decide), rfl, rfl⟩
  | null => exact .inr ⟨"null", isName_of_all rfl (by decide) (by decide), rfl, rfl⟩
  | reference named other => exact .inr ⟨_, named, rfl, (ofName_eq_variable_iff.2 ⟨rfl, other⟩).symm⟩

/-- A value begins with no blank. -/
theorem OperandText.skipBlank {s : List Char} {value : Operand} (valued : OperandText s value)
    (rest : List Char) : Text.skipBlank (s ++ rest) = s ++ rest := by
  rcases quoted_or_named valued with ⟨quote, body, text, quotes, -, -, rfl, -⟩ | ⟨word, named, rfl, -⟩
  · have solid : isBlank quote = false := by
      simp only [isQuote, Bool.or_eq_true, beq_iff_eq] at quotes
      rcases quotes with rfl | rfl <;> decide
    exact skipBlank_cons_of_not_blank solid _
  · exact named.skipBlank rest

theorem operand_append {s rest : List Char} {value : Operand} (valued : OperandText s value)
    (ends : EndsValue rest) : operand (s ++ rest) = .ok (value, rest) := by
  rcases quoted_or_named valued with ⟨quote, body, text, quotes, visible, quoted, rfl, rfl⟩ | ⟨word, named, rfl, rfl⟩
  · have read := quotedText_append quoted visible rest
    simp [operand, quotes, read]
  · have read := name_append named ends.1
    obtain ⟨c, tail, eq, -, bare, -⟩ := named.head
    rw [eq, List.cons_append] at read ⊢
    simp only [operand, bare, Bool.false_eq_true, if_false, read, if_neg ends.2]

theorem operandText_of_operand {s rest : List Char} {value : Operand}
    (read : operand s = .ok (value, rest)) : ∃ body, OperandText body value ∧ s = body ++ rest := by
  cases s with
  | nil => simp [operand, refuse] at read
  | cons c s =>
    simp only [operand] at read
    split at read
    · rename_i quotes
      split at read
      · rename_i text after found
        obtain ⟨rfl, rfl⟩ := Prod.mk.inj (Except.ok.inj read)
        obtain ⟨body, quoted, rfl⟩ := quotedBody_of_quotedText found
        exact ⟨_, .quoted (by simpa [isQuote] using quotes) quoted, by simp⟩
      · simp [refuse] at read
    · split at read
      · simp at read
      · rename_i word after found
        split at read
        · simp [refuse] at read
        · obtain ⟨rfl, rfl⟩ := Prod.mk.inj (Except.ok.inj read)
          obtain ⟨named, eq⟩ := isName_of_name found
          exact ⟨_, operandText_ofName named, eq⟩

/-! ## Arguments -/

theorem assigned_append {before behind s rest : List Char} {sign : Char} {value : Operand}
    (blank : Blanks before) (signs : sign = ':' ∨ sign = '=') (blankBehind : Blanks behind)
    (valued : OperandText s value) (ends : EndsValue rest) (word : String) :
    assigned word (before ++ sign :: (behind ++ (s ++ rest))) = .ok (value, rest) := by
  have solid : isBlank sign = false := by rcases signs with rfl | rfl <;> decide
  rw [assigned, skipBlank_append blank, skipBlank_cons_of_not_blank solid]
  simp only [signs, if_true]
  rw [skipBlank_append blankBehind, valued.skipBlank, operand_append valued ends]

theorem exists_of_assigned {word : String} {s rest : List Char} {value : Operand}
    (read : assigned word s = .ok (value, rest)) :
    ∃ before sign behind body, Blanks before ∧ (sign = ':' ∨ sign = '=') ∧ Blanks behind ∧
      OperandText body value ∧ s = before ++ sign :: (behind ++ (body ++ rest)) := by
  obtain ⟨before, blank, eq⟩ := exists_blanks s
  simp only [assigned] at read
  split at read
  · rename_i sign t found
    split at read
    · rename_i signs
      obtain ⟨behind, blankBehind, eqBehind⟩ := exists_blanks t
      obtain ⟨body, valued, eqBody⟩ := operandText_of_operand read
      exact ⟨before, sign, behind, body, blank, signs, blankBehind, valued,
        by rw [eq, found, eqBehind, eqBody]⟩
    · simp [refuse] at read
  · simp [refuse] at read

theorem ArgumentText.skipBlank {s : List Char} {a : Argument} (written : ArgumentText s a)
    (rest : List Char) : Text.skipBlank (s ++ rest) = s ++ rest := by
  obtain ⟨named, -, -, -, -⟩ := written
  rw [List.append_assoc]
  exact named.skipBlank _

theorem ArgumentText.ne_close {s : List Char} {a : Argument} (written : ArgumentText s a)
    (rest t : List Char) : s ++ rest ≠ ')' :: t := by
  obtain ⟨named, -, -, -, -⟩ := written
  obtain ⟨c, tail, eq, -, -, other⟩ := named.head
  rw [List.append_assoc, eq]
  intro same
  exact other (List.cons.inj same).1

/-- What follows a name is no part of it if it begins with a blank or a sign. -/
theorem endsName_append {b s : List Char} (blank : Blanks b) (ends : EndsName s) : EndsName (b ++ s) := by
  cases b with
  | nil => exact ends
  | cons c b =>
    intro d head
    obtain rfl : c = d := Option.some.inj head
    have solid := blank c List.mem_cons_self
    by_contra within
    rw [isBlank_of_inName (by simpa using within)] at solid
    exact absurd solid (by simp)

theorem endsName_cons {c : Char} (outside : inName c = false) (s : List Char) : EndsName (c :: s) := by
  intro d head
  obtain rfl : c = d := Option.some.inj head
  exact outside

/-- A value ends before blanks and a comma or the closing parenthesis. -/
theorem endsValue_append {b : List Char} {c : Char} (blank : Blanks b) (stops : c = ',' ∨ c = ')')
    (s : List Char) : EndsValue (b ++ c :: s) := by
  have outside : inName c = false ∧ c ≠ '(' := by rcases stops with rfl | rfl <;> decide
  refine ⟨endsName_append blank (endsName_cons outside.1 s), ?_⟩
  cases b with
  | nil => simpa using outside.2
  | cons d b =>
    intro head
    obtain rfl : d = '(' := Option.some.inj head
    exact absurd (blank '(' List.mem_cons_self) (by decide)

theorem argument_append {s rest : List Char} {a : Argument} {earlier : List String}
    (written : ArgumentText s a) (fresh : a.name ∉ earlier) (ends : EndsValue rest) :
    argument earlier (s ++ rest) = .ok (a, rest) := by
  cases written with
  | @assigned word before behind s sign value named blank signs blankBehind valued =>
    have outside : inName sign = false := by rcases signs with rfl | rfl <;> decide
    have read := name_append named (endsName_append blank (endsName_cons outside (behind ++ (s ++ rest))))
    have given := assigned_append blank signs blankBehind valued ends word
    obtain ⟨c, tail, eq, -, bare, -⟩ := named.head
    simp only [List.append_assoc, List.cons_append]
    rw [argument, read]
    simp only [eq, List.cons_append, List.head?_cons, Option.any_some, bare, Bool.false_eq_true,
      if_false, if_neg fresh, given]

theorem argumentText_of_argument {earlier : List String} {s rest : List Char} {a : Argument}
    (read : argument earlier s = .ok (a, rest)) :
    a.name ∉ earlier ∧ ∃ body, ArgumentText body a ∧ s = body ++ rest := by
  simp only [argument] at read
  split at read
  · simp [refuse] at read
  · split at read
    · simp at read
    · rename_i word afterName found
      split at read
      · simp [refuse] at read
      · rename_i fresh
        split at read
        · simp at read
        · rename_i value after given
          obtain ⟨rfl, rfl⟩ := Prod.mk.inj (Except.ok.inj read)
          obtain ⟨named, rfl⟩ := isName_of_name found
          obtain ⟨before, sign, behind, body, blank, signs, blankBehind, valued, rfl⟩ :=
            exists_of_assigned given
          exact ⟨fresh, _, .assigned named blank signs blankBehind valued, by simp⟩

/-! ## Lists of arguments -/

theorem separator_comma {b : List Char} (blank : Blanks b) (s : List Char) :
    separator (b ++ ',' :: s) = .ok s := by
  simp only [separator, skipBlank_append blank, skipBlank_cons_of_not_blank (show isBlank ',' = false by decide)]

theorem separator_close {b : List Char} (blank : Blanks b) (s : List Char) :
    separator (b ++ ')' :: s) = .ok (')' :: s) := by
  simp only [separator, skipBlank_append blank, skipBlank_cons_of_not_blank (show isBlank ')' = false by decide)]

/-- An argument is followed by a comma, or the parenthesis closes. -/
theorem separator_cases {s rest : List Char} (next : separator s = .ok rest) :
    (∃ b, Blanks b ∧ s = b ++ ',' :: rest) ∨ ∃ b t, Blanks b ∧ s = b ++ ')' :: t ∧ rest = ')' :: t := by
  obtain ⟨b, blank, eq⟩ := exists_blanks s
  simp only [separator] at next
  split at next
  · simp [refuse] at next
  · rename_i t found
    obtain rfl := Except.ok.inj next
    exact .inl ⟨b, blank, by rw [eq, found]⟩
  · rename_i t found
    obtain rfl := Except.ok.inj next
    exact .inr ⟨b, t, blank, by rw [eq, found], rfl⟩
  · simp [refuse] at next

theorem arguments_close {b : List Char} (blank : Blanks b) (earlier : List String) (s : List Char) :
    arguments earlier (b ++ ')' :: s) = .ok ([], s) := by
  have found : skipBlank (b ++ ')' :: s) = ')' :: s := by
    rw [skipBlank_append blank, skipBlank_cons_of_not_blank (by decide)]
  rw [arguments]
  simp only [found]

/-- Reading the arguments goes on behind the first one and what separates it. -/
theorem arguments_cons {earlier : List String} {s after rest : List Char} {a : Argument}
    (more : ∀ t, skipBlank s ≠ ')' :: t) (first : argument earlier (skipBlank s) = .ok (a, after))
    (next : separator after = .ok rest) :
    arguments earlier s =
      match arguments (a.name :: earlier) rest with
      | .error e => .error e
      | .ok (others, final) => .ok (a :: others, final) := by
  rw [arguments]
  split
  · rename_i none
    rw [none] at first
    simp [argument, name, refuse] at first
  · rename_i t eq
    exact absurd eq (more t)
  · split
    · rename_i found
      exact absurd (first.symm.trans found) (by simp)
    · rename_i found
      obtain ⟨rfl, rfl⟩ := Prod.mk.inj (Except.ok.inj (first.symm.trans found))
      split
      · rename_i found
        exact absurd (next.symm.trans found) (by simp)
      · rename_i found
        obtain rfl := Except.ok.inj (next.symm.trans found)
        rfl

/-- No argument is called as an earlier one or as another one. -/
def Distinct (earlier : List String) (args : List Argument) : Prop :=
  (∀ a ∈ args, a.name ∉ earlier) ∧ (args.map Argument.name).Nodup

theorem distinct_cons {earlier : List String} {a : Argument} {args : List Argument} :
    Distinct earlier (a :: args) ↔ a.name ∉ earlier ∧ Distinct (a.name :: earlier) args := by
  rw [Distinct, Distinct, List.forall_mem_cons, List.map_cons, List.nodup_cons]
  constructor
  · rintro ⟨⟨fresh, others⟩, apart, distinct⟩
    refine ⟨fresh, fun b member => ?_, distinct⟩
    rw [List.mem_cons, not_or]
    exact ⟨fun same => apart (same ▸ List.mem_map_of_mem member), others b member⟩
  · rintro ⟨fresh, others, distinct⟩
    refine ⟨⟨fresh, fun b member => fun inside => others b member (List.mem_cons_of_mem _ inside)⟩,
      fun inside => ?_, distinct⟩
    obtain ⟨b, member, same⟩ := List.mem_map.1 inside
    exact others b member (same ▸ List.mem_cons_self)

/-- The first argument is read, and the reader goes on behind its comma. -/
theorem arguments_step {before s behind : List Char} {a : Argument} {earlier : List String}
    (blank : Blanks before) (written : ArgumentText s a) (fresh : a.name ∉ earlier)
    (blankBehind : Blanks behind) (rest : List Char) :
    arguments earlier (before ++ (s ++ (behind ++ ',' :: rest))) =
        (match arguments (a.name :: earlier) rest with
        | .error e => .error e
        | .ok (others, final) => .ok (a :: others, final)) ∧
      arguments earlier (before ++ (s ++ (behind ++ ')' :: rest))) = .ok ([a], rest) := by
  have start (u : List Char) : skipBlank (before ++ (s ++ u)) = s ++ u := by
    rw [skipBlank_append blank, written.skipBlank]
  have more (u t : List Char) : skipBlank (before ++ (s ++ u)) ≠ ')' :: t := by
    rw [start]
    exact written.ne_close u t
  constructor
  · have first := argument_append written fresh (endsValue_append blankBehind (.inl rfl) rest)
    exact arguments_cons (more _) (by rw [start, first]) (separator_comma blankBehind rest)
  · have first := argument_append written fresh (endsValue_append blankBehind (.inr rfl) rest)
    rw [arguments_cons (more _) (by rw [start, first]) (separator_close blankBehind rest)]
    have closed := arguments_close blanks_nil (a.name :: earlier) rest
    rw [List.nil_append] at closed
    rw [closed]

/-- An argument and what follows it are read up to the parenthesis. -/
theorem arguments_append_more {t : List Char} {others : List Argument} (more : MoreText t others)
    {before s behind : List Char} {a : Argument} {earlier : List String} (blank : Blanks before)
    (written : ArgumentText s a) (blankBehind : Blanks behind) (distinct : Distinct earlier (a :: others))
    (rest : List Char) :
    arguments earlier (before ++ (s ++ (behind ++ (t ++ ')' :: rest)))) = .ok (a :: others, rest) := by
  induction more generalizing before s behind a earlier with
  | stop => exact (arguments_step blank written (distinct_cons.1 distinct).1 blankBehind rest).2
  | @comma last blankLast =>
    have first := (arguments_step blank written (distinct_cons.1 distinct).1 blankBehind
      (last ++ ')' :: rest)).1
    rw [List.cons_append, first, arguments_close blankLast]
  | @next between s' after t b others blankNext writtenNext blankAfter _ ih =>
    obtain ⟨fresh, distinct⟩ := distinct_cons.1 distinct
    have first := (arguments_step blank written fresh blankBehind
      (between ++ (s' ++ (after ++ (t ++ ')' :: rest))))).1
    have later := ih blankNext writtenNext blankAfter distinct
    simp only [List.cons_append, List.append_assoc]
    rw [first, later]

theorem arguments_append {s before : List Char} {args : List Argument} {earlier : List String}
    (blank : Blanks before) (listed : ListText s args) (distinct : Distinct earlier args) (rest : List Char) :
    arguments earlier (before ++ (s ++ ')' :: rest)) = .ok (args, rest) := by
  cases listed with
  | none => exact arguments_close blank earlier rest
  | some written blankBehind more =>
    simp only [List.append_assoc]
    exact arguments_append_more more blank written blankBehind distinct rest

/-- What follows the comma behind an argument, as part of the list that the argument
    begins. -/
theorem moreText_comma {before s : List Char} {others : List Argument} (blank : Blanks before)
    (listed : ListText s others) : MoreText (',' :: (before ++ s)) others := by
  cases listed with
  | none => simpa using MoreText.comma blank
  | some written blankBehind more => exact .next blank written blankBehind more

theorem listText_of_arguments {earlier : List String} {s rest : List Char} {args : List Argument}
    (read : arguments earlier s = .ok (args, rest)) :
    Distinct earlier args ∧
      ∃ before body, Blanks before ∧ ListText body args ∧ s = before ++ (body ++ ')' :: rest) := by
  fun_induction arguments earlier s generalizing args rest with
  | case1 => simp [refuse] at read
  | case2 earlier s t found =>
    obtain ⟨rfl, rfl⟩ := Prod.mk.inj (Except.ok.inj read)
    obtain ⟨before, blank, eq⟩ := exists_blanks s
    exact ⟨by simp [Distinct], before, [], blank, .none, by rw [eq, found]; rfl⟩
  | case3 => simp at read
  | case4 => simp at read
  | case5 => simp at read
  | case6 earlier s c t more found a after first behind next others final later ih =>
    obtain ⟨rfl, rfl⟩ := Prod.mk.inj (Except.ok.inj read)
    obtain ⟨before, blank, eq⟩ := exists_blanks s
    obtain ⟨fresh, body, written, split⟩ := argumentText_of_argument first
    obtain ⟨distinct, inner, list, blankInner, listed, eqBehind⟩ := ih later
    refine ⟨distinct_cons.2 ⟨fresh, distinct⟩, before, ?_⟩
    rcases separator_cases next with ⟨gap, blankGap, eqAfter⟩ | ⟨gap, u, blankGap, eqAfter, closes⟩
    · refine ⟨body ++ (gap ++ ',' :: (inner ++ list)), blank,
        .some written blankGap (moreText_comma blankInner listed), ?_⟩
      rw [eq, split, eqAfter, eqBehind]
      simp
    · have closed := arguments_close blanks_nil (a.name :: earlier) u
      rw [List.nil_append, ← closes, later] at closed
      obtain ⟨rfl, rfl⟩ := Prod.mk.inj (Except.ok.inj closed)
      refine ⟨body ++ (gap ++ []), blank, .some written blankGap .stop, ?_⟩
      rw [eq, split, eqAfter]
      simp

/-! ## Bodies -/

theorem expression_append {word : String} {behind : List Char} (named : IsName word)
    (blank : Blanks behind) : expression (word.toList ++ behind) = .ok (.variable word, []) := by
  have ends : EndsName behind := by simpa using endsName_append blank (s := []) (by simp [EndsName])
  simp [expression, name_append named ends, skipBlank_of_blanks blank]

theorem expression_append_call {word : String} {behind inner s after : List Char} {args : List Argument}
    (named : IsName word) (blankBehind : Blanks behind) (blankInner : Blanks inner)
    (listed : ListText s args) (distinct : (args.map Argument.name).Nodup) :
    expression (word.toList ++ (behind ++ '(' :: (inner ++ (s ++ ')' :: after)))) =
      .ok (.call word args, after) := by
  have ends := endsName_append blankBehind
    (endsName_cons (c := '(') (by decide) (inner ++ (s ++ ')' :: after)))
  have apart : Distinct [] args := ⟨by simp, distinct⟩
  have read := arguments_append blankInner listed apart after
  simp [expression, name_append named ends, skipBlank_append blankBehind,
    skipBlank_cons_of_not_blank (show isBlank '(' = false by decide), read]

theorem bodyText_of_expression {s rest : List Char} {value : Expression}
    (found : expression s = .ok (value, rest)) (blank : Blanks rest) : BodyText s value := by
  simp only [expression] at found
  split at found
  · simp at found
  · rename_i word afterName read
    obtain ⟨named, rfl⟩ := isName_of_name read
    obtain ⟨behind, blankBehind, eq⟩ := exists_blanks afterName
    split at found
    · rename_i t opened
      split at found
      · simp at found
      · rename_i args after inside
        obtain ⟨rfl, rfl⟩ := Prod.mk.inj (Except.ok.inj found)
        obtain ⟨distinct, inner, list, blankInner, listed, rfl⟩ := listText_of_arguments inside
        have written := BodyText.call blanks_nil named blankBehind blankInner listed distinct.2 blank
        rw [eq, opened]
        exact written
    · rename_i other
      obtain ⟨rfl, rfl⟩ := Prod.mk.inj (Except.ok.inj found)
      have written := BodyText.reference blanks_nil named (blanks_append blankBehind blank)
      rw [eq]
      exact written

/-- Blanks before a body mean nothing. -/
theorem BodyText.prepend {b s : List Char} {value : Expression} (blank : Blanks b)
    (written : BodyText s value) : BodyText (b ++ s) value := by
  cases written with
  | reference blankBefore named blankBehind =>
    rw [← List.append_assoc]
    exact .reference (blanks_append blank blankBefore) named blankBehind
  | call blankBefore named blankBehind blankInner listed distinct blankAfter =>
    rw [← List.append_assoc]
    exact .call (blanks_append blank blankBefore) named blankBehind blankInner listed distinct blankAfter

theorem read_of_expression {s after : List Char} {value : Expression} {word : String} {before t : List Char}
    (blank : Blanks before) (named : IsName word) (starts : s = word.toList ++ t)
    (found : expression s = .ok (value, after)) (blankAfter : Blanks after) :
    read (before ++ s) = .ok value := by
  have start : skipBlank (before ++ s) = s := by
    rw [skipBlank_append blank, starts, named.skipBlank]
  obtain ⟨c, rest, eq, -⟩ := named.head
  rw [eq, List.cons_append] at starts
  subst starts
  rw [read]
  simp only [start, found, skipBlank_of_blanks blankAfter]

/-- The reader accepts the texts of the grammar and returns what they mean. -/
theorem read_eq_ok_iff {body : List Char} {value : Expression} :
    read body = .ok value ↔ BodyText body value := by
  constructor
  · intro found
    obtain ⟨before, blank, eq⟩ := exists_blanks body
    simp only [read] at found
    split at found
    · simp [refuse] at found
    · split at found
      · simp at found
      · rename_i inner after inside
        split at found
        · rename_i done
          obtain rfl := Except.ok.inj found
          rw [eq]
          refine (bodyText_of_expression inside ?_).prepend blank
          exact List.dropWhile_eq_nil_iff.1 done
        · simp [refuse] at found
  · intro written
    cases written with
    | reference blank named blankBehind =>
      exact read_of_expression blank named rfl (expression_append named blankBehind) blanks_nil
    | call blank named blankBehind blankInner listed distinct blankAfter =>
      exact read_of_expression blank named rfl
        (expression_append_call named blankBehind blankInner listed distinct) blankAfter

/-- Wherever a body starts, it is accepted as the value that the grammar gives it; it
    is refused if the grammar gives it none, and it never gives it two. -/
theorem readAt_eq_ok_iff (offset : Int) (body : List Char) :
    (∀ value, readAt offset body = .ok value ↔ BodyText body value) ∧
      ((∃ e, readAt offset body = .error e) ↔ ∀ value, ¬BodyText body value) ∧
      ∀ value other, BodyText body value → BodyText body other → value = other := by
  have accepts : ∀ value, readAt offset body = .ok value ↔ BodyText body value := by
    intro value
    rw [← read_eq_ok_iff, readAt]
    cases read body <;> simp
  refine ⟨accepts, ?_, fun value other first second => ?_⟩
  · simp only [← accepts]
    cases readAt offset body <;> simp
  · exact Except.ok.inj (((accepts value).2 first).symm.trans ((accepts other).2 second))

/-- A call with blanks everywhere, both signs, both quotes, a literal, a variable called
    almost as one, and a comma at the end. -/
theorem readAt_eq_ok_mixed :
    BodyText " f ( a : 'x\\n\\'' ,b=\"]\x7d\"\t, c=true,d : nulls , ) ".toList
        (.call "f" [⟨"a", .text "x\n'"⟩, ⟨"b", .text "]\x7d"⟩, ⟨"c", .bool true⟩, ⟨"d", .variable "nulls"⟩]) ∧
      ∀ value, ¬BodyText "f(a: b c: d)".toList value :=
  ⟨((readAt_eq_ok_iff 3 _).1 _).1 (by cbv), (readAt_eq_ok_iff 3 _).2.1.1 ⟨_, by cbv⟩⟩

end RequestTemplate.Tag
