import RequestTemplate.Proofs.Fault

/-!
# Quoted text is read as it is scanned

A tag is scanned for its closer and its body is read afterwards, and both tell quoted
text from the rest. Wherever the reader comes to quoted text, the scan has opened it at
the same quote and leaves it at the quote that the reader goes on behind (`Alike`). So
the reader of a body never misses a closing quote, and a quote without one leaves its
tag without an end (`quotesAlike`).
-/

namespace RequestTemplate
open Delimiter

/-! ## Reasons that are not quoted text -/

theorem append_ne {start whole : String} (other : ¬start.toList <+: whole.toList) (rest : String) :
    start ++ rest ≠ whole := by
  rintro rfl
  exact other (by simp)

/-- Whether a reason is one of the reader's own, other than quoted text without its end. -/
def Malformed.isOther : Malformed → Bool
  | unterminatedText | reported _ => false
  | _ => true

theorem Malformed.message_ne {reason : Malformed} (other : reason.isOther = true) :
    reason.message ≠ "Unterminated string literal" := by
  unfold Malformed.message
  cases reason with
  | unterminatedText => cases other
  | reported message => cases other
  | expectedIdentifier found =>
    cases found with
    | none => decide
    | some c =>
      dsimp only
      exact append_ne (by decide) _
  | unexpectedCharacter found =>
    dsimp only
    rw [String.append_assoc]
    exact append_ne (by decide) _
  | duplicateArgument name => exact append_ne (by decide) _
  | expectedAssignment name => exact append_ne (by decide) _
  | expectedSeparator found => exact append_ne (by decide) _
  | _ => decide

/-! ## Where the reader comes to quoted text -/

namespace Tag
open Text (skipBlank)

/-- The value of the argument at the head is quoted text: `quote`, with `rest` behind it. -/
inductive ReachesValue (quote : Char) (rest : List Char) (earlier : List String) (s : List Char) : Prop
  | value {word : String} {afterName behind : List Char} {sign : Char}
      (bare : s.head?.any isQuote = false) (named : name s = .ok (word, afterName)) (fresh : word ∉ earlier)
      (signed : skipBlank afterName = sign :: behind) (signs : sign = ':' ∨ sign = '=')
      (stands : skipBlank behind = quote :: rest) (quotes : isQuote quote = true)

/-- Reading the arguments of a call comes to quoted text. -/
inductive ReachesArguments (quote : Char) (rest : List Char) : List String → List Char → Prop
  | here {earlier : List String} {s : List Char}
      (value : ReachesValue quote rest earlier (skipBlank s)) : ReachesArguments quote rest earlier s
  | later {earlier : List String} {s after next : List Char} {a : Argument}
      (first : argument earlier (skipBlank s) = .ok (a, after)) (separated : separator after = .ok next)
      (more : ReachesArguments quote rest (a.name :: earlier) next) : ReachesArguments quote rest earlier s

/-- Reading a body comes to quoted text, which stands in the arguments of its call. -/
inductive Reaches (quote : Char) (rest body : List Char) : Prop
  | arguments {word : String} {afterName listed : List Char}
      (named : name (skipBlank body) = .ok (word, afterName)) (call : skipBlank afterName = '(' :: listed)
      (reaches : ReachesArguments quote rest [] listed)

end Tag

/-! ## What is read ends outside quoted text -/

namespace Span
open Text (isBlank)

theorem Outside.append {s t : List Char} (first : Outside s) (second : Outside t) : Outside (s ++ t) := by
  rw [Quoting.outside_iff] at first second ⊢
  rw [Quoting.after_append, first, second]

theorem outside_of_bare {s : List Char} (bare : ∀ c ∈ s, Tag.isQuote c = false) : Outside s := by
  induction s with
  | nil => exact .empty
  | cons c s ih =>
    obtain ⟨here, later⟩ := List.forall_mem_cons.1 bare
    exact .plain here (ih later)

theorem outside_of_blanks {s : List Char} (blank : Tag.Blanks s) : Outside s := by
  refine outside_of_bare fun c member => ?_
  have here := blank c member
  rw [Tag.isQuote, Bool.or_eq_false_iff, beq_eq_false_iff_ne, beq_eq_false_iff_ne]
  exact ⟨ne_of_isBlank here (by decide), ne_of_isBlank here (by decide)⟩

theorem outside_of_name {word : String} (named : Tag.IsName word) : Outside word.toList :=
  outside_of_bare fun c member => Tag.isQuote_of_inName (named.inName c member)

theorem outside_of_operandText {s : List Char} {value : Operand} (valued : Tag.OperandText s value) : Outside s := by
  rcases Tag.quoted_or_named valued with ⟨quote, body, text, quotes, -, inner, rfl, -⟩ | ⟨word, named, rfl, -⟩
  · exact .quoted quotes inner .empty
  · exact outside_of_name named

/-- A colon, an equals sign, a comma and a parenthesis open no quoted text. -/
theorem outside_sign {c : Char} (sign : c = ':' ∨ c = '=' ∨ c = ',' ∨ c = '(') {s : List Char} (rest : Outside s) :
    Outside (c :: s) := by
  refine .plain ?_ rest
  rcases sign with rfl | rfl | rfl | rfl <;> decide

theorem outside_of_argumentText {s : List Char} {a : Argument} (written : Tag.ArgumentText s a) : Outside s := by
  cases written with
  | assigned named blank signs blankBehind valued =>
    have value := (outside_of_blanks blankBehind).append (outside_of_operandText valued)
    exact (outside_of_name named).append ((outside_of_blanks blank).append (outside_sign (by tauto) value))

end Span

namespace Tag
open Text (skipBlank)
open RequestTemplate.Span (Outside outside_of_blanks outside_of_name outside_sign outside_of_argumentText)

variable {quote : Char} {rest body s : List Char} {earlier : List String}

/-- The text is read up to a quote, and a scan that begins at its head stands outside
    quoted text there. -/
def OpensAt (s : List Char) (quote : Char) (rest : List Char) : Prop :=
  ∃ before, s = before ++ quote :: rest ∧ Outside before ∧ isQuote quote = true

theorem OpensAt.prepend {before : List Char} (outside : Outside before) (opens : OpensAt s quote rest) :
    OpensAt (before ++ s) quote rest := by
  obtain ⟨front, rfl, bare, quotes⟩ := opens
  exact ⟨before ++ front, by simp, outside.append bare, quotes⟩

theorem OpensAt.skipBlank (opens : OpensAt (Text.skipBlank s) quote rest) : OpensAt s quote rest := by
  obtain ⟨blanks, blank, eq⟩ := exists_blanks s
  rw [eq]
  exact opens.prepend (outside_of_blanks blank)

theorem ReachesValue.opensAt (reaches : ReachesValue quote rest earlier s) : OpensAt s quote rest := by
  obtain ⟨-, named, -, signed, signs, stands, quotes⟩ := reaches
  rename_i word afterName behind sign
  obtain ⟨isName, rfl⟩ := isName_of_name named
  have value : OpensAt behind quote rest := by
    apply OpensAt.skipBlank
    rw [stands]
    exact ⟨[], rfl, .empty, quotes⟩
  have assigned : OpensAt afterName quote rest := by
    apply OpensAt.skipBlank
    rw [signed]
    exact value.prepend (outside_sign (by tauto) .empty)
  exact assigned.prepend (outside_of_name isName)

theorem ReachesArguments.opensAt (reaches : ReachesArguments quote rest earlier s) : OpensAt s quote rest := by
  induction reaches with
  | here value => exact value.opensAt.skipBlank
  | later first separated more ih =>
    apply OpensAt.skipBlank
    obtain ⟨-, body, written, eq⟩ := argumentText_of_argument first
    rw [eq]
    refine OpensAt.prepend (outside_of_argumentText written) ?_
    rcases separator_cases separated with ⟨gap, blank, rfl⟩ | ⟨gap, t, blank, rfl, rfl⟩
    · exact (ih.prepend (outside_sign (by tauto) .empty)).prepend (outside_of_blanks blank)
    · exact ih.prepend (outside_of_blanks blank)

theorem Reaches.opensAt (reaches : Reaches quote rest body) : OpensAt body quote rest := by
  obtain ⟨named, call, reaches⟩ := reaches
  rename_i word afterName listed
  apply OpensAt.skipBlank
  obtain ⟨isName, eq⟩ := isName_of_name named
  rw [eq]
  refine OpensAt.prepend (outside_of_name isName) (OpensAt.skipBlank ?_)
  rw [call]
  exact reaches.opensAt.prepend (outside_sign (by tauto) .empty)

/-! ## Why the reader refuses -/

/-- The text is refused for quoted text without its end only where it has some, of which
    `reaches` says where it stands. -/
def Blames {α : Type} (reaches : Char → List Char → Prop) (reading : Except Refusal α) : Prop :=
  ∀ refusal, reading = .error refusal → refusal.reason.isOther = true ∨ ∃ quote rest, reaches quote rest ∧ quotedText quote rest = none

variable {α β : Type} {reaches found : Char → List Char → Prop}

theorem blames_ok (a : α) : Blames reaches (.ok a) := nofun

theorem blames_refuse {reason : Malformed} (other : reason.isOther = true) (rest : List Char) :
    Blames reaches (refuse reason rest : Except Refusal α) := by
  rintro refusal ⟨⟩
  exact .inl other

theorem Blames.mono {reading : Except Refusal α} (blames : Blames found reading)
    (onward : ∀ quote rest, found quote rest → reaches quote rest) : Blames reaches reading := by
  intro refusal refused
  refine (blames refusal refused).imp_right ?_
  rintro ⟨quote, rest, stands, endless⟩
  exact ⟨quote, rest, onward quote rest stands, endless⟩

/-- A refusal of a part is blamed on what that part reaches. -/
theorem Blames.error {reading : Except Refusal α} {refusal : Refusal} (blames : Blames found reading)
    (refused : reading = .error refusal) (onward : ∀ quote rest, found quote rest → reaches quote rest) :
    Blames reaches (.error refusal : Except Refusal β) := by
  rintro other ⟨⟩
  exact blames.mono onward refusal refused

theorem blames_name (s : List Char) : Blames reaches (name s) := by
  unfold name
  split
  · exact blames_refuse rfl _
  · split
    · exact blames_ok _
    · exact blames_refuse rfl _

theorem blames_operand (s : List Char) :
    Blames (fun quote rest => s = quote :: rest ∧ isQuote quote = true) (operand s) := by
  unfold operand
  split
  · exact blames_refuse rfl _
  · split
    · rename_i quote rest quotes
      split
      · exact blames_ok _
      · rename_i endless
        rintro refusal ⟨⟩
        exact .inr ⟨quote, rest, ⟨rfl, quotes⟩, endless⟩
    · split
      · rename_i refused
        exact (blames_name _).error refused fun _ _ => id
      · split
        · exact blames_refuse rfl _
        · exact blames_ok _

theorem blames_assigned (word : String) (s : List Char) :
    Blames (fun quote rest => ∃ sign behind, skipBlank s = sign :: behind ∧ (sign = ':' ∨ sign = '=') ∧
      skipBlank behind = quote :: rest ∧ isQuote quote = true) (assigned word s) := by
  unfold assigned
  split
  · rename_i sign behind signed
    split
    · rename_i signs
      refine (blames_operand _).mono ?_
      rintro quote rest ⟨stands, quotes⟩
      exact ⟨sign, behind, signed, signs, stands, quotes⟩
    · exact blames_refuse rfl _
  · exact blames_refuse rfl _

theorem blames_argument (earlier : List String) (s : List Char) :
    Blames (fun quote rest => ReachesValue quote rest earlier s) (argument earlier s) := by
  unfold argument
  split
  · exact blames_refuse rfl _
  · rename_i bare
    split
    · rename_i refused
      exact (blames_name _).error refused fun _ _ => id
    · rename_i word afterName named
      split
      · exact blames_refuse rfl _
      · rename_i fresh
        split
        · rename_i refused
          refine (blames_assigned _ _).error refused ?_
          rintro quote rest ⟨sign, behind, signed, signs, stands, quotes⟩
          exact .value (by simpa using bare) named fresh signed signs stands quotes
        · exact blames_ok _

theorem blames_separator (s : List Char) : Blames reaches (separator s) := by
  unfold separator
  split
  · exact blames_refuse rfl _
  · exact blames_ok _
  · exact blames_ok _
  · exact blames_refuse rfl _

theorem blames_arguments (earlier : List String) (s : List Char) :
    Blames (fun quote rest => ReachesArguments quote rest earlier s) (arguments earlier s) := by
  fun_induction arguments earlier s with
  | case1 => exact blames_refuse rfl _
  | case2 => exact blames_ok _
  | case3 =>
    rename_i refused
    exact (blames_argument _ _).error refused fun _ _ => .here
  | case4 =>
    rename_i refused
    exact (blames_separator _).error refused fun _ _ => id
  | case5 =>
    rename_i first _ separated _ refused ih
    exact ih.error refused fun _ _ => .later first separated
  | case6 => exact blames_ok _

theorem blames_expression (s : List Char) :
    Blames (fun quote rest => ∃ word afterName listed, name s = .ok (word, afterName) ∧
      skipBlank afterName = '(' :: listed ∧ ReachesArguments quote rest [] listed) (expression s) := by
  unfold expression
  split
  · rename_i refused
    exact (blames_name _).error refused fun _ _ => id
  · rename_i word afterName named
    split
    · rename_i listed call
      split
      · rename_i refused
        exact (blames_arguments _ _).error refused fun _ _ reaches => ⟨word, afterName, listed, named, call, reaches⟩
      · exact blames_ok _
    · exact blames_ok _

theorem blames_read (body : List Char) : Blames (fun quote rest => Reaches quote rest body) (read body) := by
  unfold read
  split
  · exact blames_refuse rfl _
  · split
    · rename_i refused
      refine (blames_expression _).error refused ?_
      rintro quote rest ⟨word, afterName, listed, named, call, reaches⟩
      exact .arguments named call reaches
    · split
      · exact blames_ok _
      · exact blames_refuse rfl _

end Tag

/-! ## The scan of a tag -/

namespace Span

variable {quote : Char} {s body rest : List Char}

/-- The scan of a tag stands behind each part of its body where `after` says. -/
theorem splitTag_after {state : Quoting} {before : List Char}
    (found : splitTag state s = some (before ++ body, rest)) :
    splitTag (state.after before) (body ++ closer ++ rest) = some (body, rest) := by
  induction before generalizing state s with
  | nil =>
    rw [List.nil_append] at found
    rwa [Quoting.after_nil, append_of_splitTag found]
  | cons c before ih =>
    cases s with
    | nil => simp [splitTag] at found
    | cons d s =>
      rcases splitTag_cons found with ⟨-, none, -⟩ | ⟨-, inner, split, later⟩
      · cases none
      · obtain ⟨rfl, rfl⟩ := List.cons.inj split
        exact ih later

/-- In quoted text a scan does not come to its end. -/
theorem after_part_ne_bare {literal text part : List Char} (inner : Tag.QuotedBody quote literal text)
    (within : part <+: literal) : (Quoting.within quote).after part ≠ .bare := by
  induction inner generalizing part with
  | empty =>
    rw [List.prefix_nil.1 within]
    simp
  | plain ordinary rest ih =>
    rcases List.prefix_cons_iff.1 within with rfl | ⟨part, rfl, shorter⟩
    · simp
    · rw [Quoting.after_cons, Quoting.step, if_neg ordinary.1, if_neg ordinary.2]
      exact ih shorter
  | escaped escape rest ih =>
    rcases List.prefix_cons_iff.1 within with rfl | ⟨part, rfl, behind⟩
    · simp
    · rw [Quoting.after_cons, Quoting.step, if_pos rfl]
      rcases List.prefix_cons_iff.1 behind with rfl | ⟨part, rfl, shorter⟩
      · simp
      · rw [Quoting.after_cons, Quoting.step]
        exact ih shorter

/-- Quoted text that no closing quote ends, at the first quote behind an opener that is
    not closed: before it stand neither open quotes nor the closer of the tag. -/
inductive OpenQuote (s : List Char) : Prop
  | stands {before rest : List Char} {quote : Char} (split : s = before ++ quote :: rest)
      (quotes : Tag.isQuote quote = true) (outside : Outside before)
      (unclosed : ∀ earlier later, before = earlier ++ closer ++ later → ¬Outside earlier)
      (endless : ∀ literal text after, Tag.QuotedBody quote literal text → rest ≠ literal ++ quote :: after)

theorem after_cons_quote {before : List Char} (outside : Outside before) (quotes : Tag.isQuote quote = true)
    (part : List Char) : Quoting.bare.after (before ++ quote :: part) = (Quoting.within quote).after part := by
  rw [Quoting.after_append, Quoting.outside_iff.1 outside, Quoting.after_cons, Quoting.step, if_pos quotes]

/-- Behind an open quote no closer counts. -/
theorem splitTag_of_openQuote (opened : OpenQuote s) : splitTag .bare s = none := by
  obtain ⟨split, quotes, outside, unclosed, endless⟩ := opened
  rename_i before rest quote
  cases found : splitTag .bare s with
  | none => rfl
  | some cut =>
    exfalso
    obtain ⟨body, later⟩ := cut
    have whole := append_of_splitTag found
    have ends := (first_of_splitTag found).1
    have bracket : quote ≠ ']' ∧ quote ≠ '}' :=
      ⟨Tag.ne_of_isQuote quotes (by decide), Tag.ne_of_isQuote quotes (by decide)⟩
    rw [split, List.append_assoc] at whole
    -- the closer that was found would stand before the quote, around it or behind it
    rcases List.append_eq_append_iff.1 whole with ⟨part, rfl, eq⟩ | ⟨part, rfl, eq⟩
    · match part, eq with
      | [], eq => exact bracket.1 (List.cons.inj eq).1.symm
      | [_], eq => exact bracket.2 (List.cons.inj (List.cons.inj eq).2).1.symm
      | c :: d :: part, eq =>
        simp only [closer, List.cons_append, List.nil_append, List.cons.injEq] at eq
        obtain ⟨rfl, rfl, -⟩ := eq
        exact unclosed body part (by simp [closer]) (Quoting.outside_iff.2 ends)
    · cases part with
      | nil => exact bracket.1 (List.cons.inj eq).1
      | cons c part =>
        obtain ⟨rfl, rfl⟩ := List.cons.inj eq
        rw [after_cons_quote outside quotes] at ends
        obtain ⟨literal, text, tail, rfl, inner, -⟩ := Quoting.leaves_of_after ends
        exact endless literal text (tail ++ (closer ++ later)) inner (by simp)

end Span

/-! ## The scan and the reader side by side -/

namespace Tag
open RequestTemplate.Span (Quoting)

/-- Quoted text in a body that is scanned and read: it begins at the quote behind
    `before`, and ends at the quote behind `literal`. -/
structure Alike (body : List Char) (quote : Char) (rest before literal after text : List Char) : Prop where
  stands : body = before ++ quote :: rest
  closes : rest = literal ++ quote :: after
  /-- The scan opens quoted text at this quote. -/
  opened : Quoting.bare.after before = .bare ∧ Quoting.bare.after (before ++ [quote]) = .within quote
  /-- The scan stays in it. -/
  inside : ∀ part, part <+: literal → Quoting.bare.after (before ++ quote :: part) ≠ .bare
  /-- The scan leaves it at the second quote. -/
  left : Quoting.bare.after (before ++ quote :: (literal ++ [quote])) = .bare
  /-- The reader returns its text and goes on behind the second quote. -/
  read : quotedText quote rest = some (text, after)

/-- Where a scan ends outside quoted text, the reader comes to the quoted texts of the scan. -/
theorem exists_alike {quote : Char} {rest body : List Char} (ends : Quoting.bare.after body = .bare)
    (reaches : Reaches quote rest body) : ∃ before literal after text, Alike body quote rest before literal after text := by
  obtain ⟨before, rfl, outside, quotes⟩ := reaches.opensAt
  have visible : quote ≠ '\\' := ne_of_isQuote quotes (by decide)
  rw [Span.after_cons_quote outside quotes] at ends
  obtain ⟨literal, text, after, rfl, inner, -⟩ := Quoting.leaves_of_after ends
  refine ⟨before, literal, after, text, rfl, rfl, ?_, fun part within => ?_, ?_, quotedText_append inner visible after⟩
  · exact ⟨Quoting.outside_iff.1 outside, Span.after_cons_quote outside quotes []⟩
  · rw [Span.after_cons_quote outside quotes]
    exact Span.after_part_ne_bare inner within
  · rw [Span.after_cons_quote outside quotes, Quoting.after_append, Quoting.after_quotedBody inner,
      Quoting.after_cons, Quoting.step, if_neg visible, if_pos rfl, Quoting.after_nil]

/-- A body that ends outside quoted text is refused for other reasons than that. -/
theorem isOther_of_read {body : List Char} {refusal : Refusal} (ends : Quoting.bare.after body = .bare)
    (refused : read body = .error refusal) : refusal.reason.isOther = true := by
  rcases blames_read body refusal refused with other | ⟨quote, rest, reaches, endless⟩
  · exact other
  · obtain ⟨before, literal, after, text, alike⟩ := exists_alike ends reaches
    exact absurd (alike.read.symm.trans endless) (by simp)

end Tag

/-! ## Sources -/

namespace Span

/-- Literal text and tags, and behind them a tag that never closes. -/
theorem proper_concat {spans : List Span} {s : List Char} (proper : Proper spans)
    (closed : spans.any endless = false) (even : oddBehind false (spans.flatMap source) = false)
    (last : Proper [unclosed s]) : Proper (spans ++ [unclosed s]) := by
  induction spans with
  | nil => exact last
  | cons span rest ih =>
    rw [List.any_cons, Bool.or_eq_false_iff] at closed
    rw [List.flatMap_cons, oddBehind_append] at even
    cases span with
    | unclosed t => exact absurd closed.1 (by simp [endless])
    | tag body =>
      rw [oddBehind_of_sealed (sealed_source_tag body)] at even
      exact ⟨proper.1, ih proper.2 closed.2 even⟩
    | text t =>
      obtain ⟨filled, quiet, follows, proper⟩ := proper
      cases rest with
      | nil => exact ⟨filled, quiet, even, last⟩
      | cons next rest =>
        rw [source, follows.even] at even
        refine ⟨filled, quiet, ?_, ih proper closed.2 even⟩
        cases next <;> exact follows

end Span

namespace Template
open RequestTemplate.Span (Quoting)

/-- A tag without its closer is the fault of its source, if what stands before it is read. -/
theorem parse_of_endless {text : String} {start : Nat} (begins : BadTag text start)
    (endless : Span.splitTag .bare (text.toList.drop (start + 3)) = none) :
    parse text = .error ⟨.unterminatedTag, some (start : Int)⟩ := by
  obtain ⟨opening, even, template, read⟩ := begins
  have whole := Span.source_spans (text.toList.take start)
  have proper := Span.proper_spans (text.toList.take start)
  have closed := inside_of_parse read
  rw [String.toList_ofList, Span.inside] at closed
  rw [parse, String.toList_ofList] at read
  have last : Span.Proper [.unclosed (text.toList.drop start)] := by
    refine ⟨opening, ?_, rfl⟩
    rwa [List.drop_drop]
  have all := Span.proper_concat proper closed (by rwa [whole, ← even_backslashes_iff]) last
  have cut := Span.spans_of_proper all
  rw [List.flatMap_append, whole, List.flatMap_singleton, Span.source, List.take_append_drop] at cut
  have length : (text.toList.take start).length = start := by
    refine List.length_take_of_le (Nat.le_of_lt ?_)
    by_contra long
    rw [List.drop_eq_nil_of_le (Nat.le_of_not_lt long)] at opening
    cases opening
  rw [parse, cut, ofSpans_append read, whole, length, Nat.zero_add]
  rfl

/-- How the tags of a source are scanned and read at quoted text. -/
structure QuotesAlike (text : String) : Prop where
  /-- Where a tag that begins anywhere has an end, the scan passes each part of its body,
      and opens and leaves the quoted texts that the reader comes to. -/
  alike {start : Nat} {body behind : List Char}
    (found : Span.splitTag .bare (text.toList.drop (start + 3)) = some (body, behind)) :
    (∀ before after, body = before ++ after →
      Span.splitTag (Quoting.bare.after before) (after ++ Span.closer ++ behind) = some (after, behind)) ∧
    ∀ quote rest, Tag.Reaches quote rest body →
      ∃ before literal after content, Tag.Alike body quote rest before literal after content
  /-- No source is refused for quoted text without its end. -/
  ended {e : ParseError} (refused : parse text = .error e) : e.reason.message ≠ "Unterminated string literal"
  /-- An open quote is reported as a tag without its end, where the tag begins. -/
  reported {start : Nat} (begins : BadTag text start) (opened : Span.OpenQuote (text.toList.drop (start + 3))) :
    parse text = .error ⟨.unterminatedTag, some (start : Int)⟩

/-- The scan of a tag and the reader of its body tell the same quoted texts apart. -/
theorem quotesAlike (text : String) : QuotesAlike text where
  alike found := by
    refine ⟨fun before after split => Span.splitTag_after (split ▸ found), fun quote rest reaches => ?_⟩
    exact Tag.exists_alike (Span.first_of_splitTag found).1 reaches
  ended failed := by
    obtain ⟨before, span, after, cut, refuses⟩ := exists_cut_of_parse failed
    cases span with
    | text s => exact refuses.elim
    | unclosed s =>
      obtain rfl := refuses
      exact Malformed.message_ne rfl
    | tag body =>
      have closed := (Span.proper_behind cut.proper).1
      obtain ⟨refusal, position, refused, rfl, -⟩ := Tag.exists_of_readAt_error refuses
      exact Malformed.message_ne (Tag.isOther_of_read (Span.first_of_splitTag closed).1 refused)
  reported begins opened := parse_of_endless begins (Span.splitTag_of_openQuote opened)

/-- The second argument is quoted text with a closer and an escaped quote in it. Where its
    last quote is escaped too, the tag is open. -/
theorem quotesAlike_escaped :
    let closed := "a $\x7b[ f(a = 'x', b: \"]\x7d\\\"\") ]\x7d"
    let body := " f(a = 'x', b: \"]\x7d\\\"\") ".toList
    let rest := "]\x7d\\\"\") ".toList
    let opened := "a $\x7b[ f(a = 'x', b: \"]\x7d\\\") ]\x7d"
    (Span.splitTag .bare (closed.toList.drop 5) = some (body, []) ∧ Tag.Reaches '"' rest body ∧
      ∃ before literal after content, Tag.Alike body '"' rest before literal after content) ∧
    (BadTag opened 2 ∧ Span.OpenQuote (opened.toList.drop 5) ∧
      parse opened = .error ⟨.unterminatedTag, some 2⟩) := by
  intro closed body rest opened
  have found : Span.splitTag .bare (closed.toList.drop 5) = some (body, []) := by cbv
  have reaches : Tag.Reaches '"' rest body :=
    .arguments rfl rfl (.later rfl rfl (.here (.value rfl rfl (by decide) rfl (.inl rfl) rfl rfl)))
  have begins : BadTag opened 2 := ⟨by decide, by decide, [.raw "a "], by cbv⟩
  have quoted : Span.OpenQuote (opened.toList.drop 5) := by
    have endless : Tag.quotedText '"' "]\x7d\\\") ]\x7d".toList = none := by cbv
    have cut : opened.toList.drop 5 = " f(a = 'x', b: ".toList ++ '"' :: "]\x7d\\\") ]\x7d".toList := by cbv
    refine .stands cut rfl (Quoting.outside_iff.2 (by cbv)) ?_ ?_
    · intro earlier later split
      have bracket : ']' ∈ " f(a = 'x', b: ".toList := by simp [split, Span.closer]
      exact absurd bracket (by decide)
    · rintro literal text after inner split
      rw [split, Tag.quotedText_append inner (by decide)] at endless
      cases endless
  exact ⟨⟨found, reaches, ((quotesAlike closed).alike found).2 _ _ reaches⟩, begins, quoted,
    (quotesAlike opened).reported begins quoted⟩

end Template

end RequestTemplate
