import RequestTemplate.Markup.Layout
import RequestTemplate.Proofs.Seam

/-!
# Tokens in their source

The tokens that are laid out are those of the source without the blanks around
text. `placed` lists them with the blanks before each, and together they are the
source (`text_placed`). Every token is sealed off from the one before it, begins
as markup does, or is a template (`linked_placed`).
-/

namespace RequestTemplate.Markup
open Delimiter
open Text (isBlank skipBlank)

/-- The blanks that a token loses at its beginning. -/
def Token.leading (token : Token) : List Char :=
  match token.kind with
  | .text => token.raw.toList.takeWhile isBlank
  | _ => []

/-- The blanks that a token loses at its end. -/
def Token.trailing (token : Token) : List Char :=
  match token.kind with
  | .text => ((skipBlank token.raw.toList).reverse.takeWhile isBlank).reverse
  | _ => []

/-- The tokens that are laid out with the blanks before each in the source;
    `before` stands before them all. -/
def placed (before : List Char) : List Token → List (List Char × Token)
  | [] => []
  | token :: rest =>
    if token.trim.raw = "" then placed (before ++ token.raw.toList) rest
    else (before ++ token.leading, token.trim) :: placed token.trailing rest

/-! ## Together they are the source -/

theorem blank_takeWhile (s : List Char) : Blank (s.takeWhile isBlank) :=
  fun _ member => List.mem_takeWhile_imp member

theorem Token.blank_leading (token : Token) : Blank token.leading := by
  unfold Token.leading
  split
  · exact blank_takeWhile _
  · simp [Blank]

theorem Token.blank_trailing (token : Token) : Blank token.trailing := by
  unfold Token.trailing
  split
  · intro c member
    exact blank_takeWhile _ c (by simpa using member)
  · simp [Blank]

theorem Token.parts (token : Token) :
    token.leading ++ token.trim.raw.toList ++ token.trailing = token.raw.toList := by
  unfold Token.leading Token.trailing Token.trim
  cases token.kind
  case text =>
    simp only [String.toList_ofList, Text.trim, Text.strip, skipBlank, List.append_assoc,
      ← List.reverse_append, List.takeWhile_append_dropWhile, List.reverse_reverse]
  all_goals simp

theorem Token.blank_of_trim {token : Token} (dropped : token.trim.raw = "") :
    Blank token.raw.toList := by
  rw [← token.parts, dropped]
  intro c member
  simp only [String.toList_empty, List.append_nil, List.mem_append] at member
  exact member.elim (token.blank_leading c) (token.blank_trailing c)

theorem placed_snd (before : List Char) (ts : List Token) :
    (placed before ts).map Prod.snd = significant ts := by
  induction ts generalizing before with
  | nil => rfl
  | cons token rest ih =>
    rw [placed]
    split
    · rename_i dropped
      rw [ih]
      simp [significant, dropped]
    · rename_i kept
      rw [List.map_cons, ih]
      simp [significant, kept]

theorem text_placed {before : List Char} (blank : Blank before) (ts : List Token) :
    ∃ tail, Blank tail ∧
      (placed before ts).flatMap (fun place => place.1 ++ place.2.raw.toList) ++ tail =
        before ++ ts.flatMap fun token => token.raw.toList := by
  induction ts generalizing before with
  | nil => exact ⟨before, blank, by simp [placed]⟩
  | cons token rest ih =>
    rw [placed]
    split
    · rename_i dropped
      have longer : Blank (before ++ token.raw.toList) := fun c member =>
        (List.mem_append.1 member).elim (blank c) (Token.blank_of_trim dropped c)
      obtain ⟨tail, blankTail, eq⟩ := ih longer
      exact ⟨tail, blankTail, by simp [eq]⟩
    · obtain ⟨tail, blankTail, eq⟩ := ih token.blank_trailing
      refine ⟨tail, blankTail, ?_⟩
      rw [List.flatMap_cons, List.append_assoc, eq, List.flatMap_cons, ← token.parts]
      simp

/-! ## Where tokens begin and end -/

/-- What ends the token is sealed. -/
def Ending.seals : Ending → Bool
  | marker m => sealed m
  | bracket => true
  | nextToken => false

theorem sealed_append {s t : List Char} (ends : sealed t = true) : sealed (s ++ t) = true := by
  obtain ⟨front, c, rfl, last⟩ := exists_of_sealed ends
  rcases last with rfl | rfl <;> simp [sealed, ← List.append_assoc]

theorem throughMarker_ends {m s : List Char} (found : (throughMarker m s).2 ≠ []) :
    m <:+ (throughMarker m s).1 := by
  induction s with
  | nil => exact absurd rfl found
  | cons c s ih =>
    rw [throughMarker] at found ⊢
    split at found
    · rename_i here
      simp [here]
    · rename_i onward
      rw [if_neg onward]
      exact (ih found).trans (List.suffix_cons _ _)

theorem throughBracket_ends {quote : Option Char} {s : List Char}
    (found : (throughBracket quote s).2 ≠ []) : sealed (throughBracket quote s).1 = true := by
  induction s generalizing quote with
  | nil => exact absurd rfl found
  | cons c s ih =>
    cases quote with
    | some q =>
      simp only [throughBracket] at found ⊢
      exact sealed_append (s := [c]) (ih found)
    | none =>
      simp only [throughBracket] at found ⊢
      split at found
      · rename_i bracket
        rw [if_pos bracket, bracket]
        rfl
      · rename_i other
        rw [if_neg other]
        exact sealed_append (s := [c]) (ih found)

theorem Ending.sealed_split {ending : Ending} (seals : ending.seals = true) {s : List Char}
    (found : (ending.split s).2 ≠ []) : sealed (ending.split s).1 = true := by
  cases ending with
  | marker m =>
    obtain ⟨front, eq⟩ := throughMarker_ends found
    rw [Ending.split, ← eq]
    exact sealed_append seals
  | bracket => exact throughBracket_ends found
  | nextToken => exact absurd seals (by decide)

theorem toNextToken_stops (s : List Char) :
    (toNextToken s).2 = [] ∨ (toNextToken s).2.head? = some '<' ∨ opens (toNextToken s).2 = true := by
  induction s with
  | nil => exact .inl rfl
  | cons c s ih =>
    rw [toNextToken]
    split
    · rename_i stops
      exact .inr (stops.imp (by simp +contextual) id)
    · exact ih

/-- Literal text, a template, or markup. -/
theorem rule_cases (s : List Char) :
    rule s = ⟨.text, 1, .nextToken⟩ ∧ s.head? ≠ some '<' ∧ opens s = false ∨
      rule s = ⟨.template, 3, .marker [']', '}']⟩ ∧ opens s = true ∨
      (rule s).kind ≠ .text ∧ (rule s).kind ≠ .template ∧ s.head? = some '<' ∧
        (rule s).ending.seals = true := by
  unfold rule
  split
  case h_1 => exact .inr (.inl ⟨rfl, rfl⟩)
  case h_8 template _ _ _ _ _ markup =>
    refine .inl ⟨rfl, fun head => ?_, ?_⟩
    · obtain ⟨tail, eq⟩ := List.head?_eq_some_iff.1 head
      exact markup tail eq
    · rw [← Bool.not_eq_true, opens_iff]
      rintro ⟨tail, eq⟩
      exact template tail eq
  all_goals exact .inr (.inr ⟨by decide, by decide, rfl, rfl⟩)

theorem head_splitFirst {s : List Char} (more : s ≠ []) : (splitFirst s).1.head? = s.head? := by
  have filled := splitFirst_ne_nil more
  conv_rhs => rw [← splitFirst_append s]
  rw [List.head?_append_of_ne_nil _ filled]

theorem opens_splitFirst {s : List Char} (opening : opens s = true) : opens (splitFirst s).1 = true := by
  obtain ⟨rest, rfl⟩ := opens_iff.1 opening
  exact opens_iff.2 ⟨_, rfl⟩

theorem sealed_splitFirst {s : List Char} (seals : (rule s).ending.seals = true)
    (found : (splitFirst s).2 ≠ []) : sealed (splitFirst s).1 = true :=
  sealed_append (Ending.sealed_split seals found)

theorem kindOf_eq_iff (kind : Kind) (raw : List Char) :
    (kindOf kind raw = .text ↔ kind = .text) ∧ (kindOf kind raw = .template ↔ kind = .template) := by
  unfold kindOf
  split <;> simp_all

theorem visible_trim {s : List Char} (kept : Text.trim s ≠ []) :
    ∃ c rest, Text.trim s = c :: rest ∧ isBlank c = false := by
  obtain ⟨c, rest, eq⟩ := List.exists_cons_of_ne_nil kept
  refine ⟨c, rest, eq, ?_⟩
  have whole : Text.trim s <+: skipBlank s := by
    refine ⟨((skipBlank s).reverse.takeWhile isBlank).reverse, ?_⟩
    simp only [Text.trim, Text.strip, skipBlank, ← List.reverse_append,
      List.takeWhile_append_dropWhile, List.reverse_reverse]
  obtain ⟨tail, joined⟩ := whole
  rw [eq] at joined
  have head := List.head?_dropWhile_not isBlank s
  rw [← skipBlank, ← joined] at head
  simpa using head

/-! ## Tokens are told apart -/

/-- A token that is told apart from what stands before it, unless it is a
    template that shares its line with that. -/
structure Meets (behind : Bool) (place : List Char × Token) : Prop where
  blank : Blank place.1
  visible : ∃ c rest, place.2.raw.toList = c :: rest ∧ isBlank c = false
  joins : behind = true ∨ place.2.raw.toList.head? = some '<' ∨
    (place.2.kind = .template ∧ opens place.2.raw.toList = true)

def Linked (behind : Bool) : List (List Char × Token) → Prop
  | [] => True
  | place :: rest => Meets behind place ∧ Linked (sealed place.2.raw.toList) rest

theorem placed_of_markup {token : Token} (markup : token.kind ≠ .text) (filled : token.raw ≠ "")
    (before : List Char) (rest : List Token) :
    placed before (token :: rest) = (before, token) :: placed [] rest := by
  have whole : token.trim = token := by
    unfold Token.trim
    split
    · rename_i text
      exact absurd text markup
    · rfl
  have bare : token.leading = [] ∧ token.trailing = [] := by
    unfold Token.leading Token.trailing
    split <;> simp_all
  rw [placed, whole, if_neg filled, bare.1, bare.2, List.append_nil]

theorem placed_of_text {raw : List Char} {kind : Kind} (text : kind = .text) (before : List Char)
    (rest : List Token) :
    placed before (⟨kind, String.ofList raw⟩ :: rest) =
      if Text.trim raw = [] then placed (before ++ raw) rest
      else
        (before ++ raw.takeWhile isBlank, ⟨kind, String.ofList (Text.trim raw)⟩) ::
          placed (Token.trailing ⟨kind, String.ofList raw⟩) rest := by
  subst text
  simp [placed, Token.trim, Token.leading, String.ofList_eq_empty_iff]

theorem linked_placed {s before : List Char} {behind : Bool} (blank : Blank before)
    (starts : behind = true ∨ s = [] ∨ s.head? = some '<' ∨ opens s = true) :
    Linked behind (placed before (tokensOf s)) := by
  fun_induction tokensOf s generalizing before behind with
  | case1 => trivial
  | case2 s filled raw rest split ih =>
    have first : (splitFirst s).1 = raw := by rw [split]
    have later : (splitFirst s).2 = rest := by rw [split]
    have head : raw.head? = s.head? := by rw [← first, head_splitFirst filled]
    have filledRaw : String.ofList raw ≠ "" := by
      rw [← first]
      simpa using splitFirst_ne_nil filled
    have kinds := kindOf_eq_iff (rule s).kind raw
    have closes (seals : (rule s).ending.seals = true) :
        sealed (String.ofList raw).toList = true ∨ rest = [] ∨ rest.head? = some '<' ∨ opens rest = true := by
      by_cases last : rest = []
      · exact .inr (.inl last)
      · rw [String.toList_ofList, ← first]
        exact .inl (sealed_splitFirst seals (by rwa [later]))
    -- Text is told apart by what follows it, markup and templates by their own ends.
    rcases rule_cases s with ⟨text, plain, literal⟩ | ⟨template, opening⟩ | ⟨text, template, markup, seals⟩
    · have behind : behind = true := by simpa [filled, plain, literal] using starts
      have stops : rest = [] ∨ rest.head? = some '<' ∨ opens rest = true := by
        rw [← later, splitFirst, text]
        exact toNextToken_stops _
      have text : kindOf (rule s).kind raw = .text := kinds.1.2 (by rw [text])
      rw [placed_of_text text]
      split
      · rename_i dropped
        have blankRaw : Blank raw := by
          have trimmed : (Token.trim ⟨.text, String.ofList raw⟩).raw = "" := by simp [Token.trim, dropped]
          simpa using Token.blank_of_trim trimmed
        exact ih (fun c member => (List.mem_append.1 member).elim (blank c) (blankRaw c)) (.inl behind)
      · rename_i kept
        refine ⟨⟨?_, by simpa using visible_trim kept, .inl behind⟩, ih (Token.blank_trailing _) (.inr stops)⟩
        exact fun c member => (List.mem_append.1 member).elim (blank c) (blank_takeWhile raw c)
    · have markup : kindOf (rule s).kind raw ≠ .text := by rw [Ne, kinds.1, template]; decide
      have opening : opens raw = true := by rw [← first]; exact opens_splitFirst opening
      obtain ⟨tail, eq⟩ := opens_iff.1 opening
      rw [placed_of_markup markup filledRaw]
      refine ⟨⟨blank, ⟨'$', '{' :: '[' :: tail, by simpa using eq, by decide⟩, .inr (.inr ⟨?_, ?_⟩)⟩,
        ih (by simp [Blank]) (closes (by rw [template]; rfl))⟩
      · exact kinds.2.2 (by rw [template])
      · simpa using opening
    · obtain ⟨tail, eq⟩ := List.head?_eq_some_iff.1 (head.trans markup)
      rw [placed_of_markup (by rwa [Ne, kinds.1]) filledRaw]
      exact ⟨⟨blank, ⟨'<', tail, by simpa using eq, by decide⟩, .inr (.inl (by simp [eq]))⟩,
        ih (by simp [Blank]) (closes seals)⟩

end RequestTemplate.Markup
