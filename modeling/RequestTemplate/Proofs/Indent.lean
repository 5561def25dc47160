import RequestTemplate.Proofs.Nesting
import RequestTemplate.Proofs.Stable

/-!
# Indentation is nesting

A line is as deep as the tags before it leave elements open; a closing tag that closes
nothing leaves the depth at zero (`isGreatest_depth`). Where tags are balanced, that is
the number of elements around what stands on the line, and the tags of an element stand
on one line or at one depth, with deeper lines between them (`indented`).
-/

namespace RequestTemplate.Markup
open Text (isBlank)

/-! ## Depths -/

theorem depthBehind_eq (depth : ℕ) (token : Token) :
    (depthBehind depth token : ℤ) = max 0 (depth + token.sign) := by
  unfold depthBehind Token.sign
  cases token.kind <;> simp <;> omega

/-- Where no beginning of the tokens closes more than is open, the depth follows the
    balance. -/
theorem foldl_depthBehind {depth : ℕ} {ts : List Token} (floor : ∀ front, front <+: ts → 0 ≤ depth + balance front) :
    ((ts.foldl depthBehind depth : ℕ) : ℤ) = depth + balance ts := by
  induction ts generalizing depth with
  | nil => simp
  | cons token ts ih =>
    have here := floor [token] (by simp)
    rw [balance_cons, balance_nil, add_zero] at here
    have behind : (depthBehind depth token : ℤ) = depth + token.sign := by
      rw [depthBehind_eq, max_eq_right here]
    rw [List.foldl_cons, ih, behind, balance_cons, add_assoc]
    intro front starts
    have later := floor (token :: front) ((List.prefix_cons_inj token).2 starts)
    rw [balance_cons] at later
    rw [behind]
    omega

theorem Balanced.foldl_depthBehind {ts : List Token} (balanced : Balanced ts) {front : List Token} (starts : front <+: ts)
    (depth : ℕ) : ((front.foldl depthBehind depth : ℕ) : ℤ) = depth + balance front := by
  refine Markup.foldl_depthBehind fun part within => ?_
  have := (balanced_iff.1 balanced).1 part (within.trans starts)
  omega

/-- The tags that open and close elements. -/
def brackets (ts : List Token) : List Token :=
  ts.filter fun token => token.kind == .opening || token.kind == .closing

theorem foldl_brackets (depth : ℕ) (ts : List Token) :
    (brackets ts).foldl depthBehind depth = ts.foldl depthBehind depth := by
  rw [brackets, List.foldl_filter]
  congr 1
  funext depth token
  unfold depthBehind
  cases token.kind <;> rfl

/-- The depth behind tokens is the most that an end of them opens and does not close. -/
theorem isGreatest_foldl (ts : List Token) :
    IsGreatest {n : ℤ | ∃ run, run <:+ ts ∧ balance run = n} (ts.foldl depthBehind 0 : ℕ) := by
  induction ts using List.reverseRecOn with
  | nil => exact ⟨⟨[], by simp⟩, by rintro n ⟨run, ends, rfl⟩; simp [List.suffix_nil.1 ends]⟩
  | append_singleton ts token ih =>
    obtain ⟨⟨run, ends, left⟩, most⟩ := ih
    rw [List.foldl_concat, depthBehind_eq]
    constructor
    · rcases le_total 0 (((ts.foldl depthBehind 0 : ℕ) : ℤ) + token.sign) with floor | below
      · rw [max_eq_right floor]
        exact ⟨run ++ [token], List.suffix_concat_iff.2 (.inr ⟨run, rfl, ends⟩), by simp [left]⟩
      · rw [max_eq_left below]
        exact ⟨[], by simp, rfl⟩
    · rintro n ⟨part, ends, rfl⟩
      rcases List.suffix_concat_iff.1 ends with rfl | ⟨part, rfl, within⟩
      · simp
      · have := most ⟨part, within, rfl⟩
        simp only [balance_append, balance_cons, balance_nil]
        omega

/-! ## Lines -/

/-- What stands on the lines before a line decides how deep it is. -/
theorem depth_of_arrange {depth : ℕ} {groups : List (List Token)} {above below : List Line} {line : Line}
    (split : arrange depth groups = above ++ line :: below) :
    line.depth = min ((above.flatMap Line.tokens).foldl depthBehind depth)
      ((above.flatMap Line.tokens ++ line.tokens).foldl depthBehind depth) := by
  induction groups generalizing depth above with
  | nil => simp [arrange] at split
  | cons group groups ih =>
    rw [arrange] at split
    cases above with
    | nil =>
      obtain ⟨rfl, rfl⟩ := List.cons.inj split
      simp
    | cons first above =>
      obtain ⟨rfl, later⟩ := List.cons.inj split
      simpa using ih later

theorem arrange_append (depth : ℕ) (groups others : List (List Token)) :
    arrange depth (groups ++ others) = arrange depth groups ++ arrange (groups.flatten.foldl depthBehind depth) others := by
  induction groups generalizing depth with
  | nil => rfl
  | cons group groups ih => simp [arrange, ih]

theorem tokens_arrange_flatten (depth : ℕ) (groups : List (List Token)) :
    (arrange depth groups).flatMap Line.tokens = groups.flatten := by
  rw [List.flatMap_def, tokens_arrange]

/-- No element stands on one line that begins in the first tokens and ends in the others. -/
def Uncrossed (ts us : List Token) : Prop :=
  ∀ front token rest, ts = front ++ token :: rest → rest.length < 2 → fitsLine (token :: (rest ++ us)) = false

theorem fitsLine_append {token : Token} {rest us : List Token} (long : 2 ≤ rest.length) :
    fitsLine (token :: (rest ++ us)) = fitsLine (token :: rest) := by
  match rest, long with
  | content :: closing :: rest, _ => rfl

theorem grouped_of_fits {token content closing : Token} {rest : List Token}
    (fits : fitsLine (token :: content :: closing :: rest) = true) :
    grouped (token :: content :: closing :: rest) = [token, content, closing] :: grouped rest := by
  rw [grouped, if_pos fits]
  rfl

theorem grouped_cons_of_not {token : Token} {rest : List Token} (goes : fitsLine (token :: rest) = false) :
    grouped (token :: rest) = [token] :: grouped rest := by
  rw [grouped, if_neg (by simp [goes])]

theorem grouped_append {ts us : List Token} (uncrossed : Uncrossed ts us) : grouped (ts ++ us) = grouped ts ++ grouped us := by
  fun_induction grouped ts with
  | case1 => rfl
  | case2 token rest fits ih =>
    obtain ⟨content, closing, others, rfl⟩ := exists_of_fitsLine fits
    have later : Uncrossed others us := fun front next more split short =>
      uncrossed (token :: content :: closing :: front) next more (by simp [split]) short
    have again : fitsLine (token :: content :: closing :: (others ++ us)) = true := fits
    have onward : grouped (others ++ us) = grouped others ++ grouped us := ih later
    rw [List.cons_append, List.cons_append, List.cons_append, grouped_of_fits again, onward]
    rfl
  | case3 token rest goes ih =>
    have later : Uncrossed rest us := fun front next more split short =>
      uncrossed (token :: front) next more (by simp [split]) short
    have again : fitsLine (token :: (rest ++ us)) = false := by
      rcases Nat.lt_or_ge rest.length 2 with short | long
      · exact uncrossed [] token rest rfl short
      · rw [fitsLine_append long]
        simpa using goes
    rw [List.cons_append, grouped_cons_of_not again, ih later]
    rfl

/-- An opening tag ends no element. -/
theorem uncrossed_opening {opening : Token} (opens : opening.kind = .opening) (ts us : List Token) :
    Uncrossed ts (opening :: us) := by
  intro front token rest _ short
  match rest, short with
  | [], _ => cases us <;> simp [fitsLine, opens]
  | [content], _ => simp [fitsLine, opens]

/-- A closing tag ends no element that begins in balanced tokens before it. -/
theorem uncrossed_closing {inner : List Token} (balanced : Balanced inner) {closing : Token} (closes : closing.kind = .closing)
    (us : List Token) : Uncrossed inner (closing :: us) := by
  intro front token rest split short
  match rest, short with
  | [], _ => cases us <;> simp [fitsLine, closes]
  | [content], _ =>
    by_contra fits
    rw [Bool.not_eq_false] at fits
    obtain ⟨opens, text, -⟩ := kinds_of_fitsLine fits
    obtain ⟨floor, total⟩ := balanced_iff.1 balanced
    -- what stands before the tag would close more than it opens
    have before := floor front (by simp [split])
    have sign : token.sign = 1 := Token.sign_eq_one_iff.2 opens
    have none : content.sign = 0 := by simp [Token.sign, text]
    rw [split] at total
    simp only [balance_append, balance_cons, balance_nil, sign, none] at total
    omega

/-! ## What is laid out of the tokens -/

theorem significant_append (ts us : List Token) : significant (ts ++ us) = significant ts ++ significant us := by
  simp [significant]

theorem exists_of_significant_append {ts front back : List Token} (split : significant ts = front ++ back) :
    ∃ first last, ts = first ++ last ∧ significant first = front ∧ significant last = back := by
  obtain ⟨first, last, eq, rfl, rfl⟩ := List.filter_eq_append_iff.1 split
  obtain ⟨first, last, rfl, rfl, rfl⟩ := List.map_eq_append_iff.1 eq
  exact ⟨first, last, rfl, rfl, rfl⟩

theorem exists_of_significant_cons {ts rest : List Token} {token : Token} (split : significant ts = token :: rest) :
    ∃ dropped kept behind, ts = dropped ++ kept :: behind ∧ significant dropped = [] ∧ kept.trim = token ∧
      token.raw ≠ "" := by
  induction ts with
  | nil => simp [significant] at split
  | cons first ts ih =>
    rw [significant_cons] at split
    split at split
    · rename_i blank
      obtain ⟨dropped, kept, behind, rfl, none, trims, filled⟩ := ih split
      exact ⟨first :: dropped, kept, behind, rfl, by rw [significant_cons, if_pos blank, none], trims, filled⟩
    · rename_i filled
      obtain ⟨rfl, -⟩ := List.cons.inj split
      exact ⟨[], first, ts, rfl, rfl, rfl, filled⟩

theorem sign_trim (token : Token) : token.trim.sign = token.sign := by
  unfold Token.trim
  split <;> rfl

/-- Tokens that something stands in, so that nothing but blank text is dropped. -/
def Filled (ts : List Token) : Prop := ∀ token ∈ ts, token.raw ≠ ""

theorem balance_significant {ts : List Token} (filled : Filled ts) : balance (significant ts) = balance ts := by
  induction ts with
  | nil => rfl
  | cons token ts ih =>
    obtain ⟨here, later⟩ := List.forall_mem_cons.1 filled
    by_cases text : token.kind = .text
    · have none : token.sign = 0 := by simp [Token.sign, text]
      rw [significant_cons]
      split
      · rw [ih later, balance_cons, none, zero_add]
      · rw [balance_cons, sign_trim, ih later, balance_cons]
    · rw [significant_of_markup text here, balance_cons, ih later, balance_cons]

theorem balanced_significant {ts : List Token} (filled : Filled ts) (balanced : Balanced ts) :
    Balanced (significant ts) := by
  obtain ⟨floor, total⟩ := balanced_iff.1 balanced
  refine balanced_iff.2 ⟨fun front starts => ?_, by rw [balance_significant filled, total]⟩
  obtain ⟨back, split⟩ := starts
  obtain ⟨first, last, rfl, rfl, -⟩ := exists_of_significant_append split.symm
  rw [balance_significant fun token member => filled token (List.mem_append_left _ member)]
  exact floor first (List.prefix_append first last)

theorem filled_tokens (source : String) : Filled (tokens source) := fun _ => filled_of_mem_tokensOf

/-- A line begins with what can be seen, so its units are all the blanks before it. -/
theorem visible_of_linked {behind : Bool} {places : List (List Char × Token)} (linked : Linked behind places)
    {token : Token} (member : token ∈ places.map Prod.snd) : ∃ c rest, token.raw.toList = c :: rest ∧ isBlank c = false := by
  induction places generalizing behind with
  | nil => simp at member
  | cons place places ih =>
    obtain ⟨here, later⟩ := linked
    rw [List.map_cons, List.mem_cons] at member
    rcases member with rfl | member
    · exact here.visible
    · exact ih later member

theorem visible_of_mem_significant {source : String} {token : Token} (member : token ∈ significant (tokens source)) :
    ∃ c rest, token.raw.toList = c :: rest ∧ isBlank c = false := by
  have linked : Linked true (placed [] (tokens source)) := linked_placed (by simp [Blank]) (.inl rfl)
  refine visible_of_linked linked ?_
  rwa [placed_snd]

/-! ## Elements on lines -/

/-- The tokens of an element stand on one line with its text between its tags, or its
    tags have lines of one depth and all lines between them are deeper. -/
inductive Spread (lines : List Line) (front : List Token) (opening : Token) (inner : List Token) (closing : Token) : Prop
  | single {above below : List Line} {line : Line} {content : Token} (split : lines = above ++ line :: below)
      (before : above.flatMap Line.tokens = front) (holds : line.tokens = [opening, content, closing])
      (inside : inner = [content])
  | several {above between below : List Line} {first last : Line}
      (split : lines = above ++ first :: (between ++ last :: below)) (before : above.flatMap Line.tokens = front)
      (opens : first.tokens = [opening]) (inside : between.flatMap Line.tokens = inner)
      (closes : last.tokens = [closing]) (level : last.depth = first.depth)
      (deeper : ∀ line ∈ between, first.depth + 1 ≤ line.depth)

/-- Where an element stands on one line, its text is all that it holds. -/
theorem inner_of_fitsLine {opening closing : Token} {inner back : List Token} (element : IsElement opening inner closing)
    (fits : fitsLine (opening :: (inner ++ closing :: back)) = true) : ∃ content, inner = [content] := by
  obtain ⟨-, closes, balanced⟩ := element
  match inner, balanced, fits with
  | [], _, fits =>
    cases back <;> simp [fitsLine, closes] at fits
  | [content], _, _ => exact ⟨content, rfl⟩
  | content :: other :: inner, balanced, fits =>
    obtain ⟨-, text, ends⟩ := kinds_of_fitsLine fits
    have floor := (balanced_iff.1 balanced).1 [content, other] ⟨inner, rfl⟩
    have none : content.sign = 0 := by simp [Token.sign, text]
    have sign : other.sign = -1 := Token.sign_eq_neg_one_iff.2 ends
    simp only [balance_cons, balance_nil, none, sign] at floor
    omega

/-- Lines of balanced tokens are no less deep than what they stand in. -/
theorem le_depth_of_balanced {inner : List Token} (balanced : Balanced inner) {depth : ℕ} {line : Line}
    (member : line ∈ arrange depth (grouped inner)) : depth ≤ line.depth := by
  obtain ⟨above, below, split⟩ := List.append_of_mem member
  have whole := tokens_arrange_flatten depth (grouped inner)
  rw [flatten_grouped, split, List.flatMap_append, List.flatMap_cons, ← List.append_assoc] at whole
  have floor {front : List Token} (starts : front <+: inner) : depth ≤ front.foldl depthBehind depth := by
    have follows := balanced.foldl_depthBehind starts depth
    have := (balanced_iff.1 balanced).1 front starts
    omega
  rw [depth_of_arrange split]
  exact le_min (floor (whole ▸ (List.prefix_append _ _).trans (List.prefix_append _ _))) (floor (whole ▸ List.prefix_append _ _))

theorem spread_arrange {front inner back : List Token} {opening closing : Token}
    (element : IsElement opening inner closing) :
    Spread (arrange 0 (grouped (front ++ opening :: (inner ++ closing :: back)))) front opening inner closing := by
  have before := tokens_arrange_flatten 0 (grouped front)
  rw [flatten_grouped] at before
  rw [grouped_append (uncrossed_opening element.opens _ _), arrange_append, flatten_grouped]
  generalize front.foldl depthBehind 0 = depth
  by_cases fits : fitsLine (opening :: (inner ++ closing :: back)) = true
  · obtain ⟨content, rfl⟩ := inner_of_fitsLine element fits
    rw [List.singleton_append] at fits ⊢
    rw [grouped_of_fits fits]
    exact .single rfl before rfl rfl
  · obtain ⟨opens, closes, balanced⟩ := element
    have goes : fitsLine (closing :: back) = false := by
      match back with
      | [] | [_] | _ :: _ :: _ => simp [fitsLine, closes]
    rw [grouped_cons_of_not (by simpa using fits), grouped_append (uncrossed_closing balanced closes _),
      grouped_cons_of_not goes, arrange, arrange_append, flatten_grouped]
    have inside := tokens_arrange_flatten (depth + 1) (grouped inner)
    rw [flatten_grouped] at inside
    have behind : depthBehind depth opening = depth + 1 := by simp [depthBehind, opens]
    have level : inner.foldl depthBehind (depth + 1) = depth + 1 := by
      have follows := balanced.foldl_depthBehind (List.prefix_refl inner) (depth + 1)
      have total := (balanced_iff.1 balanced).2
      omega
    have ends : depthBehind (depth + 1) closing = depth := by simp [depthBehind, closes]
    simp only [List.foldl_cons, List.foldl_nil, behind, level, arrange, ends]
    refine .several rfl before rfl inside rfl (by simp) fun line member => ?_
    have := le_depth_of_balanced balanced member
    simpa using this

/-! ## Layouts -/

/-- The closing tag that a line begins with; the element that it ends is not around it. -/
def Line.closing (line : Line) : List Token :=
  line.tokens.takeWhile fun token => token.kind == .closing

/-- A line is as deep as what stands before it and the closing tag that it begins with
    leave open. -/
theorem depth_eq_foldl {source : String} {above below : List Line} {line : Line}
    (split : layout source = above ++ line :: below) :
    line.depth = (above.flatMap Line.tokens ++ line.closing).foldl depthBehind 0 := by
  have member : line ∈ layout source := by simp [split]
  have one := oneLine_of_mem_layout member
  rw [depth_of_arrange split, List.foldl_append, List.foldl_append, Line.closing]
  generalize (above.flatMap Line.tokens).foldl depthBehind 0 = depth
  generalize line.tokens = group at one ⊢
  cases one with
  | token token =>
    by_cases closes : token.kind = .closing
    · simp [closes, depthBehind]
    · have less : depth ≤ depthBehind depth token := by
        unfold depthBehind
        split <;> simp_all
      simp [closes, less]
  | element opens text closes => simp [opens, text, closes, depthBehind]

/-- The depth of a line is the most that a run of tags before it opens and does not
    close. The empty run opens nothing, so the depth is at least zero, and it depends on
    no token but the tags that open and close elements. -/
theorem isGreatest_depth {source : String} {above below : List Line} {line : Line}
    (split : layout source = above ++ line :: below) :
    IsGreatest {n : ℤ | ∃ run, run <:+ brackets (above.flatMap Line.tokens ++ line.closing) ∧ balance run = n}
      line.depth := by
  rw [depth_eq_foldl split, ← foldl_brackets]
  exact isGreatest_foldl _

/-- In a balanced source the depth follows the balance. -/
theorem depth_eq_min {source : String} (balanced : Balanced (tokens source)) {above below : List Line} {line : Line}
    (split : layout source = above ++ line :: below) :
    (line.depth : ℤ) =
      min (balance (above.flatMap Line.tokens)) (balance (above.flatMap Line.tokens ++ line.tokens)) := by
  have laid := tokens_layout source
  rw [split, List.flatMap_append, List.flatMap_cons, ← List.append_assoc] at laid
  have follows {part : List Token} (starts : part <+: significant (tokens source)) :
      ((part.foldl depthBehind 0 : ℕ) : ℤ) = balance part := by
    have := (balanced_significant (filled_tokens source) balanced).foldl_depthBehind starts 0
    rwa [Nat.cast_zero, zero_add] at this
  have whole : above.flatMap Line.tokens ++ line.tokens <+: significant (tokens source) := ⟨_, laid⟩
  rw [depth_of_arrange split, Nat.cast_min, follows whole, follows ((List.prefix_append _ _).trans whole)]

/-- A line begins with a token of the source, before which stand what is laid out above it
    and blank text. -/
theorem exists_of_line {source : String} {above below : List Line} {line : Line}
    (split : layout source = above ++ line :: below) :
    ∃ front token back rest, tokens source = front ++ token :: back ∧ significant front = above.flatMap Line.tokens ∧
      line.tokens = token.trim :: rest := by
  have member : line ∈ layout source := by simp [split]
  obtain ⟨first, rest, holds, -⟩ := exists_of_mem_layout member
  have laid := tokens_layout source
  rw [split, List.flatMap_append, List.flatMap_cons, holds, List.cons_append] at laid
  obtain ⟨front, last, whole, before, onward⟩ := exists_of_significant_append laid.symm
  obtain ⟨dropped, token, back, rfl, none, rfl, -⟩ := exists_of_significant_cons onward
  refine ⟨front ++ dropped, token, back, rest, by rw [whole, List.append_assoc], ?_, holds⟩
  rw [significant_append, none, List.append_nil, before]

/-- A line that goes on behind its first token closes what that opens. -/
theorem min_balance {token : Token} {rest : List Token} (one : OneLine (token :: rest)) (height : ℤ) :
    min height (height + balance (token :: rest)) = min height (height + token.sign) := by
  cases one with
  | token => rw [balance_cons, balance_nil, add_zero]
  | element opens text closes => simp [Token.sign, opens, text, closes]

/-- In a balanced source a line is as deep as there are elements around the token that
    it begins with. -/
theorem exists_depth_eq_around {source : String} (balanced : Balanced (tokens source)) {above below : List Line} {line : Line}
    (split : layout source = above ++ line :: below) :
    ∃ front token back, tokens source = front ++ token :: back ∧ significant front = above.flatMap Line.tokens ∧
      line.tokens.head? = some token.trim ∧ line.depth = around (tokens source) front.length := by
  obtain ⟨front, token, back, rest, stands, before, holds⟩ := exists_of_line split
  refine ⟨front, token, back, stands, before, by rw [holds]; rfl, ?_⟩
  have member : line ∈ layout source := by simp [split]
  have one := oneLine_of_mem_layout member
  have filled : Filled front := fun next within => filled_tokens source next (stands ▸ List.mem_append_left _ within)
  have here : height (tokens source) front.length = balance front := by rw [height, stands, List.take_left]
  have behind : height (tokens source) (front.length + 1) = balance front + token.sign := by
    rw [height, stands, List.take_length_add_append, balance_append]
    simp
  have depth := depth_eq_min balanced split
  rw [holds] at one depth
  rw [← before, balance_append, balance_significant filled, min_balance one, sign_trim, ← behind, ← here,
    ← around_eq_min balanced] at depth
  exact_mod_cast depth

theorem significant_element {front inner back : List Token} {opening closing : Token}
    (element : IsElement opening inner closing) (filled : Filled (front ++ opening :: (inner ++ closing :: back))) :
    significant (front ++ opening :: (inner ++ closing :: back)) =
      significant front ++ opening :: (significant inner ++ closing :: significant back) := by
  have opens : opening.kind ≠ .text := by simp [element.opens]
  have closes : closing.kind ≠ .text := by simp [element.closes]
  rw [significant_append, significant_of_markup opens (filled opening (by simp)), significant_append,
    significant_of_markup closes (filled closing (by simp))]

/-- The tags of an element of the source share a line or a depth. -/
theorem spread_layout {source : String} {front inner back : List Token} {opening closing : Token}
    (split : tokens source = front ++ opening :: (inner ++ closing :: back)) (element : IsElement opening inner closing) :
    Spread (layout source) (significant front) opening (significant inner) closing := by
  have filled := filled_tokens source
  rw [split] at filled
  have balanced := balanced_significant (fun token member => filled token (by simp [member])) element.balanced
  rw [layout, split, significant_element element filled]
  exact spread_arrange ⟨element.opens, element.closes, balanced⟩

/-- How a source is laid out with a unit for each level. -/
structure Indented (source unit : String) : Prop where
  /-- Every line begins with its units, as many as it is deep, and goes on with its tokens. -/
  written : format source unit = "\n".intercalate ((layout source).map fun line =>
    String.join (List.replicate line.depth unit) ++ String.join (line.tokens.map Token.raw))
  /-- The tokens of the lines are those of the source without blanks around text. -/
  laid : (layout source).flatMap Line.tokens = significant (tokens source)
  /-- A line has one token, or the tags of an element and its text; no blank stands before it. -/
  line : ∀ line ∈ layout source, OneLine line.tokens ∧
    ∀ token ∈ line.tokens.head?, ∃ c rest, token.raw.toList = c :: rest ∧ isBlank c = false
  /-- In a balanced source there are as many units as elements around the first token. -/
  nested (balanced : Balanced (tokens source)) : ∀ above line below, layout source = above ++ line :: below →
    ∃ front token back, tokens source = front ++ token :: back ∧ significant front = above.flatMap Line.tokens ∧
      line.tokens.head? = some token.trim ∧ line.depth = around (tokens source) front.length
  /-- The tags of an element share a line or a depth, and deeper lines stand between them. -/
  spread : ∀ front opening inner closing back, tokens source = front ++ opening :: (inner ++ closing :: back) →
    IsElement opening inner closing → Spread (layout source) (significant front) opening (significant inner) closing
  /-- In any source the depth is the most that a run of tags before the line opens and
      does not close, which is zero for the empty run. -/
  depth : ∀ above line below, layout source = above ++ line :: below →
    IsGreatest {n : ℤ | ∃ run, run <:+ brackets (above.flatMap Line.tokens ++ line.closing) ∧ balance run = n} line.depth

/-- Indentation is nesting depth. -/
theorem indented (source unit : String) : Indented source unit where
  written := rfl
  laid := tokens_layout source
  line line member := by
    refine ⟨oneLine_of_mem_layout member, fun token first => ?_⟩
    have laid : token ∈ significant (tokens source) := by
      rw [← tokens_layout]
      exact List.mem_flatMap.2 ⟨line, member, List.mem_of_mem_head? first⟩
    exact visible_of_mem_significant laid
  nested balanced _ _ _ := exists_depth_eq_around balanced
  spread _ _ _ _ _ := spread_layout
  depth _ _ _ := isGreatest_depth

/-- An element on one line, one on several that holds text, and tags that match under
    other names. -/
theorem indented_mismatched :
    let source := "<a> <b x='>'> t </b>$\x7b[ <e> ]\x7d<c>u<d/></a></c>"
    Balanced (tokens source) ∧ (layout source).map Line.depth = [0, 1, 1, 1, 2, 2, 1, 0] ∧ Indented source "\t" := by
  intro source
  have cut : tokens source =
      [⟨.opening, "<a>"⟩, ⟨.text, " "⟩, ⟨.opening, "<b x='>'>"⟩, ⟨.text, " t "⟩, ⟨.closing, "</b>"⟩,
        ⟨.template, "$\x7b[ <e> ]\x7d"⟩, ⟨.opening, "<c>"⟩, ⟨.text, "u"⟩, ⟨.selfClosing, "<d/>"⟩, ⟨.closing, "</a>"⟩,
        ⟨.closing, "</c>"⟩] := by cbv
  refine ⟨?_, by cbv, indented source "\t"⟩
  rw [cut]
  decide

/-- A closing tag without an opening one closes nothing, and one without a closing one
    goes on to the end. -/
example : format "</a><b>t<c></b><d>" "  " = "</a>\n<b>\n  t\n  <c>\n  </b>\n  <d>" := by cbv

end RequestTemplate.Markup
