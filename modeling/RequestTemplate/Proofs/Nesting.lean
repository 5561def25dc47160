import Mathlib
import RequestTemplate.Markup.Layout

/-!
# Elements inside elements

Opening and closing tags are brackets. Two tags with balanced tokens between them are
those of an element, and an element is around a token that stands between its tags.
In balanced tokens, the elements around a token are as many as the tags that are open
before it, or behind it if they are fewer (`around_eq_min`).
-/

namespace RequestTemplate.Markup

/-! ## Brackets -/

def openings (ts : List Token) : ℕ := ts.countP fun token => token.kind == .opening

def closings (ts : List Token) : ℕ := ts.countP fun token => token.kind == .closing

/-- How many more tags the tokens open than they close. -/
def balance (ts : List Token) : ℤ := openings ts - closings ts

/-- Every beginning has at least as many opening tags as closing ones, and they are
    equally many in all. -/
structure Balanced (ts : List Token) : Prop where
  front : ∀ front, front <+: ts → closings front ≤ openings front
  total : openings ts = closings ts

instance (ts : List Token) : Decidable (Balanced ts) :=
  decidable_of_iff ((∀ front ∈ ts.inits, closings front ≤ openings front) ∧ openings ts = closings ts)
    ⟨fun ⟨fronts, total⟩ => ⟨fun front starts => fronts front ((List.mem_inits front ts).2 starts), total⟩,
      fun ⟨fronts, total⟩ => ⟨fun front starts => fronts front ((List.mem_inits front ts).1 starts), total⟩⟩

/-- An opening tag, balanced tokens, and the closing tag that matches it. -/
structure IsElement (opening : Token) (inner : List Token) (closing : Token) : Prop where
  opens : opening.kind = .opening
  closes : closing.kind = .closing
  balanced : Balanced inner

/-- An element of the tokens has its opening tag at the first place and its closing tag
    at the second. -/
def Element (ts : List Token) (i j : ℕ) : Prop :=
  ∃ front opening inner closing back, ts = front ++ opening :: (inner ++ closing :: back) ∧
    IsElement opening inner closing ∧ front.length = i ∧ i + 1 + inner.length = j

/-- How many elements are open around the token at a place: those that begin before it
    and end behind it. -/
noncomputable def around (ts : List Token) (k : ℕ) : ℕ :=
  {element : ℕ × ℕ | Element ts element.1 element.2 ∧ element.1 < k ∧ k < element.2}.ncard

/-! ## Balances -/

/-- What a token adds to the balance. -/
def Token.sign (token : Token) : ℤ :=
  match token.kind with
  | .opening => 1
  | .closing => -1
  | _ => 0

theorem Token.sign_eq_one_iff {token : Token} : token.sign = 1 ↔ token.kind = .opening := by
  unfold Token.sign
  cases token.kind <;> simp

theorem Token.sign_eq_neg_one_iff {token : Token} : token.sign = -1 ↔ token.kind = .closing := by
  unfold Token.sign
  cases token.kind <;> simp

theorem Token.sign_bounds (token : Token) : -1 ≤ token.sign ∧ token.sign ≤ 1 := by
  unfold Token.sign
  cases token.kind <;> simp

@[simp] theorem balance_nil : balance [] = 0 := rfl

@[simp] theorem balance_cons (token : Token) (ts : List Token) : balance (token :: ts) = token.sign + balance ts := by
  simp only [balance, openings, closings, List.countP_cons, Token.sign]
  cases token.kind <;> simp <;> omega

@[simp] theorem balance_append (ts us : List Token) : balance (ts ++ us) = balance ts + balance us := by
  simp only [balance, openings, closings, List.countP_append]
  omega

theorem balanced_iff {ts : List Token} :
    Balanced ts ↔ (∀ front, front <+: ts → 0 ≤ balance front) ∧ balance ts = 0 := by
  constructor
  · rintro ⟨front, total⟩
    refine ⟨fun part starts => ?_, ?_⟩
    · have := front part starts
      rw [balance]
      omega
    · rw [balance]
      omega
  · rintro ⟨front, total⟩
    refine ⟨fun part starts => ?_, ?_⟩
    · have := front part starts
      rw [balance] at this
      omega
    · rw [balance] at total
      omega

/-! ## Heights -/

/-- The balance before the token at a place. -/
def height (ts : List Token) (k : ℕ) : ℤ := balance (ts.take k)

variable {ts : List Token} {i j k : ℕ}

@[simp] theorem height_zero (ts : List Token) : height ts 0 = 0 := rfl

theorem height_succ (ts : List Token) (k : ℕ) : height ts (k + 1) = height ts k + (ts[k]?.map Token.sign).getD 0 := by
  rw [height, height, List.take_add_one, balance_append]
  cases ts[k]? <;> simp

theorem height_add (ts : List Token) (i n : ℕ) : height ts (i + n) = height ts i + height (ts.drop i) n := by
  rw [height, List.take_add, balance_append, height, height]

/-- One token changes the height by no more than one. -/
theorem height_step (ts : List Token) (k : ℕ) :
    height ts k - 1 ≤ height ts (k + 1) ∧ height ts (k + 1) ≤ height ts k + 1 := by
  rw [height_succ]
  cases ts[k]? with
  | none => simp
  | some token =>
    have bounds := token.sign_bounds
    simp only [Option.map_some, Option.getD_some]
    omega

theorem Balanced.height_nonneg (balanced : Balanced ts) (k : ℕ) : 0 ≤ height ts k :=
  (balanced_iff.1 balanced).1 _ (List.take_prefix k ts)

theorem height_succ_eq_add_one_iff :
    height ts (k + 1) = height ts k + 1 ↔ ∃ token, ts[k]? = some token ∧ token.kind = .opening := by
  rw [height_succ]
  cases ts[k]? with
  | none => simp
  | some token => simp [Token.sign_eq_one_iff]

theorem height_succ_eq_sub_one_iff :
    height ts (k + 1) = height ts k - 1 ↔ ∃ token, ts[k]? = some token ∧ token.kind = .closing := by
  rw [height_succ, sub_eq_add_neg]
  cases ts[k]? with
  | none => simp
  | some token => simp [Token.sign_eq_neg_one_iff]

/-- A part of the tokens is balanced if no height in it is lower than at its beginning,
    and at its end it is the same. -/
theorem balanced_take_iff {n : ℕ} :
    Balanced (ts.take n) ↔ (∀ m ≤ n, 0 ≤ height ts m) ∧ height ts n = 0 := by
  rw [balanced_iff]
  refine and_congr ⟨fun front m short => ?_, fun low front starts => ?_⟩ Iff.rfl
  · exact front _ (List.take_prefix_take_left short)
  · have short : front.length ≤ n := starts.length_le.trans (List.length_take_le n ts)
    have eq := List.prefix_iff_eq_take.1 starts
    rw [List.take_take, min_eq_left short] at eq
    rw [eq]
    exact low _ short

/-- Elements by their heights: inside, no height is lower than behind the opening tag. -/
theorem element_iff :
    Element ts i j ↔
      i < j ∧ height ts (i + 1) = height ts i + 1 ∧ height ts (j + 1) = height ts j - 1 ∧
        height ts j = height ts (i + 1) ∧ ∀ m, i < m → m ≤ j → height ts (i + 1) ≤ height ts m := by
  have part (n : ℕ) : height ts (i + 1 + n) = height ts (i + 1) + height (ts.drop (i + 1)) n := height_add ts (i + 1) n
  constructor
  · rintro ⟨front, opening, inner, closing, back, rfl, ⟨opens, closes, balanced⟩, rfl, rfl⟩
    have behind : (front ++ opening :: (inner ++ closing :: back)).drop (front.length + 1) = inner ++ closing :: back := by
      simp [List.drop_append]
    rw [behind] at part
    have whole : inner = (inner ++ closing :: back).take inner.length := by simp
    rw [whole, balanced_take_iff] at balanced
    refine ⟨by omega, height_succ_eq_add_one_iff.2 ⟨opening, by simp, opens⟩,
      height_succ_eq_sub_one_iff.2 ⟨closing, ?_, closes⟩, ?_, fun m after before => ?_⟩
    · rw [← List.getElem?_drop, behind]
      simp
    · rw [part, balanced.2, add_zero]
    · obtain ⟨n, rfl⟩ := Nat.exists_eq_add_of_lt after
      have low := balanced.1 n (by omega)
      rw [Nat.add_right_comm, part]
      omega
  · rintro ⟨less, opens, closes, level, low⟩
    obtain ⟨opening, first, opens⟩ := height_succ_eq_add_one_iff.1 opens
    obtain ⟨closing, last, closes⟩ := height_succ_eq_sub_one_iff.1 closes
    obtain ⟨n, rfl⟩ := Nat.exists_eq_add_of_lt less
    rw [Nat.add_right_comm] at last level low
    obtain ⟨insideFirst, rfl⟩ := List.getElem?_eq_some_iff.1 first
    obtain ⟨insideLast, rfl⟩ := List.getElem?_eq_some_iff.1 last
    refine ⟨ts.take i, _, (ts.drop (i + 1)).take n, _, ts.drop (i + 1 + n + 1), ?_, ⟨opens, closes, ?_⟩, ?_, ?_⟩
    · have inner := List.take_append_drop n (ts.drop (i + 1))
      rw [List.drop_drop] at inner
      rw [← List.drop_eq_getElem_cons insideLast, inner, ← List.drop_eq_getElem_cons insideFirst,
        List.take_append_drop]
    · rw [balanced_take_iff]
      refine ⟨fun m short => ?_, ?_⟩
      · have low := low (i + 1 + m) (by omega) (by omega)
        rw [part] at low
        omega
      · rw [part] at level
        omega
    · simp only [List.length_take]
      omega
    · simp only [List.length_take, List.length_drop]
      omega

/-! ## The elements around a token -/

/-- The last place up to `k` where the height is no more than `h`: a tag opens there. -/
theorem exists_opening {h : ℤ} (floor : 0 ≤ h) (above : h < height ts k) :
    ∃ i < k, height ts i = h ∧ height ts (i + 1) = h + 1 ∧ ∀ m, i < m → m ≤ k → h < height ts m := by
  induction k with
  | zero => simp only [height_zero] at above; omega
  | succ k ih =>
    have step := height_step ts k
    by_cases higher : h < height ts k
    · obtain ⟨i, less, level, opens, between⟩ := ih higher
      refine ⟨i, by omega, level, opens, fun m after before => ?_⟩
      rcases Nat.lt_or_eq_of_le before with within | rfl
      · exact between m after (by omega)
      · exact above
    · refine ⟨k, by omega, by omega, by omega, fun m after before => ?_⟩
      obtain rfl : m = k + 1 := by omega
      exact above

/-- The first place from `k` on behind which the height is no more than `h`: a tag closes
    there. -/
theorem exists_closing {h : ℤ} (above : h < height ts k) {n : ℕ} (low : height ts (k + n) ≤ h) :
    ∃ j, k ≤ j ∧ height ts j = h + 1 ∧ height ts (j + 1) = h ∧ ∀ m, k ≤ m → m ≤ j → h < height ts m := by
  induction n generalizing k with
  | zero => exact absurd low (not_le.2 above)
  | succ n ih =>
    have step := height_step ts k
    by_cases higher : h < height ts (k + 1)
    · obtain ⟨j, less, level, closes, between⟩ := ih higher (by rwa [Nat.add_right_comm])
      refine ⟨j, by omega, level, closes, fun m after before => ?_⟩
      rcases Nat.lt_or_eq_of_le after with later | rfl
      · exact between m later before
      · exact above
    · refine ⟨k, le_rfl, by omega, by omega, fun m after before => ?_⟩
      obtain rfl : m = k := by omega
      exact above

/-- An element around a token begins below the heights on both sides of the token. -/
theorem Element.lt_height (element : Element ts i j) (before : i < k) (after : k < j) :
    height ts i < height ts k ∧ height ts i < height ts (k + 1) := by
  obtain ⟨-, opens, -, -, low⟩ := element_iff.1 element
  have here := low k before (by omega)
  have behind := low (k + 1) (by omega) (by omega)
  omega

/-- Two elements around a token that begin at one height are the same. -/
theorem Element.unique {i' j' : ℕ} (element : Element ts i j) (other : Element ts i' j') (before : i < k) (after : k < j)
    (before' : i' < k) (after' : k < j') (level : height ts i = height ts i') : i = i' ∧ j = j' := by
  have apart {i j i' j' : ℕ} (element : Element ts i j) (other : Element ts i' j') (after : k < j) (before' : i' < k)
      (level : height ts i = height ts i') : i' ≤ i := by
    by_contra later
    obtain ⟨-, opens, -, -, low⟩ := element_iff.1 element
    have := low i' (by omega) (by omega)
    omega
  obtain rfl : i = i' := le_antisymm (apart other element after' before level.symm) (apart element other after before' level)
  refine ⟨rfl, ?_⟩
  obtain ⟨-, opens, closes, ends, low⟩ := element_iff.1 element
  obtain ⟨-, -, closes', ends', low'⟩ := element_iff.1 other
  rcases Nat.lt_trichotomy j j' with less | same | more
  · have := low' (j + 1) (by omega) (by omega)
    omega
  · exact same
  · have := low (j' + 1) (by omega) (by omega)
    omega

/-- At each height below those on both sides of a token, an element around it begins. -/
theorem exists_element (balanced : Balanced ts) {h : ℤ} (floor : 0 ≤ h) (here : h < height ts k)
    (behind : h < height ts (k + 1)) : ∃ i j, Element ts i j ∧ i < k ∧ k < j ∧ height ts i = h := by
  obtain ⟨i, before, level, opens, between⟩ := exists_opening floor here
  have ends : height ts (k + 1 + ts.length) ≤ h := by
    rw [height, List.take_of_length_le (by omega), (balanced_iff.1 balanced).2]
    exact floor
  obtain ⟨j, after, ends, closes, onward⟩ := exists_closing behind ends
  refine ⟨i, j, element_iff.2 ⟨by omega, by omega, by omega, by omega, fun m first last => ?_⟩, before, by omega, level⟩
  rcases Nat.lt_or_ge k m with later | earlier
  · have := onward m (by omega) last
    omega
  · have := between m first earlier
    omega

/-- As many elements are open around a token as tags are open before it, or behind it if
    it closes one. -/
theorem around_eq_min (balanced : Balanced ts) (k : ℕ) :
    (around ts k : ℤ) = min (height ts k) (height ts (k + 1)) := by
  have floor := balanced.height_nonneg
  obtain ⟨d, level⟩ := Int.eq_ofNat_of_zero_le (le_min (floor k) (floor (k + 1)))
  rw [level, around, Nat.cast_inj]
  have below {h : ℤ} : h < d ↔ h < height ts k ∧ h < height ts (k + 1) := by
    rw [← lt_min_iff, level]
  -- an element is told by the height at which it begins
  have levels : Set.BijOn (fun element : ℕ × ℕ => height ts element.1)
      {element | Element ts element.1 element.2 ∧ element.1 < k ∧ k < element.2} (Set.Ico 0 (d : ℤ)) := by
    refine ⟨?_, ?_, ?_⟩
    · rintro ⟨i, j⟩ ⟨element, before, after⟩
      exact ⟨floor i, below.2 (element.lt_height before after)⟩
    · rintro ⟨i, j⟩ ⟨element, before, after⟩ ⟨i', j'⟩ ⟨other, before', after'⟩ same
      obtain ⟨rfl, rfl⟩ := element.unique other before after before' after' same
      rfl
    · rintro h ⟨low, high⟩
      obtain ⟨here, behind⟩ := below.1 high
      obtain ⟨i, j, element, before, after, begins⟩ := exists_element balanced low here behind
      exact ⟨(i, j), ⟨element, before, after⟩, begins⟩
  rw [← levels.injOn.ncard_image, levels.image_eq, Set.ncard_eq_toFinset_card']
  simp

end RequestTemplate.Markup
