import RequestTemplate.Proofs.Grammar
import RequestTemplate.Proofs.Span

/-!
# Closers outside quoted text

Quoted text is what the grammar of a tag says it is, and `Outside` says of a text that
it ends outside of it. What stands behind an opener is cut at the first closer before
which the text ends outside quoted text (`firstCloser_iff`).
-/

namespace RequestTemplate.Span

/-- Text that ends outside quoted text: every quote that it opens it closes. -/
inductive Outside : List Char → Prop
  | empty : Outside []
  | plain {c : Char} {s : List Char} (other : Tag.isQuote c = false) (rest : Outside s) : Outside (c :: s)
  | quoted {quote : Char} {body text s : List Char} (quotes : Tag.isQuote quote = true)
      (inner : Tag.QuotedBody quote body text) (rest : Outside s) : Outside (quote :: (body ++ quote :: s))

/-- The body of a tag, at the head of what stands behind its opener: it ends at the
    first closer outside quoted text. -/
structure FirstCloser (behind body : List Char) : Prop where
  closes : ∃ rest, behind = body ++ closer ++ rest
  outside : Outside body
  first (earlier rest : List Char) (split : behind = earlier ++ closer ++ rest) (ends : Outside earlier) :
    body.length ≤ earlier.length

namespace Quoting

/-- Where a scan stands behind a text. -/
def after (state : Quoting) (s : List Char) : Quoting := s.foldl step state

@[simp] theorem after_nil (state : Quoting) : state.after [] = state := rfl

@[simp] theorem after_cons (state : Quoting) (c : Char) (s : List Char) :
    state.after (c :: s) = (state.step c).after s := rfl

theorem after_append (state : Quoting) (s t : List Char) : state.after (s ++ t) = (state.after s).after t :=
  List.foldl_append

theorem after_quotedBody {quote : Char} {body text : List Char} (inner : Tag.QuotedBody quote body text) :
    (within quote).after body = within quote := by
  induction inner with
  | empty => rfl
  | plain ordinary rest ih => rw [after_cons, step, if_neg ordinary.1, if_neg ordinary.2, ih]
  | escaped escape rest ih =>
    rw [after_cons, step, if_pos rfl, after_cons, step, ih]

theorem after_of_outside {s : List Char} (outside : Outside s) : bare.after s = bare := by
  induction outside with
  | empty => rfl
  | plain other rest ih => rw [after_cons, step, if_neg (by simp [other]), ih]
  | @quoted quote body text s quotes inner rest ih =>
    have plain : quote ≠ '\\' := Tag.ne_of_isQuote quotes (by decide)
    rw [after_cons, step, if_pos quotes, after_append, after_quotedBody inner, after_cons, step,
      if_neg plain, if_pos rfl, ih]

/-- What a text must hold for a scan to stand outside quoted text behind it. -/
def Leaves : Quoting → List Char → Prop
  | bare, s => Outside s
  | within quote, s =>
    ∃ body text rest, s = body ++ quote :: rest ∧ Tag.QuotedBody quote body text ∧ Outside rest
  | skipping quote, s =>
    ∃ c body text rest, s = c :: (body ++ quote :: rest) ∧ Tag.QuotedBody quote body text ∧ Outside rest

theorem leaves_of_after {state : Quoting} {s : List Char} (ends : state.after s = bare) : state.Leaves s := by
  induction s generalizing state with
  | nil =>
    obtain rfl : state = bare := ends
    exact .empty
  | cons c s ih =>
    have later := ih ends
    cases state with
    | bare =>
      rw [step] at later
      split at later
      · rename_i quotes
        obtain ⟨body, text, rest, rfl, inner, outside⟩ := later
        exact .quoted quotes inner outside
      · rename_i other
        exact .plain (by simpa using other) later
    | within quote =>
      rw [step] at later
      split at later
      · rename_i slash
        obtain ⟨d, body, text, rest, rfl, inner, outside⟩ := later
        subst slash
        exact ⟨'\\' :: d :: body, _, rest, rfl, .escaped (Tag.escape_iff.2 rfl) inner, outside⟩
      · rename_i plain
        split at later
        · rename_i same
          subst same
          exact ⟨[], [], s, rfl, .empty, later⟩
        · rename_i other
          obtain ⟨body, text, rest, rfl, inner, outside⟩ := later
          exact ⟨c :: body, c :: text, rest, rfl, .plain ⟨plain, other⟩ inner, outside⟩
    | skipping quote =>
      obtain ⟨body, text, rest, rfl, inner, outside⟩ := later
      exact ⟨c, body, text, rest, rfl, inner, outside⟩

theorem outside_iff {s : List Char} : Outside s ↔ bare.after s = bare :=
  ⟨after_of_outside, leaves_of_after⟩

end Quoting

theorem first_of_splitTag {state : Quoting} {s body rest : List Char}
    (found : splitTag state s = some (body, rest)) :
    state.after body = .bare ∧ ∀ earlier later, s = earlier ++ closer ++ later → state.after earlier = .bare →
      body.length ≤ earlier.length := by
  induction s generalizing state body with
  | nil => simp [splitTag] at found
  | cons c s ih =>
    rcases splitTag_cons found with ⟨rfl, rfl, -⟩ | ⟨goes, inner, rfl, behind⟩
    · exact ⟨rfl, fun _ _ _ _ => Nat.zero_le _⟩
    · obtain ⟨ends, first⟩ := ih behind
      refine ⟨ends, fun earlier later split stands => ?_⟩
      cases earlier with
      | nil => exact absurd ⟨stands, closes_iff.2 ⟨later, split⟩⟩ goes
      | cons d earlier =>
        obtain ⟨rfl, tail⟩ := List.cons.inj split
        exact Nat.succ_le_succ (first earlier later tail stands)

/-- A scan comes to an end where a closer stands outside quoted text. -/
theorem exists_splitTag {state : Quoting} {earlier : List Char} (ends : state.after earlier = .bare)
    (rest : List Char) : ∃ body later, splitTag state (earlier ++ closer ++ rest) = some (body, later) := by
  induction earlier generalizing state with
  | nil =>
    obtain rfl : state = .bare := ends
    exact ⟨[], rest, splitTag_stop rest⟩
  | cons c earlier ih =>
    by_cases stops : state = .bare ∧ Delimiter.closes (c :: (earlier ++ closer ++ rest)) = true
    · exact ⟨[], _, by rw [List.cons_append, List.cons_append, splitTag, if_pos stops]⟩
    · obtain ⟨body, later, found⟩ := ih ends
      exact ⟨c :: body, later, by rw [List.cons_append, List.cons_append, splitTag_go stops, found]; rfl⟩

theorem FirstCloser.unique {behind body other : List Char} (first : FirstCloser behind body)
    (again : FirstCloser behind other) : body = other := by
  obtain ⟨rest, split⟩ := first.closes
  obtain ⟨rest', split'⟩ := again.closes
  have same : body.length = other.length :=
    Nat.le_antisymm (first.first other rest' split' again.outside) (again.first body rest split first.outside)
  have whole : body ++ (closer ++ rest) = other ++ (closer ++ rest') := by
    rw [← List.append_assoc, ← List.append_assoc, ← split, ← split']
  exact (List.append_inj whole same).1

/-- What stands behind an opener is cut at the first closer outside quoted text. -/
theorem firstCloser_iff {behind body : List Char} :
    FirstCloser behind body ↔ ∃ rest, splitTag .bare behind = some (body, rest) := by
  have sound {body rest : List Char} (found : splitTag .bare behind = some (body, rest)) :
      FirstCloser behind body := by
    obtain ⟨ends, first⟩ := first_of_splitTag found
    exact {
      closes := ⟨rest, (append_of_splitTag found).symm⟩
      outside := Quoting.outside_iff.2 ends
      first := fun earlier later split outside => first earlier later split (Quoting.outside_iff.1 outside) }
  constructor
  · intro first
    obtain ⟨rest, split⟩ := first.closes
    obtain ⟨other, later, found⟩ := exists_splitTag (Quoting.outside_iff.1 first.outside) rest
    rw [← split] at found
    exact ⟨later, first.unique (sound found) ▸ found⟩
  · rintro ⟨rest, found⟩
    exact sound found

end RequestTemplate.Span
