import RequestTemplate.Proofs.Grammar

/-!
# What a refusal leaves unread

A reader refuses with the number of characters that it has not read yet. Every reader
of a tag hands on no more text than it was given, so this number is bounded by the
length of the body, and the position of an error stands in the body (`within_read`).
-/

namespace RequestTemplate.Tag
open Text (skipBlank length_skipBlank_le)

/-- A refusal leaves at most `n` characters unread. -/
def Within {α : Type} (n : Nat) (reading : Except Refusal α) : Prop :=
  ∀ refusal, reading = .error refusal → refusal.unread ≤ n

variable {α β : Type} {n : Nat} {s : List Char}

theorem within_ok (a : α) : Within n (.ok a) := nofun

theorem within_refuse {rest : List Char} (reason : Malformed) (short : rest.length ≤ n) :
    Within n (refuse reason rest : Except Refusal α) := by
  rintro refusal ⟨⟩
  exact short

/-- A refusal on a part of the text is handed on as it is. -/
theorem Within.error {m : Nat} {reading : Except Refusal α} {refusal : Refusal} (within : Within m reading)
    (refused : reading = .error refusal) (short : m ≤ n) : Within n (.error refusal : Except Refusal β) := by
  rintro other ⟨⟩
  exact (within refusal refused).trans short

/-! ## Names and values -/

theorem within_name (s : List Char) : Within s.length (name s) := by
  unfold name
  split
  · exact within_refuse _ le_rfl
  · split
    · exact within_ok _
    · exact within_refuse _ le_rfl

theorem within_operand (s : List Char) : Within s.length (operand s) := by
  unfold operand
  split
  · exact within_refuse _ le_rfl
  · split
    · split
      · exact within_ok _
      · exact within_refuse _ le_rfl
    · split
      · rename_i refused
        exact (within_name _).error refused le_rfl
      · rename_i named
        split
        · exact within_refuse _ (length_of_name named).le
        · exact within_ok _

/-! ## Calls -/

theorem within_assigned (word : String) (s : List Char) : Within s.length (assigned word s) := by
  have bound := length_skipBlank_le s
  unfold assigned
  split
  · rename_i c rest stands
    rw [stands, List.length_cons] at bound
    split
    · have later := length_skipBlank_le rest
      exact fun refusal refused => (within_operand _ refusal refused).trans (by omega)
    · exact within_refuse _ bound
  · exact within_refuse _ (Nat.zero_le _)

theorem within_argument (earlier : List String) (s : List Char) : Within s.length (argument earlier s) := by
  unfold argument
  split
  · exact within_refuse _ le_rfl
  · split
    · rename_i refused
      exact (within_name _).error refused le_rfl
    · rename_i named
      have shorter := (length_of_name named).le
      split
      · exact within_refuse _ shorter
      · split
        · rename_i refused
          exact (within_assigned _ _).error refused shorter
        · exact within_ok _

theorem within_separator (s : List Char) : Within s.length (separator s) := by
  have bound := length_skipBlank_le s
  unfold separator
  split
  · exact within_refuse _ (Nat.zero_le _)
  · exact within_ok _
  · exact within_ok _
  · rename_i stands
    exact within_refuse _ (stands ▸ bound)

theorem within_arguments (earlier : List String) (s : List Char) : Within s.length (arguments earlier s) := by
  fun_induction arguments earlier s with
  | case1 => exact within_refuse _ (Nat.zero_le _)
  | case2 => exact within_ok _
  | case3 earlier s =>
    rename_i refused
    exact (within_argument _ _).error refused (length_skipBlank_le s)
  | case4 earlier s =>
    rename_i first _ refused
    have bound := length_skipBlank_le s
    have shorter := length_of_argument first
    exact (within_separator _).error refused (by omega)
  | case5 earlier s =>
    rename_i first _ next _ refused ih
    have bound := length_skipBlank_le s
    have shorter := length_of_argument first
    have behind := length_of_separator next
    exact ih.error refused (by omega)
  | case6 => exact within_ok _

theorem length_of_arguments {earlier : List String} {rest : List Char} {args : List Argument}
    (found : arguments earlier s = .ok (args, rest)) : rest.length < s.length := by
  obtain ⟨-, before, body, -, -, rfl⟩ := listText_of_arguments found
  simp only [List.length_append, List.length_cons]
  omega

/-! ## Bodies -/

theorem within_expression (s : List Char) : Within s.length (expression s) := by
  unfold expression
  split
  · rename_i refused
    exact (within_name _).error refused le_rfl
  · rename_i afterName named
    have shorter := length_of_name named
    have bound := length_skipBlank_le afterName
    split
    · rename_i opened
      rw [opened, List.length_cons] at bound
      split
      · rename_i refused
        exact (within_arguments _ _).error refused (by omega)
      · exact within_ok _
    · exact within_ok _

theorem length_of_expression {rest : List Char} {value : Expression}
    (found : expression s = .ok (value, rest)) : rest.length < s.length := by
  simp only [expression] at found
  split at found
  · simp at found
  · rename_i afterName named
    have shorter := length_of_name named
    have bound := length_skipBlank_le afterName
    split at found
    · rename_i opened
      rw [opened, List.length_cons] at bound
      split at found
      · simp at found
      · rename_i inside
        obtain ⟨rfl, rfl⟩ := Prod.mk.inj (Except.ok.inj found)
        have := length_of_arguments inside
        omega
    · obtain ⟨rfl, rfl⟩ := Prod.mk.inj (Except.ok.inj found)
      omega

/-- The position of an error stands in the body that is refused. -/
theorem within_read (body : List Char) : Within body.length (read body) := by
  have bound := length_skipBlank_le body
  unfold read
  split
  · exact within_refuse _ (Nat.zero_le _)
  · split
    · rename_i refused
      exact (within_expression _).error refused bound
    · rename_i after found
      have shorter := length_of_expression found
      have behind := length_skipBlank_le after
      split
      · exact within_ok _
      · rename_i stands
        rw [stands] at behind
        exact within_refuse _ (by omega)

/-- From the position of an error on, the body is unread. -/
theorem exists_of_readAt_error {start : Nat} {body : List Char} {e : ParseError}
    (refused : readAt start body = .error e) :
    ∃ refusal position, read body = .error refusal ∧ e = ⟨refusal.reason, some (position : Nat)⟩ ∧
      start ≤ position ∧ position + refusal.unread = start + body.length := by
  unfold readAt at refused
  cases found : read body with
  | ok value => simp [found] at refused
  | error refusal =>
    have short := within_read body refusal found
    rw [found] at refused
    obtain rfl := Except.error.inj refused
    refine ⟨refusal, start + (body.length - refusal.unread), rfl, by rw [Int.natCast_add], ?_, ?_⟩ <;> omega

end RequestTemplate.Tag
