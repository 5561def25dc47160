/-!
# Dictionaries

Pairs of a key and a value in the order in which the keys were first inserted.
Inserting a key again replaces its value and keeps its place.
-/

namespace RequestTemplate

abbrev Dictionary (κ ν : Type) := List (κ × ν)

namespace Dictionary

variable {κ ν : Type}

/-- Inserts under the first key that is the same as `key`, or at the end. -/
def insertBy (same : κ → κ → Bool) (key : κ) (value : ν) : Dictionary κ ν → Dictionary κ ν
  | [] => [(key, value)]
  | (k, v) :: rest =>
    if same k key then (k, value) :: rest else (k, v) :: insertBy same key value rest

def insert [BEq κ] (d : Dictionary κ ν) (key : κ) (value : ν) : Dictionary κ ν :=
  insertBy (· == ·) key value d

def erase [BEq κ] (d : Dictionary κ ν) (key : κ) : Dictionary κ ν :=
  d.filter fun entry => !(entry.1 == key)

/-- The dictionary of pairs that are inserted one after the other. -/
def ofList [BEq κ] (pairs : List (κ × ν)) : Dictionary κ ν :=
  pairs.foldl (fun d (key, value) => insert d key value) []

def keys (d : Dictionary κ ν) : List κ :=
  d.map Prod.fst

/-! ## What a key maps to afterwards -/

variable [BEq κ] [LawfulBEq κ]

theorem lookup_insert (d : Dictionary κ ν) (key other : κ) (value : ν) :
    (insert d key value).lookup other = if other == key then some value else d.lookup other := by
  induction d with
  | nil =>
    simp only [insert, insertBy, List.lookup_cons, List.lookup_nil]
    cases other == key <;> rfl
  | cons entry d ih =>
    obtain ⟨k, v⟩ := entry
    simp only [insert, insertBy] at ih ⊢
    by_cases hk : k = key
    · subst hk
      cases h : other == k <;> simp [List.lookup_cons, h]
    · have hk' : (k == key) = false := by simpa using hk
      simp only [hk', Bool.false_eq_true, if_false, List.lookup_cons, ih]
      cases h : other == k
      · simp
      · have : other = k := by simpa using h
        subst this
        simp [hk']

/-- Erasing a key leaves the others. -/
theorem lookup_erase_of_ne (d : Dictionary κ ν) {key other : κ} (unlike : other ≠ key) :
    (erase d key).lookup other = d.lookup other := by
  induction d with
  | nil => rfl
  | cons entry d ih =>
    obtain ⟨k, v⟩ := entry
    simp only [erase] at ih ⊢
    by_cases hk : k = key
    · subst hk
      have h : (other == k) = false := by simpa using unlike
      simp [List.lookup_cons, h, ih]
    · cases h : other == k <;> simp [List.lookup_cons, hk, h, ih]

/-- Inserting a key that is there keeps the keys; a new key comes last. -/
theorem keys_insert (d : Dictionary κ ν) (key : κ) (value : ν) :
    keys (insert d key value) = if key ∈ keys d then keys d else keys d ++ [key] := by
  induction d with
  | nil => simp [insert, insertBy, keys]
  | cons entry d ih =>
    obtain ⟨k, v⟩ := entry
    simp only [insert, insertBy, keys] at ih ⊢
    by_cases hk : k = key
    · simp [hk]
    · have hk' : (k == key) = false := by simpa using hk
      simp only [hk', Bool.false_eq_true, if_false, List.map_cons, ih]
      have fresh : key ≠ k := fun h => hk h.symm
      by_cases found : key ∈ d.map Prod.fst
      · simp only [found, if_true, List.mem_cons, or_true]
      · simp only [found, if_false, List.mem_cons, fresh, or_self, List.cons_append]

end Dictionary

end RequestTemplate
