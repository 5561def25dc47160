import Mathlib.Data.List.Induction
import Mathlib.Data.List.Nodup
import RequestTemplate.Dictionary

/-!
# Dictionaries put over each other

Putting pairs over a dictionary inserts them one after the other, so of several pairs
with one key the last one decides (`lookup_override`). Putting over is associative, with
the order of the keys (`override_override`). A dictionary with different keys is made of its own pairs
(`ofList_of_nodup`).
-/

namespace RequestTemplate.Dictionary

variable {κ ν : Type} [BEq κ]

/-- The dictionary with the pairs of another one put over it, in their order. -/
def override (d top : Dictionary κ ν) : Dictionary κ ν :=
  top.foldl (fun d (key, value) => insert d key value) d

theorem override_cons (d : Dictionary κ ν) (key : κ) (value : ν) (top : Dictionary κ ν) :
    override d ((key, value) :: top) = override (insert d key value) top := rfl

theorem override_concat (d top : Dictionary κ ν) (key : κ) (value : ν) :
    override d (top ++ [(key, value)]) = insert (override d top) key value := by
  rw [override, List.foldl_append]
  rfl

variable [LawfulBEq κ]

theorem mem_keys_insert {d : Dictionary κ ν} {key other : κ} {value : ν} :
    other ∈ keys (insert d key value) ↔ other ∈ keys d ∨ other = key := by
  rw [keys_insert]
  split
  · rename_i known
    exact ⟨.inl, fun found => found.elim id fun same => same ▸ known⟩
  · simp

theorem mem_keys_override {d top : Dictionary κ ν} {key : κ} :
    key ∈ keys (override d top) ↔ key ∈ keys d ∨ key ∈ keys top := by
  induction top generalizing d with
  | nil => simp [override, keys]
  | cons pair top ih =>
    rw [override_cons, ih, mem_keys_insert, or_assoc]
    simp [keys]

theorem nodup_keys_insert {d : Dictionary κ ν} (distinct : (keys d).Nodup) (key : κ) (value : ν) :
    (keys (insert d key value)).Nodup := by
  rw [keys_insert]
  split
  · exact distinct
  · rename_i fresh
    exact List.nodup_append_comm.1 (List.nodup_cons.2 ⟨fresh, distinct⟩)

theorem nodup_keys_override {d : Dictionary κ ν} (distinct : (keys d).Nodup) (top : Dictionary κ ν) :
    (keys (override d top)).Nodup := by
  induction top generalizing d with
  | nil => exact distinct
  | cons pair top ih => exact ih (nodup_keys_insert distinct pair.1 pair.2)

/-- Of several pairs with one key the last one decides. -/
theorem lookup_override (d top : Dictionary κ ν) (key : κ) :
    (override d top).lookup key = (top.reverse.lookup key).or (d.lookup key) := by
  induction top generalizing d with
  | nil => rfl
  | cons pair top ih =>
    obtain ⟨first, value⟩ := pair
    rw [override_cons, ih, lookup_insert, List.reverse_cons, List.lookup_append, Option.or_assoc]
    cases same : key == first <;> simp [List.lookup_cons, same]

/-- Among pairs with different keys each one holds. -/
theorem lookup_ofList {pairs : List (κ × ν)} (distinct : (pairs.map Prod.fst).Nodup) (key : κ) (value : ν) :
    (ofList pairs).lookup key = some value ↔ (key, value) ∈ pairs := by
  have whole : ofList pairs = override [] pairs := rfl
  rw [whole, lookup_override, List.lookup_nil, Option.or_none, List.lookup_eq_some_iff]
  constructor
  · rintro ⟨after, before, split, -⟩
    rw [← List.mem_reverse, split]
    simp
  · intro member
    obtain ⟨before, after, rfl⟩ := List.append_of_mem member
    refine ⟨after.reverse, before.reverse, by simp, fun pair later => ?_⟩
    rw [List.map_append, List.map_cons] at distinct
    have fresh := (List.nodup_cons.1 (List.nodup_append.1 distinct).2.1).1
    rw [bne_iff_ne]
    rintro rfl
    exact fresh (List.mem_map.2 ⟨pair, List.mem_reverse.1 later, rfl⟩)

/-! ## Pairs -/

theorem mem_of_mem_insert {d : Dictionary κ ν} {key : κ} {value : ν} {pair : κ × ν}
    (member : pair ∈ insert d key value) : pair ∈ d ∨ pair = (key, value) := by
  induction d with
  | nil => exact .inr (List.mem_singleton.1 member)
  | cons first d ih =>
    simp only [insert, insertBy] at ih member
    by_cases same : first.1 = key
    · simp only [same, beq_self_eq_true, if_true, List.mem_cons] at member
      exact member.elim .inr fun later => .inl (List.mem_cons_of_mem _ later)
    · have unlike : (first.1 == key) = false := by simpa using same
      simp only [unlike, Bool.false_eq_true, if_false, List.mem_cons] at member
      obtain rfl | later := member
      · exact .inl List.mem_cons_self
      · exact (ih later).imp_left (List.mem_cons_of_mem _)

theorem mem_of_mem_override {d top : Dictionary κ ν} {pair : κ × ν} (member : pair ∈ override d top) :
    pair ∈ d ∨ pair ∈ top := by
  induction top generalizing d with
  | nil => exact .inl member
  | cons first top ih =>
    obtain there | later := ih member
    · obtain old | rfl := mem_of_mem_insert there
      · exact .inl old
      · exact .inr List.mem_cons_self
    · exact .inr (List.mem_cons_of_mem _ later)

theorem mem_of_mem_ofList {pairs : List (κ × ν)} {pair : κ × ν} (member : pair ∈ ofList pairs) : pair ∈ pairs :=
  (mem_of_mem_override (d := []) member).resolve_left List.not_mem_nil

theorem nodup_keys_ofList (pairs : List (κ × ν)) : (keys (ofList pairs)).Nodup :=
  nodup_keys_override (d := []) List.nodup_nil pairs

/-- A new key comes last. -/
theorem insert_of_fresh {d : Dictionary κ ν} {key : κ} (fresh : key ∉ keys d) (value : ν) :
    insert d key value = d ++ [(key, value)] := by
  induction d with
  | nil => rfl
  | cons first d ih =>
    obtain ⟨here, later⟩ := not_or.1 (mt List.mem_cons.2 fresh)
    have unlike : (first.1 == key) = false := by simpa using Ne.symm here
    have behind := ih later
    simp only [insert] at behind ⊢
    simp [insertBy, unlike, behind]

theorem override_of_nodup {d top : Dictionary κ ν} (distinct : (keys (d ++ top)).Nodup) : override d top = d ++ top := by
  induction top generalizing d with
  | nil => simp [override]
  | cons first top ih =>
    have fresh : first.1 ∉ keys d := by
      simp only [keys, List.map_append, List.map_cons] at distinct
      exact fun known => (List.nodup_append.1 distinct).2.2 _ known _ List.mem_cons_self rfl
    have regrouped : d ++ first :: top = d ++ [first] ++ top := by simp
    rw [override_cons, insert_of_fresh fresh, regrouped]
    exact ih (regrouped ▸ distinct)

theorem ofList_of_nodup {pairs : List (κ × ν)} (distinct : (keys pairs).Nodup) : ofList pairs = pairs :=
  override_of_nodup (d := []) distinct

/-! ## Insertions that change places -/

theorem insert_insert (d : Dictionary κ ν) (key : κ) (old value : ν) :
    insert (insert d key old) key value = insert d key value := by
  induction d with
  | nil => simp [insert, insertBy]
  | cons pair d ih =>
    obtain ⟨first, content⟩ := pair
    simp only [insert] at ih ⊢
    by_cases same : first = key
    · simp [insertBy, same]
    · simp [insertBy, same, ih]

/-- A key that is there keeps its place, so a later insertion may come first. -/
theorem insert_comm {d : Dictionary κ ν} {key other : κ} (known : key ∈ keys d) (apart : other ≠ key) (value content : ν) :
    insert (insert d other content) key value = insert (insert d key value) other content := by
  induction d with
  | nil => simp [keys] at known
  | cons pair d ih =>
    obtain ⟨first, old⟩ := pair
    by_cases here : first = key
    · subst here
      have unlike : (first == other) = false := by simpa using Ne.symm apart
      simp [insert, insertBy, unlike]
    · have later : key ∈ keys d := by simpa [keys, Ne.symm here] using known
      have behind := ih later
      have unlike : (first == key) = false := by simpa using here
      simp only [insert] at behind ⊢
      by_cases there : first = other
      · subst there
        simp [insertBy, unlike]
      · have unlikeToo : (first == other) = false := by simpa using there
        simp [insertBy, unlike, unlikeToo, behind]

theorem insert_override {d top : Dictionary κ ν} {key : κ} (known : key ∈ keys d) (fresh : key ∉ keys top) (value : ν) :
    insert (override d top) key value = override (insert d key value) top := by
  induction top generalizing d with
  | nil => rfl
  | cons pair top ih =>
    obtain ⟨here, later⟩ := not_or.1 (mt List.mem_cons.2 fresh)
    rw [override_cons, override_cons, ih (mem_keys_insert.2 (.inl known)) later, insert_comm known (Ne.symm here)]

/-- A pair that is put over the upper dictionary is put over both. -/
theorem override_insert (d : Dictionary κ ν) {top : Dictionary κ ν} (distinct : (keys top).Nodup) (key : κ) (value : ν) :
    override d (insert top key value) = insert (override d top) key value := by
  induction top generalizing d with
  | nil => rfl
  | cons pair top ih =>
    obtain ⟨first, old⟩ := pair
    obtain ⟨fresh, distinct⟩ := List.nodup_cons.1 distinct
    by_cases here : first = key
    · subst here
      have replaced : insert ((first, old) :: top) first value = (first, value) :: top := by simp [insert, insertBy]
      rw [replaced, override_cons, override_cons, insert_override (mem_keys_insert.2 (.inr rfl)) fresh, insert_insert]
    · have kept : insert ((first, old) :: top) key value = (first, old) :: insert top key value := by
        simp [insert, insertBy, here]
      rw [kept, override_cons, override_cons, ih _ distinct]

theorem override_override (d : Dictionary κ ν) {middle : Dictionary κ ν} (distinct : (keys middle).Nodup)
    (top : Dictionary κ ν) : override d (override middle top) = override (override d middle) top := by
  induction top using List.reverseRecOn with
  | nil => rfl
  | append_singleton top pair ih =>
    rw [override_concat, override_concat, override_insert d (nodup_keys_override distinct top), ih]

end RequestTemplate.Dictionary
