import RequestTemplate.Proofs.Filling

/-!
# Placeholders and the query

A placeholder is meant for the path of a URL, which ends before the first question mark
or hash. But a name is filled wherever it stands as a segment, and a segment may lie in
the query or reach into it. `PathOnly` says that filling leaves the query alone and keeps
the parameters that stand nowhere else. That is so exactly if each parameter, when its
turn comes, stands as a segment of the path only (`pathOnly_iff`).
-/

namespace RequestTemplate.Placeholder

/-- A character that ends the path of a URL. -/
def endsPath (c : Char) : Bool := c == '?' || c == '#'

/-- The part of a URL from its first question mark or hash on. -/
def query (url : List Char) : List Char := url.dropWhile fun c => !endsPath c

/-- The name stands as a segment that begins before the query. -/
def InPath (name url : List Char) : Prop :=
  ∃ before behind, url = before ++ behind ∧ Heads name behind ∧ ∀ c ∈ before, endsPath c = false

/-- Wherever the name stands as a segment, it ends before the query. -/
def Confined (name url : List Char) : Prop :=
  ∀ before behind, url = before ++ behind → Heads name behind → ∀ c ∈ before ++ name, endsPath c = false

/-- Placeholders touch only the path: the query stays as it is, and a parameter whose
    segment stands nowhere before it is sent with the query. -/
structure PathOnly (url : String) (parameters : List NamedValue) : Prop where
  query : query (apply url parameters).1.toList = query url.toList
  kept (p : NamedValue) (given : p ∈ parameters) (sent : p.enabled = true ∧ p.name ≠ "")
    (segment : '/' ∉ p.name.toList) (elsewhere : ¬ InPath p.name.toList url.toList) : p ∈ (apply url parameters).2

/-- Each parameter fills segments of the path only, in the URL as those before it leave it. -/
def Spares (url : String) (parameters : List NamedValue) : Prop :=
  ∀ before p after, parameters = before ++ p :: after → isPlaceholder p = true →
    Confined p.name.toList (apply url before).1.toList

/-- Names that begin with a colon, and values in which no name can begin and no path can end. -/
structure Encoded (values : List Char → Option (List Char)) : Prop where
  colon {name value : List Char} (known : values name = some value) : name.head? = some ':'
  written {name value : List Char} (known : values name = some value) : ∀ c ∈ value, c ≠ '/' ∧ c ≠ ':'
  plain {name value : List Char} (known : values name = some value) : ∀ c ∈ value, endsPath c = false

variable {p : NamedValue} {url : String} {parameters before rest : List NamedValue} {name s t u : List Char}
  {values : List Char → Option (List Char)}

/-! ## The path and the query of a text -/

theorem query_append (inside : ∀ c ∈ u, endsPath c = false) (s : List Char) : query (u ++ s) = query s :=
  List.dropWhile_append_of_pos fun c member => by simp [inside c member]

theorem query_cons_of_not {c : Char} (inside : endsPath c = false) (s : List Char) : query (c :: s) = query s :=
  List.dropWhile_cons_of_pos (by simp [inside])

theorem query_cons_of_ends {c : Char} (ends : endsPath c = true) (s : List Char) : query (c :: s) = c :: s :=
  List.dropWhile_cons_of_neg (by simp [ends])

theorem Confined.tail (confined : Confined name (u ++ s)) : Confined name s := by
  intro before behind split heads c member
  refine confined (u ++ before) behind (by rw [split, List.append_assoc]) heads c ?_
  rw [List.append_assoc]
  exact List.mem_append_right u member

theorem Confined.not_ends (confined : Confined name s) (heads : Heads name s) : ∀ c ∈ name, endsPath c = false :=
  confined [] s rfl heads

theorem confined_of_not_occurs (none : ¬ Occurs name s) : Confined name s :=
  fun before behind split heads => absurd ⟨before, behind, split, heads⟩ none

theorem Confined.cons {c : Char} (confined : Confined name s)
    (here : Heads name (c :: s) → ∀ d ∈ name, endsPath d = false) (inside : endsPath c = false) :
    Confined name (c :: s) := by
  intro before behind split heads
  cases before with
  | nil =>
    obtain rfl : c :: s = behind := split
    exact here heads
  | cons b before =>
    obtain ⟨rfl, later⟩ := List.cons.inj split
    exact List.forall_mem_cons.2 ⟨inside, confined before behind later heads⟩

theorem Confined.append (confined : Confined name s) (named : ∀ c ∈ name, endsPath c = false)
    (inside : ∀ c ∈ u, endsPath c = false) : Confined name (u ++ s) := by
  induction u with
  | nil => exact confined
  | cons c u ih =>
    obtain ⟨here, later⟩ := List.forall_mem_cons.1 inside
    exact (ih later).cons (fun _ => named) here

/-- Behind the end of the path a confined name stands nowhere. -/
theorem Confined.not_occurs {c : Char} (confined : Confined name (c :: s)) (ends : endsPath c = true) :
    ¬ Occurs name s := by
  rintro ⟨before, behind, rfl, heads⟩
  have inside := confined (c :: before) behind rfl heads c List.mem_cons_self
  exact absurd (ends.symm.trans inside) (by decide)

theorem Confined.inPath (confined : Confined name s) (occurs : Occurs name s) : InPath name s := by
  obtain ⟨before, behind, split, heads⟩ := occurs
  exact ⟨before, behind, split, heads, fun c member =>
    confined before behind split heads c (List.mem_append_left name member)⟩

theorem inPath_cons_iff {c : Char} :
    InPath name (c :: s) ↔ Heads name (c :: s) ∨ endsPath c = false ∧ InPath name s := by
  constructor
  · rintro ⟨before, behind, split, heads, inside⟩
    cases before with
    | nil =>
      obtain rfl : c :: s = behind := split
      exact .inl heads
    | cons b before =>
      obtain ⟨rfl, later⟩ := List.cons.inj split
      obtain ⟨here, inside⟩ := List.forall_mem_cons.1 inside
      exact .inr ⟨here, before, behind, later, heads, inside⟩
  · rintro (heads | ⟨here, before, behind, rfl, heads, inside⟩)
    · exact ⟨[], c :: s, rfl, heads, by simp⟩
    · exact ⟨c :: before, behind, rfl, heads, List.forall_mem_cons.2 ⟨here, inside⟩⟩

theorem InPath.append (stands : InPath name s) (inside : ∀ c ∈ u, endsPath c = false) : InPath name (u ++ s) := by
  obtain ⟨before, behind, rfl, heads, earlier⟩ := stands
  exact ⟨u ++ before, behind, (List.append_assoc ..).symm, heads, List.forall_mem_append.2 ⟨inside, earlier⟩⟩

theorem InPath.of_append (slashless : '/' ∉ u) (stands : InPath name (u ++ s)) : InPath name s := by
  induction u with
  | nil => exact stands
  | cons c u ih =>
    obtain ⟨here, later⟩ := not_or.1 (mt List.mem_cons.2 slashless)
    rcases inPath_cons_iff.1 stands with heads | ⟨-, stands⟩
    · exact absurd heads (not_heads_of_ne (Ne.symm here) name _)
    · exact ih later stands

/-! ## Where a substitution can reach

A segment that is filled loses the colon that its name begins with, and no value brings
in a colon or the end of a path. So these characters tell whether the query was reached,
also by several substitutions one after the other. -/

/-- How many colons, question marks and hashes the text holds. -/
def marks (s : List Char) : Nat := s.countP fun c => c == ':' || endsPath c

theorem marks_eq_zero (inside : ∀ c ∈ u, c ≠ ':' ∧ endsPath c = false) : marks u = 0 := by
  rw [marks, List.countP_eq_zero]
  intro c member
  simp [inside c member]

theorem marks_append (s t : List Char) : marks (s ++ t) = marks s + marks t := List.countP_append

theorem marks_query_le (s : List Char) : marks (query s) ≤ marks s :=
  (List.dropWhile_suffix _).sublist.countP_le

theorem marks_cons (c : Char) (s : List Char) : marks (c :: s) = marks [c] + marks s := marks_append [c] s

/-- The query holds what stands behind the end of the path, and the end itself. -/
theorem marks_lt_query (reaches : ¬ ∀ c ∈ u, endsPath c = false) (s : List Char) : marks s < marks (query (u ++ s)) := by
  induction u with
  | nil => simp at reaches
  | cons c u ih =>
    rw [List.cons_append]
    cases ends : endsPath c with
    | true =>
      have here : marks [c] = 1 := by simp [marks, ends]
      rw [query_cons_of_ends ends, marks_cons, marks_append, here]
      omega
    | false =>
      rw [query_cons_of_not ends]
      exact ih fun inside => reaches (List.forall_mem_cons.2 ⟨ends, inside⟩)

namespace Substituted

/-- Nothing happens where no name stands. -/
theorem eq_of_not_occurs (substituted : Substituted values s t)
    (none : ∀ name value, values name = some value → ¬ Occurs name s) : t = s := by
  induction substituted with
  | nil => rfl
  | @filled name value rest result known ends later ih =>
    exact absurd (occurs_cons_iff.2 (.inl ⟨rest, rfl, ends⟩)) (none name value known)
  | copied apart later ih =>
    rw [ih fun name value known occurs => none name value known (occurs_cons_iff.2 (.inr occurs))]

/-- Names that are confined to the path leave the query as it is. -/
theorem query_eq (encoded : Encoded values) (substituted : Substituted values s t)
    (confined : ∀ name value, values name = some value → Confined name s) : query t = query s := by
  induction substituted with
  | nil => rfl
  | @filled name value rest result known ends later ih =>
    have inside := (confined name value known).not_ends ⟨rest, rfl, ends⟩
    have behind := ih fun other content found => Confined.tail (u := '/' :: name) (confined other content found)
    rw [query_cons_of_not rfl, query_append (encoded.plain known), behind, query_cons_of_not rfl, query_append inside]
  | @copied c rest result apart later ih =>
    cases ends : endsPath c with
    | true => rw [later.eq_of_not_occurs fun name value known => (confined name value known).not_occurs ends]
    | false =>
      rw [query_cons_of_not ends, query_cons_of_not ends]
      exact ih fun name value known => Confined.tail (u := [c]) (confined name value known)

/-- What is filled in brings no mark along. -/
theorem marks_filled (encoded : Encoded values) {value result : List Char} (known : values name = some value) :
    marks ('/' :: (value ++ result)) = marks result := by
  have none : marks ('/' :: value) = 0 := marks_eq_zero <| List.forall_mem_cons.2 ⟨by decide, fun c member =>
    ⟨(encoded.written known c member).2, encoded.plain known c member⟩⟩
  rw [← List.cons_append, marks_append, none, Nat.zero_add]

/-- A name has at least one mark. -/
theorem marks_lt_segment (encoded : Encoded values) {value : List Char} (known : values name = some value)
    (s : List Char) : marks s < marks (name ++ s) := by
  obtain ⟨more, rfl⟩ := List.head?_eq_some_iff.1 (encoded.colon known)
  rw [marks_append, marks, marks, List.countP_cons_of_pos (by decide)]
  omega

theorem marks_le (encoded : Encoded values) (substituted : Substituted values s t) : marks t ≤ marks s := by
  induction substituted with
  | nil => exact Nat.le_refl _
  | @filled name value rest result known ends later ih =>
    have fewer := marks_lt_segment encoded known rest
    rw [marks_filled encoded known, marks_cons]
    omega
  | @copied c rest result apart later ih =>
    rw [marks_cons c result, marks_cons c rest]
    omega

theorem marks_lt (encoded : Encoded values) (substituted : Substituted values s t) {value : List Char}
    (known : values name = some value) (occurs : Occurs name s) : marks t < marks s := by
  induction substituted with
  | nil => exact absurd occurs (occurs_nil name)
  | @filled other content rest result found ends later ih =>
    have fewer := marks_lt_segment encoded found rest
    have least := later.marks_le encoded
    rw [marks_filled encoded found, marks_cons]
    omega
  | @copied c rest result apart later ih =>
    have behind := (occurs_cons_iff.1 occurs).resolve_left (apart name value known)
    have fewer := ih behind
    rw [marks_cons c result, marks_cons c rest]
    omega

/-- A name that stands behind the path, or reaches out of it, costs the query a mark. -/
theorem marks_query_lt (encoded : Encoded values) (substituted : Substituted values s t) {value : List Char}
    (known : values name = some value) (only : ∀ other content, values other = some content → other = name)
    (reaches : ¬ Confined name s) : marks (query t) < marks (query s) := by
  induction substituted with
  | nil => exact absurd (confined_of_not_occurs (occurs_nil name)) reaches
  | @filled other content rest result found ends later ih =>
    obtain rfl := only other content found
    rw [query_cons_of_not rfl, query_append (encoded.plain found), query_cons_of_not rfl]
    by_cases inside : ∀ c ∈ other, endsPath c = false
    · -- the segment at the head lies in the path, so one behind it does not
      rw [query_append inside]
      exact ih fun confined => reaches (confined.append inside (u := '/' :: other) (List.forall_mem_cons.2 ⟨rfl, inside⟩))
    · calc marks (query result) ≤ marks result := marks_query_le result
        _ ≤ marks rest := later.marks_le encoded
        _ < marks (query (other ++ rest)) := marks_lt_query inside rest
  | @copied c rest result apart later ih =>
    have apart := apart name value known
    cases ends : endsPath c with
    | true =>
      have occurs : Occurs name rest := by
        by_contra none
        exact reaches (confined_of_not_occurs fun occurs => none ((occurs_cons_iff.1 occurs).resolve_left apart))
      have fewer := later.marks_lt encoded known occurs
      rw [query_cons_of_ends ends, query_cons_of_ends ends, marks_cons c result, marks_cons c rest]
      omega
    | false =>
      rw [query_cons_of_not ends, query_cons_of_not ends]
      exact ih fun confined => reaches (confined.cons (fun heads => absurd heads apart) ends)

/-- A segment of the path stood there before. -/
theorem inPath (encoded : Encoded values) (substituted : Substituted values s t)
    (confined : ∀ name value, values name = some value → Confined name s) (slashless : '/' ∉ name)
    (colon : name.head? = some ':') (stands : InPath name t) : InPath name s := by
  induction substituted with
  | nil => exact stands
  | @filled other content rest result found ends later ih =>
    have inside := (confined other content found).not_ends ⟨rest, rfl, ends⟩
    rcases inPath_cons_iff.1 stands with heads | ⟨-, stands⟩
    · exact absurd heads (not_heads_filled (encoded.written found) ends later colon)
    · have behind := stands.of_append (slashless_of_written (encoded.written found))
      have stood := ih (fun other content found => Confined.tail (u := '/' :: _) (confined other content found)) behind
      exact stood.append (u := '/' :: other) (List.forall_mem_cons.2 ⟨rfl, inside⟩)
  | @copied c rest result apart later ih =>
    rcases inPath_cons_iff.1 stands with heads | ⟨inside, stands⟩
    · exact inPath_cons_iff.2 (.inl ((heads_copied_iff slashless later).1 heads))
    · have stood := ih (fun other content found => Confined.tail (u := [c]) (confined other content found)) stands
      exact inPath_cons_iff.2 (.inr ⟨inside, stood⟩)

end Substituted

/-! ## One parameter -/

theorem endsPath_of_mem_encode {text : String} {c : Char} (written : c ∈ (Percent.encode text).toList) :
    endsPath c = false := by
  have allowed := Percent.unreserved_of_mem_encode written
  rw [← Bool.not_eq_true, endsPath, Bool.or_eq_true, beq_iff_eq, beq_iff_eq]
  rintro (rfl | rfl)
  · exact absurd allowed (by decide)
  · exact absurd allowed (by decide)

theorem encoded_filling (parameters : List NamedValue) : Encoded (filling parameters) := by
  have given {name value : List Char} (known : filling parameters name = some value) :
      name.head? = some ':' ∧ ∃ text : String, (Percent.encode text).toList = value := by
    obtain ⟨p, found, rfl⟩ := Option.map_eq_some_iff.1 known
    have fills := List.find?_some found
    simp only [Bool.and_eq_true, beq_iff_eq] at fills
    exact ⟨fills.2 ▸ (isPlaceholder_iff.1 fills.1).2, p.value, rfl⟩
  constructor
  · exact fun known => (given known).1
  · intro name value known
    obtain ⟨-, text, rfl⟩ := given known
    exact fun c written => Percent.ne_of_mem_encode written
  · intro name value known
    obtain ⟨-, text, rfl⟩ := given known
    exact fun c written => endsPath_of_mem_encode written

theorem of_filling_singleton {value : List Char} (known : filling [p] name = some value) :
    isPlaceholder p = true ∧ p.name.toList = name := by
  rw [filling_singleton] at known
  split at known
  · assumption
  · cases known

theorem confined_filling (confined : isPlaceholder p = true → Confined p.name.toList s) (name value : List Char)
    (known : filling [p] name = some value) : Confined name s := by
  obtain ⟨fills, rfl⟩ := of_filling_singleton known
  exact confined fills

theorem query_fill (confined : isPlaceholder p = true → Confined p.name.toList url.toList) :
    query (fill p url).toList = query url.toList :=
  (substituted_fill p url).query_eq (encoded_filling [p]) (confined_filling confined)

theorem marks_query_fill_lt (fills : isPlaceholder p = true) (reaches : ¬ Confined p.name.toList url.toList) :
    marks (query (fill p url).toList) < marks (query url.toList) := by
  have known : filling [p] p.name.toList = some (Percent.encode p.value).toList := by
    rw [filling_singleton, if_pos ⟨fills, rfl⟩]
  refine (substituted_fill p url).marks_query_lt (encoded_filling [p]) known (fun other content found => ?_) reaches
  exact (of_filling_singleton found).2.symm

theorem fill_of_not_occurs (none : ¬ Occurs p.name.toList url.toList) : fill p url = url := by
  refine String.toList_inj.1 ((substituted_fill p url).eq_of_not_occurs fun name value known => ?_)
  obtain ⟨-, rfl⟩ := of_filling_singleton known
  exact none

/-! ## All parameters in turn -/

theorem apply_append (url : String) (before rest : List NamedValue) :
    apply url (before ++ rest) =
      ((apply (apply url before).1 rest).1, (apply url before).2 ++ (apply (apply url before).1 rest).2) := by
  induction before generalizing url with
  | nil => rfl
  | cons p before ih =>
    rw [List.cons_append, apply_cons, apply_cons, ih]
    split <;> rfl

theorem spares_cons_iff : Spares url (p :: rest) ↔
    (isPlaceholder p = true → Confined p.name.toList url.toList) ∧ Spares (fill p url) rest := by
  constructor
  · intro spares
    refine ⟨spares [] p rest rfl, fun before q after split => ?_⟩
    have later := spares (p :: before) q after (congrArg (p :: ·) split)
    rwa [apply_cons] at later
  · rintro ⟨here, later⟩ before q after split
    cases before with
    | nil =>
      obtain ⟨rfl, -⟩ := List.cons.inj split
      exact here
    | cons b before =>
      obtain ⟨rfl, behind⟩ := List.cons.inj split
      rw [apply_cons]
      exact later before q after behind

theorem marks_query_apply_le (url : String) (parameters : List NamedValue) :
    marks (query (apply url parameters).1.toList) ≤ marks (query url.toList) := by
  induction parameters generalizing url with
  | nil => exact Nat.le_refl _
  | cons p rest ih =>
    rw [apply_cons]
    refine (ih (fill p url)).trans ?_
    by_cases confined : isPlaceholder p = true → Confined p.name.toList url.toList
    · rw [query_fill confined]
    · obtain ⟨fills, reaches⟩ := Classical.not_imp.1 confined
      exact (marks_query_fill_lt fills reaches).le

/-- The query stays exactly if no parameter reaches it in its turn: what one takes from
    it none gives back. -/
theorem query_apply_eq_iff : query (apply url parameters).1.toList = query url.toList ↔ Spares url parameters := by
  induction parameters generalizing url with
  | nil => exact iff_of_true rfl fun before p after split => by simp at split
  | cons p rest ih =>
    rw [apply_cons, spares_cons_iff]
    by_cases confined : isPlaceholder p = true → Confined p.name.toList url.toList
    · rw [← query_fill confined, ih]
      exact (and_iff_right confined).symm
    · obtain ⟨fills, reaches⟩ := Classical.not_imp.1 confined
      refine iff_of_false (fun same => ?_) fun spares => confined spares.1
      have fewer := marks_query_fill_lt fills reaches
      have least := marks_query_apply_le (fill p url) rest
      rw [same] at least
      omega

theorem inPath_of_apply (spares : Spares url parameters) (slashless : '/' ∉ name) (colon : name.head? = some ':')
    (stands : InPath name (apply url parameters).1.toList) : InPath name url.toList := by
  induction parameters generalizing url with
  | nil => exact stands
  | cons p rest ih =>
    obtain ⟨confined, later⟩ := spares_cons_iff.1 spares
    rw [apply_cons] at stands
    exact (substituted_fill p url).inPath (encoded_filling [p]) (confined_filling confined) slashless colon
      (ih later stands)

/-- Placeholders touch only the path exactly if each of them, in its turn, stands as a
    segment of the path only. -/
theorem pathOnly_iff (url : String) (parameters : List NamedValue) :
    PathOnly url parameters ↔ Spares url parameters := by
  refine ⟨fun only => query_apply_eq_iff.1 only.query, fun spares => ⟨query_apply_eq_iff.2 spares, ?_⟩⟩
  intro p given sent segment elsewhere
  obtain ⟨before, after, rfl⟩ := List.append_of_mem given
  have same : fill p (apply url before).1 = (apply url before).1 := by
    by_cases fills : isPlaceholder p = true
    · have earlier : Spares url before := fun first q behind split =>
        spares first q (behind ++ p :: after) (by rw [split]; simp)
      have confined := spares before p after rfl fills
      refine fill_of_not_occurs fun occurs => elsewhere ?_
      exact inPath_of_apply earlier segment (isPlaceholder_iff.1 fills).2 (confined.inPath occurs)
    · exact fill_of_not fills _
  rw [apply_append, apply_cons, if_pos ⟨sent.1, sent.2, same⟩]
  exact List.mem_append_right _ List.mem_cons_self

/-- A path that the query carries is filled, and its parameter is not sent. -/
theorem not_pathOnly_query :
    let url := "https://x.com/a?next=/:id"
    let id : NamedValue := { name := ":id", value := "42" }
    apply url [id] = ("https://x.com/a?next=/42", []) ∧ ¬ PathOnly url [id] := by
  intro url id
  refine ⟨by decide +kernel, fun only => ?_⟩
  exact absurd only.query (by decide +kernel)

end RequestTemplate.Placeholder
