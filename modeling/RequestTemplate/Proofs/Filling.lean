import RequestTemplate.Proofs.Substitution

/-!
# Parameters fill a URL at once

Parameters fill a URL in turn, and one that changes nothing remains for the query. Both
can be told from the original URL: it is filled by one substitution, in which a name has
the value of its first parameter, and the parameters that remain are all but the first
of each name that stands in the URL (`atOnce_of_undivided`).
-/

namespace RequestTemplate.Placeholder

/-- What the segments of a name are filled with: the encoded value of the first enabled
    parameter of the name. -/
def filling (parameters : List NamedValue) (name : List Char) : Option (List Char) :=
  (parameters.find? fun p => isPlaceholder p && p.name.toList == name).map fun p => (Percent.encode p.value).toList

/-- The parameter fills segments of the URL: its name stands there, and no placeholder
    before it has that name. -/
def Spent (url : String) (before : List NamedValue) (p : NamedValue) : Prop :=
  isPlaceholder p = true ∧ Occurs p.name.toList url.toList ∧ ∀ q ∈ before, isPlaceholder q = true → q.name ≠ p.name

/-- The parameter is sent with the query. -/
def Remains (url : String) (before : List NamedValue) (p : NamedValue) : Prop :=
  p.enabled = true ∧ p.name ≠ "" ∧ ¬ Spent url before p

instance (url : String) (before : List NamedValue) (p : NamedValue) : Decidable (Spent url before p) :=
  inferInstanceAs (Decidable (_ ∧ _ ∧ _))

instance (url : String) (before : List NamedValue) (p : NamedValue) : Decidable (Remains url before p) :=
  inferInstanceAs (Decidable (_ ∧ _ ∧ _))

/-- The parameters for the query, each judged by the URL and the parameters before it. -/
def remaining (url : String) (parameters : List NamedValue) : List NamedValue :=
  ((parameters.zip parameters.inits).filter fun entry => Remains url entry.2 entry.1).map Prod.fst

/-- Applying the parameters is one substitution in the URL. -/
structure AtOnce (url : String) (parameters : List NamedValue) : Prop where
  filled (result : String) :
    (apply url parameters).1 = result ↔ Substituted (filling parameters) url.toList result.toList
  remaining : (apply url parameters).2 = remaining url parameters
  /-- No parameter is lost that fills nothing. -/
  kept (p : NamedValue) (given : p ∈ parameters) (sent : p.enabled = true ∧ p.name ≠ "")
    (idle : isPlaceholder p = true → ¬ Occurs p.name.toList url.toList) : p ∈ (apply url parameters).2
  /-- No segment that could be filled is left, also none that a value has brought in. -/
  exhausted (p : NamedValue) (given : p ∈ parameters) (fills : isPlaceholder p = true) :
    ¬ Occurs p.name.toList (apply url parameters).1.toList
  /-- Parameters of other names may change places. -/
  ordered (others : List NamedValue)
    (same : ∀ name, (others.filter (·.name = name)) = parameters.filter (·.name = name)) :
    (apply url others).1 = (apply url parameters).1

variable {p q : NamedValue} {url : String} {parameters before rest : List NamedValue} {name : List Char}

/-! ## One parameter -/

theorem filling_singleton (p : NamedValue) (name : List Char) :
    filling [p] name =
      if isPlaceholder p = true ∧ p.name.toList = name then some (Percent.encode p.value).toList else none := by
  by_cases fills : isPlaceholder p = true ∧ p.name.toList = name
  · simp [filling, fills]
  · rw [if_neg fills]
    simpa [filling] using fills

theorem filling_cons (p : NamedValue) (rest : List NamedValue) :
    filling (p :: rest) = fun name => (filling [p] name).or (filling rest name) := by
  funext name
  rw [filling_singleton, filling, List.find?_cons]
  by_cases fills : isPlaceholder p = true ∧ p.name.toList = name
  · simp [fills]
  · rw [if_neg fills, Option.none_or]
    have other : (isPlaceholder p && p.name.toList == name) = false := by simpa using fills
    rw [other]
    rfl

theorem isPlaceholder_iff : isPlaceholder p = true ↔ p.enabled = true ∧ p.name.toList.head? = some ':' := by
  simp [isPlaceholder]

/-- A parameter of another kind fills nothing. -/
theorem fill_of_not (other : ¬ isPlaceholder p = true) (url : String) : fill p url = url :=
  if_neg other

theorem substituted_fillFrom {values : List Char → Option (List Char)} {value : List Char}
    (only : ∀ other, values other = if other = name then some value else none) (s : List Char) :
    Substituted values s (fillFrom name value 0 s) := by
  induction len : s.length using Nat.strong_induction_on generalizing s with
  | _ n ih =>
    subst len
    cases s with
    | nil => exact .nil
    | cons c s =>
      by_cases heads : Heads name (c :: s)
      · obtain ⟨rest, eq, ends⟩ := heads
        obtain ⟨rfl, rfl⟩ := List.cons.inj eq
        rw [fillFrom_of_heads ends]
        exact .filled (by rw [only, if_pos rfl]) ends (ih rest.length (by simp) rest rfl)
      · rw [fillFrom_of_not_heads heads]
        refine .copied (fun other found known => ?_) (ih s.length (by simp) s rfl)
        rw [only] at known
        split at known
        · rename_i same
          rwa [same]
        · cases known

theorem substituted_fill (p : NamedValue) (url : String) :
    Substituted (filling [p]) url.toList (fill p url).toList := by
  by_cases fills : isPlaceholder p = true
  · rw [fill, if_pos fills, String.toList_ofList]
    refine substituted_fillFrom (fun other => ?_) url.toList
    rw [filling_singleton]
    simp [fills, eq_comm]
  · have none : filling [p] = fun _ => none := by
      funext name
      rw [filling_singleton, if_neg fun both => fills both.1]
    rw [fill_of_not fills, none]
    exact .of_none _

/-- The placeholders among the parameters have names that are segments. -/
def Segments (parameters : List NamedValue) : Prop :=
  ∀ p ∈ parameters, isPlaceholder p = true → Undivided p.name.toList

theorem fit_filling (segments : Segments parameters) : Fit (filling parameters) := by
  have given {name value : List Char} (known : filling parameters name = some value) :
      ∃ p ∈ parameters, isPlaceholder p = true ∧ p.name.toList = name ∧ (Percent.encode p.value).toList = value := by
    obtain ⟨p, found, rfl⟩ := Option.map_eq_some_iff.1 known
    have fills := List.find?_some found
    simp only [Bool.and_eq_true, beq_iff_eq] at fills
    exact ⟨p, List.mem_of_find?_eq_some found, fills.1, fills.2, rfl⟩
  constructor
  · intro name value known
    obtain ⟨p, member, fills, rfl, -⟩ := given known
    exact segments p member fills
  · intro name value known
    obtain ⟨p, -, fills, rfl, -⟩ := given known
    exact (isPlaceholder_iff.1 fills).2
  · intro name value known
    obtain ⟨p, -, -, -, rfl⟩ := given known
    exact fun c written => Percent.ne_of_mem_encode written

theorem Segments.of_mem (segments : Segments parameters) (member : p ∈ parameters) : Segments [p] := by
  intro q same
  obtain rfl := List.mem_singleton.1 same
  exact segments q member

theorem Segments.head (segments : Segments (p :: rest)) : Segments [p] :=
  segments.of_mem List.mem_cons_self

theorem Segments.tail (segments : Segments (p :: rest)) : Segments rest :=
  fun q member => segments q (List.mem_cons_of_mem _ member)

/-- A parameter changes the URL exactly if it fills a segment of it. -/
theorem fill_eq_self_iff (segments : Segments [p]) : fill p url = url ↔ ¬ Spent url [] p := by
  rw [← String.toList_inj, (substituted_fill p url).eq_self_iff (fit_filling segments)]
  simp only [filling_singleton, Spent, List.not_mem_nil, false_implies, implies_true, and_true, not_and]
  constructor
  · intro none fills
    exact none p.name.toList (Percent.encode p.value).toList (if_pos ⟨fills, rfl⟩)
  · intro none name value known
    split at known
    · rename_i fills
      exact fills.2 ▸ none fills.1
    · cases known

/-- What a parameter fills is not there for those behind it. -/
theorem spent_fill_iff (segments : Segments [p]) (segment : Segments [q]) :
    Spent (fill p url) before q ↔ Spent url (p :: before) q := by
  unfold Spent
  refine and_congr_right fun fills => ?_
  have undivided := segment q List.mem_cons_self fills
  rw [(substituted_fill p url).occurs_iff (fit_filling segments) undivided (isPlaceholder_iff.1 fills).2,
    filling_singleton, List.forall_mem_cons, and_assoc]
  refine and_congr_right fun _ => and_congr_left fun _ => ?_
  simp [String.toList_inj]

/-! ## All parameters in turn -/

theorem apply_cons (url : String) (p : NamedValue) (rest : List NamedValue) :
    apply url (p :: rest) =
      ((apply (fill p url) rest).1,
        if p.enabled ∧ p.name ≠ "" ∧ fill p url = url then p :: (apply (fill p url) rest).2
        else (apply (fill p url) rest).2) := by
  rw [apply]
  by_cases skipped : (!p.enabled || p.name == "") = true
  · have other : ¬ isPlaceholder p = true := by
      intro fills
      obtain ⟨enabled, colon⟩ := isPlaceholder_iff.1 fills
      rcases Bool.or_eq_true_iff.1 skipped with off | empty
      · simp [enabled] at off
      · simp [beq_iff_eq.1 empty] at colon
    rw [if_pos skipped, fill_of_not other, if_neg]
    rintro ⟨enabled, named, -⟩
    simp [enabled, named] at skipped
  · rw [if_neg skipped]
    have kept : p.enabled = true ∧ p.name ≠ "" := by simpa using skipped
    by_cases same : fill p url = url
    · simp [same, kept]
    · simp [same]

/-- Filling in turn is one substitution. -/
theorem substituted_apply (segments : Segments parameters) (url : String) :
    Substituted (filling parameters) url.toList (apply url parameters).1.toList := by
  induction parameters generalizing url with
  | nil => exact .of_none _
  | cons p rest ih =>
    rw [apply_cons, filling_cons]
    exact (substituted_fill p url).trans (fit_filling segments.head) (fit_filling segments.tail)
      (ih segments.tail (fill p url))

theorem remaining_cons (url : String) (p : NamedValue) (rest : List NamedValue) :
    remaining url (p :: rest) =
      (if Remains url [] p then [p] else []) ++
        ((rest.zip rest.inits).filter fun entry => Remains url (p :: entry.2) entry.1).map Prod.fst := by
  rw [remaining, List.inits_cons, List.zip_cons_cons, List.zip_map_right, List.filter_cons, List.filter_map]
  by_cases remains : Remains url [] p
  · simp [remains, Function.comp_def]
  · simp [remains, Function.comp_def]

theorem snd_apply (segments : Segments parameters) (url : String) :
    (apply url parameters).2 = remaining url parameters := by
  induction parameters generalizing url with
  | nil => rfl
  | cons p rest ih =>
    have later : remaining (fill p url) rest =
        ((rest.zip rest.inits).filter fun entry => Remains url (p :: entry.2) entry.1).map Prod.fst := by
      rw [remaining]
      refine congrArg (List.map Prod.fst) (List.filter_congr fun entry member => decide_eq_decide.2 ?_)
      have segment : Segments [entry.1] := segments.tail.of_mem (List.of_mem_zip member).1
      rw [Remains, Remains, spent_fill_iff segments.head segment]
    have here : (p.enabled ∧ p.name ≠ "" ∧ fill p url = url) ↔ Remains url [] p := by
      rw [Remains, fill_eq_self_iff segments.head]
    rw [apply_cons, remaining_cons, ← later, ← ih segments.tail]
    by_cases remains : Remains url [] p
    · rw [if_pos remains, if_pos (here.2 remains)]
      rfl
    · rw [if_neg remains, if_neg (mt here.1 remains)]
      rfl

theorem mem_zip_inits_iff {α : Type} {l before : List α} {x : α} :
    (x, before) ∈ l.zip l.inits ↔ ∃ after, l = before ++ x :: after := by
  induction l generalizing before with
  | nil => simp
  | cons a l ih =>
    rw [List.inits_cons, List.zip_cons_cons, List.zip_map_right, List.mem_cons, List.mem_map]
    constructor
    · rintro (same | ⟨⟨y, b⟩, member, same⟩)
      · obtain ⟨rfl, rfl⟩ := Prod.mk.inj same
        exact ⟨l, rfl⟩
      · obtain ⟨rfl, rfl⟩ := Prod.mk.inj same
        obtain ⟨after, rfl⟩ := ih.1 member
        exact ⟨after, rfl⟩
    · rintro ⟨after, eq⟩
      cases before with
      | nil =>
        obtain ⟨rfl, -⟩ := List.cons.inj eq
        exact .inl rfl
      | cons b before =>
        obtain ⟨rfl, rfl⟩ := List.cons.inj eq
        exact .inr ⟨(x, before), ih.2 ⟨after, rfl⟩, rfl⟩

theorem mem_remaining_iff : p ∈ remaining url parameters ↔
    ∃ before after, parameters = before ++ p :: after ∧ Remains url before p := by
  rw [remaining, List.mem_map]
  constructor
  · rintro ⟨⟨_, before⟩, member, rfl⟩
    obtain ⟨stands, remains⟩ := List.mem_filter.1 member
    obtain ⟨after, split⟩ := mem_zip_inits_iff.1 stands
    exact ⟨before, after, split, of_decide_eq_true remains⟩
  · rintro ⟨before, after, split, remains⟩
    exact ⟨(p, before), List.mem_filter.2 ⟨mem_zip_inits_iff.2 ⟨after, split⟩, decide_eq_true remains⟩, rfl⟩

theorem filling_eq_none_iff : filling parameters name = none ↔
    ∀ p ∈ parameters, isPlaceholder p = true → p.name.toList ≠ name := by
  simp [filling]

/-- What fills a name depends on the parameters of that name alone. -/
theorem filling_filter (parameters : List NamedValue) (name : List Char) :
    filling (parameters.filter (·.name = String.ofList name)) name = filling parameters name := by
  rw [filling, List.find?_filter, filling]
  congr 2
  funext p
  by_cases same : p.name.toList = name
  · subst same
    simp
  · simp [same]

/-- Parameters whose names are segments fill a URL at once, whatever their values are. -/
theorem atOnce_of_undivided (segments : Segments parameters) (url : String) : AtOnce url parameters := by
  have substituted := substituted_apply segments url
  have fit := fit_filling segments
  refine ⟨fun result => ⟨?into, ?back⟩, snd_apply segments url, ?kept, ?exhausted, ?ordered⟩
  case into =>
    rintro rfl
    exact substituted
  case back =>
    intro again
    exact String.toList_inj.1 (substituted.unique fit again)
  case kept =>
    intro p given sent idle
    obtain ⟨before, after, split⟩ := List.append_of_mem given
    rw [snd_apply segments]
    exact mem_remaining_iff.2 ⟨before, after, split, sent.1, sent.2, fun spent => idle spent.1 spent.2.1⟩
  case exhausted =>
    intro p given fills occurs
    have undivided := segments p given fills
    have unfilled := ((substituted.occurs_iff fit undivided (isPlaceholder_iff.1 fills).2).1 occurs).2
    exact filling_eq_none_iff.1 unfilled p given fills rfl
  case ordered =>
    intro others same
    have alike : filling others = filling parameters := by
      funext name
      rw [← filling_filter, same, filling_filter]
    have given : Segments others := fun p member => by
      have found : p ∈ others.filter (·.name = p.name) := List.mem_filter.2 ⟨member, by simp⟩
      rw [same] at found
      exact segments p (List.mem_of_mem_filter found)
    have filled := substituted_apply given url
    rw [alike] at filled
    exact String.toList_inj.1 (filled.unique fit substituted)

/-- One name begins another, segments stand back to back, a value holds a name that comes
    later, another value is empty, and one name is given twice. -/
theorem atOnce_of_undivided_names :
    let url := "http://h/:a/:a/:ab/:b/:c\n"
    let a : NamedValue := { name := ":a", value := "/:b" }
    let again : NamedValue := { name := ":a", value := "x" }
    let ab : NamedValue := { name := ":ab", value := "" }
    let b : NamedValue := { name := ":b", value := ":c" }
    let c : NamedValue := { name := ":c", value := "y", enabled := false }
    let query : NamedValue := { name := "q", value := "z" }
    let parameters := [a, again, ab, query, b, c]
    Segments parameters ∧ (apply url parameters).1 = "http://h/%2F%3Ab/%2F%3Ab//%3Ac/:c\n" ∧
      (apply url parameters).2 = [again, query] := by
  intro url a again ab b c query parameters
  have segments : Segments parameters := by
    simp [Segments, Undivided, parameters, a, again, ab, b, c, query]
  have atOnce := atOnce_of_undivided segments url
  exact ⟨segments, by decide +kernel, atOnce.remaining.trans (by decide +kernel)⟩

end RequestTemplate.Placeholder
