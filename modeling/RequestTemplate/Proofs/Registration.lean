import Mathlib
import RequestTemplate.Function.Registry

/-!
# Histories of a registry

A registration looks up all names of a function before it enters the first one, so a
registration that is refused leaves no trace (`on_registering`). Whatever functions a
registry is asked to take, it knows those that it took by all their names and no others
(`sound_registered`).
-/

namespace RequestTemplate.Registry

variable {σ α β : Type}

/-! ## Registration in place -/

theorem InPlace.on_bind_of_ok {p : InPlace σ α} {r next : Registry σ} {a : α} (done : p.on r = (.ok a, next))
    (f : α → InPlace σ β) : (p >>= f).on r = (f a).on next := by
  simp only [on] at done ⊢
  rw [ExceptT.run_bind, StateT.run_bind, done]
  rfl

theorem InPlace.on_bind_of_error {p : InPlace σ α} {r next : Registry σ} {failure : Failure}
    (failed : p.on r = (.error failure, next)) (f : α → InPlace σ β) :
    (p >>= f).on r = (.error failure, next) := by
  simp only [on] at failed ⊢
  rw [ExceptT.run_bind, StateT.run_bind, failed]
  rfl

theorem on_refuseTaken (name : String) (r : Registry σ) :
    (refuseTaken name).on r =
      if r.contains name then (.error (.alreadyRegistered name), r) else (.ok (), r) := by
  have read : (getThe (Registry σ) : InPlace σ (Registry σ)).on r = (.ok r, r) := rfl
  rw [refuseTaken, InPlace.on_bind_of_ok read]
  split <;> rfl

theorem on_lookups (names : List String) (r : Registry σ) :
    (forM names refuseTaken : InPlace σ Unit).on r =
      match names.find? r.contains with
      | some name => (.error (.alreadyRegistered name), r)
      | none => (.ok (), r) := by
  induction names with
  | nil => rfl
  | cons name names ih =>
    have here := on_refuseTaken name r
    rw [List.forM_cons, List.find?_cons]
    cases taken : r.contains name with
    | true =>
      rw [taken, if_pos rfl] at here
      rw [InPlace.on_bind_of_error here]
    | false =>
      rw [taken, if_neg (by decide)] at here
      rw [InPlace.on_bind_of_ok here, ih]

theorem on_entries (names : List String) (f : TemplateFunction σ) (r : Registry σ) :
    (forM names (enter f)).on r =
      (.ok (), { r with index := names.foldl (fun index name => index.insert name f) r.index }) := by
  induction names generalizing r with
  | nil => rfl
  | cons name names ih =>
    have here : (enter f name).on r = (.ok (), { r with index := r.index.insert name f }) := rfl
    rw [List.forM_cons, InPlace.on_bind_of_ok here, ih, List.foldl_cons]

/-- In place, a registration does what it does to a copy, and a registration that is
    refused changes nothing. -/
theorem on_registering (f : TemplateFunction σ) (r : Registry σ) :
    (registering f).on r =
      match r.register f with
      | .ok next => (.ok (), next)
      | .error failure => (.error failure, r) := by
  have lookups := on_lookups f.descriptor.names r
  have entries := on_entries f.descriptor.names f r
  rw [registering, register]
  cases taken : f.descriptor.names.find? r.contains with
  | some name =>
    rw [taken] at lookups
    rw [InPlace.on_bind_of_error lookups]
  | none =>
    rw [taken] at lookups
    rw [InPlace.on_bind_of_ok lookups, InPlace.on_bind_of_ok entries]
    rfl

/-- A registration is refused for a name that is taken, or enters all its names. -/
theorem register_cases (f : TemplateFunction σ) (r : Registry σ) :
    (∃ name ∈ f.descriptor.names, r.contains name = true ∧
        r.register f = .error (.alreadyRegistered name)) ∨
      ((∀ name ∈ f.descriptor.names, r.contains name = false) ∧
        r.register f = .ok ⟨r.functions ++ [f],
          f.descriptor.names.foldl (fun index name => index.insert name f) r.index⟩) := by
  rw [register]
  cases search : f.descriptor.names.find? r.contains with
  | some name => exact .inl ⟨name, List.mem_of_find?_eq_some search, List.find?_some search, rfl⟩
  | none => exact .inr ⟨by simpa using search, rfl⟩

/-! ## Histories -/

/-- A call that registers a function: the registry that it leaves, and the functions
    that were taken so far. -/
def extend (state : Registry σ × List (TemplateFunction σ)) (f : TemplateFunction σ) :
    Registry σ × List (TemplateFunction σ) :=
  match (registering f).on state.1 with
  | (.ok _, next) => (next, state.2 ++ [f])
  | (.error _, next) => (next, state.2)

/-- What calls one after the other leave of an empty registry, and the functions of the
    calls that succeeded, in their order. -/
def registered (calls : List (TemplateFunction σ)) : Registry σ × List (TemplateFunction σ) :=
  calls.foldl extend ({}, [])

/-- The registry holds these functions in their order, each under all its names, and
    nothing else. -/
structure Holds (r : Registry σ) (taken : List (TemplateFunction σ)) : Prop where
  found (name : String) (f : TemplateFunction σ) :
    r.find? name = some f ↔ f ∈ taken ∧ name ∈ f.descriptor.names
  apart : taken.Pairwise fun f g => f.descriptor.names.Disjoint g.descriptor.names
  order : r.functions = taken

variable {r : Registry σ} {taken : List (TemplateFunction σ)}

theorem Holds.contains_iff (holds : r.Holds taken) (name : String) :
    r.contains name = true ↔ ∃ f ∈ taken, name ∈ f.descriptor.names := by
  rw [contains, Option.isSome_iff_exists]
  exact exists_congr fun f => holds.found name f

theorem holds_empty : Holds ({} : Registry σ) [] where
  found name f := by simp [find?]
  apart := .nil
  order := rfl

theorem find?_entered (f : TemplateFunction σ) (name : String) (names : List String)
    (index : Dictionary String (TemplateFunction σ)) :
    (names.foldl (fun index name => index.insert name f) index).lookup name =
      if name ∈ names then some f else index.lookup name := by
  induction names generalizing index with
  | nil => rfl
  | cons first names ih =>
    rw [List.foldl_cons, ih, Dictionary.lookup_insert]
    by_cases later : name ∈ names <;> by_cases here : name = first <;> simp [later, here]

/-- A function all of whose names are free joins those that are held. -/
theorem Holds.entered (holds : r.Holds taken) {f : TemplateFunction σ}
    (free : ∀ name ∈ f.descriptor.names, r.contains name = false) :
    Holds ⟨r.functions ++ [f], f.descriptor.names.foldl (fun index name => index.insert name f) r.index⟩
      (taken ++ [f]) where
  found name g := by
    have known := holds.found name g
    rw [find?] at known ⊢
    rw [find?_entered]
    by_cases named : name ∈ f.descriptor.names
    · -- None of the functions that are held answers to a name of the new one.
      have fresh : ∀ g ∈ taken, name ∉ g.descriptor.names := by
        intro g member other
        have := (holds.contains_iff name).2 ⟨g, member, other⟩
        rw [free name named] at this
        exact absurd this (by decide)
      rw [if_pos named, List.mem_append, List.mem_singleton]
      constructor
      · rintro ⟨⟩
        exact ⟨.inr rfl, named⟩
      · rintro ⟨member | rfl, other⟩
        · exact absurd other (fresh g member)
        · rfl
    · rw [if_neg named, known, List.mem_append, List.mem_singleton]
      constructor
      · rintro ⟨member, other⟩
        exact ⟨.inl member, other⟩
      · rintro ⟨member | rfl, other⟩
        · exact ⟨member, other⟩
        · exact absurd other named
  apart := by
    rw [List.pairwise_append]
    refine ⟨holds.apart, List.pairwise_singleton _ f, fun g member h same name other named => ?_⟩
    obtain rfl := List.mem_singleton.1 same
    have := (holds.contains_iff name).2 ⟨g, member, other⟩
    rw [free name named] at this
    exact absurd this (by decide)
  order := by rw [holds.order]

theorem holds_extend {state : Registry σ × List (TemplateFunction σ)} (holds : state.1.Holds state.2)
    (f : TemplateFunction σ) : (extend state f).1.Holds (extend state f).2 := by
  rw [extend, on_registering]
  rcases register_cases f state.1 with ⟨name, -, -, refused⟩ | ⟨free, entered⟩
  · rw [refused]
    exact holds
  · rw [entered]
    exact holds.entered free

theorem holds_registered (calls : List (TemplateFunction σ)) :
    (registered calls).1.Holds (registered calls).2 := by
  induction calls using List.reverseRecOn with
  | nil => exact holds_empty
  | append_singleton calls f ih =>
    rw [registered, List.foldl_append]
    exact holds_extend ih f

/-! ## What a registry answers -/

/-- A registry that took these functions answers to their names with them and refuses
    to give any of their names away. -/
structure Sound (r : Registry σ) (taken : List (TemplateFunction σ)) : Prop where
  contains (name : String) : r.contains name = true ↔ ∃ f ∈ taken, name ∈ f.descriptor.names
  reaches (f : TemplateFunction σ) (member : f ∈ taken) (name : String) (named : name ∈ f.descriptor.names) :
    r.get name = .ok f ∧ r.execute name = f.run ∧ r.transform name = f.transform
  unknown (name : String) (other : ∀ f ∈ taken, name ∉ f.descriptor.names) :
    r.get name = .error (.functionNotFound name)
  apart : taken.Pairwise fun f g => f.descriptor.names.Disjoint g.descriptor.names
  describes : r.describe = taken.map TemplateFunction.descriptor
  once : r.describe.Nodup
  refuses (f : TemplateFunction σ) :
    (∃ failure, ((registering f).on r).1 = .error failure) ↔
      ∃ name ∈ f.descriptor.names, r.contains name = true
  refused (f : TemplateFunction σ) (failure : Failure) (next : Registry σ)
    (failed : (registering f).on r = (.error failure, next)) : failure.kind = .value ∧ next = r
  /-- A copy is refused as the registry itself is. -/
  rejects (f : TemplateFunction σ) :
    (∃ failure, r.register f = .error failure) ↔ ∃ name ∈ f.descriptor.names, r.contains name = true
  rejected (f : TemplateFunction σ) (failure : Failure) (failed : r.register f = .error failure) :
    failure.kind = .value

theorem Holds.reaches (holds : r.Holds taken) {f : TemplateFunction σ} (member : f ∈ taken) {name : String}
    (named : name ∈ f.descriptor.names) :
    r.get name = .ok f ∧ r.execute name = f.run ∧ r.transform name = f.transform := by
  have found := (holds.found name f).2 ⟨member, named⟩
  have got : r.get name = .ok f := by rw [get, found]
  refine ⟨got, ?_, ?_⟩
  · funext arguments context
    rw [execute, got]
    exact pure_bind f _
  · funext argument text context
    rw [transform, found]

theorem Holds.unknown (holds : r.Holds taken) {name : String}
    (other : ∀ f ∈ taken, name ∉ f.descriptor.names) : r.get name = .error (.functionNotFound name) := by
  rw [get]
  cases found : r.find? name with
  | none => rfl
  | some f =>
    obtain ⟨member, named⟩ := (holds.found name f).1 found
    exact absurd named (other f member)

/-- Functions that share no name have different descriptors, since each has a name. -/
theorem Holds.once (holds : r.Holds taken) : (taken.map TemplateFunction.descriptor).Nodup := by
  refine List.pairwise_map.2 (holds.apart.imp fun {f g} apart same => ?_)
  exact apart (List.mem_cons_self : f.descriptor.name ∈ f.descriptor.names)
    (by rw [← same]; exact List.mem_cons_self)

theorem rejects_iff (f : TemplateFunction σ) (r : Registry σ) :
    (∃ failure, r.register f = .error failure) ↔ ∃ name ∈ f.descriptor.names, r.contains name = true := by
  rcases register_cases f r with ⟨name, named, known, refused⟩ | ⟨free, entered⟩
  · exact ⟨fun _ => ⟨name, named, known⟩, fun _ => ⟨_, refused⟩⟩
  · rw [entered]
    constructor
    · rintro ⟨failure, ⟨⟩⟩
    · rintro ⟨name, named, known⟩
      exact absurd ((free name named).symm.trans known) (by decide)

theorem kind_of_rejected {f : TemplateFunction σ} {r : Registry σ} {failure : Failure}
    (failed : r.register f = .error failure) : failure.kind = .value := by
  rcases register_cases f r with ⟨name, -, -, refused⟩ | ⟨-, entered⟩
  · rw [refused] at failed
    rw [← Except.error.inj failed]
    rfl
  · exact nomatch entered.symm.trans failed

/-- In place, a registration is refused as it is for a copy. -/
theorem on_registering_eq_error_iff (f : TemplateFunction σ) (r next : Registry σ) (failure : Failure) :
    (registering f).on r = (.error failure, next) ↔ r.register f = .error failure ∧ next = r := by
  rw [on_registering]
  cases r.register f <;> simp [eq_comm]

theorem refuses_iff (f : TemplateFunction σ) (r : Registry σ) :
    (∃ failure, ((registering f).on r).1 = .error failure) ↔
      ∃ name ∈ f.descriptor.names, r.contains name = true := by
  rw [← rejects_iff, on_registering]
  cases r.register f <;> simp

/-- Whatever registrations were tried on an empty registry, it answers to the names of
    the functions that it took, and to no others. -/
theorem sound_registered (calls : List (TemplateFunction σ)) :
    (registered calls).1.Sound (registered calls).2 := by
  have holds := holds_registered calls
  have describes : (registered calls).1.describe = (registered calls).2.map TemplateFunction.descriptor := by
    rw [describe, holds.order]
  exact {
    contains := holds.contains_iff
    reaches := fun f member name named => holds.reaches member named
    unknown := fun name other => holds.unknown other
    apart := holds.apart
    describes := describes
    once := describes ▸ holds.once
    refuses := fun f => refuses_iff f _
    refused := fun f failure next failed =>
      ((on_registering_eq_error_iff f _ next failure).1 failed).imp_left kind_of_rejected
    rejects := fun f => rejects_iff f _
    rejected := fun f failure failed => kind_of_rejected failed }

end RequestTemplate.Registry
