import RequestTemplate.Proofs.Lax
import RequestTemplate.Proofs.Printed
import RequestTemplate.Request.Schema

/-!
# Members are read back

No two labels of a model have a spelling in common (`Label.Apart`), so each member is found
under the spelling under which it was written (`find?_written`). A tree among the members
is plain JSON whatever it was read from (`yields_tree`), and plain JSON is read as it stands
(`json_object`).
-/

namespace RequestTemplate.Schema

variable {α β : Type}

/-! ## Labels -/

/-- No spelling of one label is a spelling of the other. -/
def Label.Unlike (a b : Label) : Prop :=
  ∀ naming other, a.under naming ≠ b.under other

instance (a b : Label) : Decidable (a.Unlike b) :=
  decidable_of_iff ((a.camel ≠ b.camel ∧ a.camel ≠ b.snake) ∧ a.snake ≠ b.camel ∧ a.snake ≠ b.snake)
    ⟨fun apart naming other => by cases naming <;> cases other <;> simp_all [Label.under],
      fun apart => ⟨⟨apart .camel .camel, apart .camel .snake⟩, apart .snake .camel, apart .snake .snake⟩⟩

/-- No two labels have a spelling in common. -/
def Label.Apart (labels : List Label) : Prop :=
  labels.Pairwise Label.Unlike

instance (labels : List Label) : Decidable (Label.Apart labels) :=
  inferInstanceAs (Decidable (labels.Pairwise _))

/-- The entries that members are written as. -/
def written (naming : Naming) (members : List (Label × Document)) : Entries :=
  members.map fun member => (.text (member.1.under naming), member.2)

theorem write_eq (naming : Naming) (members : List (Label × Document)) :
    write naming members = .mapping (written naming members) := by
  rw [write, Document.object, written, List.map_map]
  rfl

variable {naming : Naming} {members : List (Label × Document)}

theorem lookup_written (apart : Label.Apart (members.map Prod.fst)) (naming : Naming) {member : Label × Document}
    (there : member ∈ members) :
    (written naming members).lookup (.text (member.1.under naming)) = some member.2 := by
  induction members with
  | nil => cases there
  | cons first rest ih =>
    obtain ⟨unlike, apart⟩ := List.pairwise_cons.1 apart
    rw [written, List.map_cons, List.lookup_cons]
    obtain rfl | later := List.mem_cons.1 there
    · rw [beq_self_eq_true]
    · have other : member.1.under naming ≠ first.1.under naming :=
        (unlike _ (List.mem_map_of_mem later) naming naming).symm
      rw [beq_false_of_ne fun same => other (Scalar.text.inj same)]
      exact ih apart later

theorem lookup_written_eq_none {name : String} (unlike : ∀ member ∈ members, member.1.under naming ≠ name) :
    (written naming members).lookup (.text name) = none := by
  simp only [written, List.lookup_eq_none_iff, List.forall_mem_map]
  intro member there
  simpa using (unlike member there).symm

/-- Labels that have the same spelling somewhere are the same one. -/
theorem eq_of_under_eq (apart : Label.Apart (members.map Prod.fst)) {a b : Label × Document} (first : a ∈ members)
    (second : b ∈ members) {naming other : Naming} (same : a.1.under naming = b.1.under other) : a = b := by
  have symmetric : Std.Symm fun a b : Label × Document => a.1.Unlike b.1 :=
    ⟨fun _ _ unlike naming other => (unlike other naming).symm⟩
  by_contra different
  exact (List.pairwise_map.1 apart).forall first second different naming other same

/-! ## What readers yield -/

theorem Checked.under_ok (step : Step) (a : α) : under step (.ok a) = .ok a := rfl

theorem itemsFrom_map {item : Reader α} {f : α → Document} {xs : List α} (each : ∀ x ∈ xs, item (f x) = .ok x)
    (index : Nat) :
    itemsFrom item index (xs.map f) = .ok xs := by
  induction xs generalizing index with
  | nil => rfl
  | cons x xs ih =>
    obtain ⟨first, later⟩ := List.forall_mem_cons.1 each
    rw [List.map_cons, itemsFrom, first, ih later]
    rfl

theorem validate_eq_ok_iff {name : String} {reader : Reader α} {d : Document} {a : α} :
    validate name reader d = .ok a ↔ reader d = .ok a := by
  rw [validate]
  cases reader d with
  | ok b => exact ⟨fun same => congrArg _ (Except.ok.inj same), fun same => congrArg _ (Except.ok.inj same)⟩
  | error refusal => cases refusal <;> simp

namespace Checked

/-- The value, if there is one, has the property. -/
def Yields (x : Checked α) (P : α → Prop) : Prop :=
  ∀ a, x = .ok a → P a

theorem yields_both {g : Checked (α → β)} {x : Checked α} {P : β → Prop} (Q : α → Prop)
    (first : g.Yields fun f => ∀ a, Q a → P (f a)) (second : x.Yields Q) : (both g x).Yields P := by
  intro b done
  match g, x, done with
  | .ok f, .ok a, done =>
    rw [← Except.ok.inj done]
    exact first f rfl a (second a rfl)

theorem yields_skip {g : Checked (α → β)} {x : Checked α} {P : β → Prop} (first : g.Yields fun f => ∀ a, P (f a)) :
    (both g x).Yields P :=
  yields_both (fun _ => True) (fun f done a _ => first f done a) fun _ _ => trivial

theorem yields_ok {a : α} {P : α → Prop} (holds : P a) : Yields (.ok a) P := by
  rintro _ ⟨⟩
  exact holds

theorem under_eq_ok_iff {step : Step} {a : α} : ∀ {x : Checked α}, x.under step = .ok a ↔ x = .ok a
  | .ok _ | .error (.dateName _) => Iff.rfl
  | .error (.issues _) => ⟨nofun, nofun⟩

end Checked

/-- What a tree is that was read from a document: plain JSON, and no decimal in it ends in zeros
    unless one in the document does. -/
structure Tree (source tree : Document) : Prop where
  plain : tree.Plain
  stripped (given : source.Stripped) : tree.Stripped

theorem Tree.json {source tree : Document} (made : Tree source tree) (given : source.Stripped) : tree.Json :=
  ⟨made.plain, made.stripped given⟩

/-! ## Lawful rules -/

section

variable [Lax] (lawful : Lax.Lawful)
include lawful

/-- Each member is found under the spelling under which it was written. -/
theorem find?_written (apart : Label.Apart (members.map Prod.fst)) (naming : Naming) :
    ∀ member ∈ members, Lax.find? member.1 (written naming members) = some (member.1.under naming, member.2) := by
  intro member there
  refine lawful.find? (lookup_written apart naming there) fun other unlike => ?_
  refine lookup_written_eq_none fun second here same => unlike ?_
  obtain rfl := eq_of_under_eq apart here there same
  exact same.symm

/-- A model is read from its members, each of which is found. -/
theorem model_write {reader : Entries → Checked α} {a : α} (apart : Label.Apart (members.map Prod.fst)) (naming : Naming)
    (read : (∀ member ∈ members,
      Lax.find? member.1 (written naming members) = some (member.1.under naming, member.2)) →
      reader (written naming members) = .ok a) :
    model reader (write naming members) = .ok a := by
  rw [model, write_eq, (lawful.entries _ _).2 rfl]
  exact read (find?_written lawful apart naming)

theorem optionalText_ofOptionalText (s : Option String) : Lax.optionalText (ofOptionalText s) = .ok s := by
  cases s with
  | none => exact lawful.noText
  | some s => exact lawful.someText s

theorem listOf_map {item : Reader α} {f : α → Document} {xs : List α} (each : ∀ x ∈ xs, item (f x) = .ok x) :
    listOf item (.list (xs.map f)) = .ok xs := by
  rw [listOf, lawful.items]
  exact itemsFrom_map each 0

/-- What a model yields that is read from a mapping, it yields whatever it is read from. -/
theorem Checked.yields_model {reader : Entries → Checked α} {P : Document → α → Prop}
    (each : ∀ entries, (reader entries).Yields (P (.mapping entries))) (d : Document) :
    (model reader d).Yields (P d) := by
  intro a read
  rw [model] at read
  split at read
  · rename_i entries mapping
    obtain rfl := (lawful.entries d entries).1 mapping
    exact each entries a read
  · cases read

/-! ## Trees -/

theorem json_object {body : Dictionary String Document} (plain : (Document.object body).Plain) :
    json (.object body) = .ok body := by
  rw [json, Document.toJson_of_plain plain]
  exact (lawful.dictionary plain body).2 rfl

theorem tree_of_json {d : Document} {body : Dictionary String Document} (read : json d = .ok body) :
    Tree d (.object body) := by
  rw [json] at read
  split at read
  · cases read
  · rename_i e done
    have plain := Document.plain_of_toJson done
    obtain rfl := (lawful.dictionary plain body).1 read
    exact ⟨plain, fun stripped => Document.stripped_of_toJson stripped done⟩

theorem yields_tree (entries : Entries) (label : Label) :
    (withDefault entries label json []).Yields fun body => Tree (.mapping entries) (.object body) := by
  intro body read
  rw [withDefault] at read
  split at read
  · rename_i found
    have made := tree_of_json lawful (Checked.under_eq_ok_iff.1 read)
    refine ⟨made.plain, fun given => made.stripped ?_⟩
    obtain _ | _ | ⟨values⟩ := given
    obtain ⟨before, after, rfl, -⟩ := List.lookup_eq_some_iff.1 (lawful.lookup found)
    exact values _ (List.mem_append_right before List.mem_cons_self)
  · obtain rfl : [] = body := Except.ok.inj read
    exact ⟨.mapping nofun List.nodup_nil nofun, fun _ => .mapping nofun⟩

end

end RequestTemplate.Schema
