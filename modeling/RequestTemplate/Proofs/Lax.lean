import RequestTemplate.Proofs.Normal
import RequestTemplate.Schema.Lax

/-!
# What lax validation has to keep

Lax rules may accept more than data of the asked type. What is relied on is that they
accept data of that type, and as what it is (`Lax.Lawful`). The rules of the program do
(`Lax.lawful`).
-/

namespace RequestTemplate.Schema

/-- Data that is of the type of a member is accepted as what it is. A model is read from
    mappings alone, and so is a dictionary. -/
structure Lax.Lawful [Lax] : Prop where
  text (s : String) : Lax.text (.text s) = .ok s
  noText : Lax.optionalText .null = .ok none
  someText (s : String) : Lax.optionalText (.text s) = .ok (some s)
  flag (b : Bool) : Lax.flag (.bool b) = .ok b
  items (items : List Document) : Lax.items (.list items) = .ok items
  dictionary {d : Document} (plain : d.Plain) (body : Dictionary String Document) :
    Lax.dictionary d = .ok body ↔ d = .object body
  entries (d : Document) (entries : Entries) : Lax.entries d = .ok entries ↔ d = .mapping entries
  /-- A member that is there under one of its spellings alone is found. -/
  find? {label : Label} {entries : Entries} {naming : Naming} {d : Document}
    (there : entries.lookup (.text (label.under naming)) = some d)
    (alone : ∀ other, label.under other ≠ label.under naming → entries.lookup (.text (label.under other)) = none) :
    Lax.find? label entries = some (label.under naming, d)
  /-- What is found is there. -/
  lookup {label : Label} {entries : Entries} {name : String} {d : Document}
    (found : Lax.find? label entries = some (name, d)) : entries.lookup (.text name) = some d

namespace Lax

theorem textMembers_map (body : Dictionary String Document) :
    textMembers (body.map fun (name, value) => (.text name, value)) = body := by
  induction body with
  | nil => rfl
  | cons entry rest ih => rw [List.map_cons, textMembers, ih]

theorem map_textMembers {entries : Entries} (named : ∀ entry ∈ entries, ∃ name, entry.1 = .text name) :
    (textMembers entries).map (fun (name, value) => (Scalar.text name, value)) = entries := by
  induction entries with
  | nil => rfl
  | cons entry rest ih =>
    obtain ⟨⟨name, text⟩, later⟩ := List.forall_mem_cons.1 named
    obtain ⟨key, value⟩ := entry
    subst text
    rw [textMembers, List.map_cons, ih later]

theorem dictionaryOf_eq_ok_iff {d : Document} (plain : d.Plain) (body : Dictionary String Document) :
    dictionaryOf d = .ok body ↔ d = .object body := by
  constructor
  · intro read
    obtain _ | _ | ⟨named⟩ := plain
    · exact nomatch read
    · exact nomatch read
    · rw [← Except.ok.inj read, Document.object, map_textMembers named]
  · rintro rfl
    exact congrArg Except.ok (textMembers_map body)

theorem entriesOf_eq_ok_iff (d : Document) (entries : Entries) : entriesOf d = .ok entries ↔ d = .mapping entries := by
  constructor
  · intro read
    cases d with
    | scalar | list => exact nomatch read
    | mapping members => exact congrArg _ (Except.ok.inj read)
  · rintro rfl
    rfl

theorem member?_of_alone {label : Label} {entries : Entries} {naming : Naming} {d : Document}
    (there : entries.lookup (.text (label.under naming)) = some d)
    (alone : ∀ other, label.under other ≠ label.under naming → entries.lookup (.text (label.under other)) = none) :
    member? label entries = some (label.under naming, d) := by
  rw [member?]
  cases naming with
  | camel =>
    rw [Label.under] at there
    rw [there]
    rfl
  | snake =>
    rw [Label.under] at there
    by_cases same : label.camel = label.snake
    · rw [same, there, Label.under]
    · have missing : entries.lookup (.text label.camel) = none := alone .camel same
      rw [missing, there]
      rfl

theorem lookup_of_member? {label : Label} {entries : Entries} {name : String} {d : Document}
    (found : member? label entries = some (name, d)) : entries.lookup (.text name) = some d := by
  rw [member?] at found
  split at found
  · rename_i here
    cases found
    exact here
  · obtain ⟨e, here, same⟩ := Option.map_eq_some_iff.1 found
    cases same
    exact here

theorem lawful : Lawful where
  text _ := rfl
  noText := rfl
  someText _ := rfl
  flag _ := rfl
  items _ := rfl
  dictionary := dictionaryOf_eq_ok_iff
  entries := entriesOf_eq_ok_iff
  find? := member?_of_alone
  lookup := lookup_of_member?

end Lax

end RequestTemplate.Schema
