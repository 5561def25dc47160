import RequestTemplate.Document.Normal
import RequestTemplate.Proofs.Dictionary
import RequestTemplate.Proofs.Ending
import RequestTemplate.Proofs.Sweep
import RequestTemplate.Schema.Reader

/-!
# Plain JSON

A document is plain JSON if no scalar in it is a date and if the keys of each of its mappings
are texts that differ (`Document.Plain`). Every document without a date for a key
(`Document.HasDateKey`) becomes plain JSON, in one step, and plain JSON is what it was
already. Any other is refused with a type error. Nothing in plain JSON fails to be rendered
for its type (`Document.normalized`).
-/

namespace RequestTemplate

variable {σ : Type}

theorem bind_eq_ok_iff {ε α β : Type} {x : Except ε α} {f : α → Except ε β} {b : β} :
    (x >>= f) = .ok b ↔ ∃ a, x = .ok a ∧ f a = .ok b := by
  cases x <;> simp [bind, Except.bind]

/-! ## Lists, item by item -/

section

variable {α β : Type} {R : α → β → Prop} {xs : List α} {ys : List β}

theorem exists_right_of_mem (related : List.Forall₂ R xs ys) {x : α} (member : x ∈ xs) : ∃ y ∈ ys, R x y := by
  induction related with
  | nil => exact absurd member List.not_mem_nil
  | cons head _ ih =>
    obtain rfl | later := List.mem_cons.1 member
    · exact ⟨_, List.mem_cons_self, head⟩
    · obtain ⟨y, there, holds⟩ := ih later
      exact ⟨y, List.mem_cons_of_mem _ there, holds⟩

theorem exists_left_of_mem (related : List.Forall₂ R xs ys) {y : β} (member : y ∈ ys) : ∃ x ∈ xs, R x y :=
  exists_right_of_mem related.flip member

theorem exists_forall₂ (each : ∀ x ∈ xs, ∃ y, R x y) : ∃ ys, List.Forall₂ R xs ys := by
  induction xs with
  | nil => exact ⟨[], .nil⟩
  | cons x xs ih =>
    obtain ⟨y, head⟩ := each x List.mem_cons_self
    obtain ⟨ys, tail⟩ := ih fun x member => each x (List.mem_cons_of_mem _ member)
    exact ⟨y :: ys, .cons head tail⟩

end

/-! ## Scalars -/

namespace Scalar

def isDate : Scalar → Bool
  | date _ | dateTime _ _ => true
  | _ => false

theorem name_eq_ok_iff {s : Scalar} {name : String} : s.name = .ok name ↔ s.isDate = false ∧ s.toText = name := by
  cases s <;> simp [Scalar.name, isDate]

theorem isDate_toJson (s : Scalar) : s.toJson.isDate = false := by
  cases s <;> rfl

theorem toJson_eq_self {s : Scalar} (plain : s.isDate = false) : s.toJson = s := by
  cases s <;> first | rfl | cases plain

end Scalar

namespace Document

theorem sizeOf_value_lt {entries : List (Scalar × Document)} {entry : Scalar × Document} (member : entry ∈ entries) :
    sizeOf entry.2 < sizeOf entries := by
  have smaller := List.sizeOf_lt_of_mem member
  obtain ⟨key, value⟩ := entry
  simp only [Prod.mk.sizeOf_spec] at smaller ⊢
  omega

/-- What holds of scalars, and of lists and mappings as soon as it holds of what is in them,
    holds of every document. -/
@[elab_as_elim]
theorem induct {motive : Document → Prop} (scalar : ∀ s, motive (.scalar s))
    (list : ∀ items, (∀ d ∈ items, motive d) → motive (.list items))
    (mapping : ∀ entries, (∀ entry ∈ entries, motive entry.2) → motive (.mapping entries))
    (d : Document) : motive d := by
  cases d with
  | scalar s => exact scalar s
  | list items => exact list items fun d _ => induct scalar list mapping d
  | mapping entries => exact mapping entries fun entry _ => induct scalar list mapping entry.2
termination_by sizeOf d
decreasing_by
  · have smaller := List.sizeOf_lt_of_mem ‹_›
    simp_wf
    omega
  · have smaller := sizeOf_value_lt ‹_›
    simp_wf
    omega

/-- Some mapping in the document, at any depth, has a date for a key. -/
inductive HasDateKey : Document → Prop
  | key {entries : List (Scalar × Document)} {entry : Scalar × Document} (member : entry ∈ entries)
    (date : entry.1.isDate = true) : HasDateKey (.mapping entries)
  | value {entries : List (Scalar × Document)} {entry : Scalar × Document} (member : entry ∈ entries)
    (inside : HasDateKey entry.2) : HasDateKey (.mapping entries)
  | item {items : List Document} {d : Document} (member : d ∈ items) (inside : HasDateKey d) :
    HasDateKey (.list items)

/-- The document is JSON: no scalar is a date, and the keys of a mapping are texts, each of
    which stands there once. -/
inductive Plain : Document → Prop
  | scalar {s : Scalar} (json : s.isDate = false) : Plain (.scalar s)
  | list {items : List Document} (each : ∀ d ∈ items, Plain d) : Plain (.list items)
  | mapping {entries : List (Scalar × Document)} (named : ∀ entry ∈ entries, ∃ name, entry.1 = .text name)
    (distinct : (Dictionary.keys entries).Nodup) (values : ∀ entry ∈ entries, Plain entry.2) :
    Plain (.mapping entries)

/-! ## What becomes of a document -/

/-- What becomes of an entry: its key is written as text, and its value is normalized. -/
structure Entered (entry pair : Scalar × Document) : Prop where
  key : ∃ name, entry.1.name = .ok name ∧ pair.1 = .text name
  value : entry.2.toJson = .ok pair.2

theorem itemsToJson_eq_ok_iff {items plain : List Document} :
    itemsToJson items = .ok plain ↔ List.Forall₂ (fun d e => d.toJson = .ok e) items plain := by
  induction items generalizing plain with
  | nil => simp [itemsToJson, eq_comm]
  | cons item rest ih =>
    simp only [itemsToJson, bind_eq_ok_iff, ih, List.forall₂_cons_left_iff, Except.ok.injEq]
    constructor
    · rintro ⟨first, there, others, later, rfl⟩
      exact ⟨first, others, there, later, rfl⟩
    · rintro ⟨first, others, there, later, rfl⟩
      exact ⟨first, there, others, later, rfl⟩

theorem entriesToJson_eq_ok_iff {entries pairs : List (Scalar × Document)} :
    entriesToJson entries = .ok pairs ↔ List.Forall₂ Entered entries pairs := by
  induction entries generalizing pairs with
  | nil => simp [entriesToJson, eq_comm]
  | cons entry rest ih =>
    obtain ⟨key, value⟩ := entry
    simp only [entriesToJson, bind_eq_ok_iff, ih, List.forall₂_cons_left_iff, Except.ok.injEq]
    constructor
    · rintro ⟨name, named, first, there, others, later, rfl⟩
      exact ⟨(.text name, first), others, ⟨⟨name, named, rfl⟩, there⟩, later, rfl⟩
    · rintro ⟨⟨_, first⟩, others, ⟨⟨name, named, rfl⟩, there⟩, later, rfl⟩
      exact ⟨name, named, first, there, others, later, rfl⟩

theorem toJson_list_eq_ok_iff {items : List Document} {e : Document} :
    (list items).toJson = .ok e ↔
      ∃ plain, e = list plain ∧ List.Forall₂ (fun d e => d.toJson = .ok e) items plain := by
  simp only [toJson, bind_eq_ok_iff, itemsToJson_eq_ok_iff, Except.ok.injEq]
  exact exists_congr fun plain => by rw [and_comm, eq_comm]

theorem toJson_mapping_eq_ok_iff {entries : List (Scalar × Document)} {e : Document} :
    (mapping entries).toJson = .ok e ↔
      ∃ pairs, e = mapping (Dictionary.ofList pairs) ∧ List.Forall₂ Entered entries pairs := by
  simp only [toJson, bind_eq_ok_iff, entriesToJson_eq_ok_iff, Except.ok.injEq]
  exact exists_congr fun pairs => by rw [and_comm, eq_comm]

/-! ## Dates as keys -/

theorem exists_toJson {d : Document} (clean : ¬ d.HasDateKey) : ∃ e, d.toJson = .ok e := by
  induction d using induct with
  | scalar s => exact ⟨_, rfl⟩
  | list items ih =>
    obtain ⟨plain, each⟩ := exists_forall₂ fun d member => ih d member fun inside => clean (.item member inside)
    exact ⟨_, toJson_list_eq_ok_iff.2 ⟨plain, rfl, each⟩⟩
  | mapping entries ih =>
    have entered (entry) (member : entry ∈ entries) : ∃ pair, Entered entry pair := by
      obtain ⟨value, done⟩ := ih entry member fun inside => clean (.value member inside)
      have named : entry.1.isDate = false := Bool.eq_false_iff.2 fun date => clean (.key member date)
      exact ⟨(.text entry.1.toText, value), ⟨_, Scalar.name_eq_ok_iff.2 ⟨named, rfl⟩, rfl⟩, done⟩
    obtain ⟨pairs, each⟩ := exists_forall₂ entered
    exact ⟨_, toJson_mapping_eq_ok_iff.2 ⟨pairs, rfl, each⟩⟩

theorem clean_of_toJson {d e : Document} (done : d.toJson = .ok e) : ¬ d.HasDateKey := by
  intro dated
  induction dated generalizing e with
  | key member date =>
    obtain ⟨pairs, -, each⟩ := toJson_mapping_eq_ok_iff.1 done
    obtain ⟨pair, -, ⟨name, named, -⟩, -⟩ := exists_right_of_mem each member
    exact absurd (date.symm.trans (Scalar.name_eq_ok_iff.1 named).1) (by decide)
  | value member _ ih =>
    obtain ⟨pairs, -, each⟩ := toJson_mapping_eq_ok_iff.1 done
    obtain ⟨pair, -, entered⟩ := exists_right_of_mem each member
    exact ih entered.value
  | item member _ ih =>
    obtain ⟨plain, -, each⟩ := toJson_list_eq_ok_iff.1 done
    obtain ⟨value, -, inside⟩ := exists_right_of_mem each member
    exact ih inside

/-! ## Plain JSON -/

theorem plain_of_toJson {d e : Document} (done : d.toJson = .ok e) : e.Plain := by
  induction d using induct generalizing e with
  | scalar s =>
    obtain rfl := Except.ok.inj done
    exact .scalar s.isDate_toJson
  | list items ih =>
    obtain ⟨plain, rfl, each⟩ := toJson_list_eq_ok_iff.1 done
    refine .list fun value member => ?_
    obtain ⟨d, there, inside⟩ := exists_left_of_mem each member
    exact ih d there inside
  | mapping entries ih =>
    obtain ⟨pairs, rfl, each⟩ := toJson_mapping_eq_ok_iff.1 done
    have source (pair) (member : pair ∈ Dictionary.ofList pairs) : ∃ entry ∈ entries, Entered entry pair :=
      exists_left_of_mem each (Dictionary.mem_of_mem_ofList member)
    refine .mapping (fun pair member => ?_) (Dictionary.nodup_keys_ofList pairs) fun pair member => ?_
    · obtain ⟨entry, -, ⟨name, -, named⟩, -⟩ := source pair member
      exact ⟨name, named⟩
    · obtain ⟨entry, there, entered⟩ := source pair member
      exact ih entry there entered.value

theorem toJson_of_plain {d : Document} (plain : d.Plain) : d.toJson = .ok d := by
  induction plain with
  | scalar json => rw [toJson, Scalar.toJson_eq_self json]
  | list _ ih => exact toJson_list_eq_ok_iff.2 ⟨_, rfl, List.forall₂_same.2 ih⟩
  | mapping named distinct _ ih =>
    refine toJson_mapping_eq_ok_iff.2 ⟨_, ?_, List.forall₂_same.2 fun entry member => ⟨?_, ih entry member⟩⟩
    · rw [Dictionary.ofList_of_nodup distinct]
    · obtain ⟨name, text⟩ := named entry member
      rw [text]
      exact ⟨name, rfl, rfl⟩

/-! ## Keys that become equal -/

/-- Of the entries whose keys are written as this name, the last one holds the value. -/
def Holds (entries : List (Scalar × Document)) (name : String) (value : Document) : Prop :=
  ∃ before key content after, entries = before ++ (key, content) :: after ∧ key.name = .ok name ∧
    content.toJson = .ok value ∧ ∀ entry ∈ after, entry.1.name ≠ .ok name

theorem holds_cons_iff {key : Scalar} {content : Document} {entries : List (Scalar × Document)} {name : String}
    {value : Document} :
    Holds ((key, content) :: entries) name value ↔
      Holds entries name value ∨
        (∀ entry ∈ entries, entry.1.name ≠ .ok name) ∧ key.name = .ok name ∧ content.toJson = .ok value := by
  constructor
  · rintro ⟨_ | ⟨first, before⟩, k, c, after, split, named, normal, last⟩
    · obtain ⟨same, rfl⟩ := List.cons.inj split
      obtain ⟨rfl, rfl⟩ := Prod.mk.inj same
      exact .inr ⟨last, named, normal⟩
    · exact .inl ⟨before, k, c, after, (List.cons.inj split).2, named, normal, last⟩
  · rintro (⟨before, k, c, after, rfl, named, normal, last⟩ | ⟨last, named, normal⟩)
    · exact ⟨(key, content) :: before, k, c, after, rfl, named, normal, last⟩
    · exact ⟨[], key, content, entries, rfl, named, normal, last⟩

theorem Entered.name_iff {entry pair : Scalar × Document} (entered : Entered entry pair) (name : String) :
    entry.1.name = .ok name ↔ pair.1 = .text name := by
  obtain ⟨other, named, written⟩ := entered.key
  rw [named, written]
  simp

theorem lookup_singleton_eq_some_iff {pair : Scalar × Document} {key : Scalar} {value : Document} :
    [pair].lookup key = some value ↔ pair.1 = key ∧ pair.2 = value := by
  obtain ⟨name, content⟩ := pair
  by_cases same : key = name
  · simp [List.lookup, same]
  · simp [List.lookup, beq_false_of_ne same, Ne.symm same]

theorem lookup_eq_some_iff_holds {entries pairs : List (Scalar × Document)}
    (each : List.Forall₂ Entered entries pairs) (name : String) (value : Document) :
    pairs.reverse.lookup (.text name) = some value ↔ Holds entries name value := by
  induction each with
  | nil => simp [Holds]
  | @cons entry pair entries pairs head tail ih =>
    have absent : pairs.reverse.lookup (.text name) = none ↔ ∀ entry ∈ entries, entry.1.name ≠ .ok name := by
      rw [List.lookup_eq_none_iff]
      constructor
      · intro apart entry member named
        obtain ⟨pair, there, entered⟩ := exists_right_of_mem tail member
        have unlike := apart pair (List.mem_reverse.2 there)
        simp [(entered.name_iff name).1 named] at unlike
      · intro apart pair member
        obtain ⟨entry, there, entered⟩ := exists_left_of_mem tail (List.mem_reverse.1 member)
        have unlike := mt (entered.name_iff name).2 (apart entry there)
        exact bne_iff_ne.2 fun same => unlike same.symm
    rw [List.reverse_cons, List.lookup_append, Option.or_eq_some_iff, ih, absent, holds_cons_iff,
      head.name_iff, head.value, lookup_singleton_eq_some_iff, Except.ok.injEq]

theorem member?_eq_some_iff {entries : List (Scalar × Document)} {e : Document}
    (done : (mapping entries).toJson = .ok e) (name : String) (value : Document) :
    e.member? name = some value ↔ Holds entries name value := by
  obtain ⟨pairs, rfl, each⟩ := toJson_mapping_eq_ok_iff.1 done
  have whole : Dictionary.ofList pairs = Dictionary.override [] pairs := rfl
  rw [member?, whole, Dictionary.lookup_override, List.lookup_nil, Option.or_none]
  exact lookup_eq_some_iff_holds each name value

/-! ## Rendering -/

theorem foreign_notMem_leavesOfItems {items : List Document} {value : DateKind}
    (each : ∀ d ∈ items, .foreign value ∉ d.leaves) : .foreign value ∉ leavesOfItems items := by
  induction items with
  | nil => simp [leavesOfItems]
  | cons item rest ih =>
    obtain ⟨first, later⟩ := List.forall_mem_cons.1 each
    simp [leavesOfItems, first, ih later]

theorem foreign_notMem_leavesOfEntries {entries : List (Scalar × Document)} {value : DateKind}
    (each : ∀ entry ∈ entries, .foreign value ∉ entry.2.leaves) : .foreign value ∉ leavesOfEntries entries := by
  induction entries with
  | nil => simp [leavesOfEntries]
  | cons entry rest ih =>
    obtain ⟨first, later⟩ := List.forall_mem_cons.1 each
    simp [leavesOfEntries, first, ih later]

/-- Every leaf of plain JSON is a template. -/
theorem foreign_notMem_leaves {d : Document} (plain : d.Plain) (value : DateKind) : .foreign value ∉ d.leaves := by
  induction plain with
  | @scalar s json => cases s <;> simp_all [leaves, Scalar.isDate]
  | list _ ih => exact foreign_notMem_leavesOfItems ih
  | mapping _ _ _ ih => exact foreign_notMem_leavesOfEntries ih

end Document

namespace Renderer

/-- A template fails with a parse error or with a render error, under every policy. -/
theorem ends_renderSource {r : Renderer σ} {source : String} {s : σ} {failure : Failure}
    (failed : (r.renderSource source s).outcome = .error failure) :
    (∃ e, failure = .parse e) ∨ failure.kind.isRender = true :=
  (ends_of_follows (r.follows_renderSource source s) (fun _ => Expansion.cause_of_mem_ofSource) failed).imp_left
    fun ⟨e, same, _⟩ => ⟨e, same⟩

theorem ends_renderDocument {r : Renderer σ} {d : Document} (plain : d.Plain) {s : σ} {failure : Failure}
    (failed : (r.renderDocument d s).outcome = .error failure) :
    (∃ e, failure = .parse e) ∨ failure.kind.isRender = true := by
  have swept := ((Document.coupled_mapTexts r.renderSource d) s).eq_of_error failed
  obtain ⟨before, leaf, after, texts, split, -, stopped, -⟩ := Pass.exists_of_mapM_error (congrArg Report.outcome swept)
  cases leaf with
  | template source => exact ends_renderSource stopped
  | foreign value => exact absurd (by simp [split]) (Document.foreign_notMem_leaves plain value)

end Renderer

namespace Document

/-- What normalizing does to a document, and what rendering does with the result. -/
structure Normalized (d : Document) : Prop where
  refused : (∃ kind, d.toJson = .error kind) ↔ d.HasDateKey
  /-- A member of a model that holds the document is refused with a type error, whatever the lax
      rules are, -/
  typeError [Schema.Lax] (model : String) (dated : d.HasDateKey) :
    ∃ failure, Schema.validate model Schema.json d = .error failure ∧ failure.kind = .type
  /-- and no other one is refused but by the rules for plain JSON. -/
  passed [Schema.Lax] (clean : ¬ d.HasDateKey) : ∃ e, d.toJson = .ok e ∧ Schema.json d = Schema.Lax.dictionary e
  plain (e : Document) (done : d.toJson = .ok e) : e.Plain
  members (entries : List (Scalar × Document)) (mapping : d = .mapping entries) (e : Document)
    (done : d.toJson = .ok e) (name : String) (value : Document) :
    e.member? name = some value ↔ Holds entries name value
  again (e : Document) (done : d.toJson = .ok e) : e.toJson = .ok e
  unchanged (already : d.Plain) : d.toJson = .ok d
  renders (e : Document) (done : d.toJson = .ok e) {σ : Type} (r : Renderer σ) (s : σ) (failure : Failure)
    (failed : (r.renderDocument e s).outcome = .error failure) : failure.kind ≠ .type

/-- A document is refused exactly for a date as a key. Otherwise it becomes plain JSON, once
    and for all, which no renderer refuses for its type. -/
theorem normalized (d : Document) : d.Normalized where
  refused := by
    constructor
    · rintro ⟨kind, failed⟩
      by_contra clean
      obtain ⟨e, done⟩ := exists_toJson clean
      exact absurd (failed.symm.trans done) nofun
    · intro dated
      cases result : d.toJson with
      | error kind => exact ⟨kind, rfl⟩
      | ok e => exact absurd dated (clean_of_toJson result)
  typeError model dated := by
    cases result : d.toJson with
    | error kind => exact ⟨.notAKey kind, by rw [Schema.validate, Schema.json, result], rfl⟩
    | ok e => exact absurd dated (clean_of_toJson result)
  passed clean := by
    obtain ⟨e, done⟩ := exists_toJson clean
    exact ⟨e, done, by rw [Schema.json, done]⟩
  plain _ done := plain_of_toJson done
  members entries same e done := by
    subst same
    exact member?_eq_some_iff done
  again _ done := toJson_of_plain (plain_of_toJson done)
  unchanged already := toJson_of_plain already
  renders e done _ r s failure failed type := by
    obtain ⟨error, rfl⟩ | render := Renderer.ends_renderDocument (plain_of_toJson done) failed
    · exact absurd type nofun
    · rw [type] at render
      exact absurd render nofun

/-- Keys that are written alike are one, in the first place and with the last value. -/
example : (mapping [(.integer 1, text "first"), (.text "1", scalar (.date "2024-05-01"))]).toJson =
    .ok (mapping [(.text "1", text "2024-05-01")]) := rfl

end Document

end RequestTemplate
