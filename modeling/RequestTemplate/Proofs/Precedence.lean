import RequestTemplate.Proofs.Dictionary
import RequestTemplate.Request.Scope

/-!
# Which definition of a name holds

The table of a chain is built from its most general environment on, and every entry that
defines a name overwrites the one before it. So the first environment of the chain that
defines a name decides, and in it the last entry that does. What a chain defines is put
over what more general environments define (`resolved`).
-/

namespace RequestTemplate

open Dictionary (keys override)

/-! ## Environments -/

/-- The entry that decides what an environment makes of a name: the last one of the name
    that is switched on and has a value. -/
def Environment.definition? (e : Environment) (name : String) : Option NamedValue :=
  e.definitions.reverse.find? fun v => v.enabled && v.value != "" && v.name == name

/-- The environment without the entries that define nothing. -/
def Environment.effective (e : Environment) : Environment :=
  { e with definitions := e.definitions.filter NamedValue.defines }

namespace Scope

/-- The definitions among the entries of an environment, in their order. -/
def entries (definitions : List NamedValue) : Dictionary String String :=
  (definitions.filter NamedValue.defines).map fun v => (v.name, v.value)

/-- What the table of a chain is, said of its environments and entries. -/
structure Resolved (chain : List Environment) : Prop where
  /-- The first environment that defines the name decides, and in it the last entry. -/
  value (name : String) :
    (ofChain chain).lookup name = (chain.findSome? fun e => e.definition? name).map NamedValue.value
  defined (name : String) : name ∈ keys (ofChain chain) ↔
    ∃ e ∈ chain, ∃ v ∈ e.definitions, v.enabled = true ∧ v.value ≠ "" ∧ v.name = name
  once : (keys (ofChain chain)).Nodup
  /-- Entries that define nothing hide nothing either. -/
  transparent : ofChain (chain.map Environment.effective) = ofChain chain
  composed (general : List Environment) :
    ofChain (chain ++ general) = override (ofChain general) (ofChain chain)

theorem overlay_eq (scope : Scope) (definitions : List NamedValue) :
    scope.overlay definitions = override scope (entries definitions) := by
  induction definitions generalizing scope with
  | nil => rfl
  | cons v definitions ih =>
    rw [overlay, List.foldl_cons, ← overlay, ih, entries, entries, List.filter_cons]
    cases v.defines <;> rfl

theorem ofChain_cons (e : Environment) (rest : List Environment) :
    ofChain (e :: rest) = override (ofChain rest) (entries e.definitions) :=
  overlay_eq _ _

theorem lookup_entries (e : Environment) (name : String) :
    (entries e.definitions).reverse.lookup name = (e.definition? name).map NamedValue.value := by
  rw [entries, ← List.map_reverse, ← List.filter_reverse, Environment.definition?]
  induction e.definitions.reverse with
  | nil => rfl
  | cons v definitions ih =>
    rw [List.filter_cons, List.find?_cons]
    by_cases defines : v.defines = true
    · rw [if_pos defines, List.map_cons, List.lookup_cons, ih]
      have sent : (v.enabled && v.value != "") = true := defines
      rw [sent, Bool.true_and, Bool.beq_comm]
      cases v.name == name <;> rfl
    · rw [if_neg defines, ih]
      have idle : (v.enabled && v.value != "") = false := Bool.eq_false_iff.2 defines
      rw [idle, Bool.false_and]

theorem mem_keys_entries {definitions : List NamedValue} {name : String} :
    name ∈ keys (entries definitions) ↔ ∃ v ∈ definitions, v.enabled = true ∧ v.value ≠ "" ∧ v.name = name := by
  simp [keys, entries, NamedValue.defines, and_assoc]

theorem entries_effective (e : Environment) : entries e.effective.definitions = entries e.definitions := by
  simp [entries, Environment.effective]

theorem resolved (chain : List Environment) : Resolved chain := by
  induction chain with
  | nil =>
    refine ⟨fun _ => rfl, fun name => ?_, List.nodup_nil, rfl, fun _ => rfl⟩
    simp [ofChain, keys]
  | cons e rest ih =>
    constructor
    case value =>
      intro name
      rw [ofChain_cons, Dictionary.lookup_override, lookup_entries, ih.value, List.findSome?_cons]
      cases e.definition? name <;> rfl
    case defined =>
      intro name
      rw [ofChain_cons, Dictionary.mem_keys_override, ih.defined, mem_keys_entries, List.exists_mem_cons_iff, or_comm]
    case once =>
      rw [ofChain_cons]
      exact Dictionary.nodup_keys_override ih.once _
    case transparent =>
      rw [List.map_cons, ofChain_cons, ih.transparent, entries_effective, ← ofChain_cons]
    case composed =>
      intro general
      rw [List.cons_append, ofChain_cons, ofChain_cons, ih.composed, Dictionary.override_override _ ih.once]

/-- In the folder one name is given twice, and two entries define nothing. -/
example :
    let folder : Environment := { definitions := [
      { name := "x", value := "1" }, { name := "x", value := "2" }, { name := "x", value := "3", enabled := false },
      { name := "y" }] }
    let base : Environment := { definitions := [{ name := "y", value := "b" }, { name := "x", value := "c" }] }
    ofChain [folder, base] = [("y", "b"), ("x", "2")] := by decide

end Scope

end RequestTemplate
