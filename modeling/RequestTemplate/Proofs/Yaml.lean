import RequestTemplate.Document.Yaml
import RequestTemplate.Proofs.Printed

/-!
# JSON as YAML

Nearly all JSON is YAML of the same meaning. The documents for which that holds of their
text are the portable ones (`Document.Portable`), and what is relied on is that a loader
reads these as they are (`Yaml.ReadsJson`). A loader that rounds decimals keeps some of
them, as that to 53 binary digits keeps the shortest writings; which ones is a parameter.
The loader of the program keeps all decimals (`Yaml.readsJson`). It takes the numbers that
are none in YAML for texts (`Yaml.loadJson_print`).
-/

namespace RequestTemplate

/-! ## What is the same in JSON and in YAML -/

/-- A character that says the same between the quotes of both: one of ASCII, which is escaped
    where need be, or one that can be printed and that ends no line. -/
def Yaml.isPlain (c : Char) : Bool :=
  let n := c.toNat
  n < 0x7F || (0xA0 ≤ n && n != 0x2028 && n != 0x2029 && n != 0xFFFE && n != 0xFFFF)

/-- How many characters a key may be written with. -/
def Yaml.longestKey : Nat := 1024

def Scalar.isPortable : Scalar → Bool
  | text content => content.toList.all Yaml.isPlain
  | decimal d => Yaml.isNumber (d.print .value).toList
  | _ => true

/-- What the text of the scalar in JSON is in YAML: a number that is none there is a text. -/
def Scalar.inYaml : Scalar → Scalar
  | decimal d => if Yaml.isNumber (d.print .value).toList then decimal d else text (d.print .value)
  | s => s

theorem Scalar.inYaml_eq_self {s : Scalar} (portable : s.isPortable = true) : s.inYaml = s := by
  cases s with
  | decimal d => exact if_pos portable
  | _ => rfl

/-- The text of the document in JSON says the same in YAML where these decimals are kept. -/
inductive Document.Portable (Kept : Decimal → Prop) : Document → Prop
  | scalar {s : Scalar} (portable : s.isPortable = true) (kept : ∀ d, s = .decimal d → Kept d) :
    Portable Kept (.scalar s)
  | list {items : List Document} (each : ∀ d ∈ items, Portable Kept d) : Portable Kept (.list items)
  | mapping {entries : List (Scalar × Document)} (keys : ∀ entry ∈ entries, entry.1.isPortable = true)
    (short : ∀ entry ∈ entries, (Style.block.quote entry.1.toText).length ≤ Yaml.longestKey)
    (values : ∀ entry ∈ entries, Portable Kept entry.2) : Portable Kept (.mapping entries)

theorem Document.Portable.each {Kept : Decimal → Prop} {d : Document} (portable : d.Portable Kept) :
    d.Each fun s => s.isPortable = true := by
  induction portable with
  | scalar portable => exact .scalar portable
  | list _ ih => exact .list ih
  | mapping _ _ _ ih => exact .mapping ih

/-- The loader, which keeps these decimals, reads portable documents in JSON, and as what they are. -/
def Yaml.ReadsJson [Yaml] (Kept : Decimal → Prop) : Prop :=
  ∀ d : Document, d.Json → d.Portable Kept → Yaml.load (d.print .block ++ "\n") = .ok d

/-! ## The loader of the program -/

namespace Yaml

theorem isNumber_minus (s : List Char) : isNumber ('-' :: s) = isNumber s := by
  have signed : hasSignedExponent ('-' :: s) = hasSignedExponent s := by
    cases s <;> simp [hasSignedExponent]
  simp [isNumber, hasExponent, signed]

theorem isNumber_of_digits {s : List Char} (digits : Document.Reader.Digits s) : isNumber s = true := by
  have none : hasExponent s = false := by
    refine List.any_eq_false.2 fun c member letter => ?_
    have digit := digits c member
    simp only [Bool.or_eq_true, beq_iff_eq] at letter
    obtain rfl | rfl := letter <;> exact absurd digit (by decide)
  simp [isNumber, none]

theorem isNumber_print (d : Decimal) : isNumber (d.print .value).toList = isNumber (d.size .value) := by
  rw [Decimal.toList_print]
  split
  · exact isNumber_minus _
  · rfl

open Document.Reader

/-- A number is taken for one, or for the text that it is spelled as. -/
theorem number?_append {negative : Bool} {text rest : List Char} {n : Scalar}
    (read : Document.Reader.number? negative (text ++ rest) = some (n, rest)) :
    number? negative (text ++ rest) =
      some (if isNumber text then n else .text (String.ofList (if negative then '-' :: text else text)), rest) := by
  rw [number?, read]
  simp only [Option.map_some, List.length_append, Nat.add_sub_cancel, List.take_left]
  split <;> rfl

/-- A decimal that is no number in YAML becomes the text that it is written as. -/
theorem makes_text {d : Decimal} (stripped : d.Stripped) (other : isNumber (d.print .value).toList = false)
    (style : Document.Style) : numeral.Makes style (.decimal d) (.text (d.print .value)) := by
  intro room levels rest ends
  have read := number?_append (Decimal.number?_size .value stripped d.negative ends)
  rw [isNumber_print] at other
  rw [other, if_neg Bool.false_ne_true, ← Decimal.toList_print, String.ofList_toList] at read
  rw [Document.Style.scalar, Decimal.toList_print]
  obtain ⟨sign, digits, exponent⟩ := d
  cases sign with
  | false => exact document?_number read
  | true => exact document?_minus read

/-- A scalar is kept if it is a number in YAML where it is a decimal. -/
theorem makes_kept {s : Scalar} (json : s.isDate = false) (stripped : ∀ d, s = .decimal d → d.Stripped)
    (numbers : ∀ d, s = .decimal d → isNumber (d.print .value).toList = true) (style : Document.Style) :
    numeral.Makes style s s := by
  have takes {text : List Char} (agreed : isNumber text = true) : numeral.Takes text := by
    intro negative rest n read
    exact (number?_append read).trans (by rw [if_pos agreed])
  refine Numeral.makes_self json stripped (fun text written => takes ?_) style
  cases s with
  | integer n =>
    obtain rfl := Option.some.inj written
    exact isNumber_of_digits (digits_toString _)
  | decimal d =>
    obtain rfl := Option.some.inj written
    rw [← isNumber_print]
    exact numbers d rfl
  | null | bool | text | date | dateTime => cases written

theorem makes {s : Scalar} (json : s.isDate = false) (stripped : ∀ d, s = .decimal d → d.Stripped)
    (style : Document.Style) : numeral.Makes style s s.inYaml := by
  cases s with
  | decimal d =>
    rw [Scalar.inYaml]
    split
    · rename_i agreed
      exact makes_kept json stripped (fun _ same => Scalar.decimal.inj same ▸ agreed) style
    · rename_i other
      exact makes_text (stripped d rfl) (Bool.eq_false_iff.2 other) style
  | null | bool | integer | text | date | dateTime => exact makes_kept json stripped (by simp) style

/-- The loader of the program reads JSON as JSON, but for the numbers that are none in YAML. -/
theorem loadJson_print {d : Document} (json : d.Json) :
    loadJson (d.print .block ++ "\n") = .ok (d.mapScalars Scalar.inYaml) := by
  have made : d.Each fun s => numeral.Makes .block s s.inYaml :=
    (json.plain.each.and json.stripped).imp fun s given => makes given.1 given.2 .block
  have read : Document.readWith? numeral (d.print .block ++ "\n") = some (d.mapScalars Scalar.inYaml) :=
    Document.readWith?_print json.plain made (by simp [Space, isSpace])
  generalize d.print .block ++ "\n" = source at read ⊢
  have something : skip source.toList ≠ [] := by
    intro empty
    simp [Document.readWith?, empty, document?, Numeral.read?_nil] at read
  rw [loadJson, if_neg something, read]

theorem readsJson (Kept : Decimal → Prop) : ReadsJson Kept := by
  intro d json portable
  have same : d.mapScalars Scalar.inYaml = d := (portable.each.imp fun _ => Scalar.inYaml_eq_self).mapScalars_eq_self
  exact (loadJson_print json).trans (congrArg _ same)

end Yaml

end RequestTemplate
