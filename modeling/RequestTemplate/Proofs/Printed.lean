import RequestTemplate.Proofs.Json
import RequestTemplate.Proofs.Normal

/-!
# Printed documents are read back

The documents that texts are read as are plain JSON in which no decimal ends in zeros
(`exists_read?_iff`). Each of them is read back from its text in every style
(`read?_print`).
-/

namespace RequestTemplate.Document

open Reader

/-- Every scalar in the document, the names of members apart, has the property. -/
inductive Each (P : Scalar → Prop) : Document → Prop
  | scalar {s : Scalar} (holds : P s) : Each P (.scalar s)
  | list {items : List Document} (each : ∀ d ∈ items, Each P d) : Each P (.list items)
  | mapping {entries : List (Scalar × Document)} (values : ∀ entry ∈ entries, Each P entry.2) :
    Each P (.mapping entries)

theorem Each.and {P Q : Scalar → Prop} {d : Document} (first : d.Each P) (second : d.Each Q) :
    d.Each fun s => P s ∧ Q s := by
  induction first with
  | scalar holds =>
    obtain ⟨other⟩ | _ | _ := second
    exact .scalar ⟨holds, other⟩
  | list _ ih =>
    obtain _ | ⟨each⟩ | _ := second
    exact .list fun d member => ih d member (each d member)
  | mapping _ ih =>
    obtain _ | _ | ⟨values⟩ := second
    exact .mapping fun entry member => ih entry member (values entry member)

theorem Each.imp {P Q : Scalar → Prop} (weaker : ∀ s, P s → Q s) {d : Document} (each : d.Each P) : d.Each Q := by
  induction each with
  | scalar holds => exact .scalar (weaker _ holds)
  | list _ ih => exact .list ih
  | mapping _ ih => exact .mapping ih

theorem Plain.each {d : Document} (plain : d.Plain) : d.Each fun s => s.isDate = false := by
  induction plain with
  | scalar json => exact .scalar json
  | list _ ih => exact .list ih
  | mapping _ _ _ ih => exact .mapping ih

/-- No decimal in the document ends in zeros. -/
abbrev Stripped (d : Document) : Prop :=
  d.Each fun s => ∀ d, s = .decimal d → d.Stripped

/-- Plain JSON in which no decimal ends in zeros. -/
structure Json (d : Document) : Prop where
  plain : d.Plain
  stripped : d.Stripped

theorem json_scalar_iff {s : Scalar} :
    (scalar s).Json ↔ s.isDate = false ∧ ∀ d, s = .decimal d → d.Stripped := by
  constructor
  · rintro ⟨⟨json⟩, ⟨decimal⟩⟩
    exact ⟨json, decimal⟩
  · rintro ⟨json, decimal⟩
    exact ⟨.scalar json, .scalar decimal⟩

theorem json_list_iff {items : List Document} : (list items).Json ↔ ∀ d ∈ items, d.Json := by
  constructor
  · rintro ⟨_ | ⟨plain⟩, _ | ⟨stripped⟩⟩ d member
    exact ⟨plain d member, stripped d member⟩
  · intro each
    exact ⟨.list fun d member => (each d member).plain, .list fun d member => (each d member).stripped⟩

theorem json_mapping_iff {entries : List (Scalar × Document)} :
    (mapping entries).Json ↔ (∀ entry ∈ entries, ∃ name, entry.1 = .text name) ∧ (Dictionary.keys entries).Nodup ∧
      ∀ entry ∈ entries, entry.2.Json := by
  constructor
  · rintro ⟨_ | _ | ⟨named, distinct, plain⟩, _ | _ | ⟨stripped⟩⟩
    exact ⟨named, distinct, fun entry member => ⟨plain entry member, stripped entry member⟩⟩
  · rintro ⟨named, distinct, values⟩
    exact ⟨.mapping named distinct fun entry member => (values entry member).plain,
      .mapping fun entry member => (values entry member).stripped⟩

/-- The document with other scalars in it. The names of members stay. -/
def mapScalars (f : Scalar → Scalar) : Document → Document
  | scalar s => scalar (f s)
  | list items => list (items.map fun d => d.mapScalars f)
  | mapping entries => mapping (entries.map fun entry => (entry.1, entry.2.mapScalars f))
decreasing_by
  · have smaller := List.sizeOf_lt_of_mem ‹_›
    simp_wf
    omega
  · have smaller := sizeOf_value_lt ‹_›
    simp_wf
    omega

theorem Each.mapScalars_eq_self {f : Scalar → Scalar} {d : Document} (each : d.Each fun s => f s = s) :
    d.mapScalars f = d := by
  induction each with
  | scalar same => rw [mapScalars, same]
  | list _ ih => rw [mapScalars, List.map_congr_left ih, List.map_id']
  | mapping _ ih =>
    rw [mapScalars, List.map_congr_left fun entry member => congrArg (Prod.mk entry.1) (ih entry member)]
    exact congrArg _ (List.map_id' _)

/-- Becoming plain JSON leaves decimals as they are. -/
theorem stripped_of_toJson {d e : Document} (stripped : d.Stripped) (done : d.toJson = .ok e) : e.Stripped := by
  induction stripped generalizing e with
  | @scalar s decimal =>
    obtain rfl := Except.ok.inj done
    refine .scalar fun d same => decimal d ?_
    cases s <;> first | exact same | cases same
  | list _ ih =>
    obtain ⟨plain, rfl, each⟩ := toJson_list_eq_ok_iff.1 done
    refine .list fun value member => ?_
    obtain ⟨d, there, inside⟩ := exists_left_of_mem each member
    exact ih d there inside
  | mapping _ ih =>
    obtain ⟨pairs, rfl, each⟩ := toJson_mapping_eq_ok_iff.1 done
    refine .mapping fun pair member => ?_
    obtain ⟨entry, there, entered⟩ := exists_left_of_mem each (Dictionary.mem_of_mem_ofList member)
    exact ih entry there entered.value

/-! ## What is printed -/

section

variable {numeral : Numeral} {room levels depth : Nat} {style : Style}

theorem space_newline (style : Style) (depth : Nat) : Space (style.newline depth).toList := by
  intro c member
  obtain ⟨_ | width, ascii⟩ := style
  · cases member
  · simp only [Style.newline, String.toList_ofList, List.mem_cons, List.mem_replicate] at member
    obtain rfl | ⟨-, rfl⟩ := member <;> rfl

theorem toList_enclose {texts : List String} (given : texts ≠ []) (style : Style) (depth : Nat) (opening closing : String) :
    (style.enclose depth opening closing texts).toList =
      opening.toList ++ ((style.newline (depth + 1)).toList ++
        (List.intercalate (',' :: (style.newline (depth + 1)).toList) (texts.map String.toList) ++
          ((style.newline depth).toList ++ closing.toList))) := by
  rw [Style.enclose, if_neg (by simpa using given)]
  simp [String.toList_intercalate]

theorem printItems_eq_map (style : Style) (depth : Nat) (items : List Document) :
    printItems style depth items = items.map (printAt style depth) := by
  induction items with
  | nil => rfl
  | cons item rest ih => rw [printItems, ih, List.map_cons]

/-- The text of a member. -/
def printEntry (style : Style) (depth : Nat) (entry : Scalar × Document) : String :=
  style.member (style.quote entry.1.toText) (printAt style depth entry.2)

theorem printEntries_eq_map (style : Style) (depth : Nat) (entries : List (Scalar × Document)) :
    printEntries style depth entries = entries.map (printEntry style depth) := by
  induction entries with
  | nil => rfl
  | cons entry rest ih => rw [printEntries, ih, List.map_cons, printEntry]

theorem length_le_intercalate {s text : List Char} {texts : List (List Char)} (member : text ∈ texts) :
    text.length ≤ (List.intercalate s texts).length := by
  induction texts with
  | nil => cases member
  | cons first texts ih =>
    cases texts with
    | nil => rw [List.mem_singleton.1 member, List.intercalate_singleton]
    | cons second texts =>
      rw [List.intercalate_cons_cons, List.length_append, List.length_append]
      obtain rfl | later := List.mem_cons.1 member
      · omega
      · have shorter := ih later
        omega

theorem length_le_length_intercalate (c : Char) (s : List Char) (texts : List (List Char)) :
    texts.length ≤ (List.intercalate (c :: s) texts).length + 1 := by
  induction texts with
  | nil => exact Nat.zero_le _
  | cons first texts ih =>
    cases texts with
    | nil => exact Nat.le_add_left 1 _
    | cons second texts =>
      rw [List.intercalate_cons_cons, List.length_append, List.length_append, List.length_cons, List.length_cons (a := c)]
      omega

theorem toList_negSucc (n : Nat) : (toString (Int.negSucc n)).toList = '-' :: (toString (n + 1)).toList := by
  rw [Int.toString_eq_repr]
  simp [Int.repr]

/-- What JSON takes this text for, so does the numeral. -/
def Reader.Numeral.Takes (numeral : Numeral) (text : List Char) : Prop :=
  ∀ (negative : Bool) (rest : List Char) (n : Scalar), number? negative (text ++ rest) = some (n, rest) →
    numeral.read? negative (text ++ rest) = some (n, rest)

/-- How the one scalar is written is read as the other. -/
def Reader.Numeral.Makes (numeral : Numeral) (style : Style) (s t : Scalar) : Prop :=
  ∀ room levels, Reads numeral room (levels + 1) (style.scalar s).toList (.scalar t)

theorem Reader.Numeral.makes_self {s : Scalar} (json : s.isDate = false) (decimal : ∀ d, s = .decimal d → d.Stripped)
    (takes : ∀ text ∈ s.numeral?, numeral.Takes text) (style : Style) : numeral.Makes style s s := by
  intro room levels rest ends
  cases s with
  | null => simp [Style.scalar, document?, null]
  | bool value => cases value <;> simp [Style.scalar, document?, bool]
  | integer n =>
    cases n with
    | ofNat n =>
      refine document?_number (takes _ rfl false rest _ ?_)
      have read := number?_integer false (digits_toString n) (toString_ne_nil n) ends
      rwa [digitsValue_toString] at read
    | negSucc n =>
      rw [Style.scalar, toList_negSucc, List.cons_append]
      refine document?_minus (takes _ rfl true rest _ ?_)
      have read := number?_integer true (digits_toString (n + 1)) (toString_ne_nil (n + 1)) ends
      rwa [digitsValue_toString] at read
  | decimal d =>
    obtain ⟨sign, digits, exponent⟩ := d
    have read := takes _ rfl sign rest _ (Decimal.number?_size .value (decimal _ rfl) sign ends)
    rw [Style.scalar, Decimal.toList_print]
    cases sign with
    | false => exact document?_number read
    | true => exact document?_minus read
  | text content =>
    have written : style.scalar (.text content) = style.quote content := rfl
    rw [written, toList_quote_append, document?, textBody_quote]
    simp only [Option.bind_eq_bind, Option.bind_some, String.ofList_toList]
    rfl
  | date | dateTime => cases json

/-- The parts between brackets are fewer than the characters of the whole, and shorter. -/
theorem length_enclose (texts : List String) (style : Style) (depth : Nat) (opening closing : String)
    (one : opening.length = 1) (other : closing.length = 1) :
    texts.length < (style.enclose depth opening closing texts).length ∧
      ∀ text ∈ texts, text.length + 1 < (style.enclose depth opening closing texts).length := by
  by_cases given : texts = []
  · subst given
    simp [Style.enclose, one, other]
  · have whole := congrArg List.length (toList_enclose given style depth opening closing)
    simp only [List.length_append, String.length_toList, one, other] at whole
    refine ⟨?_, fun text member => ?_⟩
    · have fewer := length_le_length_intercalate ',' (style.newline (depth + 1)).toList (texts.map String.toList)
      rw [List.length_map] at fewer
      omega
    · have shorter := length_le_intercalate (s := ',' :: (style.newline (depth + 1)).toList)
        (List.mem_map_of_mem (f := String.toList) member)
      rw [String.length_toList] at shorter
      omega

theorem reads_list {items : List Document} (given : items ≠ []) {texts : List (List Char)}
    (read : List.Forall₂ (Reads numeral room levels) texts items) (enough : items.length ≤ room) (style : Style)
    (depth : Nat) :
    Reads numeral room (levels + 1)
      ('[' :: ((style.newline (depth + 1)).toList ++
        (List.intercalate (',' :: (style.newline (depth + 1)).toList) texts ++ ((style.newline depth).toList ++ [']']))))
      (.list items) := by
  intro rest ends
  have inner := items?_intercalate given read (space_newline style (depth + 1)) (space_newline style depth) enough rest
  rw [← items?_congr (skip_append (space_newline style (depth + 1)) _)] at inner
  simpa using document?_list inner

theorem reads_mapping {entries : List (Scalar × Document)} (given : entries ≠ []) {texts : List (List Char)}
    (read : List.Forall₂ (ReadsMember numeral room levels) texts entries) (enough : entries.length ≤ room)
    (distinct : (Dictionary.keys entries).Nodup) (style : Style) (depth : Nat) :
    Reads numeral room (levels + 1)
      ('{' :: ((style.newline (depth + 1)).toList ++
        (List.intercalate (',' :: (style.newline (depth + 1)).toList) texts ++ ((style.newline depth).toList ++ ['}']))))
      (.mapping entries) := by
  intro rest ends
  have inner := members?_intercalate given read (space_newline style (depth + 1)) (space_newline style depth) enough rest
  rw [← members?_congr (skip_append (space_newline style (depth + 1)) _)] at inner
  simpa [Dictionary.ofList_of_nodup distinct] using document?_mapping inner

theorem forall₂_map_map {α β : Type} {R : List Char → β → Prop} {f : α → String} {g : α → β} {xs : List α}
    (each : ∀ x ∈ xs, R (f x).toList (g x)) : List.Forall₂ R ((xs.map f).map String.toList) (xs.map g) := by
  rw [List.map_map, List.forall₂_map_left_iff, List.forall₂_map_right_iff]
  exact List.forall₂_same.2 each

theorem length_member (style : Style) (name value : String) : value.length ≤ (style.member name value).length := by
  simp [Style.member]

theorem readsMember_member {name : String} {value : Document} {content : String}
    (read : Reads numeral room levels content.toList value) :
    ReadsMember numeral room levels (style.member (style.quote name) content).toList (.text name, value) := by
  have space : Space (if style.indent.isSome then [' '] else []) := by
    intro c member
    split at member
    · rw [List.mem_singleton.1 member]
      rfl
    · cases member
  have written : (style.member (style.quote name) content).toList =
      (style.quote name).toList ++ ':' :: ((if style.indent.isSome then [' '] else []) ++ content.toList) := by
    rw [Style.member]
    split <;> simp
  rw [written]
  exact .member style name space read

theorem reads_empty (style : Style) (depth : Nat) :
    Reads numeral room (levels + 1) (style.enclose depth "[" "]" []).toList (.list []) ∧
      Reads numeral room (levels + 1) (style.enclose depth "\x7b" "\x7d" []).toList (.mapping []) := by
  constructor
  · intro rest _
    have written : (style.enclose depth "[" "]" []).toList = ['[', ']'] := by simp [Style.enclose]
    rw [written, List.cons_append, List.cons_append, document?, skip_cons (by decide)]
    rfl
  · intro rest _
    have written : (style.enclose depth "\x7b" "\x7d" []).toList = ['{', '}'] := by simp [Style.enclose]
    rw [written, List.cons_append, List.cons_append, document?, skip_cons (by decide)]
    rfl

/-- A document is read from how it is printed as its scalars are, if there is room for as many
    parts and as many levels as characters. -/
theorem reads_printAt {f : Scalar → Scalar} {d : Document} (plain : d.Plain)
    (made : d.Each fun s => numeral.Makes style s (f s)) (wide : (printAt style depth d).length ≤ room)
    (deep : (printAt style depth d).length ≤ levels) :
    Reads numeral room (levels + 1) (printAt style depth d).toList (d.mapScalars f) := by
  induction plain generalizing depth levels with
  | scalar =>
    obtain ⟨made⟩ | _ | _ := made
    rw [mapScalars]
    exact made room levels
  | @list items _ ih =>
    obtain _ | ⟨each⟩ | _ := made
    rw [printAt, printItems_eq_map] at wide deep ⊢
    rw [mapScalars]
    obtain ⟨fewer, shorter⟩ := length_enclose (items.map (printAt style (depth + 1))) style depth "[" "]" rfl rfl
    rw [List.length_map] at fewer
    obtain _ | levels := levels
    · omega
    have read : List.Forall₂ (Reads numeral room (levels + 1))
        ((items.map (printAt style (depth + 1))).map String.toList) (items.map fun d => d.mapScalars f) := by
      refine forall₂_map_map fun d member => ?_
      have inside := shorter _ (List.mem_map_of_mem member)
      exact ih d member (each d member) (by omega) (by omega)
    by_cases given : items = []
    · subst given
      exact (reads_empty style depth).1
    · rw [toList_enclose (by simpa using given)]
      exact reads_list (by simpa using given) read (by rw [List.length_map]; omega) style depth
  | @mapping entries named distinct _ ih =>
    obtain _ | _ | ⟨values⟩ := made
    rw [printAt, printEntries_eq_map] at wide deep ⊢
    rw [mapScalars]
    obtain ⟨fewer, shorter⟩ := length_enclose (entries.map (printEntry style (depth + 1))) style depth "\x7b" "\x7d" rfl rfl
    rw [List.length_map] at fewer
    obtain _ | levels := levels
    · omega
    have read : List.Forall₂ (ReadsMember numeral room (levels + 1))
        ((entries.map (printEntry style (depth + 1))).map String.toList)
        (entries.map fun entry => (entry.1, entry.2.mapScalars f)) := by
      refine forall₂_map_map fun entry member => ?_
      have inside := shorter _ (List.mem_map_of_mem member)
      have value : _ ≤ (printEntry style (depth + 1) entry).length := length_member _ _ _
      have content : Reads numeral room (levels + 1) (printAt style (depth + 1) entry.2).toList (entry.2.mapScalars f) :=
        ih entry member (values entry member) (by omega) (by omega)
      obtain ⟨key, d⟩ := entry
      obtain ⟨name, rfl⟩ := named _ member
      exact readsMember_member content
    have apart : (Dictionary.keys (entries.map fun entry => (entry.1, entry.2.mapScalars f))).Nodup := by
      simpa [Dictionary.keys, Function.comp_def] using distinct
    by_cases given : entries = []
    · subst given
      exact (reads_empty style depth).2
    · rw [toList_enclose (by simpa using given)]
      exact reads_mapping (by simpa using given) read (by rw [List.length_map]; omega) apart style depth

end

/-- A document is read from its text, which space may follow, as its scalars are. -/
theorem readWith?_print {numeral : Numeral} {style : Style} {f : Scalar → Scalar} {d : Document} (plain : d.Plain)
    (made : d.Each fun s => numeral.Makes style s (f s)) {after : String} (space : Space after.toList) :
    readWith? numeral (d.print style ++ after) = some (d.mapScalars f) := by
  have shorter : (printAt style 0 d).length ≤ ((printAt style 0 d).toList ++ after.toList).length := by
    rw [List.length_append, String.length_toList]
    exact Nat.le_add_right _ _
  have read := reads_printAt plain made shorter shorter
  have ends : Ends after.toList := by
    rw [← List.append_nil after.toList]
    exact ends_append space nofun
  have start : skip ((printAt style 0 d).toList ++ after.toList) = (printAt style 0 d).toList ++ after.toList := by
    obtain ⟨c, rest, first, visible, -⟩ := read.exists_cons
    rw [first, List.cons_append, skip_cons visible]
  rw [readWith?, print, String.toList_append, start, read _ ends]
  have done : skip after.toList = [] := List.dropWhile_eq_nil_iff.2 space
  simp [done]

/-- Plain JSON is read back from its text in any style. -/
theorem read?_print {d : Document} (json : d.Json) (style : Style) {after : String}
    (space : Space after.toList) : read? (d.print style ++ after) = some d := by
  have made : d.Each fun s => Numeral.json.Makes style s (id s) := by
    refine (json.plain.each.and json.stripped).imp fun s given => ?_
    exact Numeral.makes_self given.1 given.2 (fun _ _ _ _ _ read => read) style
  have same : d.mapScalars id = d := (json.plain.each.imp fun _ _ => rfl).mapScalars_eq_self
  rw [read?, readWith?_print json.plain made space, same]

theorem read?_print_line {d : Document} (json : d.Json) (style : Style) : read? (d.print style ++ "\n") = some d :=
  read?_print json style (by simp [Space, isSpace])

/-! ## What can be read -/

theorem json_of_number? {negative : Bool} {s rest : List Char} {n : Scalar} (read : number? negative s = some (n, rest)) :
    (scalar n).Json := by
  simp only [number?] at read
  split at read
  · cases read
  · split at read
    · cases read
      exact json_scalar_iff.2 ⟨rfl, by simp⟩
    · cases read
      refine json_scalar_iff.2 ⟨rfl, fun d same => ?_⟩
      rw [← Scalar.decimal.inj same]
      exact Decimal.stripped_of _ _ _

variable {room levels : Nat}

theorem json_of_items? (each : ∀ {s : List Char} {d rest}, document? .json room levels s = some (d, rest) → d.Json)
    {count : Nat} {s rest : List Char} {items : List Document}
    (read : items? .json room levels count s = some (items, rest)) :
    ∀ d ∈ items, d.Json := by
  induction count generalizing s items with
  | zero => simp [items?] at read
  | succ count ih =>
    rw [items?, Option.bind_eq_bind, Option.bind_eq_some_iff] at read
    obtain ⟨⟨item, after⟩, first, read⟩ := read
    dsimp only at read
    split at read
    · obtain ⟨⟨others, final⟩, later, read⟩ := Option.bind_eq_some_iff.1 read
      cases read
      exact List.forall_mem_cons.2 ⟨each first, ih later⟩
    · cases read
      exact List.forall_mem_singleton.2 (each first)
    · cases read

theorem json_of_members? (each : ∀ {s : List Char} {d rest}, document? .json room levels s = some (d, rest) → d.Json)
    {count : Nat} {s rest : List Char} {entries : List (Scalar × Document)}
    (read : members? .json room levels count s = some (entries, rest)) :
    ∀ entry ∈ entries, (∃ name, entry.1 = .text name) ∧ entry.2.Json := by
  induction count generalizing s entries with
  | zero => simp [members?] at read
  | succ count ih =>
    rw [members?] at read
    split at read
    · obtain ⟨⟨name, behind⟩, named, read⟩ := Option.bind_eq_some_iff.1 read
      dsimp only at read
      split at read
      · obtain ⟨⟨value, after⟩, first, read⟩ := Option.bind_eq_some_iff.1 read
        dsimp only at read
        split at read
        · obtain ⟨⟨others, final⟩, later, read⟩ := Option.bind_eq_some_iff.1 read
          cases read
          exact List.forall_mem_cons.2 ⟨⟨⟨_, rfl⟩, each first⟩, ih later⟩
        · cases read
          exact List.forall_mem_singleton.2 ⟨⟨_, rfl⟩, each first⟩
        · cases read
      · cases read
    · cases read

theorem json_of_document? {s rest : List Char} {d : Document}
    (read : document? .json room levels s = some (d, rest)) : d.Json := by
  induction levels generalizing s d rest with
  | zero => simp [document?] at read
  | succ levels ih =>
    rw [document?.eq_def] at read
    simp only at read
    split at read
    · cases read
      exact json_scalar_iff.2 ⟨rfl, by simp⟩
    · cases read
      exact json_scalar_iff.2 ⟨rfl, by simp⟩
    · cases read
      exact json_scalar_iff.2 ⟨rfl, by simp⟩
    · obtain ⟨⟨content, behind⟩, -, read⟩ := Option.bind_eq_some_iff.1 read
      cases read
      exact json_scalar_iff.2 ⟨rfl, by simp⟩
    · split at read
      · cases read
        exact json_list_iff.2 (List.forall_mem_nil _)
      · obtain ⟨⟨items, behind⟩, inner, read⟩ := Option.bind_eq_some_iff.1 read
        cases read
        exact json_list_iff.2 (json_of_items? ih inner)
    · split at read
      · cases read
        exact json_mapping_iff.2 ⟨List.forall_mem_nil _, List.nodup_nil, List.forall_mem_nil _⟩
      · obtain ⟨⟨entries, behind⟩, inner, read⟩ := Option.bind_eq_some_iff.1 read
        cases read
        have each (entry) (member : entry ∈ Dictionary.ofList entries) :=
          json_of_members? ih inner entry (Dictionary.mem_of_mem_ofList member)
        exact json_mapping_iff.2 ⟨fun entry member => (each entry member).1, Dictionary.nodup_keys_ofList entries,
          fun entry member => (each entry member).2⟩
    · obtain ⟨⟨n, behind⟩, number, read⟩ := Option.bind_eq_some_iff.1 read
      cases read
      exact json_of_number? number
    · obtain ⟨⟨n, behind⟩, number, read⟩ := Option.bind_eq_some_iff.1 read
      cases read
      exact json_of_number? number

/-- The documents that can be read are the plain ones whose decimals do not end in zeros. -/
theorem exists_read?_iff (d : Document) : (∃ source, read? source = some d) ↔ d.Json := by
  constructor
  · rintro ⟨source, read⟩
    rw [read?, readWith?, Option.bind_eq_bind, Option.bind_eq_some_iff] at read
    obtain ⟨⟨e, rest⟩, here, read⟩ := read
    dsimp only at read
    split at read
    · cases read
      exact json_of_document? here
    · cases read
  · intro json
    exact ⟨d.print .block ++ "", read?_print json .block (by simp [Space])⟩

end RequestTemplate.Document
