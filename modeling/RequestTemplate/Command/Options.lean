/-!
# Options on a command line

Splits the words of a command line into options and operands. A long option
takes its value behind an equals sign or from the next word; short options of one
letter may be joined, and the rest of the word, or else the next word, is the
value of the first that takes one. Two dashes end the options.
-/

namespace RequestTemplate.Command

structure Flag where
  long : String
  short : Option Char := none
  takesValue : Bool := false
  deriving DecidableEq, Inhabited

/-- The options of a command line in order, each under its long name, and the
    words that are no options. -/
structure Words where
  options : List (String × String) := []
  operands : List String := []
  deriving DecidableEq, Inhabited

namespace Words

def withOptions (found : List (String × String)) (w : Words) : Words :=
  ⟨found ++ w.options, w.operands⟩

def withOperand (word : String) (w : Words) : Words :=
  ⟨w.options, word :: w.operands⟩

/-- The last value of an option. -/
def value? (w : Words) (long : String) : Option String :=
  w.options.reverse.lookup long

def has (w : Words) (long : String) : Bool :=
  (w.value? long).isSome

end Words

/-- What a word with options leaves open: nothing, or the value of its last one. -/
structure Opened where
  options : List (String × String)
  pending : Option String
  deriving DecidableEq, Inhabited

/-- A word that begins with two dashes. -/
def openLong? (flags : List Flag) (word : List Char) : Option Opened :=
  let name := word.takeWhile (· != '=')
  match flags.find? fun f => f.long.toList == name, word.drop name.length with
  | none, _ => none
  | some f, '=' :: value =>
    if f.takesValue then some ⟨[(f.long, String.ofList value)], none⟩ else none
  | some f, _ => if f.takesValue then some ⟨[], some f.long⟩ else some ⟨[(f.long, "")], none⟩

/-- The letters of short options. -/
def openShort? (flags : List Flag) : List Char → Option Opened
  | [] => some ⟨[], none⟩
  | c :: rest =>
    match flags.find? fun f => f.short == some c with
    | none => none
    | some f =>
      if f.takesValue then
        if rest = [] then some ⟨[], some f.long⟩
        else some ⟨[(f.long, String.ofList rest)], none⟩
      else (openShort? flags rest).map fun o => ⟨(f.long, "") :: o.options, o.pending⟩

/-- The options that a word holds. -/
def open? (flags : List Flag) : List Char → Option Opened
  | '-' :: '-' :: rest => openLong? flags ('-' :: '-' :: rest)
  | _ :: letters => openShort? flags letters
  | [] => none

/-- Whether a word is read as options: a dash with something behind it. -/
def holdsOptions : List Char → Bool
  | '-' :: _ :: _ => true
  | _ => false

/-- Splits words into options and operands; nothing if an option is not known or
    has no value where it needs one. Where options and operands do not mix, the
    first operand ends the options. -/
def split? (flags : List Flag) (mixed : Bool) : List String → Option Words
  | [] => some {}
  | word :: rest =>
    if word = "--" then some ⟨[], rest⟩
    else if holdsOptions word.toList then
      match open? flags word.toList with
      | none => none
      | some ⟨found, none⟩ => (split? flags mixed rest).map (Words.withOptions found)
      | some ⟨found, some long⟩ =>
        match rest with
        | [] => none
        | value :: rest =>
          (split? flags mixed rest).map (Words.withOptions (found ++ [(long, value)]))
    else if mixed then (split? flags mixed rest).map (Words.withOperand word)
    else some ⟨[], word :: rest⟩

end RequestTemplate.Command
