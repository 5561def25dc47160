import RequestTemplate.Request.Basic

/-!
# Variables in scope

The table of variables of a chain of environments. The most specific environment
that defines a name decides its value; within one environment the last entry
does. An entry that is switched off or has no value defines nothing.
-/

namespace RequestTemplate

/-- The variables in scope, by name. -/
abbrev Scope := Dictionary String String

/-- Whether the entry defines a variable. -/
def NamedValue.defines (v : NamedValue) : Bool :=
  v.enabled && v.value != ""

namespace Scope

/-- The scope with the variables of an environment put over it. -/
def overlay (scope : Scope) (definitions : List NamedValue) : Scope :=
  definitions.foldl (fun s v => if v.defines then s.insert v.name v.value else s) scope

/-- The scope of a chain, whose most specific environment comes first. -/
def ofChain : List Environment → Scope
  | [] => []
  | e :: rest => (ofChain rest).overlay e.definitions

end Scope

end RequestTemplate
