/-!
# Issues

What is wrong with data that does not fit a schema, and where. A path leads from
the whole to the part at fault.
-/

namespace RequestTemplate.Schema

inductive Complaint where
  | missing
  | modelType
  | stringType
  | boolType
  | boolParsing
  | intType
  | intParsing
  | intParsingSize
  | intFromFloat
  | greaterThanEqual
  | enum
  | listType
  | dictType
  deriving DecidableEq, Inhabited

inductive Step where
  | member (name : String)
  | item (index : Nat)
  deriving DecidableEq, Inhabited

structure Issue where
  path : List Step
  complaint : Complaint
  deriving DecidableEq, Inhabited

end RequestTemplate.Schema
