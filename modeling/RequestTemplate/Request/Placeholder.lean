import RequestTemplate.Request.Basic
import RequestTemplate.Text.Percent

/-!
# Path placeholders

A parameter whose name begins with a colon fills the segments of a URL's path
that consist of its name. Its value is percent-encoded, so it stays one segment.
A parameter that fills no segment is sent with the query.
-/

namespace RequestTemplate.Placeholder

/-- Whether a segment ends before the text: at a slash, at the query or the
    fragment, or at the end of the URL, which one last line break may follow. -/
def endsSegment : List Char → Bool
  | [] => true
  | ['\n'] => true
  | c :: _ => c == '/' || c == '?' || c == '#'

/-- The URL with the segments of a name replaced, and the text from `skipped`
    characters on, which belong to a segment that was replaced already. -/
def fillFrom (name value : List Char) (skipped : Nat) : List Char → List Char
  | [] => []
  | c :: rest =>
    match skipped with
    | skipped + 1 => fillFrom name value skipped rest
    | 0 =>
      if c = '/' ∧ name.isPrefixOf rest = true ∧ endsSegment (rest.drop name.length) = true then
        '/' :: value ++ fillFrom name value name.length rest
      else c :: fillFrom name value 0 rest

/-- Whether the parameter can fill a segment of a path. -/
def isPlaceholder (parameter : NamedValue) : Bool :=
  parameter.enabled && parameter.name.toList.head? == some ':'

/-- The URL with the segments of a parameter filled. -/
def fill (parameter : NamedValue) (url : String) : String :=
  if isPlaceholder parameter then
    String.ofList (fillFrom parameter.name.toList (Percent.encode parameter.value).toList 0 url.toList)
  else url

/-- Fills all parameters in turn. What remains are the parameters for the query:
    those that are enabled, have a name and did not change the URL. -/
def apply (url : String) : List NamedValue → String × List NamedValue
  | [] => (url, [])
  | p :: rest =>
    if !p.enabled || p.name == "" then apply url rest
    else
      let filled := fill p url
      if filled = url then
        let (final, remaining) := apply url rest
        (final, p :: remaining)
      else apply filled rest

end RequestTemplate.Placeholder
