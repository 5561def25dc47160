import RequestTemplate.Proofs.Blank
import RequestTemplate.Proofs.Source

/-!
# The tags of a source

Two sources that are read have the same tags, with the same spans and the same
values, if and only if their tags have the same bodies (`tags_eq_iff`). Every
live opener of such a source stands in one of its tags (`live_eq_sum`).
-/

namespace RequestTemplate
open Delimiter

def Token.isTag : Token → Bool
  | .tag _ _ => true
  | .raw _ => false

/-- The token is the tag that is read from this body. -/
def Token.ReadFrom (token : Token) (body : List Char) : Prop :=
  ∃ value, Tag.read body = .ok value ∧ token = .tag value (some (String.ofList (Span.tag body).source))

namespace Span

@[simp] theorem filterMap_text (s : List Char) (rest : List Span) :
    (text s :: rest).filterMap body? = rest.filterMap body? := rfl

@[simp] theorem filterMap_tag (body : List Char) (rest : List Span) :
    (tag body :: rest).filterMap body? = body :: rest.filterMap body? := rfl

theorem source_tag_injective : Function.Injective fun body => (tag body).source := by
  intro body other same
  simpa [source] using same

theorem sealed_source_tag (body : List Char) : sealed (tag body).source = true := by
  simp [source, closer, sealed]

/-- A source without a tag that is never closed has its live openers in its tags. -/
theorem live_of_proper {spans : List Span} (proper : Proper spans) (outside : spans.any endless = false) :
    live false (spans.flatMap source) =
      ((spans.filterMap body?).map fun body => live false (tag body).source).sum := by
  induction spans with
  | nil => rfl
  | cons span rest ih =>
    cases span with
    | unclosed s => simp [endless] at outside
    | tag body =>
      have later := ih proper.2 outside
      have quiet := openers_append_of_sealed (sealed_source_tag body) false false (rest.flatMap source)
      rw [oddBehind_of_sealed (sealed_source_tag body)] at quiet
      rw [List.flatMap_cons, live, quiet, ← live, ← live, later]
      simp
    | text s =>
      obtain ⟨-, quiet, follows, proper⟩ := proper
      have later := ih proper outside
      cases rest with
      | nil => simpa [source] using quiet
      | cons next rest =>
        cases next with
        | text t => exact follows.elim
        | unclosed t => simp [endless] at outside
        | tag body =>
          have even : oddBehind false s = false := follows
          have apart : Apart ((tag body :: rest).flatMap source) := by
            refine apart_of_opens ?_
            simp [source, opener, opens]
          rw [List.flatMap_cons, live, source, openers_append apart, even, ← live, ← live, quiet, later]
          simp

end Span

namespace Template

def tags (template : Template) : Template := template.filter Token.isTag

theorem tags_of_ofSpans {start : Nat} {spans : List Span} {template : Template}
    (read : ofSpans start spans = .ok template) :
    spans.any Span.endless = false ∧
      List.Forall₂ Token.ReadFrom template.tags (spans.filterMap Span.body?) := by
  induction spans generalizing start template with
  | nil =>
    obtain rfl : [] = template := Except.ok.inj read
    exact ⟨rfl, .nil⟩
  | cons span rest ih =>
    cases span with
    | unclosed s => exact absurd read (by simp [ofSpans])
    | text s =>
      obtain ⟨others, later, rfl⟩ := ofSpans_text.1 read
      obtain ⟨closed, tags⟩ := ih later
      exact ⟨closed, tags⟩
    | tag body =>
      obtain ⟨value, others, accepted, later, rfl⟩ := ofSpans_tag.1 read
      obtain ⟨closed, tags⟩ := ih later
      exact ⟨closed, .cons ⟨value, accepted, rfl⟩ tags⟩

theorem ofSpans_of_bodies {spans : List Span} (closed : spans.any Span.endless = false)
    (read : ∀ body ∈ spans.filterMap Span.body?, ∃ value, Tag.read body = .ok value) (start : Nat) :
    ∃ template, ofSpans start spans = .ok template := by
  induction spans generalizing start with
  | nil => exact ⟨[], rfl⟩
  | cons span rest ih =>
    cases span with
    | unclosed s => simp [Span.endless] at closed
    | text s =>
      obtain ⟨others, later⟩ := ih closed read (start + s.length)
      exact ⟨_, ofSpans_text.2 ⟨others, later, rfl⟩⟩
    | tag body =>
      obtain ⟨here, later⟩ := List.forall_mem_cons.1 read
      obtain ⟨value, accepted⟩ := here
      obtain ⟨others, later⟩ := ih closed later (start + (Span.tag body).source.length)
      exact ⟨_, ofSpans_tag.2 ⟨value, others, accepted, later, rfl⟩⟩

theorem inside_of_parse {text : String} {template : Template} (read : parse text = .ok template) :
    Span.inside text.toList = false :=
  (tags_of_ofSpans read).1

theorem readFrom_leftUnique : Relator.LeftUnique Token.ReadFrom := by
  rintro token other body ⟨value, accepted, rfl⟩ ⟨again, same, rfl⟩
  obtain rfl : value = again := Except.ok.inj (accepted.symm.trans same)
  rfl

theorem readFrom_rightUnique : Relator.RightUnique Token.ReadFrom := by
  rintro token body other ⟨value, -, rfl⟩ ⟨again, -, eq⟩
  have same := Option.some.inj (Token.tag.inj eq).2
  exact Span.source_tag_injective (String.ofList_inj.1 same)

theorem tags_eq_iff {text other : String} {template again : Template}
    (read : parse text = .ok template) (reread : parse other = .ok again) :
    again.tags = template.tags ↔ Span.bodies other.toList = Span.bodies text.toList := by
  have tags := (tags_of_ofSpans read).2
  have others := (tags_of_ofSpans reread).2
  constructor
  · intro same
    rw [same] at others
    exact List.right_unique_forall₂' readFrom_rightUnique others tags
  · intro same
    rw [← Span.bodies, same] at others
    exact List.left_unique_forall₂' readFrom_leftUnique others tags

/-- A source is read when it closes its tags and has the bodies of a source that
    is read. -/
theorem parse_of_bodies {text other : String} {template : Template} (read : parse text = .ok template)
    (closed : Span.inside other.toList = false)
    (same : Span.bodies other.toList = Span.bodies text.toList) :
    ∃ again, parse other = .ok again := by
  refine ofSpans_of_bodies closed ?_ 0
  rw [← Span.bodies, same]
  have tags := (tags_of_ofSpans read).2
  rw [← Span.bodies] at tags
  generalize template.tags = tokens, Span.bodies text.toList = bodies at tags ⊢
  induction tags with
  | nil => simp
  | cons head tail ih =>
    obtain ⟨value, accepted, -⟩ := head
    exact List.forall_mem_cons.2 ⟨⟨value, accepted⟩, ih⟩

theorem live_eq_sum {s : List Char} (closed : Span.inside s = false) :
    live false s = ((Span.bodies s).map fun body => live false (Span.tag body).source).sum := by
  have counted := Span.live_of_proper (Span.proper_spans s) closed
  rwa [Span.source_spans] at counted

end Template

end RequestTemplate
