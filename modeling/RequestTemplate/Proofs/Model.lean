import RequestTemplate.Proofs.Schema

/-!
# Requests and environments are read back

Whatever the lax rules are, as long as they are lawful, an environment is read back from what
it is written as (`Environment.validate_write`), and so is a request whose trees are plain
JSON (`Request.validate_write`). The trees of a request that was accepted are
(`Request.tree_of_validate`).
-/

namespace RequestTemplate

open Schema Schema.Checked

/-! ## Labels -/

theorem NamedValue.apart : Label.Apart [.name, .value, .enabled, .id] := by decide

theorem Environment.apart :
    Label.Apart [.name, .definitions, .id, .workspaceId, .parentModel, .parentId] := by decide

theorem HttpRequest.apart :
    Label.Apart [.id, .workspaceId, .folderId, .name, .method, .url, .urlParameters, .headers, .bodyType, .body,
      .authenticationType, .authentication] := by decide

theorem GrpcRequest.apart :
    Label.Apart [.id, .workspaceId, .folderId, .name, .url, .service, .method, .message, .metadata, .authenticationType,
      .authentication] := by decide

theorem WebsocketRequest.apart :
    Label.Apart [.id, .workspaceId, .folderId, .name, .url, .message, .headers, .authenticationType, .authentication] := by
  decide

/-! ## Trees -/

namespace Request

/-- The trees in a request: its body, if it has one, and its authentication. -/
def trees : Request → List Document
  | http r => [.object r.body, .object r.authentication]
  | grpc r => [.object r.authentication]
  | websocket r => [.object r.authentication]

theorem map_eq_ok_iff {α : Type} {f : α → Request} {x : Except Failure α} {r : Request} :
    x.map f = .ok r ↔ ∃ a, x = .ok a ∧ r = f a := by
  cases x <;> simp [Except.map, eq_comm]

end Request

section

variable [Lax] (lawful : Lax.Lawful)

namespace Request

theorem validate_eq_ok_iff {kind : Kind} {d : Document} {r : Request} :
    validate kind d = .ok r ↔
      match kind with
      | .http => ∃ request, HttpRequest.read d = .ok request ∧ r = http request
      | .grpc => ∃ request, GrpcRequest.read d = .ok request ∧ r = grpc request
      | .websocket => ∃ request, WebsocketRequest.read d = .ok request ∧ r = websocket request := by
  cases kind <;> simp only [validate, map_eq_ok_iff, Schema.validate_eq_ok_iff]

theorem kind_of_validate {kind : Kind} {d : Document} {r : Request} (accepted : validate kind d = .ok r) :
    r.kind = kind := by
  cases kind <;> obtain ⟨request, -, rfl⟩ := validate_eq_ok_iff.1 accepted <;> rfl

end Request

include lawful

/-! ## Named values and environments -/

namespace NamedValue

theorem read_write (naming : Naming) (v : NamedValue) : read (v.write naming) = .ok v := by
  rw [write, read, readWith]
  refine model_write lawful ?_ naming fun found => ?_
  · exact apart
  simp only [List.forall_mem_cons] at found
  simp only [withDefault, found, lawful.text, lawful.flag, optionalText_ofOptionalText lawful, under_ok]
  rfl

theorem readVariable_write (naming : Naming) (v : NamedValue) : readVariable (v.write naming) = .ok v := by
  rw [write, readVariable, readWith]
  refine model_write lawful ?_ naming fun found => ?_
  · exact apart
  simp only [List.forall_mem_cons] at found
  simp only [withDefault, required, found, lawful.text, lawful.flag, optionalText_ofOptionalText lawful, under_ok]
  rfl

theorem listOf_read (naming : Naming) (vs : List NamedValue) : listOf read (writeAll naming vs) = .ok vs :=
  listOf_map lawful fun v _ => read_write lawful naming v

theorem listOf_readVariable (naming : Naming) (vs : List NamedValue) :
    listOf readVariable (writeAll naming vs) = .ok vs :=
  listOf_map lawful fun v _ => readVariable_write lawful naming v

end NamedValue

theorem Environment.read_write (naming : Naming) (e : Environment) : read (e.write naming) = .ok e := by
  rw [write, read]
  refine model_write lawful ?_ naming fun found => ?_
  · exact apart
  simp only [List.forall_mem_cons] at found
  simp only [withDefault, found, lawful.text, NamedValue.listOf_readVariable lawful, optionalText_ofOptionalText lawful,
    under_ok]
  rfl

/-! ## Requests -/

theorem HttpRequest.read_write (naming : Naming) {r : HttpRequest} (body : (Document.object r.body).Plain)
    (authentication : (Document.object r.authentication).Plain) : read (r.write naming) = .ok r := by
  rw [write, read]
  refine model_write lawful ?_ naming fun found => ?_
  · exact apart
  simp only [List.forall_mem_cons] at found
  simp only [withDefault, found, lawful.text, NamedValue.listOf_read lawful, optionalText_ofOptionalText lawful,
    json_object lawful body, json_object lawful authentication, under_ok]
  rfl

theorem HttpRequest.yields_trees (d : Document) :
    (HttpRequest.read d).Yields fun r => Tree d (.object r.body) ∧ Tree d (.object r.authentication) := by
  refine yields_model (P := fun d (r : HttpRequest) => Tree d (.object r.body) ∧ Tree d (.object r.authentication))
    lawful (fun entries => ?_) d
  refine yields_both _ (yields_skip (yields_both _ ?_ (Schema.yields_tree lawful entries .body)))
    (Schema.yields_tree lawful entries .authentication)
  iterate 9
    refine yields_skip ?_
  refine yields_ok fun _ _ _ _ _ _ _ _ _ body first _ authentication second => ?_
  exact ⟨first, second⟩

theorem GrpcRequest.read_write (naming : Naming) {r : GrpcRequest}
    (authentication : (Document.object r.authentication).Plain) : read (r.write naming) = .ok r := by
  rw [write, read]
  refine model_write lawful ?_ naming fun found => ?_
  · exact apart
  simp only [List.forall_mem_cons] at found
  simp only [withDefault, found, lawful.text, NamedValue.listOf_read lawful, optionalText_ofOptionalText lawful,
    json_object lawful authentication, under_ok]
  rfl

theorem GrpcRequest.yields_tree (d : Document) :
    (GrpcRequest.read d).Yields fun r => Tree d (.object r.authentication) := by
  refine yields_model (P := fun d (r : GrpcRequest) => Tree d (.object r.authentication)) lawful (fun entries => ?_) d
  refine yields_both _ ?_ (Schema.yields_tree lawful entries .authentication)
  iterate 10
    refine yields_skip ?_
  exact yields_ok fun _ _ _ _ _ _ _ _ _ _ authentication tree => tree

theorem WebsocketRequest.read_write (naming : Naming) {r : WebsocketRequest}
    (authentication : (Document.object r.authentication).Plain) : read (r.write naming) = .ok r := by
  rw [write, read]
  refine model_write lawful ?_ naming fun found => ?_
  · exact apart
  simp only [List.forall_mem_cons] at found
  simp only [withDefault, found, lawful.text, NamedValue.listOf_read lawful, optionalText_ofOptionalText lawful,
    json_object lawful authentication, under_ok]
  rfl

theorem WebsocketRequest.yields_tree (d : Document) :
    (WebsocketRequest.read d).Yields fun r => Tree d (.object r.authentication) := by
  refine yields_model (P := fun d (r : WebsocketRequest) => Tree d (.object r.authentication)) lawful
    (fun entries => ?_) d
  refine yields_both _ ?_ (Schema.yields_tree lawful entries .authentication)
  iterate 8
    refine yields_skip ?_
  exact yields_ok fun _ _ _ _ _ _ _ _ authentication tree => tree

/-! ## Validation -/

theorem Environment.validate_write (naming : Naming) (e : Environment) : validate (e.write naming) = .ok e :=
  validate_eq_ok_iff.2 (e.read_write lawful naming)

namespace Request

theorem tree_of_validate {kind : Kind} {d : Document} {r : Request} (accepted : validate kind d = .ok r) :
    ∀ tree ∈ r.trees, Tree d tree := by
  cases kind with
  | http =>
    obtain ⟨request, read, rfl⟩ := validate_eq_ok_iff.1 accepted
    obtain ⟨body, authentication⟩ := HttpRequest.yields_trees lawful d request read
    exact List.forall_mem_cons.2 ⟨body, List.forall_mem_singleton.2 authentication⟩
  | grpc =>
    obtain ⟨request, read, rfl⟩ := validate_eq_ok_iff.1 accepted
    exact List.forall_mem_singleton.2 (GrpcRequest.yields_tree lawful d request read)
  | websocket =>
    obtain ⟨request, read, rfl⟩ := validate_eq_ok_iff.1 accepted
    exact List.forall_mem_singleton.2 (WebsocketRequest.yields_tree lawful d request read)

theorem validate_write (naming : Naming) {r : Request} (plain : ∀ tree ∈ r.trees, tree.Plain) :
    validate r.kind (r.write naming) = .ok r := by
  cases r with
  | http r =>
    obtain ⟨body, authentication⟩ := List.forall_mem_cons.1 plain
    exact validate_eq_ok_iff.2 ⟨r, r.read_write lawful naming body (List.forall_mem_singleton.1 authentication), rfl⟩
  | grpc r => exact validate_eq_ok_iff.2 ⟨r, r.read_write lawful naming (List.forall_mem_singleton.1 plain), rfl⟩
  | websocket r => exact validate_eq_ok_iff.2 ⟨r, r.read_write lawful naming (List.forall_mem_singleton.1 plain), rfl⟩

end Request

end

end RequestTemplate
