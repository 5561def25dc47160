import RequestTemplate.Command.Run
import RequestTemplate.Proofs.Model
import RequestTemplate.Proofs.Request
import RequestTemplate.Proofs.Terminal
import RequestTemplate.Proofs.Yaml

/-!
# Requests and environments survive being written

A request or an environment that was accepted is accepted again from what it is written
as, whichever spelling its labels have, and is the same. What is printed for a request is
JSON text: rendering changes only the texts of its trees (`Request.Rendered.kept`), so the
text is read as what the rendered request is written as (`Document.reloads`). Files are
YAML, in which some numbers of JSON are texts: a file that holds the text is loaded as the
rendered request if the text is portable, and need not be if it is not
(`Document.reloads_exponent`).
-/

namespace RequestTemplate

open Schema

variable {σ : Type}

/-! ## Rendering -/

namespace Document

theorem blankedItems_eq_map (items : List Document) : blankedItems items = items.map blanked := by
  induction items with
  | nil => rfl
  | cons item rest ih => rw [blankedItems, ih, List.map_cons]

theorem blankedEntries_eq_map (entries : List (Scalar × Document)) :
    blankedEntries entries = entries.map fun entry => (entry.1, entry.2.blanked) := by
  induction entries with
  | nil => rfl
  | cons entry rest ih => rw [blankedEntries, ih, List.map_cons]

/-- Whether a document can be printed and read does not depend on its texts. -/
theorem json_blanked_iff (d : Document) : d.blanked.Json ↔ d.Json := by
  induction d using induct with
  | scalar s => cases s <;> simp [blanked, json_scalar_iff, Scalar.isDate]
  | list items ih =>
    rw [blanked, blankedItems_eq_map, json_list_iff, json_list_iff, List.forall_mem_map]
    exact forall₂_congr ih
  | mapping entries ih =>
    rw [blanked, blankedEntries_eq_map, json_mapping_iff, json_mapping_iff]
    simp only [List.forall_mem_map, Dictionary.keys, List.map_map]
    exact and_congr_right fun _ => and_congr_right fun _ => forall₂_congr ih

theorem blanked_object (members : Dictionary String Document) :
    (object members).blanked = object (blankedMembers members) := by
  rw [object, blanked, blankedEntries_eq_map, object, blankedMembers, List.map_map, List.map_map]
  rfl

end Document

namespace Request

theorem trees_blanked (r : Request) : r.blanked.trees = r.trees.map Document.blanked := by
  cases r <;> simp [blanked, trees, HttpRequest.blanked, GrpcRequest.blanked, WebsocketRequest.blanked,
    Document.blanked_object]

/-- Rendering changes neither the kind of a request nor what its trees are but for their texts. -/
theorem Rendered.kept {request rendered : Request} {texts : List String} (done : Rendered request rendered texts) :
    rendered.kind = request.kind ∧ rendered.trees.map Document.blanked = request.trees.map Document.blanked := by
  cases done with
  | http fills =>
    refine ⟨rfl, ?_⟩
    rw [← trees_blanked, ← trees_blanked]
    have same := congrArg (fun r => (Request.http r).trees) fills.blanked
    exact same
  | grpc fills =>
    refine ⟨rfl, ?_⟩
    rw [← trees_blanked, ← trees_blanked]
    exact congrArg (fun r => (Request.grpc r).trees) fills.blanked
  | websocket fills =>
    refine ⟨rfl, ?_⟩
    rw [← trees_blanked, ← trees_blanked]
    exact congrArg (fun r => (Request.websocket r).trees) fills.blanked

theorem kept_of_render {r : Renderer σ} {request rendered : Request} {s : σ}
    (done : (request.render r s).outcome = .ok rendered) :
    rendered.kind = request.kind ∧ ∀ tree ∈ rendered.trees, ∃ source ∈ request.trees, tree.blanked = source.blanked := by
  obtain ⟨texts, -, filled⟩ := (coupled_render r request s).exists_of_ok done
  obtain ⟨kind, trees⟩ := filled.kept
  refine ⟨kind, fun tree member => ?_⟩
  have there : tree.blanked ∈ request.trees.map Document.blanked := trees ▸ List.mem_map_of_mem member
  obtain ⟨source, here, same⟩ := List.mem_map.1 there
  exact ⟨source, here, same.symm⟩

end Request

/-! ## What is written -/

namespace Schema

theorem json_text (s : String) : (Document.text s).Json :=
  Document.json_scalar_iff.2 ⟨rfl, nofun⟩

theorem json_bool (b : Bool) : (Document.bool b).Json :=
  Document.json_scalar_iff.2 ⟨rfl, nofun⟩

theorem json_ofOptionalText (s : Option String) : (ofOptionalText s).Json := by
  cases s <;> exact Document.json_scalar_iff.2 ⟨rfl, nofun⟩

/-- The members of a model have different names. -/
theorem json_write {members : List (Label × Document)} (apart : Label.Apart (members.map Prod.fst)) (naming : Naming)
    (each : ∀ member ∈ members, member.2.Json) : (write naming members).Json := by
  rw [write_eq, Document.json_mapping_iff]
  simp only [written, List.forall_mem_map, Dictionary.keys, List.map_map]
  refine ⟨fun member _ => ⟨_, rfl⟩, ?_, each⟩
  refine List.pairwise_map.2 ((List.pairwise_map.1 apart).imp fun unlike same => ?_)
  exact unlike naming naming (Scalar.text.inj same)

end Schema

theorem NamedValue.json_writeAll (naming : Naming) (vs : List NamedValue) : (writeAll naming vs).Json := by
  refine Document.json_list_iff.2 (List.forall_mem_map.2 fun v _ => json_write ?_ naming ?_)
  · exact apart
  · simp [json_text, json_bool, json_ofOptionalText]

theorem Request.json_write (naming : Naming) {r : Request} (json : ∀ tree ∈ r.trees, tree.Json) :
    (r.write naming).Json := by
  cases r with
  | http r =>
    obtain ⟨body, authentication⟩ := List.forall_mem_cons.1 json
    refine Schema.json_write ?_ naming ?_
    · exact HttpRequest.apart
    · simp [json_text, json_ofOptionalText, NamedValue.json_writeAll, body, List.forall_mem_singleton.1 authentication]
  | grpc r =>
    refine Schema.json_write ?_ naming ?_
    · exact GrpcRequest.apart
    · simp [json_text, json_ofOptionalText, NamedValue.json_writeAll, List.forall_mem_singleton.1 json]
  | websocket r =>
    refine Schema.json_write ?_ naming ?_
    · exact WebsocketRequest.apart
    · simp [json_text, json_ofOptionalText, NamedValue.json_writeAll, List.forall_mem_singleton.1 json]

theorem Request.exists_write_eq (naming : Naming) (r : Request) : ∃ entries, r.write naming = .mapping entries := by
  cases r <;> exact ⟨_, write_eq naming _⟩

/-! ## Files -/

theorem Files.unifyLines_of_calm {s : List Char} (calm : Calm s) : unifyLines s = s := by
  induction s with
  | nil => rfl
  | cons c s ih =>
    obtain ⟨here, there⟩ := calm_cons.1 calm
    have other : c ≠ '\r' := by
      rintro rfl
      exact absurd here (by decide)
    rw [unifyLines, ih there]
    · exact fun _ same => absurd same other
    · exact other

theorem Document.calm_line (d : Document) (style : Style) : Calm (d.print style ++ "\n").toList := by
  rw [String.toList_append]
  exact calm_append.2 ⟨calm_printAt style d 0, by simp [calm_cons, calm_nil]⟩

section

variable [Yaml]

/-- The text of a document is loaded as it was printed. -/
theorem Files.document_eq_load {files : Files} {path : String} {d : Document}
    (there : files.find path = .found (.text (d.print .block ++ "\n"))) :
    files.document path = Yaml.load (d.print .block ++ "\n") := by
  rw [document, there]
  simp only [unifyLines_of_calm (d.calm_line .block), String.ofList_toList]

variable [Lax]

theorem Files.request_eq_ok_iff {files : Files} {path name : String} {r : Request} :
    files.request path name = .ok r ↔
      ∃ kind entries, Request.Kind.ofName? name = some kind ∧ files.document path = .ok (.mapping entries) ∧
        Request.validate kind (.mapping entries) = .ok r := by
  rw [request]
  split
  · rename_i unknown
    simp [unknown]
  · rename_i kind known
    rw [known, bind_eq_ok_iff]
    constructor
    · rintro ⟨d, here, accepted⟩
      split at accepted
      · exact ⟨kind, _, rfl, here, accepted⟩
      · cases accepted
    · rintro ⟨_, entries, ⟨⟩, here, accepted⟩
      exact ⟨.mapping entries, here, accepted⟩

/-! ## Commands -/

/-- The request in a file is rendered as this one. -/
def Command.Renders (s : Surroundings) (file kind : String) (sources : Sources) (rendered : Request) : Prop :=
  ∃ settings chain options request registry, load s sources = .ok (settings, chain, options) ∧
    s.files.request (Files.normalize file) kind = .ok request ∧ Registry.standard none s.keyring = .ok registry ∧
    outcomeOf (request.renderIn chain registry.callback options settings.context) = .ok rendered

theorem Command.Renders.eq {s : Surroundings} {file kind : String} {sources : Sources} {a b : Request}
    (first : Renders s file kind sources a) (second : Renders s file kind sources b) : a = b := by
  obtain ⟨_, _, _, _, _, loaded, given, made, done⟩ := first
  obtain ⟨_, _, _, _, _, loaded', given', made', done'⟩ := second
  cases loaded.symm.trans loaded'
  cases given.symm.trans given'
  cases made.symm.trans made'
  exact Except.ok.inj (done.symm.trans done')

theorem Command.text_renderRequest_eq_ok_iff {s : Surroundings} {file kind : String} {sources : Sources}
    {printed : String} :
    text s (.renderRequest file kind sources) = .ok printed ↔
      ∃ rendered, Renders s file kind sources rendered ∧ printed = (rendered.write .camel).print .block := by
  simp only [text, bind_eq_ok_iff, Renders]
  constructor
  · rintro ⟨⟨settings, chain, options⟩, loaded, request, given, registry, made, rendered, done, same⟩
    exact ⟨rendered, ⟨settings, chain, options, request, registry, loaded, given, made, done⟩, (Except.ok.inj same).symm⟩
  · rintro ⟨rendered, ⟨settings, chain, options, request, registry, loaded, given, made, done⟩, rfl⟩
    exact ⟨(settings, chain, options), loaded, request, given, registry, made, rendered, done, rfl⟩

/-- A request is printed as it is written, with nothing taken out. -/
theorem Command.exists_of_run {s : Surroundings} {words : List String} {file kind : String} {sources : Sources}
    (asked : ofWords? words = some (.renderRequest file kind sources)) (done : (run s words).exit = 0) :
    ∃ rendered, Renders s file kind sources rendered ∧
      (run s words).output = (rendered.write .camel).print .block ++ "\n" := by
  rw [run, asked] at done ⊢
  dsimp only at done ⊢
  cases result : text s (.renderRequest file kind sources) with
  | error failure => simp [result] at done
  | ok printed =>
    obtain ⟨rendered, renders, rfl⟩ := text_renderRequest_eq_ok_iff.1 result
    exact ⟨rendered, renders, Terminal.plain_of_calm (Document.calm_line _ .block)⟩

/-- What becomes of the models that a document is accepted as when they are written. The loader
    keeps these decimals as they are. -/
structure Document.Reloads (d : Document) (Kept : Decimal → Prop) : Prop where
  environment (e : Environment) (accepted : Environment.validate d = .ok e) (naming : Naming) :
    Environment.validate (e.write naming) = .ok e
  request (kind : Request.Kind) (r : Request) (accepted : Request.validate kind d = .ok r) (naming : Naming) :
    Request.validate kind (r.write naming) = .ok r
  /-- What is printed for the request in a file that holds the document is the text of the rendered
      request, in JSON. A file that holds what the text says is loaded as it, and so is a file that
      holds the text, if this says the same in YAML. No text is read as a document with a decimal
      that ends in zeros (`exists_read?_iff`). -/
  printed (stripped : d.Stripped) (s : Surroundings) (words : List String) (file kind : String)
    (sources : Command.Sources) (asked : Command.ofWords? words = some (.renderRequest file kind sources))
    (held : s.files.document (Files.normalize file) = .ok d) (done : (Command.run s words).exit = 0) :
    ∃ rendered, Command.Renders s file kind sources rendered ∧
      Document.read? (Command.run s words).output = some (rendered.write .camel) ∧
      (∀ (files : Files) (path : String), files.document path = .ok (rendered.write .camel) →
        files.request path kind = .ok rendered) ∧
      ∀ (files : Files) (path : String), (rendered.write .camel).Portable Kept →
        files.find path = .found (.text (Command.run s words).output) → files.request path kind = .ok rendered

end

/-- Whatever the lax rules and the loader are, as long as the rules accept what they should and the
    loader reads JSON, requests and environments survive being written and read. -/
theorem Document.reloads [Lax] [Yaml] (lawful : Lax.Lawful) {Kept : Decimal → Prop} (reads : Yaml.ReadsJson Kept)
    (d : Document) : d.Reloads Kept where
  environment e _ naming := e.validate_write lawful naming
  request kind r accepted naming := by
    rw [← Request.kind_of_validate accepted]
    exact Request.validate_write lawful naming fun tree member =>
      (Request.tree_of_validate lawful accepted tree member).plain
  printed stripped s words file kind sources asked held done := by
    obtain ⟨rendered, renders, output⟩ := Command.exists_of_run asked done
    obtain ⟨settings, chain, options, request, registry, -, given, -, outcome⟩ := id renders
    obtain ⟨model, entries, known, here, accepted⟩ := Files.request_eq_ok_iff.1 given
    obtain rfl : d = .mapping entries := Except.ok.inj (held.symm.trans here)
    obtain ⟨same, trees⟩ := Request.kept_of_render outcome
    have json : ∀ tree ∈ rendered.trees, tree.Json := by
      intro tree member
      obtain ⟨source, origin, alike⟩ := trees tree member
      rw [← Document.json_blanked_iff, alike, Document.json_blanked_iff]
      exact (Request.tree_of_validate lawful accepted source origin).json stripped
    have whole : (rendered.write .camel).Json := Request.json_write .camel json
    have loads (files : Files) (path : String) (loaded : files.document path = .ok (rendered.write .camel)) :
        files.request path kind = .ok rendered := by
      obtain ⟨members, written⟩ := rendered.exists_write_eq .camel
      refine Files.request_eq_ok_iff.2 ⟨model, members, known, written ▸ loaded, ?_⟩
      rw [← written, ← Request.kind_of_validate accepted, ← same]
      exact Request.validate_write lawful .camel fun tree member => (json tree member).plain
    refine ⟨rendered, renders, ?_, loads, fun files path portable there => loads files path ?_⟩
    · rw [output]
      exact Document.read?_print_line whole .block
    · exact (Files.document_eq_load (output ▸ there)).trans (reads _ whole portable)

theorem Files.normalize_letter : normalize "a" = "a" := by
  have alone : "a".splitOn "/" = ["a"] := by
    rw [String.splitOn, if_neg (by decide), String.splitOnAux, if_neg (by decide), if_neg (by decide),
      String.splitOnAux, if_pos (by decide)]
    decide
  rw [normalize, steps, alone]
  decide

/-- A request whose address is a template of a variable that is not there, in the one file that
    there is. The file is where the settings are looked for, too, and holds none. What is printed
    for it is loaded as what it was rendered as. -/
theorem Document.reloads_silent :
    let d := object [("url", .text "http://${[ host ]}"), ("authentication", object [("user", .scalar (.integer 7))])]
    let s : Surroundings :=
      { files := [("a", .document d)], processVariables := [("REQTMPL_CONFIG", "a")], keyring := fun _ _ => pure none }
    let words := ["render-request", "a", "--kind", "grpc", "--silent"]
    (Command.run s words).exit = 0 ∧
      ∃ rendered, Command.Renders s "a" "grpc" ⟨none, none, true⟩ rendered ∧
        Document.read? (Command.run s words).output = some (rendered.write .camel) ∧
        Files.request [("a", .text (Command.run s words).output)] "a" "grpc" = .ok rendered := by
  intro d s words
  have asked : Command.ofWords? words = some (.renderRequest "a" "grpc" ⟨none, none, true⟩) := by decide
  have held : s.files.document (Files.normalize "a") = .ok d := by
    rw [Files.normalize_letter]
    rfl
  have settings : Command.settingsPath s none = "a" := Files.normalize_letter
  have done : (Command.run s words).exit = 0 := by
    rw [Command.run, asked]
    simp only [Command.text, Command.load, settings, Files.normalize_letter]
    decide +kernel
  have user : (object [("user", .scalar (.integer 7))]).Stripped :=
    .mapping (List.forall_mem_singleton.2 (.scalar (by simp)))
  have stripped : d.Stripped :=
    .mapping (List.forall_mem_cons.2 ⟨.scalar (by simp), List.forall_mem_singleton.2 user⟩)
  obtain ⟨rendered, renders, read, -, loads⟩ :=
    (Document.reloads Lax.lawful (Yaml.readsJson fun _ => True) d).printed stripped s words "a" "grpc" _ asked held done
  have found : Command.Renders s "a" "grpc" ⟨none, none, true⟩
      (.grpc { url := "http://", authentication := [("user", .scalar (.integer 7))] }) := by
    have parse : Template.parse "" = .ok [] := by decide +kernel
    have parseUrl : Template.parse "http://${[ host ]}" =
        .ok [.raw "http://", .tag (.variable "host") (some "${[ host ]}")] := by cbv
    refine ⟨{}, [], { onFailure := .silent },
      .grpc { url := "http://${[ host ]}", authentication := [("user", .scalar (.integer 7))] }, _, ?_, ?_, rfl, ?_⟩
    · rw [Command.load, settings]
      rfl
    · rw [Files.normalize_letter]
      rfl
    · simp only [Command.outcomeOf, Request.renderIn, Request.render, GrpcRequest.render, GrpcRequest.mapTexts,
        Renderer.renderSource, parse, parseUrl]
      rfl
  obtain rfl := renders.eq found
  have portable : (Request.write .camel
      (.grpc { url := "http://", authentication := [("user", .scalar (.integer 7))] })).Portable fun _ => True := by
    have alone {s : Scalar} (plain : s.isPortable = true) : (Document.scalar s).Portable fun _ => True :=
      .scalar plain fun _ _ => trivial
    have user : (object [("user", .scalar (.integer 7))]).Portable fun _ => True :=
      .mapping (by decide +kernel) (by decide +kernel) (List.forall_mem_singleton.2 (alone rfl))
    have none : (Document.list []).Portable fun _ => True := .list (List.forall_mem_nil _)
    refine .mapping (by decide +kernel) (by decide +kernel) ?_
    simp (disch := decide +kernel) [alone, Document.text, Document.null, Schema.ofOptionalText,
      NamedValue.writeAll, user, none]
  exact ⟨done, _, renders, read, loads _ _ portable rfl⟩

/-- A number is printed as `1e16`, which is a text in YAML: the request that is loaded from what is
    printed is another one. -/
theorem Document.reloads_exponent :
    let d := object [("body", object [("n", .scalar (.decimal ⟨false, 1, 16⟩))])]
    let s : Surroundings :=
      { files := [("a", .document d)], processVariables := [("REQTMPL_CONFIG", "a")], keyring := fun _ _ => pure none }
    let words := ["render-request", "a"]
    (Command.run s words).exit = 0 ∧
      ∃ rendered loaded, Command.Renders s "a" "http" ⟨none, none, false⟩ rendered ∧
        Files.request [("a", .text (Command.run s words).output)] "a" "http" = .ok loaded ∧ loaded ≠ rendered := by
  intro d s words
  have asked : Command.ofWords? words = some (.renderRequest "a" "http" ⟨none, none, false⟩) := by decide
  have settings : Command.settingsPath s none = "a" := Files.normalize_letter
  have found : Command.Renders s "a" "http" ⟨none, none, false⟩
      (.http { body := [("n", .scalar (.decimal ⟨false, 1, 16⟩))] }) := by
    have parse : Template.parse "" = .ok [] := by decide +kernel
    refine ⟨{}, [], {}, .http { body := [("n", .scalar (.decimal ⟨false, 1, 16⟩))] }, _, ?_, ?_, rfl, ?_⟩
    · rw [Command.load, settings]
      rfl
    · rw [Files.normalize_letter]
      rfl
    · simp only [Command.outcomeOf, Request.renderIn, Request.render, HttpRequest.render, HttpRequest.mapTexts,
        Renderer.renderSource, parse]
      rfl
  have done : (Command.run s words).exit = 0 := by
    rw [Command.run, asked]
    simp only [Command.text_renderRequest_eq_ok_iff.2 ⟨_, found, rfl⟩]
  obtain ⟨rendered, renders, output⟩ := Command.exists_of_run asked done
  obtain rfl := renders.eq found
  have json : (Request.write .camel (.http { body := [("n", .scalar (.decimal ⟨false, 1, 16⟩))] })).Json := by
    refine Request.json_write .camel ?_
    simp [Request.trees, object, json_mapping_iff, json_scalar_iff, Dictionary.keys, Scalar.isDate, Decimal.Stripped]
  have loaded : Files.document [("a", .text (Command.run s words).output)] "a" =
      .ok ((Request.http { body := [("n", .text "1e16")] }).write .camel) := by
    have there : Files.find [("a", .text (Command.run s words).output)] "a" =
        .found (.text (Command.run s words).output) := rfl
    rw [output] at there ⊢
    refine ((Files.document_eq_load there).trans (Yaml.loadJson_print json)).trans (congrArg Except.ok ?_)
    have spelled : Scalar.inYaml (.decimal ⟨false, 1, 16⟩) = .text "1e16" := by decide +kernel
    simpa [Request.write, HttpRequest.write, Schema.write, object, mapScalars, NamedValue.writeAll, Scalar.inYaml,
      Schema.ofOptionalText, Document.text, Document.null] using spelled
  obtain ⟨members, written⟩ := Request.exists_write_eq .camel (.http { body := [("n", .text "1e16")] })
  refine ⟨done, _, .http { body := [("n", .text "1e16")] }, found, ?_, by simp [Document.text]⟩
  exact Files.request_eq_ok_iff.2 ⟨.http, members, rfl, written ▸ loaded, written ▸ rfl⟩

end RequestTemplate
