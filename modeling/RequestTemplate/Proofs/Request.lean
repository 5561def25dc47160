import RequestTemplate.Proofs.Sweep
import RequestTemplate.Request.Render

/-!
# Requests are rendered in one sweep

The templates of a request stand in a fixed order: the names and values of its entries,
the leaves of its documents, and its other texts. Rendering a request is one sweep over
them with one table of variables. It fills them in and leaves all else as it is, and the
first one that fails ends it (`Request.swept`).
-/

namespace RequestTemplate

variable {σ : Type}

/-! ## The templates of a request, in order -/

/-- The name and then the value of each entry. -/
def NamedValue.leaves (values : List NamedValue) : List Leaf :=
  values.flatMap fun v => [.template v.name, .template v.value]

def NamedValue.blanked (values : List NamedValue) : List NamedValue :=
  values.map fun v => { v with name := "", value := "" }

def Document.leavesOfMembers (members : Dictionary String Document) : List Leaf :=
  members.flatMap fun member => member.2.leaves

def Document.blankedMembers (members : Dictionary String Document) : Dictionary String Document :=
  members.map fun member => (member.1, member.2.blanked)

def HttpRequest.leaves (r : HttpRequest) : List Leaf :=
  NamedValue.leaves r.urlParameters ++ NamedValue.leaves r.headers ++ Document.leavesOfMembers r.body ++
    Document.leavesOfMembers r.authentication ++ [.template r.url]

def HttpRequest.blanked (r : HttpRequest) : HttpRequest :=
  { r with
    urlParameters := NamedValue.blanked r.urlParameters
    headers := NamedValue.blanked r.headers
    body := Document.blankedMembers r.body
    authentication := Document.blankedMembers r.authentication
    url := "" }

def GrpcRequest.leaves (r : GrpcRequest) : List Leaf :=
  NamedValue.leaves r.metadata ++ Document.leavesOfMembers r.authentication ++
    [.template r.url, .template r.message]

def GrpcRequest.blanked (r : GrpcRequest) : GrpcRequest :=
  { r with
    metadata := NamedValue.blanked r.metadata
    authentication := Document.blankedMembers r.authentication
    url := ""
    message := "" }

def WebsocketRequest.leaves (r : WebsocketRequest) : List Leaf :=
  NamedValue.leaves r.headers ++ Document.leavesOfMembers r.authentication ++
    [.template r.url, .template r.message]

def WebsocketRequest.blanked (r : WebsocketRequest) : WebsocketRequest :=
  { r with
    headers := NamedValue.blanked r.headers
    authentication := Document.blankedMembers r.authentication
    url := ""
    message := "" }

def Request.leaves : Request → List Leaf
  | http request => request.leaves
  | grpc request => request.leaves
  | websocket request => request.leaves

/-- The request with all its templates empty. -/
def Request.blanked : Request → Request
  | http request => http request.blanked
  | grpc request => grpc request.blanked
  | websocket request => websocket request.blanked

/-! ## Each part is rendered by a sweep -/

section

variable (f : String → Pass Event σ String)

theorem coupled_template (source : String) :
    Pass.Coupled (fun text texts => texts = [text]) (f source) ([.template source].mapM (Leaf.render f)) := by
  rw [List.mapM_cons, ← bind_pure (f source)]
  refine Pass.coupled_bind (Pass.coupled_refl (f source)) fun text other same => ?_
  subst same
  exact Pass.coupled_pure rfl

theorem NamedValue.coupled_mapTexts (values : List NamedValue) :
    Pass.Coupled (Filled leaves blanked values) (mapTexts f values) ((leaves values).mapM (Leaf.render f)) := by
  induction values with
  | nil => exact Pass.coupled_pure ⟨rfl, rfl⟩
  | cons v rest ih =>
    have split : leaves (v :: rest) = [.template v.name] ++ ([.template v.value] ++ leaves rest) := rfl
    rw [split, List.mapM_append, List.mapM_append, mapTexts]
    simp only [bind_assoc, pure_bind]
    refine Pass.coupled_bind (coupled_template f v.name) fun name _ named => ?_
    refine Pass.coupled_bind (coupled_template f v.value) fun value _ valued => ?_
    refine Pass.coupled_bind ih fun others texts fills => Pass.coupled_pure ⟨?_, ?_⟩
    · have later : leaves others = texts.map .template := fills.leaves
      simp [leaves, named, valued, ← later]
    · have later : blanked others = blanked rest := fills.blanked
      simpa [blanked] using later

theorem Document.coupled_mapTextsOfMembers (members : Dictionary String Document) :
    Pass.Coupled (Filled leavesOfMembers blankedMembers members) (mapTextsOfMembers f members)
      ((leavesOfMembers members).mapM (Leaf.render f)) := by
  induction members with
  | nil => exact Pass.coupled_pure ⟨rfl, rfl⟩
  | cons member rest ih =>
    obtain ⟨name, value⟩ := member
    have split : leavesOfMembers ((name, value) :: rest) = value.leaves ++ leavesOfMembers rest := rfl
    rw [split, List.mapM_append, mapTextsOfMembers]
    refine Pass.coupled_bind (coupled_mapTexts f value) fun first texts fills => ?_
    refine Pass.coupled_bind ih fun others more fillsMore => Pass.coupled_pure ⟨?_, ?_⟩
    · have later : leavesOfMembers others = more.map .template := fillsMore.leaves
      simp [leavesOfMembers, fills.leaves, ← later]
    · have later : blankedMembers others = blankedMembers rest := fillsMore.blanked
      simpa [blankedMembers, fills.blanked] using later

theorem HttpRequest.coupled_mapTexts (r : HttpRequest) :
    Pass.Coupled (Filled leaves blanked r) (r.mapTexts f) (r.leaves.mapM (Leaf.render f)) := by
  rw [leaves, mapTexts]
  simp only [List.mapM_append, bind_assoc, pure_bind]
  refine Pass.coupled_bind (NamedValue.coupled_mapTexts f r.urlParameters) fun parameters _ first => ?_
  refine Pass.coupled_bind (NamedValue.coupled_mapTexts f r.headers) fun headers _ second => ?_
  refine Pass.coupled_bind (Document.coupled_mapTextsOfMembers f r.body) fun body _ third => ?_
  refine Pass.coupled_bind (Document.coupled_mapTextsOfMembers f r.authentication) fun secrets _ fourth => ?_
  refine Pass.coupled_bind (coupled_template f r.url) fun url _ last => Pass.coupled_pure ⟨?_, ?_⟩
  · simp [leaves, first.leaves, second.leaves, third.leaves, fourth.leaves, last]
  · simp [blanked, first.blanked, second.blanked, third.blanked, fourth.blanked]

theorem GrpcRequest.coupled_mapTexts (r : GrpcRequest) :
    Pass.Coupled (Filled leaves blanked r) (r.mapTexts f) (r.leaves.mapM (Leaf.render f)) := by
  rw [leaves, mapTexts, show [Leaf.template r.url, .template r.message] =
    [.template r.url] ++ [.template r.message] from rfl]
  simp only [List.mapM_append, bind_assoc, pure_bind]
  refine Pass.coupled_bind (NamedValue.coupled_mapTexts f r.metadata) fun metadata _ first => ?_
  refine Pass.coupled_bind (Document.coupled_mapTextsOfMembers f r.authentication) fun secrets _ second => ?_
  refine Pass.coupled_bind (coupled_template f r.url) fun url _ third => ?_
  refine Pass.coupled_bind (coupled_template f r.message) fun message _ last => Pass.coupled_pure ⟨?_, ?_⟩
  · simp [leaves, first.leaves, second.leaves, third, last]
  · simp [blanked, first.blanked, second.blanked]

theorem WebsocketRequest.coupled_mapTexts (r : WebsocketRequest) :
    Pass.Coupled (Filled leaves blanked r) (r.mapTexts f) (r.leaves.mapM (Leaf.render f)) := by
  rw [leaves, mapTexts, show [Leaf.template r.url, .template r.message] =
    [.template r.url] ++ [.template r.message] from rfl]
  simp only [List.mapM_append, bind_assoc, pure_bind]
  refine Pass.coupled_bind (NamedValue.coupled_mapTexts f r.headers) fun headers _ first => ?_
  refine Pass.coupled_bind (Document.coupled_mapTextsOfMembers f r.authentication) fun secrets _ second => ?_
  refine Pass.coupled_bind (coupled_template f r.url) fun url _ third => ?_
  refine Pass.coupled_bind (coupled_template f r.message) fun message _ last => Pass.coupled_pure ⟨?_, ?_⟩
  · simp [leaves, first.leaves, second.leaves, third, last]
  · simp [blanked, first.blanked, second.blanked]

end

namespace Request

/-! ## Whole requests -/

/-- The result is the request with these texts in the places of its templates. The URL and the
    parameters of an HTTP request are then what the placeholders make of them. -/
inductive Rendered : Request → Request → List String → Prop
  | http {request filled : HttpRequest} {texts : List String}
    (fills : Filled HttpRequest.leaves HttpRequest.blanked request filled texts) {url : String}
    {remaining : List NamedValue} (placed : Placeholder.apply filled.url filled.urlParameters = (url, remaining)) :
    Rendered (http request) (http { filled with url, urlParameters := remaining }) texts
  | grpc {request filled : GrpcRequest} {texts : List String}
    (fills : Filled GrpcRequest.leaves GrpcRequest.blanked request filled texts) :
    Rendered (grpc request) (grpc filled) texts
  | websocket {request filled : WebsocketRequest} {texts : List String}
    (fills : Filled WebsocketRequest.leaves WebsocketRequest.blanked request filled texts) :
    Rendered (websocket request) (websocket filled) texts

theorem coupled_render (r : Renderer σ) (request : Request) :
    Pass.Coupled (Rendered request) (request.render r) (r.sweep request.leaves) := by
  rw [Renderer.sweep, ← bind_pure (List.mapM _ _)]
  cases request with
  | http request =>
    simp only [render, HttpRequest.render, map_eq_pure_bind, bind_assoc, pure_bind]
    refine Pass.coupled_bind (request.coupled_mapTexts r.renderSource) fun filled texts fills => ?_
    exact Pass.coupled_pure (.http fills rfl)
  | grpc request =>
    simp only [render, GrpcRequest.render, map_eq_pure_bind]
    refine Pass.coupled_bind (request.coupled_mapTexts r.renderSource) fun filled texts fills => ?_
    exact Pass.coupled_pure (.grpc fills)
  | websocket request =>
    simp only [render, WebsocketRequest.render, map_eq_pure_bind]
    refine Pass.coupled_bind (request.coupled_mapTexts r.renderSource) fun filled texts fills => ?_
    exact Pass.coupled_pure (.websocket fills)

/-- Rendering the request from the state `s` does what one sweep over its templates does, with
    the one table of the chain. -/
structure Swept (chain : List Environment) (callback : Callback σ) (options : RenderOptions) (context : Context)
    (request : Request) (s : σ) : Prop where
  alike : (request.renderIn chain callback options context s).Coupled (Rendered request)
    (Renderer.sweep { scope := Scope.ofChain chain, callback, options, context } request.leaves s)
  /-- A failure is that of the first template that fails, and nothing is done behind it. -/
  stops (failure : Failure) (failed : (request.renderIn chain callback options context s).outcome = .error failure) :
    let r : Renderer σ := { scope := Scope.ofChain chain, callback, options, context }
    ∃ before leaf after texts, request.leaves = before ++ leaf :: after ∧
      (r.sweep before s).outcome = .ok texts ∧
      (leaf.render r.renderSource (r.sweep before s).state).outcome = .error failure ∧
      (request.renderIn chain callback options context s).state =
        (leaf.render r.renderSource (r.sweep before s).state).state ∧
      (request.renderIn chain callback options context s).record =
        (r.sweep before s).record ++ (leaf.render r.renderSource (r.sweep before s).state).record

/-- Whatever its functions do, a request is rendered by one sweep over its templates with
    the one table of the chain. It fills in the templates, touches nothing else but what the
    placeholders of an HTTP request change, and ends with the first failure. -/
theorem swept (chain : List Environment) (callback : Callback σ) (options : RenderOptions) (context : Context)
    (request : Request) (s : σ) : request.Swept chain callback options context s := by
  have alike := coupled_render (.ofChain chain callback options context) request s
  refine ⟨alike, fun failure failed => ?_⟩
  have same : Renderer.sweep (.ofChain chain callback options context) request.leaves s =
      ⟨.error failure, (request.renderIn chain callback options context s).state,
        (request.renderIn chain callback options context s).record⟩ := alike.eq_of_error failed
  obtain ⟨before, leaf, after, texts, eq, done, stopped, state, record⟩ :=
    Pass.exists_of_mapM_error (congrArg Report.outcome same)
  refine ⟨before, leaf, after, texts, eq, done, stopped, ?_, ?_⟩
  · exact (congrArg Report.state same).symm.trans state
  · exact (congrArg Report.record same).symm.trans record

end Request

end RequestTemplate
