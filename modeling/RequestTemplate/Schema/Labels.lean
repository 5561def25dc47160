import RequestTemplate.Schema.Reader

/-!
# Names of members

The labels of the members of all models, in both spellings.
-/

namespace RequestTemplate.Schema.Label

def name : Label := .plain "name"
def value : Label := .plain "value"
def enabled : Label := .plain "enabled"
def id : Label := .plain "id"
def workspaceId : Label := ⟨"workspaceId", "workspace_id"⟩
def folderId : Label := ⟨"folderId", "folder_id"⟩
def parentModel : Label := ⟨"parentModel", "parent_model"⟩
def parentId : Label := ⟨"parentId", "parent_id"⟩
def definitions : Label := .plain "variables"
def method : Label := .plain "method"
def url : Label := .plain "url"
def urlParameters : Label := ⟨"urlParameters", "url_parameters"⟩
def headers : Label := .plain "headers"
def metadata : Label := .plain "metadata"
def bodyType : Label := ⟨"bodyType", "body_type"⟩
def body : Label := .plain "body"
def authenticationType : Label := ⟨"authenticationType", "authentication_type"⟩
def authentication : Label := .plain "authentication"
def service : Label := .plain "service"
def message : Label := .plain "message"

/-! Members that have only the hand written spelling. -/

def onFailure : Label := .plain "error_behavior"
def xmlIndent : Label := .plain "xml_indent"
def ownWorkspaceId : Label := .plain "workspace_id"
def environmentId : Label := .plain "environment_id"
def environments : Label := .plain "environments"
def purpose : Label := .plain "purpose"
def label : Label := .plain "label"
def description : Label := .plain "description"
def placeholder : Label := .plain "placeholder"
def defaultValue : Label := .plain "default_value"
def optional : Label := .plain "optional"
def multiLine : Label := .plain "multi_line"
def password : Label := .plain "password"
def type : Label := .plain "type"
def aliases : Label := .plain "aliases"
def args : Label := .plain "args"

end RequestTemplate.Schema.Label
