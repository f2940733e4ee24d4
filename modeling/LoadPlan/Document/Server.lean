import LoadPlan.Document.Basic
import LoadPlan.Text.Replace

/-! The base URL that a document declares: that of its first server with the defaults of the
server's variables filled in, or else one made of host, scheme and base path. -/
namespace LoadPlan.Document

/-- What stands in a URL for a variable. -/
def placeholder (name : String) : String := "\x7b" ++ name ++ "\x7d"

/-- A variable with a text as its default is filled in; others are left. -/
def fillVariable (url : String) (name : String) (entry : Json) : String :=
  match (entry.get? "default").bind Json.string? with
  | some default => Text.replace url (placeholder name) default
  | none => url

/-- Variables are filled in one after another, each throughout the text made so far. -/
def fillVariables (url : String) (entries : List (String × Json)) : String :=
  entries.foldl (fun url (name, entry) => fillVariable url name entry) url

/-- The URL of a server. -/
def serverUrl? (server : Json) : Option String :=
  ((server.get? "url").bind Json.string?).map fun url =>
    fillVariables url (((server.get? "variables").bind Json.fields?).getD [])

def text? (d : Document) (key : String) : Option String :=
  (d.fields.lookup key).bind Json.string?

/-- The first item of a top-level list. -/
def firstOf? (d : Document) (key : String) : Option Json :=
  (d.fields.lookup key).bind Json.first?

/-- The URL made of the declared host; a base path of a single slash says nothing. -/
def hostUrl? (d : Document) : Option String :=
  (d.text? "host").map fun host =>
    let scheme := ((d.firstOf? "schemes").bind Json.string?).getD "https"
    let basePath := ((d.text? "basePath").filter (· != "/")).getD ""
    scheme ++ "://" ++ host ++ basePath

def declaredUrl? (d : Document) : Option String :=
  ((d.firstOf? "servers").bind serverUrl?).or d.hostUrl?

end LoadPlan.Document
