/-! HTTP methods that operations are declared for. -/
namespace LoadPlan

inductive Method where
  | get
  | post
  | put
  | delete
  | patch
  | head
  | options
  deriving DecidableEq, Repr

namespace Method

def all : List Method := [get, post, put, delete, patch, head, options]

def name : Method → String
  | get => "GET"
  | post => "POST"
  | put => "PUT"
  | delete => "DELETE"
  | patch => "PATCH"
  | head => "HEAD"
  | options => "OPTIONS"

/-- Letter case counts for ASCII letters only, and not for those. -/
def sameLetters (a b : String) : Bool := a.toList.map Char.toUpper == b.toList.map Char.toUpper

/-- The method that a key of a path item names, in any letter case. -/
def ofKey? (key : String) : Option Method := all.find? fun m => sameLetters m.name key

/-- Requests of these methods carry a body. -/
def carriesBody : Method → Bool
  | post | put | patch => true
  | get | delete | head | options => false

end Method
end LoadPlan
