import Reckoner.Validation

/-!
Requests and responses of the web interface.
-/

namespace Reckoner.Web

/-- The target is the path with the query, as the client wrote it. -/
structure Request where
  method : String
  target : String
  contentType : Option String
  body : String

/-- A page is a document for readers, whose text does not matter. -/
inductive Content where
  | page
  | text (s : String)
  | json (v : Json)

structure Response where
  status : Nat
  content : Content

namespace Response

def detail (status : Nat) (text : String) (more : List (String × Json)) : Response :=
  ⟨status, .json (.object (("detail", .string text) :: more))⟩

def failure (status : Nat) (text kind : String) (more : List (String × Json)) : Response :=
  detail status text (("type", .string kind) :: more)

def stepJson : Step → Json
  | .field name => .string name
  | .index n => .int n

def issueJson (i : Issue) : Json :=
  .object ([("type", .string i.problem.code), ("loc", .array (i.location.map stepJson)),
      ("msg", .string i.problem.message)] ++
    if i.problem.context.isEmpty then []
    else [("ctx", .object (i.problem.context.map fun c => (c.1, .string c.2)))])

def invalid (is : List Issue) : Response :=
  failure 400 "Validation error" "validation_error" [("errors", .array (is.map issueJson))]

def internal : Response :=
  failure 500 "Internal server error" "internal_error" []

end Response
end Reckoner.Web
