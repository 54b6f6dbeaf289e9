import Reckoner.Service
import Reckoner.Web.Body
import Reckoner.Web.Address

/-!
The web interface of the calculator: `POST /calculator` calculates and records, `GET /calculator`
pages through the history, and `GET /health` tells that the service is up.
-/

namespace Reckoner.Web
open Text

inductive Route where
  | health
  | calculator
  | documentation
  | afterSignIn
deriving DecidableEq

/-- Whether the pages that describe the interface are shown, and the service behind it. -/
structure App where
  documented : Bool
  service : Service

namespace App

def documentationPaths : List String :=
  ["/docs", "/redoc", "/openapi.json"]

def afterSignInPath : String := "/docs/oauth2-redirect"

/-- A line feed at the end of a path does not count. -/
def withoutLineEnd (path : String) : String :=
  match path.toList.reverse with
  | '\n' :: cs => String.ofList cs.reverse
  | _ => path

def route? (a : App) (path : String) : Option Route :=
  let p := withoutLineEnd path
  if p = "/health" then some .health
  else if p = "/calculator" then some .calculator
  else if a.documented && documentationPaths.contains p then some .documentation
  else if a.documented && p = afterSignInPath then some .afterSignIn
  else none

def withoutSlashes? (path : String) : Option String :=
  if path.toList.getLast? == some '/' && path ≠ "/" then
    some (String.ofList (trimEnd (· == '/') path.toList))
  else none

def invalidResponse (i : Invalid) : Response :=
  .failure 400 i.message "invalid_expression" [("position", .int i.position)]

def failureResponse : Failure → Response
  | .invalid i => invalidResponse i
  | .divisionByZero _ => .failure 422 DivisionByZero.message "division_by_zero" []
  | .unreadable _ => .internal

def calculationResponse : Except Service.Fault Item → Response
  | .ok i => ⟨200, .json i.publicJson⟩
  | .error (.failure f) => failureResponse f
  | .error (.store _) => .internal

def bodyResponse : BodyFault → Response
  | .unreadable => .detail 400 "There was an error parsing the body" []
  | .issues is => .invalid is

def withService (a : App) (s : Service) : App :=
  { a with service := s }

def calculate (limits : Json.Limits) (id : String) (now : Timestamp) (r : Request) (a : App) :
    Response × App :=
  match requestedExpression limits r with
  | .error f => (bodyResponse f, a)
  | .ok source =>
    let step := a.service.calculate id now source
    (calculationResponse step.answer, a.withService step.after)

def pageBounds (address : Address) : Checked (Int × Int) :=
  Checked.both (address.integer "take" Service.defaultTake 1 (some 1000))
    (address.integer "skip" 0 0 none)

def history (address : Address) (a : App) : Response :=
  match pageBounds address with
  | .error is => .invalid is
  | .ok (take, skip) =>
    match a.service.history take skip with
    | .error _ => .internal
    | .ok page => ⟨200, .json (page.jsonWith (·.publicJson))⟩

def healthMessage : String := "Service is up and running"

def notFound : Response :=
  .detail 404 "Not Found" []

def notAllowed : Response :=
  .detail 405 "Method Not Allowed" []

/-- Sends the client to the path without slashes at its end, if that is a path of the
interface. -/
def missing (path : String) (a : App) : Response :=
  match (withoutSlashes? path).bind a.route? with
  | some _ => ⟨307, .text ""⟩
  | none => notFound

def answer (limits : Json.Limits) (id : String) (now : Timestamp) (method : String) (r : Request)
    (a : App) : Response × App :=
  let address := Address.ofText r.target
  match a.route? address.path, method with
  | none, _ => (a.missing address.path, a)
  | some .health, "GET" => (⟨200, .text healthMessage⟩, a)
  | some .calculator, "GET" => (a.history address, a)
  | some .calculator, "POST" => a.calculate limits id now r
  | some .documentation, "GET" | some .documentation, "HEAD" => (⟨200, .page⟩, a)
  | some .afterSignIn, "GET" => (⟨200, .page⟩, a)
  | some .afterSignIn, "HEAD" => (⟨200, .text ""⟩, a)
  | some _, _ => (notAllowed, a)

def headOnly (r : Response) : Response :=
  match r.content with
  | .page => r
  | _ => ⟨r.status, .text ""⟩

def handleWithin (limits : Json.Limits) (id : String) (now : Timestamp) (r : Request) (a : App) :
    Response × App :=
  let method := toUpper r.method
  let (response, after) := a.answer limits id now method r
  (if method = "HEAD" then headOnly response else response, after)

/-- Limits where the stack is of the usual size and hardly in use yet. -/
def usualLimits : Json.Limits :=
  ⟨some 960, some maxDigits⟩

def handle : String → Timestamp → Request → App → Response × App :=
  handleWithin usualLimits

end App
end Reckoner.Web
