import Reckoner.Json.Reader
import Reckoner.Text.Case
import Reckoner.Text.Numeral
import Reckoner.Web.Encoding
import Reckoner.Web.Message

/-!
Bodies of requests for a calculation.
-/

namespace Reckoner.Web
open Text

def mediaType (contentType : String) : List Char :=
  (toLower (String.ofList (trim isBlank (contentType.toList.takeWhile (· != ';'))))).toList

/-- JSON is `application/json`, or a subtype of `application` that ends in `+json`. -/
def isJson (contentType : String) : Bool :=
  let cs := mediaType contentType
  let subtype := (cs.dropWhile (· != '/')).drop 1
  cs.takeWhile (· != '/') == "application".toList && !subtype.contains '/' &&
    (subtype == "json".toList || "+json".toList.isSuffixOf subtype)

/-- A byte order mark in front of the text does not count. -/
def unmarked (body : String) : String :=
  match body.toList with
  | c :: cs => if c.toNat == 0xFEFF then String.ofList cs else body
  | [] => body

/-- A body that cannot be read, or one that is not what it should be. -/
inductive BodyFault where
  | unreadable
  | issues (issues : List Issue)

def faultOf (text : String) (f : Json.Fault) : BodyFault :=
  match f.problem with
  | .tooDeep | .tooLong => .unreadable
  | p => .issues [⟨.jsonInvalid p.message, [.index (f.offset text)]⟩]

/-- How deep the values in a body may be nested and how many digits their whole numbers may have
hangs on the stack and the settings of the running program, so the limits are given. -/
def jsonBody (limits : Json.Limits) (body : String) : Except BodyFault Json :=
  match decodedBody? body with
  | none => .error .unreadable
  | some text => (Json.ofTextWithin limits (unmarked text)).mapError (faultOf (unmarked text))

def bodyValue (limits : Json.Limits) (r : Request) : Except BodyFault Json :=
  if r.body.isEmpty then (Checked.fail .missing).mapError .issues
  else if (r.contentType.map isJson).getD false then jsonBody limits r.body
  else (Checked.fail .notAnObject).mapError .issues

def checkExpression (v : Json) : Checked String :=
  (Checked.string v).bind fun s =>
    if s.isEmpty then Checked.fail (.stringTooShort 1) else .ok s

def expressionOf : Json → Checked String
  | .object members => Checked.field members "expression" fun v _ => checkExpression v
  | _ => Checked.fail .notAnObject

def BodyFault.within (name : String) : BodyFault → BodyFault
  | .unreadable => .unreadable
  | .issues is => .issues (is.map (·.within name))

def requestedExpression (limits : Json.Limits) (r : Request) : Except BodyFault String :=
  ((bodyValue limits r).bind fun v => (expressionOf v).mapError .issues).mapError (·.within "body")

end Reckoner.Web
