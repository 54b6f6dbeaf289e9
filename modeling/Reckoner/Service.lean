import Reckoner.Expression.Evaluation
import Reckoner.Expression.Json
import Reckoner.History.Store

/-!
The calculator service: it evaluates expressions within its limits, records every one that has a
value, and reads the history.
-/

namespace Reckoner

structure Service where
  store : Store
  maxLength : Int
  maxDepth : Option Int

namespace Service

inductive Fault where
  | failure (cause : Failure)
  | store (cause : StoreFault)

def loggerName : String := "calcapi.service"

def evaluate (s : Service) (source : String) : Except Failure (Expression × Binary64) :=
  if s.maxLength < source.length then .error (.invalid (.tooLong s.maxLength))
  else Expression.evaluated s.maxDepth source

def rejected (kind message : String) : Log.Entry :=
  ⟨loggerName, Log.Level.info, "Expression rejected",
    [("error", .string kind), ("detail", .string message)]⟩

def rejections : Failure → List Log.Entry
  | .invalid i => [rejected "InvalidExpressionError" i.message]
  | .divisionByZero _ => [rejected "DivisionByZeroError" DivisionByZero.message]
  | .unreadable _ => []

def recorded (i : Item) : Log.Entry :=
  ⟨loggerName, Log.Level.debug, "Evaluated expression",
    [("id", .string i.id), ("result", .float i.result)]⟩

def item (id : String) (now : Timestamp) (source : String) (e : Expression) (x : Binary64) : Item :=
  ⟨id, source, e.members, x, now⟩

/-- What a step of the service gives: an answer, the service after it, and what it logged. -/
structure Step (α : Type) where
  answer : Except Fault α
  after : Service
  log : List Log.Entry

def calculate (id : String) (now : Timestamp) (source : String) (s : Service) : Step Item :=
  match s.evaluate source with
  | .error f => ⟨.error (.failure f), s, rejections f⟩
  | .ok (e, x) =>
    let i := item id now source e x
    match s.store.save i with
    | .error f => ⟨.error (.store f), s, []⟩
    | .ok store => ⟨.ok i, { s with store }, [recorded i]⟩

structure Page where
  items : List Item
  take : Int
  skip : Int

def defaultTake : Int := 20

def history (take skip : Int) (s : Service) : Except StoreFault Page := do
  let items ← s.store.find take skip
  .ok ⟨items, take, skip⟩

namespace Page

def jsonWith (form : Item → Json) (p : Page) : Json :=
  .object [("items", .array (p.items.map form)), ("take", .int p.take), ("skip", .int p.skip)]

end Page

end Service
end Reckoner
