import Reckoner.History.Item
import Reckoner.Json.Reader
import Reckoner.Settings

/-!
Stores of history items, which keep the order of insertion. One keeps the items in memory, and is
empty when it is opened again. The other keeps rows of a database, where trees and times are text.

Every computation can be written as text here. A program may give up on one before its row is added,
at a whole number of thousands of digits or at nesting near the end of its stack; then nothing is
saved. No computation that comes from an expression has a whole number in it.
-/

namespace Reckoner

structure Row where
  id : String
  expression : String
  computation : String
  result : Binary64
  createdAt : String
deriving DecidableEq

inductive StoreFault where
  | nullResult
  | duplicateId
  | outOfRange
  | unreadable
deriving DecidableEq

def StoreFault.message : StoreFault → String
  | .nullResult => "NOT NULL constraint failed: history.result"
  | .duplicateId => "UNIQUE constraint failed: history.id"
  | .outOfRange => "Python int too large to convert to SQLite INTEGER"
  | .unreadable => "unreadable row"

namespace Row

/-- A column of numbers has a single zero. -/
def column (x : Binary64) : Binary64 :=
  if x.isZero then .zero false else x

def ofItem (i : Item) : Row :=
  ⟨i.id, i.expression, (Json.object i.computation).text, column i.result, i.createdAt.text⟩

def item (r : Row) : Except StoreFault Item :=
  match Json.ofText r.computation, Timestamp.ofText r.createdAt with
  | .ok (.object computation), .ok createdAt =>
    .ok ⟨r.id, r.expression, computation, r.result, createdAt⟩
  | _, _ => .error .unreadable

end Row

inductive Store where
  | memory (items : List Item)
  | database (rows : List Row)

namespace Store

def empty : Backend → Store
  | .memory => .memory []
  | .database => .database []

def backend : Store → Backend
  | .memory _ => .memory
  | .database _ => .database

def kindName : Backend → String
  | .memory => "InMemoryHistoryRepository"
  | .database => "SQLiteHistoryRepository"

/-- A table takes no NaN, and no id twice. -/
def save (i : Item) : Store → Except StoreFault Store
  | .memory items => .ok (.memory (items ++ [i]))
  | .database rows =>
    if i.result = .nan then .error .nullResult
    else if rows.any (·.id == i.id) then .error .duplicateId
    else .ok (.database (rows ++ [Row.ofItem i]))

/-- The place in a list of `n` items that an index stands for; a negative one counts from the
end. -/
def place (n : Nat) (index : Int) : Nat :=
  if index < 0 then (index + n).toNat else min index.toNat n

def slice {α : Type} (first last : Int) (items : List α) : List α :=
  let i := place items.length first
  (items.drop i).take (place items.length last - i)

/-- The items after the first `skip`, and at most `take` of them; a negative `take` sets no
bound. -/
def page {α : Type} (take skip : Int) (items : List α) : List α :=
  let rest := items.drop skip.toNat
  if take < 0 then rest else rest.take take.toNat

def fits (n : Int) : Bool :=
  -0x8000000000000000 ≤ n && n < 0x8000000000000000

def find (take skip : Int) : Store → Except StoreFault (List Item)
  | .memory items => .ok (slice skip (skip + take) items)
  | .database rows =>
    if fits take && fits skip then (page take skip rows).mapM Row.item else .error .outOfRange

def count : Store → Nat
  | .memory items => items.length
  | .database rows => rows.length

def clear (s : Store) : Store :=
  empty s.backend

def reopen : Store → Store
  | .memory _ => .memory []
  | .database rows => .database rows

end Store
end Reckoner
