import Responder.Failure

/-!
# Pages

A list is put into the requested order, cut after the cursor, and its first entries
make the page.
-/

namespace Responder

/-- The order of a listing; entries are kept with the oldest first. -/
inductive Order where
  | ascending | descending
  deriving DecidableEq, Repr

namespace Order

def text : Order → String
  | ascending => "asc"
  | descending => "desc"

/-- The order that a request names; the newest come first if it names none. -/
def ofRequest : Option String → Except Failure Order
  | none | some "desc" => .ok descending
  | some "asc" => .ok ascending
  | some other =>
    .error (.invalid "order" ("invalid order '" ++ other ++ "': must be asc or desc"))

def arrange {α : Type} (entries : List α) : Order → List α
  | ascending => entries
  | descending => entries.reverse

end Order

namespace Page

def defaultLimit : Nat := 20

def maxLimit : Nat := 100

/-- The page size that a request asks for, at most `maxLimit`. -/
def limitOfRequest : Option Int → Except Failure Nat
  | none => .ok defaultLimit
  | some n =>
    if n < 1 then .error (.invalid "limit" "limit must be at least 1")
    else .ok (min n.toNat maxLimit)

/-- What comes after the entry whose id is the cursor. -/
def after {α : Type} (id : α → String) (entries : List α) : Option String → Except Failure (List α)
  | none => .ok entries
  | some cursor =>
    match entries.findIdx? (id · = cursor) with
    | some index => .ok (entries.drop (index + 1))
    | none => .error (.invalid "after" ("unknown cursor '" ++ cursor ++ "'"))

end Page

/-- The first entries of a list, and whether there are more. -/
structure Page (α : Type) where
  entries : List α
  hasMore : Bool
  deriving Repr

namespace Page

/-- A limit below zero is read as zero, one above `maxLimit` as `maxLimit`. -/
def take {α : Type} (entries : List α) (limit : Int) : Page α :=
  let limit := min limit.toNat maxLimit
  ⟨entries.take limit, limit < entries.length⟩

def firstId {α : Type} (id : α → String) (page : Page α) : Option String :=
  page.entries.head?.map id

def lastId {α : Type} (id : α → String) (page : Page α) : Option String :=
  page.entries.getLast?.map id

end Page

structure PageRequest where
  limit : Nat
  order : Order
  cursor : Option String
  deriving DecidableEq, Repr

namespace PageRequest

def ofRequest (limit : Option Int) (order cursor : Option String) : Except Failure PageRequest := do
  let limit ← Page.limitOfRequest limit
  let order ← Order.ofRequest order
  return ⟨limit, order, cursor⟩

def page {α : Type} (r : PageRequest) (id : α → String) (entries : List α) :
    Except Failure (Page α) := do
  let rest ← Page.after id (r.order.arrange entries) r.cursor
  return Page.take rest r.limit

end PageRequest

namespace Page

def toJson {α : Type} (id : α → String) (entry : α → Json) (page : Page α) : Json :=
  .ofMembers
    [("object", .string "list"), ("data", .array (page.entries.map entry)),
      ("first_id", .ofStringOption (page.firstId id)),
      ("last_id", .ofStringOption (page.lastId id)), ("has_more", .bool page.hasMore)]

end Page

end Responder
