import WalletBudget.Error

/-! Errors of the database, and what they are to the store. -/

namespace WalletBudget

inductive QueryError where
  | rowNotFound
  | database (state : Option String) (message : String)
  deriving DecidableEq, Repr

def QueryError.message : QueryError → String
  | .rowNotFound =>
    "no rows returned by a query that expected to return at least one row"
  | .database _ message => "error returned from database: " ++ message

inductive DatabaseError where
  | connection (reason : String)
  | migration (reason : String)
  | query (error : QueryError)
  | notFound (what : String)
  /-- A row that stands for no record. -/
  | corrupt (what : String)
  deriving DecidableEq, Repr

namespace DatabaseError

def message : DatabaseError → String
  | .connection reason => "Connection error: " ++ reason
  | .migration reason => "Migration error: " ++ reason
  | .query e => "Query error: " ++ e.message
  | .notFound what => "Not found: " ++ what
  | .corrupt what => "Corrupt row: " ++ what

/-- The state by which a database reports that a value is not unique. -/
def uniqueViolation : String := "23505"

def storeError (e : DatabaseError) : StoreError :=
  match e with
  | .query (.database state message) =>
    if state = some uniqueViolation then .uniqueViolation message else .backend e.message
  | .query .rowNotFound => .notFound "row"
  | .notFound what => .notFound what
  | _ => .backend e.message

end DatabaseError

end WalletBudget
