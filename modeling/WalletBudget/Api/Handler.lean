import WalletBudget.Api.MediaType
import WalletBudget.Api.Message
import WalletBudget.Api.Route
import WalletBudget.Api.Target
import WalletBudget.Service.History

/-!
Requests to the admin interface and the answers to them.

A request is checked in a fixed order: its path, its method, its query, its body, and only then the
identifier it names. What fails before the identifier is answered without a JSON body.
-/

namespace WalletBudget.Api

structure Request where
  method : String
  target : Target
  contentType : Option String
  body : String
  deriving DecidableEq, Repr

structure Response where
  status : Nat
  body : Option Json

/-- Where the service keeps its records, for the health report. -/
inductive Storage where
  | memory
  | database (reachable : Bool)
  deriving DecidableEq, Repr

def Storage.name : Storage → String
  | .memory => "memory"
  | .database _ => "postgres"

def Storage.isHealthy : Storage → Bool
  | .memory => true
  | .database reachable => reachable

def version : String := "0.1.0"

def health (s : Storage) : Response :=
  ⟨if s.isHealthy then 200 else 503,
    some (.obj [("status", .str (if s.isHealthy then "healthy" else "unhealthy")),
      ("version", .str version), ("storage", .str s.name)])⟩

/-- An answer without a JSON body. -/
def bare (status : Nat) : Response := ⟨status, none⟩

def failed (e : Error) : Response := ⟨e.status, some e.body.toJson⟩

/-- The answer to a request that the service refuses or grants. -/
def respond (t : Task Response) : Task Response := do
  match ← t.attempt with
  | .ok r => return r
  | .error e => return failed (.budget e)

/-- The body of a request, which has to be declared as JSON. What follows its first value is not
looked at. -/
def readBody {α : Type} (decoder : Json.Decoder α) (r : Request) : Except Response α :=
  if (r.contentType.map MediaType.isJson).getD false then
    match Json.decodePrefix decoder r.body with
    | .ok a => .ok a
    | .error .malformed => .error (bare 400)
    | .error .mismatch => .error (bare 422)
  else .error (bare 415)

def connectionId (id : String) : Except Response ConnectionId :=
  match Id.read .connection id with
  | .ok id => .ok id
  | .error fault =>
    .error (failed (.badRequest ("invalid connection id '" ++ id ++ "': " ++ fault.text)))

/-- Goes on with a value, or answers at once. -/
def withValue {α : Type} (value : Except Response α) (next : α → Task Response) : Task Response :=
  match value with
  | .ok a => next a
  | .error r => pure r

def created (r : ConnectionRequest) : Task Response := do
  let currency ← match r.budgetCurrency with
    | some code => Task.valid (Currency.ofCode code)
    | none => pure .sat
  let limit ← match r.limit with
    | some l => some <$> Task.valid l.update
    | none => pure none
  let c ← Service.createConnection currency r.accessToken limit (← Task.clock)
  return ⟨201, some c.toJson⟩

def changed (id : ConnectionId) (u : Except ValidationError LimitUpdate) : Task Response := do
  let change ← Service.updateLimit id (← Task.valid u) (← Task.clock)
  return ⟨200, some (changeJson change)⟩

def viewed (id : ConnectionId) : Task Response := do
  let view ← Service.budgetView (← Service.connection id)
  return ⟨200, some view.toJson⟩

def listed (id : ConnectionId) : Task Response := do
  return ⟨200, some (.arr ((← Service.limitHistory id).map Limit.toJson))⟩

def paid (id : ConnectionId) (most : Nat) : Task Response := do
  return ⟨200, some (.arr ((← Service.payments id most).map Payment.toJson))⟩

/-- The identifier of a path segment, which has to be text when it is decoded. -/
def segment (id : String) : Except Response String :=
  (Percent.decodeText? id).elim (.error (bare 400)) .ok

def answer (storage : Storage) (r : Request) (query : Option String) : Action → Task Response
  | .health => return health storage
  | .createConnection =>
    withValue (readBody ConnectionRequest.fromJson r) (fun body => respond (created body))
  | .budget id =>
    withValue (do connectionId (← segment id)) (fun id => respond (viewed id))
  | .updateLimit id =>
    withValue (do
        let id ← segment id
        let body ← readBody LimitRequest.fromJson r
        return (← connectionId id, body))
      (fun (id, body) => respond (changed id body.update))
  | .disableLimit id =>
    withValue (do connectionId (← segment id)) (fun id => respond (changed id (.ok .disable)))
  | .limits id => withValue (do connectionId (← segment id)) (fun id => respond (listed id))
  | .payments id =>
    withValue (do
        let id ← segment id
        let most ← (pageSize? query).elim (.error (bare 400)) .ok
        return (← connectionId id, most))
      (fun (id, most) => respond (paid id most))

/-- The answer to a request for a head has no body. -/
def withoutBody (r : Request) (response : Response) : Response :=
  if r.method = "HEAD" then { response with body := none } else response

def handle (storage : Storage) (r : Request) : Task Response :=
  match resource? r.target.path with
  | none => return bare 404
  | some resource =>
    match resource.action? r.method with
    | none => return bare 405
    | some action => do return withoutBody r (← answer storage r r.target.query action)

end WalletBudget.Api
