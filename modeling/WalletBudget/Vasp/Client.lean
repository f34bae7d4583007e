import WalletBudget.Peer
import WalletBudget.Vasp.Config
import WalletBudget.Vasp.Message
import WalletBudget.Vasp.Url

/-!
Calls of the service provider on behalf of a connection.

A call is prepared as a request, which needs the connection's access token, and its reply is read as
an answer. What lies between, the network, is not part of this module: a reply may also be that none
came.
-/

namespace WalletBudget

inductive VaspError where
  /-- No reply came, or not all of it, or the request could not be sent. -/
  | network (reason : String)
  | status (code : Nat) (body : String)
  | undecodable (reason : String)
  | missingToken
  deriving DecidableEq, Repr

namespace VaspError

def service : String := "VASP"

def message : VaspError → String
  | .network reason => "Network error: " ++ reason
  | .status code body => "VASP error: " ++ Digits.text code ++ " - " ++ body
  | .undecodable reason => "Decode error: " ++ reason
  | .missingToken => "Missing VASP access token"

/-- A connection without a token is answered as by a provider that refuses it. -/
def peerError : VaspError → PeerError
  | .network reason => .unavailable service reason
  | .status code body => .status service code body
  | .undecodable reason => .invalidResponse service reason
  | .missingToken => .status service 401 "connection has no access token"

end VaspError

namespace Vasp

structure Session where
  config : VaspConfig
  token : Option String
  deriving DecidableEq, Repr

inductive Method where
  | get
  | post
  deriving DecidableEq, Repr

def Method.name : Method → String
  | .get => "GET"
  | .post => "POST"

structure Request where
  method : Method
  target : String
  authorization : String
  userAgent : String
  contentType : Option String
  body : Option Json

/-- A call before it is addressed: a path below the base URL, pairs for its query, and a body. -/
structure Call where
  method : Method
  path : String
  pairs : List (String × String)
  body : Option Json

inductive Reply where
  | answered (status : Nat) (body : String)
  | none (reason : String)
  deriving DecidableEq, Repr

/-- The token is looked for before the address. -/
def Session.prepare (s : Session) (c : Call) : Except VaspError Request := do
  let token ← match s.token with
    | some token => .ok token
    | none => .error .missingToken
  let url ← match Url.read? (s.config.url c.path) with
    | some url => .ok url
    | none => .error (.network "no address")
  return {
    method := c.method
    target := (url.withPairs c.pairs).target
    authorization := "Bearer " ++ token
    userAgent := s.config.userAgent
    contentType := c.body.map (fun _ => "application/json")
    body := c.body }

/-- A reply of a status from 200 to 299 is decoded. Any other is an error with its body as it is. -/
def interpret {α : Type} (decoder : Json.Decoder α) : Reply → Except VaspError α
  | .none reason => .error (.network reason)
  | .answered status body =>
    if status < 200 ∨ 299 < status then .error (.status status body)
    else match Json.decode decoder body with
      | .ok a => .ok a
      | .error .malformed => .error (.undecodable "malformed body")
      | .error .mismatch => .error (.undecodable "unexpected body")

def estimate (sending : String) (amount : Int) (target : String) : Call :=
  ⟨.get, "/budget_estimate",
    [("sending_currency_code", sending), ("sending_currency_amount", Digits.signed amount),
      ("budget_currency_code", target)],
    none⟩

def payInvoice (body : PayInvoiceBody) : Call :=
  ⟨.post, "/payments/bolt11", [], some body.toJson⟩

def payKeysend (body : PayKeysendBody) : Call :=
  ⟨.post, "/payments/keysend", [], some body.toJson⟩

/-- Only human readable names have a type of address of their own. -/
def addressType : ReceiverType → String
  | .humanName => "bip353"
  | _ => "lud16"

def payToAddress (body : PayToAddressBody) (receiver : ReceiverType) : Call :=
  ⟨.post, "/payments/lnurl", [("address_type", addressType receiver)], some body.toJson⟩

def budgetPairs (budgetCurrency : Option String) : List (String × String) :=
  match budgetCurrency with
  | some code => [("budget_currency_code", code)]
  | none => []

def executeQuote (paymentHash : String) (budgetCurrency : Option String) : Call :=
  ⟨.post, "/quote/" ++ paymentHash, budgetPairs budgetCurrency, none⟩

/-- The call that answers a conversion. -/
def conversionCall (q : Conversion) : Call := estimate q.sending.code q.amount q.target.code

/-- The call that makes a payment. -/
def executionCall (q : Execution) : Call :=
  let budgetCurrency := q.budgetCurrency.map (·.code)
  match q.request with
  | .payInvoice invoice msats => payInvoice ⟨invoice, some msats, budgetCurrency⟩
  | .payKeysend pubkey msats preimage => payKeysend ⟨msats, pubkey, preimage, budgetCurrency⟩
  | .payToAddress receiver currency amount =>
    payToAddress ⟨receiver.address, currency.code, amount, budgetCurrency⟩ receiver.receiverType
  | .executeQuote quote => executeQuote quote.paymentHash budgetCurrency

/-- A call as it goes over a network that gives each request a reply. -/
def Session.send {α : Type} (s : Session) (network : Request → Reply) (decoder : Json.Decoder α)
    (c : Call) : Except VaspError α := do
  interpret decoder (network (← s.prepare c))

def Session.convert (s : Session) (network : Request → Reply) (q : Conversion) :
    Except PeerError Int :=
  match s.send network EstimateAnswer.fromJson (conversionCall q) with
  | .ok a => .ok a.amount
  | .error e => .error e.peerError

def Session.execute (s : Session) (network : Request → Reply) (q : Execution) :
    Except PeerError PaymentOutcome :=
  match s.send network PaymentAnswer.fromJson (executionCall q) with
  | .ok a => .ok ⟨some a.preimage, a.cost⟩
  | .error e => .error e.peerError

end Vasp

end WalletBudget
