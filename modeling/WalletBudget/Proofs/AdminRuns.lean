import WalletBudget.Api.Handler
import WalletBudget.Proofs.Masked
import WalletBudget.Proofs.World
import Mathlib.Data.List.Forall2

/-!
Runs of the admin interface, in which access tokens come in and never go out.

Requests may come while others wait for a conversion. Two servers that hold different tokens are
compared over two sequences of events: the same clock, the same conversions, and the same requests
but for the tokens in them. What a token does to the service provider's conversions is not part of
this, as the conversions are taken to be the same.
-/

namespace WalletBudget

variable {α β : Type}

section Corresponding

variable {R : α → β → Prop} {l : List α} {l' : List β}

theorem forall₂_getElem? (h : List.Forall₂ R l l') (n : Nat) : Option.Rel R l[n]? l'[n]? := by
  induction h generalizing n with
  | nil => exact .none
  | cons hhead _ ih => cases n with
    | zero => exact .some hhead
    | succ n => exact ih n

theorem forall₂_set (h : List.Forall₂ R l l') (n : Nat) {a : α} {b : β} (hab : R a b) :
    List.Forall₂ R (l.set n a) (l'.set n b) := by
  induction h generalizing n with
  | nil => exact .nil
  | cons hhead htail ih => cases n with
    | zero => exact .cons hab htail
    | succ n => exact .cons hhead (ih n)

end Corresponding

def Progress.outcome? : Progress α → Option (Except Abort α)
  | .done r _ => some r
  | _ => none

theorem Progress.Alike.outcome? {p p' : Progress α} (h : p.Alike Eq p') :
    p.outcome? = p'.outcome? := by
  cases h with
  | convert _ _ => rfl
  | done h _ => cases h with
    | ok h => exact congrArg (some <| Except.ok ·) h
    | error e => rfl

namespace Api

/-! ### Requests -/

def ConnectionRequest.masked (r : ConnectionRequest) : ConnectionRequest :=
  { r with accessToken := none }

theorem ConnectionRequest.masked_cases {r r' : ConnectionRequest} (h : r.masked = r'.masked) :
    ∃ token, r' = { r with accessToken := token } := by
  obtain ⟨currency, token, limit⟩ := r'
  refine ⟨token, ?_⟩
  simp only [masked, ConnectionRequest.mk.injEq] at h ⊢
  exact ⟨h.1.symm, trivial, h.2.2.symm⟩

def Request.action? (r : Request) : Option Action :=
  (resource? r.target.path).bind (·.action? r.method)

/-- Two requests that are the same, or that set up the same connection with different tokens. -/
inductive Request.Alike : Request → Request → Prop
  | same (r : Request) : Alike r r
  | tokens (r : Request) (body : String) (c c' : ConnectionRequest)
      (haction : r.action? = some .createConnection)
      (h : Json.decodePrefix ConnectionRequest.fromJson r.body = .ok c)
      (h' : Json.decodePrefix ConnectionRequest.fromJson body = .ok c')
      (hmasked : c.masked = c'.masked) : Alike r { r with body }

section Handler

open Task.Alike

variable {storage : Storage} {r r' : Request}

theorem respond_alike {t t' : Task Response} (h : t.Alike Eq t') :
    (respond t).Alike Eq (respond t') := by
  refine (attempt h).bind fun r r' hr => ?_
  cases hr with
  | ok h => exact pure h
  | error e => exact pure rfl

theorem withValue_alike (value : Except Response α) {next next' : α → Task Response}
    (h : ∀ a, (next a).Alike Eq (next' a)) :
    (withValue value next).Alike Eq (withValue value next') := by
  cases value with
  | ok a => exact h a
  | error r => exact pure rfl

/-- The record that is answered with is written without its token. -/
theorem written_alike (currency : Currency) (token token' : Option String)
    (limit : Option LimitUpdate) :
    (do
      let c ← Service.createConnection currency token limit (← Task.clock)
      return ⟨201, some c.toJson⟩ : Task Response).Alike Eq
    (do
      let c ← Service.createConnection currency token' limit (← Task.clock)
      return ⟨201, some c.toJson⟩) := by
  refine Task.Alike.clock.bindSame fun now =>
    (Service.createConnection_alike _ _ _ _ _).bind fun k k' hk => ?_
  obtain ⟨token, rfl⟩ := Connection.masked_cases hk
  exact pure rfl

theorem created_alike {c c' : ConnectionRequest} (h : c.masked = c'.masked) :
    (created c).Alike Eq (created c') := by
  obtain ⟨token, rfl⟩ := ConnectionRequest.masked_cases h
  obtain ⟨code, given, limit⟩ := c
  cases code <;> cases limit
  · exact (pure rfl).bindSame fun _ => (pure rfl).bindSame fun _ => written_alike _ _ _ _
  · exact (pure rfl).bindSame fun _ => ((valid _).bindSame fun _ => pure rfl).bindSame fun _ =>
      written_alike _ _ _ _
  · exact (valid _).bindSame fun _ => (pure rfl).bindSame fun _ => written_alike _ _ _ _
  · exact (valid _).bindSame fun _ => ((valid _).bindSame fun _ => pure rfl).bindSame fun _ =>
      written_alike _ _ _ _

theorem changed_alike (id : ConnectionId) (u : Except ValidationError LimitUpdate) :
    (changed id u).Alike Eq (changed id u) :=
  (valid u).bindSame fun _ => Task.Alike.clock.bindSame fun _ =>
    (Service.updateLimit_alike _ _ _).bindSame fun _ => pure rfl

theorem viewed_alike (id : ConnectionId) : (viewed id).Alike Eq (viewed id) :=
  (Service.connection_alike id).bind fun _ _ hk =>
    (Service.budgetView_alike hk).bindSame fun _ => pure rfl

theorem listed_alike (id : ConnectionId) : (listed id).Alike Eq (listed id) :=
  (Service.limitHistory_alike id).bindSame fun _ => pure rfl

theorem paid_alike (id : ConnectionId) (most : Nat) : (paid id most).Alike Eq (paid id most) :=
  (Service.payments_alike id most).bindSame fun _ => pure rfl

theorem answer_alike (storage : Storage) (r : Request) (query : Option String) (action : Action) :
    (answer storage r query action).Alike Eq (answer storage r query action) := by
  cases action with
  | health => exact pure rfl
  | createConnection => exact withValue_alike _ fun _ => respond_alike (created_alike rfl)
  | budget id => exact withValue_alike _ fun _ => respond_alike (viewed_alike _)
  | updateLimit id => exact withValue_alike _ fun _ => respond_alike (changed_alike _ _)
  | disableLimit id => exact withValue_alike _ fun _ => respond_alike (changed_alike _ _)
  | limits id => exact withValue_alike _ fun _ => respond_alike (listed_alike _)
  | payments id => exact withValue_alike _ fun _ => respond_alike (paid_alike _ _)

theorem handle_alike (storage : Storage) (h : r.Alike r') :
    (handle storage r).Alike Eq (handle storage r') := by
  have hwhole {t t' : Task Response} (r : Request) (h : t.Alike Eq t') :
      (withoutBody r <$> t).Alike Eq (withoutBody r <$> t') := h.bindSame fun _ => pure rfl
  cases h with
  | same =>
    unfold handle
    cases resource? r.target.path with
    | none => exact pure rfl
    | some resource =>
      dsimp only
      cases resource.action? r.method with
      | none => exact pure rfl
      | some action => exact (answer_alike _ _ _ _).bindSame fun _ => pure rfl
  | tokens body c c' haction hc hc' hmasked =>
    obtain ⟨resource, hresource, haction⟩ := Option.bind_eq_some_iff.mp haction
    simp only [handle, hresource, haction, answer, readBody, hc, hc']
    refine bindSame ?_ fun _ => pure rfl
    split
    · exact respond_alike (created_alike hmasked)
    · exact pure rfl

end Handler

/-! ### Runs -/

/-- The interface between two events. Requests stand in the order in which they came, each with how
far it has come. -/
structure Server where
  service : Service
  requests : List (Progress Response)

inductive Server.Event where
  | request (r : Request)
  | converted (n : Nat) (answer : Except PeerError Int)
  | clock (now : Reading)

inductive Server.Event.Alike : Server.Event → Server.Event → Prop
  | request {r r' : Request} (h : r.Alike r') : Alike (.request r) (.request r')
  | converted (n : Nat) (answer : Except PeerError Int) :
    Alike (.converted n answer) (.converted n answer)
  | clock (now : Reading) : Alike (.clock now) (.clock now)

namespace Server

def start (clock : Reading) (ids : Nat → Uuid) (scan : Scan) : Server :=
  ⟨.start clock ids scan, []⟩

/-- An answer to a request that waits for none changes nothing. -/
def step (storage : Storage) (v : Server) : Event → Server
  | .request r =>
    let p := handle storage r v.service
    ⟨p.service, v.requests ++ [p]⟩
  | .converted n answer =>
    match v.requests[n]? with
    | some (.convert _ _ resume) =>
      let p := resume answer v.service
      ⟨p.service, v.requests.set n p⟩
    | _ => v
  | .clock now => { v with service := v.service.tick now }

def run (storage : Storage) (v : Server) (events : List Event) : Server :=
  events.foldl (step storage) v

def answers (v : Server) : List (Option (Except Abort Response)) :=
  v.requests.map Progress.outcome?

structure Alike (v v' : Server) : Prop where
  service : v.service.Alike v'.service
  requests : List.Forall₂ (Progress.Alike Eq) v.requests v'.requests

variable {v v' : Server} {e e' : Event} {events events' : List Event}

theorem Alike.start (clock : Reading) (ids : Nat → Uuid) (scan : Scan) :
    (start clock ids scan).Alike (start clock ids scan) := ⟨rfl, .nil⟩

theorem Alike.step (storage : Storage) (h : v.Alike v') (he : e.Alike e') :
    (v.step storage e).Alike (v'.step storage e') := by
  cases he with
  | request hr =>
    have hp := handle_alike storage hr v.service v'.service h.service
    exact ⟨hp.service, List.rel_append h.requests (.cons hp .nil)⟩
  | converted n answer =>
    have hrequest := forall₂_getElem? h.requests n
    simp only [step]
    cases hp : v.requests[n]? <;> cases hp' : v'.requests[n]? <;> rw [hp, hp'] at hrequest <;>
      cases hrequest
    · exact h
    · rename_i hrequest
      cases hrequest with
      | done _ _ => exact h
      | convert _ hresume =>
        have hp := hresume answer v.service v'.service h.service
        exact ⟨hp.service, forall₂_set h.requests n hp⟩
  | clock now => exact ⟨h.service.map (·.tick now) fun _ => rfl, h.requests⟩

theorem Alike.run (storage : Storage) (h : v.Alike v')
    (he : List.Forall₂ Event.Alike events events') :
    (v.run storage events).Alike (v'.run storage events') := by
  induction he generalizing v v' with
  | nil => exact h
  | cons hhead _ ih => exact ih (h.step storage hhead)

theorem Alike.answers (h : v.Alike v') : v.answers = v'.answers := by
  rw [Server.answers, Server.answers, ← List.forall₂_eq_eq_eq, List.forall₂_map_left_iff,
    List.forall₂_map_right_iff]
  exact h.requests.imp fun _ _ hp => hp.outcome?

end Server

/-- Two servers that hold different tokens, fresh ones among them, answer every sequence of requests
with the same statuses and the same bodies, whatever tokens come in with the requests. -/
theorem tokens_unseen {storage : Storage} {v v' : Server} {events events' : List Server.Event}
    (h : v.Alike v') (he : List.Forall₂ Server.Event.Alike events events') :
    (v.run storage events).answers = (v'.run storage events').answers :=
  (h.run storage he).answers

/-- Sets up a connection with a daily limit of a dollar. -/
def Sample.setUp (token : String) : Request :=
  ⟨"POST", ⟨"/api/v1/connections", none⟩, some "application/json",
    "\x7b\"budget_currency\":\"USD\",\"vasp_access_token\":\"" ++ token ++
      "\",\"limit\":\x7b\"amount\":100,\"frequency\":\"daily\"\x7d\x7d"⟩

/-- The budget of that connection is viewed, and then its limit is taken away. -/
def Sample.visit (token : String) : List Server.Event :=
  let path := "/api/v1/connections/" ++ (Uuid.ofNat 0).text
  [ .request (Sample.setUp token),
    .request ⟨"GET", ⟨path ++ "/budget", none⟩, none, ""⟩,
    .converted 1 (.ok 4000),
    .request ⟨"DELETE", ⟨path ++ "/limit", none⟩, none, ""⟩ ]

def Sample.visited (token : String) : Server :=
  (Server.start ⟨Sample.start, rfl⟩ Uuid.ofNat .written).run .memory (Sample.visit token)

/-- Two visits that leave different tokens in the store, and are answered alike. -/
theorem tokens_unseen_visit : (Sample.visited "alpha").answers = (Sample.visited "beta").answers ∧
    (Sample.visited "alpha").answers.map (·.map (·.toOption.map (·.status))) =
      [some (some 201), some (some 200), some (some 200)] ∧
    (Sample.visited "alpha").service.store.connections.map (·.accessToken) = [some "alpha"] ∧
    (Sample.visited "beta").service.store.connections.map (·.accessToken) = [some "beta"] := by
  have hsetUp : (Sample.setUp "alpha").Alike (Sample.setUp "beta") :=
    .tokens _ _ ⟨some "USD", some "alpha", some ⟨true, none, some 100, none, some .daily⟩⟩
      ⟨some "USD", some "beta", some ⟨true, none, some 100, none, some .daily⟩⟩
      (by decide +kernel) (by decide +kernel) (by decide +kernel) rfl
  have halpha : ((Sample.visited "alpha").answers.map (·.map (·.toOption.map (·.status))),
      (Sample.visited "alpha").service.store.connections.map (·.accessToken)) =
        ([some (some 201), some (some 200), some (some 200)], [some "alpha"]) := by decide +kernel
  obtain ⟨hstatus, htoken⟩ := Prod.mk.inj halpha
  refine ⟨?_, hstatus, htoken, by decide +kernel⟩
  exact tokens_unseen (.start _ _ _) (.cons (.request hsetUp) (.cons (.request (.same _))
    (.cons (.converted _ _) (.cons (.request (.same _)) .nil))))

end Api

end WalletBudget
