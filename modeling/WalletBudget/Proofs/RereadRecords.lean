import WalletBudget.Proofs.World
import WalletBudget.Proofs.IdText
import WalletBudget.Proofs.WrittenInstants
import WalletBudget.Proofs.WrittenRecords
import WalletBudget.Wire.Payment

/-!
Records that are read back from their JSON text.

The fields of each type are gone through in order: what is written for a field is what its reader
takes. An amount has to be in the range of amounts, and an instant has to be one that some text
names. The access token of a connection is the one field that is not written.
-/

namespace WalletBudget

open Json (Rereads)
open Record (Takes)

/-! ### Scalars -/

theorem Uuid.rereads (u : Uuid) : Rereads Uuid.fromJson u.toJson u :=
  Json.rereads_parsed (by rw [Uuid.read_text]; rfl)

theorem Id.rereads {kind : Kind} (id : Id kind) : Rereads Id.fromJson id.toJson id where
  plain := rfl
  decoded := by
    simp only [Id.fromJson, Id.toJson, id.uuid.rereads.decoded]
    rfl

theorem Instant.Readable.rereads {t : Instant} (h : t.Readable) :
    Rereads Instant.fromJson t.toJson t := Json.rereads_parsed (readLoose?_stamp h.aligned)

theorem Frequency.rereads (f : Frequency) : Rereads Frequency.fromJson f.toJson f :=
  Json.rereads_word (by cases f <;> decide)

theorem PaymentStatus.rereads (s : PaymentStatus) : Rereads PaymentStatus.fromJson s.toJson s :=
  Json.rereads_word (by cases s <;> decide)

theorem ReceiverType.ofName?_name (r : ReceiverType) : ofName? r.name = some r := by
  cases r <;> decide

theorem ReceiverType.rereads (r : ReceiverType) : Rereads ReceiverType.fromJson r.toJson r :=
  Json.rereads_word r.ofName?_name

theorem ReceiverType.rereads_kept (r : ReceiverType) : Rereads ReceiverType.fromKept r.toJson r :=
  Json.rereads_keptWord r.ofName?_name

/-- Decimals of a currency, which are a number of eight bits. -/
theorem rereads_decimals (decimals : UInt8) :
    Rereads (Json.natural 255) (.nat decimals.toNat) decimals.toNat :=
  Json.rereads_nat (Nat.le_of_lt_succ decimals.toNat_lt) (by decide)

theorem Currency.rereads (c : Currency) : Rereads Currency.fromJson c.toJson c := by
  have htakes := Takes.build (fun code symbol name (decimals : Nat) =>
      (⟨code, symbol, name, decimals.toUInt8⟩ : Currency))
    |>.required "code" (Json.rereads_str c.code)
    |>.required "symbol" (Json.rereads_str c.symbol)
    |>.required "name" (Json.rereads_str c.name)
    |>.required "decimals" (rereads_decimals c.decimals)
  have hread := htakes.rereads (by decide)
  rwa [Nat.toUInt8, UInt8.ofNat_toNat] at hread

/-! ### Limits -/

/-- Amounts are in range, and instants can be read. -/
structure Limit.Proper (l : Limit) : Prop where
  amount : inRange l.amount = true
  start : l.start.Readable
  finish : ∀ t ∈ l.finish, t.Readable

theorem Limit.Proper.rereads {l : Limit} (h : l.Proper) : Rereads Limit.fromJson l.toJson l := by
  have htakes := Takes.build Limit.mk
    |>.required "id" l.id.rereads
    |>.required "connection_id" l.connection.rereads
    |>.required "currency" l.currency.rereads
    |>.required "amount" (Json.rereads_int h.amount)
    |>.required "frequency" l.frequency.rereads
    |>.required "start_time" h.start.rereads
    |>.nullable "end_time" l.finish (fun _ => rfl) fun t ht => (h.finish t ht).rereads
  exact htakes.rereads (by decide)

/-! ### Cycles -/

structure Cycle.Proper (c : Cycle) : Prop where
  limitAmount : inRange c.limitAmount = true
  start : c.start.Readable
  finish : ∀ t ∈ c.finish, t.Readable
  spent : inRange c.spent = true
  held : inRange c.held = true

theorem Cycle.Proper.rereads {c : Cycle} (h : c.Proper) : Rereads Cycle.fromJson c.toJson c := by
  have htakes := Takes.build Cycle.mk
    |>.required "id" c.id.rereads
    |>.required "spending_limit_id" c.limit.rereads
    |>.required "limit_currency" c.currency.rereads
    |>.required "limit_amount" (Json.rereads_int h.limitAmount)
    |>.required "start_time" h.start.rereads
    |>.nullable "end_time" c.finish (fun _ => rfl) (fun t ht => (h.finish t ht).rereads)
    |>.required "total_spent" (Json.rereads_int h.spent)
    |>.required "total_spent_on_hold" (Json.rereads_int h.held)
  exact htakes.rereads (by decide)

/-! ### Connections -/

structure Connection.Proper (k : Connection) : Prop where
  createdAt : k.createdAt.Readable

/-- A connection comes back without its access token. -/
theorem Connection.Proper.rereads {k : Connection} (h : k.Proper) :
    Rereads Connection.fromJson k.toJson { k with accessToken := none } := by
  have htakes := Takes.build Connection.mk
    |>.required "id" k.id.rereads
    |>.required "budget_currency" k.budgetCurrency.rereads
    |>.nullable "spending_limit_id" k.limit (fun _ => rfl) (fun id _ => id.rereads)
    |>.unwritten "vasp_access_token" Json.string
    |>.required "created_at" h.createdAt.rereads
  exact htakes.rereads (by decide)

/-! ### Changes of limits -/

structure LimitUpdate.Proper (u : LimitUpdate) : Prop where
  amount : ∀ n ∈ u.amount, inRange n = true

theorem LimitUpdate.Proper.rereads {u : LimitUpdate} (h : u.Proper) :
    Rereads LimitUpdate.fromJson u.toJson u := by
  have htakes := Takes.build LimitUpdate.mk
    |>.required "enabled" (Json.rereads_bool u.enabled)
    |>.omissible "amount" u.amount (fun _ => rfl) (fun n hn => Json.rereads_int (h.amount n hn))
    |>.omissible "currency" u.currency (fun _ => rfl) (fun c _ => c.rereads)
    |>.omissible "frequency" u.frequency (fun _ => rfl) (fun f _ => f.rereads)
  exact htakes.rereads (by decide)

/-! ### Views -/

theorem CurrencyBudget.rereads {b : CurrencyBudget} (htotal : inRange b.total = true)
    (hremaining : inRange b.remaining = true) : Rereads CurrencyBudget.fromJson b.toJson b := by
  have htakes := Takes.build (fun code symbol name (decimals : Nat) total remaining =>
      (⟨code, symbol, name, decimals.toUInt8, total, remaining⟩ : CurrencyBudget))
    |>.required "code" (Json.rereads_str b.code)
    |>.required "symbol" (Json.rereads_str b.symbol)
    |>.required "name" (Json.rereads_str b.name)
    |>.required "decimals" (rereads_decimals b.decimals)
    |>.required "total_budget" (Json.rereads_int htotal)
    |>.required "remaining_budget" (Json.rereads_int hremaining)
  have hread := htakes.rereads (by decide)
  rwa [Nat.toUInt8, UInt8.ofNat_toNat] at hread

structure BudgetView.Proper (v : BudgetView) : Prop where
  totalMsats : ∀ n ∈ v.totalMsats, inRange n = true
  remainingMsats : ∀ n ∈ v.remainingMsats, inRange n = true
  renewsAt : ∀ n ∈ v.renewsAt, inRange n = true
  currency : ∀ b ∈ v.currency, inRange b.total = true ∧ inRange b.remaining = true

theorem BudgetView.Proper.rereads {v : BudgetView} (h : v.Proper) :
    Rereads BudgetView.fromJson v.toJson v := by
  have htakes := Takes.build BudgetView.mk
    |>.nullableEntry "total_budget_msats" v.totalMsats (fun _ => rfl)
      (fun n hn => Json.rereads_int (h.totalMsats n hn))
    |>.nullableEntry "remaining_budget_msats" v.remainingMsats (fun _ => rfl)
      (fun n hn => Json.rereads_int (h.remainingMsats n hn))
    |>.nullableEntry "renews_at" v.renewsAt (fun _ => rfl)
      (fun n hn => Json.rereads_int (h.renewsAt n hn))
    |>.nullableEntry "currency" v.currency (fun _ => rfl)
      (fun b hb => CurrencyBudget.rereads (h.currency b hb).1 (h.currency b hb).2)
  have hread := htakes.rereads (by decide)
  simp only [written_append, written_entry] at hread
  exact hread

/-! ### Payments -/

structure Payment.Proper (p : Payment) : Prop where
  sendingAmount : inRange p.sendingAmount = true
  estimate : ∀ n ∈ p.estimate, inRange n = true
  hold : ∀ n ∈ p.hold, inRange n = true
  settled : ∀ n ∈ p.settled, inRange n = true
  createdAt : p.createdAt.Readable
  updatedAt : p.updatedAt.Readable

theorem Payment.Proper.rereads {p : Payment} (h : p.Proper) :
    Rereads Payment.fromJson p.toJson p := by
  have htakes := Takes.build Payment.mk
    |>.required "id" p.id.rereads
    |>.required "request_id" p.request.rereads
    |>.required "connection_id" p.connection.rereads
    |>.nullable "quote_id" p.quote (fun _ => rfl) (fun id _ => id.rereads)
    |>.required "receiver" (Json.rereads_str p.receiver)
    |>.required "receiver_type" p.receiverType.rereads
    |>.required "sending_currency" p.sendingCurrency.rereads
    |>.required "sending_amount" (Json.rereads_int h.sendingAmount)
    |>.required "status" p.status.rereads
    |>.nullable "spending_cycle_id" p.cycle (fun _ => rfl) (fun id _ => id.rereads)
    |>.nullable "budget_currency" p.budgetCurrency (fun _ => rfl) (fun c _ => c.rereads)
    |>.nullable "estimated_budget_amount" p.estimate (fun _ => rfl)
      (fun n hn => Json.rereads_int (h.estimate n hn))
    |>.nullable "budget_on_hold" p.hold (fun _ => rfl) (fun n hn => Json.rereads_int (h.hold n hn))
    |>.nullable "settled_budget_amount" p.settled (fun _ => rfl)
      (fun n hn => Json.rereads_int (h.settled n hn))
    |>.required "created_at" h.createdAt.rereads
    |>.required "updated_at" h.updatedAt.rereads
  have hread := htakes.rereads (by decide)
  simp only [List.nil_append, List.cons_append, written_some, written_nil] at hread
  exact hread

/-! ### Requests -/

theorem ReceivingAddress.rereads {kind : Json.Decoder ReceiverType}
    (hkind : ∀ r : ReceiverType, Rereads kind r.toJson r) (a : ReceivingAddress) :
    Rereads (ReceivingAddress.record kind).decode a.toJson a := by
  have htakes := Takes.build ReceivingAddress.mk
    |>.required "address" (Json.rereads_str a.address)
    |>.required "receiver_type" (hkind a.receiverType)
  exact htakes.rereads (by simp [Record.names, Record.field, Record.build, Field.required])

theorem QuoteDetails.rereads {kind : Json.Decoder ReceiverType}
    (hkind : ∀ r : ReceiverType, Rereads kind r.toJson r) {q : QuoteDetails}
    (h : inRange q.sendingAmount = true) :
    Rereads (QuoteDetails.record kind).decode q.toJson q := by
  have htakes := Takes.build QuoteDetails.mk
    |>.required "id" q.id.rereads
    |>.required "payment_hash" (Json.rereads_str q.paymentHash)
    |>.required "receiver" (q.receiver.rereads hkind)
    |>.required "sending_currency" q.sendingCurrency.rereads
    |>.required "sending_amount" (Json.rereads_int h)
  exact htakes.rereads (by simp [Record.names, Record.field, Record.build, Field.required])

namespace PaymentRequest

def Proper : PaymentRequest → Prop
  | .payInvoice _ msats => inRange msats = true
  | .payKeysend _ msats _ => inRange msats = true
  | .payToAddress _ _ amount => inRange amount = true
  | .executeQuote quote => inRange quote.sendingAmount = true

/-- A request is read by its method from the fields that stand behind it. -/
theorem rereads_method (method : String) {record : Record Json PaymentRequest}
    {slots : List (Slot Json)} {r : PaymentRequest}
    (hmethod : records.lookup method = some record) (h : record.Takes slots r)
    (hnames : ("method" :: record.names).Nodup)
    (hdepth : (Json.obj (written slots)).depth ≤ Json.maxDepth) :
    Rereads fromJson (.obj (("method", .str method) :: written slots)) r := by
  obtain ⟨hfirst, hrest⟩ := List.nodup_cons.mp hnames
  obtain ⟨hplain, hread⟩ := h.rereads hrest
  have hall : (Json.obj (("method", .str method) :: written slots)).isPlain = true :=
    Json.isPlain_obj.mpr ⟨rfl, hplain⟩
  have hsound : (Json.obj (("method", .str method) :: written slots)).isSound = true := by
    refine Json.isSound_of_plain hall ?_
    simpa [Json.depth, Json.depthOfEntries] using hdepth
  -- No field has the name of the entry that holds the method.
  have hother : ∀ e ∈ written slots, e.1 ≠ "method" := by
    rintro ⟨name, v⟩ he rfl
    rw [h.names_eq] at hfirst
    exact hfirst (List.mem_map.mpr ⟨_, mem_written.mp he, rfl⟩)
  have hnone : (written slots).filter (fun e => e.1 = "method") = [] :=
    List.filter_eq_nil_iff.mpr (by simpa using hother)
  have hfields : (written slots).filter (fun e => !decide (e.1 = "method")) = written slots :=
    List.filter_eq_self.mpr (by simpa using hother)
  refine ⟨hall, ?_⟩
  have hdecode : decodeMethod (.str method) (.obj (written slots)) = .ok r := by
    simp only [decodeMethod, Json.string, bind, Except.bind, hmethod]
    exact hread
  simp [fromJson, hsound, hnone, hfields, hdecode]

theorem Proper.rereads {r : PaymentRequest} (h : r.Proper) : Rereads fromJson r.toJson r := by
  cases r with
  | payInvoice invoice msats =>
    have htakes := Takes.build PaymentRequest.payInvoice
      |>.required "invoice" (Json.rereads_str invoice)
      |>.required "amount_msats" (Json.rereads_int h)
    exact rereads_method "pay_invoice" rfl htakes (by decide) (Nat.le_of_ble_eq_true rfl)
  | payKeysend pubkey msats preimage =>
    have htakes := Takes.build PaymentRequest.payKeysend
      |>.required "pubkey" (Json.rereads_str pubkey)
      |>.required "amount_msats" (Json.rereads_int h)
      |>.omissibleEntry "preimage" preimage (fun _ => rfl) (fun s _ => Json.rereads_str s)
    have hread := rereads_method "pay_keysend" rfl htakes (by decide)
      (by cases preimage <;> exact Nat.le_of_ble_eq_true rfl)
    simp only [written_append, written_entry] at hread
    exact hread
  | payToAddress receiver currency amount =>
    have htakes := Takes.build PaymentRequest.payToAddress
      |>.required "receiver" (receiver.rereads ReceiverType.rereads_kept)
      |>.required "sending_currency" currency.rereads
      |>.required "sending_amount" (Json.rereads_int h)
    exact rereads_method "pay_to_address" rfl htakes (by decide) (Nat.le_of_ble_eq_true rfl)
  | executeQuote quote =>
    have htakes := Takes.build PaymentRequest.executeQuote
      |>.required "quote" (QuoteDetails.rereads ReceiverType.rereads_kept h)
    exact rereads_method "execute_quote" rfl htakes (by decide) (Nat.le_of_ble_eq_true rfl)

end PaymentRequest

/-! ### All records -/

/-- All records come back as they were written, and a connection comes back without its token. -/
theorem records_reread :
    (∀ l : Limit, l.Proper → Json.decode Limit.fromJson (Json.write l.toJson) = .ok l) ∧
      (∀ c : Cycle, c.Proper → Json.decode Cycle.fromJson (Json.write c.toJson) = .ok c) ∧
      (∀ p : Payment, p.Proper → Json.decode Payment.fromJson (Json.write p.toJson) = .ok p) ∧
      (∀ r : PaymentRequest, r.Proper →
        Json.decode PaymentRequest.fromJson (Json.write r.toJson) = .ok r) ∧
      (∀ u : LimitUpdate, u.Proper →
        Json.decode LimitUpdate.fromJson (Json.write u.toJson) = .ok u) ∧
      (∀ v : BudgetView, v.Proper →
        Json.decode BudgetView.fromJson (Json.write v.toJson) = .ok v) ∧
      ∀ k : Connection, k.Proper →
        Json.decode Connection.fromJson (Json.write k.toJson) =
          .ok { k with accessToken := none } :=
  ⟨fun _ h => h.rereads.text, fun _ h => h.rereads.text, fun _ h => h.rereads.text,
    fun _ h => h.rereads.text, fun _ h => h.rereads.text, fun _ h => h.rereads.text,
    fun _ h => h.rereads.text⟩

namespace Sample

/-- A quarter of a second into the leap second at the end of 2016. -/
def yearEnd : Instant := ⟨1483228799, 1250000000, by decide, by decide, by decide⟩

/-- The largest amount of a limit that ended in a leap second. -/
def endedLimit : Limit :=
  ⟨⟨Uuid.ofNat 1⟩, connection.id, dollar, largestAmount, .never, yearEnd, some yearEnd⟩

def grantedConnection : Connection := { connection with accessToken := some "token" }

end Sample

theorem records_reread_leap_second :
    Json.decode Limit.fromJson (Json.write Sample.endedLimit.toJson) = .ok Sample.endedLimit ∧
      Json.decode Connection.fromJson (Json.write Sample.grantedConnection.toJson) =
        .ok Sample.connection := by
  have hleap : Sample.yearEnd.Readable := ⟨"2016-12-31T23:59:60.25Z", by decide +kernel⟩
  have hstart : Sample.start.Readable := ⟨"2024-01-01T00:00:00Z", by decide +kernel⟩
  refine ⟨records_reread.1 Sample.endedLimit ⟨by decide, hleap, ?_⟩,
    records_reread.2.2.2.2.2.2 Sample.grantedConnection ⟨hstart⟩⟩
  rintro t ⟨⟩
  exact hleap

end WalletBudget
