import Mathlib.Data.List.Nodup
import WalletBudget.Api.Handler
import WalletBudget.Proofs.IdText
import WalletBudget.Proofs.LimitTransition
import WalletBudget.Proofs.PercentEscapes
import WalletBudget.Proofs.Share
import WalletBudget.Proofs.WrittenDigits

/-!
Lists of the payments and the limits of a connection.

They are newest first, and a page is cut off behind its newest rows. Rows are rewritten but never
deleted, so that the list of limits has every limit that the connection was ever given.
-/

namespace WalletBudget

open Service

variable {policy : HoldPolicy} {rule : World → Event → Prop} {s : Service} {w : World}
  {path : List World} {k : Connection} {id : ConnectionId} {n : Nat}

namespace Service

theorem payments_page (hs : Coherent s) (hk : s.store.connection? id = some k) (most : Nat) :
    ∃ ps, payments id most s = .done (.ok ps) s ∧
      Page Payment.id Payment.createdAt (s.store.share id).payments most ps := by
  refine ⟨s.store.paymentsOf s.scan id most, ?_, Store.paymentsOf_page hs.payments s.scan id most⟩
  simp only [payments_run hs.quiet, hk]

theorem limitHistory_listing (hs : Coherent s) (hkeyed : s.store.Keyed)
    (hk : s.store.connection? id = some k) :
    ∃ ls, limitHistory id s = .done (.ok ls) s ∧
      Listing Limit.id Limit.start (s.store.share id).limits ls := by
  refine ⟨s.store.limitsOf s.scan id, ?_, Store.limitsOf_listing hkeyed.limits s.scan id⟩
  simp only [limitHistory_run hs.quiet, hk]

end Service

/-- A limit that was stored once is stored ever after. -/
theorem Run.keepsLimit (run : Run policy rule (w :: path)) {v : World} (hv : v ∈ w :: path)
    {l : Limit} (hl : l ∈ v.service.store.limits) :
    ∃ l', w.service.store.limit? l.id = some l' ∧ l.Follows l' := by
  obtain ⟨past, before, -⟩ := run.upTo hv
  exact (run.later hv).limits l.id l ((reachable_keyed before).limits.get?_of_mem hl)

/-! ### Requests -/

namespace Api

/-- How many payments a query asks for: the one number that it gives, or the default. -/
inductive Asks (query : Option String) : Nat → Prop
  | default
    (h : (Form.decode (query.getD "")).filter (fun p => p.1 = Percent.bytes "limit") = []) :
    Asks query defaultPage
  | given (value : List UInt8) (n : Nat)
    (h : (Form.decode (query.getD "")).filter (fun p => p.1 = Percent.bytes "limit") =
      [(Percent.bytes "limit", value)])
    (hn : Digits.readUpTo? Word.largest64 (value.map Percent.char) = some n) : Asks query n

structure Request.AsksPayments (r : Request) (id : ConnectionId) (n : Nat) : Prop where
  method : r.method = "GET"
  path : ∃ segment text, resource? r.target.path = some (.payments segment) ∧
    Percent.decodeText? segment = some text ∧ Id.read .connection text = .ok id
  query : Asks r.target.query n

theorem pageSize?_asks {query : Option String} (h : Asks query n) :
    pageSize? query = some (min largestPage n) := by
  cases h with
  | default h =>
    simp only [pageSize?, h]
    rfl
  | given value n h hn => simp only [pageSize?, h, hn, Option.map_some]

def paymentsTarget (id : ConnectionId) (n : Nat) : Target :=
  ⟨"/api/v1/connections/" ++ id.text ++ "/payments",
    some (String.ofList (Form.encode [("limit", Digits.text n)]))⟩

theorem split_payments {segment : String} (h : '/' ∉ segment.toList) :
    Ascii.split '/' ("/api/v1/connections/" ++ segment ++ "/payments").toList =
      ["".toList, "api".toList, "v1".toList, "connections".toList, segment.toList,
        "payments".toList] := by
  have hfront : ∀ rest, Ascii.split '/' ("/api/v1/connections/".toList ++ rest) =
      "".toList :: "api".toList :: "v1".toList :: "connections".toList :: Ascii.split '/' rest :=
    fun _ => rfl
  have hlast : Ascii.split '/' (segment.toList ++ "/payments".toList) =
      segment.toList :: Ascii.split '/' "payments".toList := Ascii.split_first h _
  have hfree : '/' ∉ "payments".toList := by decide
  have hpath : ("/api/v1/connections/" ++ segment ++ "/payments").toList =
      "/api/v1/connections/".toList ++ (segment.toList ++ "/payments".toList) := by
    rw [String.toList_append, String.toList_append, List.append_assoc]
  rw [hpath, hfront, hlast, Ascii.split_part hfree]

theorem resource?_payments {segment : String} (h : '/' ∉ segment.toList) :
    resource? ("/api/v1/connections/" ++ segment ++ "/payments") = some (.payments segment) := by
  rw [resource?, split_payments h]
  simp only [List.map_cons, List.map_nil, String.ofList_toList]

theorem asks_target (id : ConnectionId) (h : n ≤ Word.largest64) :
    Asks (paymentsTarget id n).query n := by
  have hdecode : Form.decode ((paymentsTarget id n).query.getD "") =
      [(Percent.bytes "limit", Percent.bytes (Digits.text n))] :=
    Form.decode_encode [("limit", Digits.text n)]
  have hascii : ∀ c ∈ Digits.ofNat n, c.toNat < 128 := fun c hc =>
    Nat.lt_of_le_of_lt (Digits.toNat_le (Digits.ofNat_isDigit n c hc)) (by decide)
  have hchars : (Percent.bytes (Digits.text n)).map Percent.char = Digits.ofNat n := by
    rw [Digits.text, Percent.bytes_ascii hascii, List.map_map]
    refine (List.map_congr_left fun c hc => ?_).trans (List.map_id _)
    exact Percent.char_byte_ascii (hascii c hc)
  refine .given (Percent.bytes (Digits.text n)) n ?_ ?_
  · rw [hdecode]
    simp
  · rw [hchars]
    exact Digits.readUpTo?_ofNat h

/-- The request as it is written out. -/
theorem asksPayments_target (id : ConnectionId) (h : n ≤ Word.largest64)
    (contentType : Option String) (body : String) :
    Request.AsksPayments ⟨"GET", paymentsTarget id n, contentType, body⟩ id n where
  method := rfl
  path := ⟨id.text, id.text, resource?_payments id.text_plain.1,
    Percent.decodeText?_self id.text_plain.2,
    Id.read_eq_ok.mpr ⟨_, id.uuid.spelled_chars, .inr rfl⟩⟩
  query := asks_target id h

example : paymentsTarget ⟨Uuid.ofNat 7⟩ 2 =
    ⟨"/api/v1/connections/conn_00000000-0000-0000-0000-000000000007/payments",
      some "limit=2"⟩ := by decide +kernel

theorem handle_payments {storage : Storage} {r : Request} {ps : List Payment}
    (hr : r.AsksPayments id n)
    (h : payments id (min largestPage n) s = .done (.ok ps) s) :
    handle storage r s = .done (.ok ⟨200, some (.arr (ps.map Payment.toJson))⟩) s := by
  obtain ⟨segment, text, hresource, htext, hid⟩ := hr.path
  have haction : (Resource.payments segment).action? r.method = some (.payments segment) := by
    simp [Resource.action?, hr.method]
  have hpaid : respond (paid id (min largestPage n)) s =
      .done (.ok ⟨200, some (.arr (ps.map Payment.toJson))⟩) s := by
    simp only [respond, paid, Task.bind_run, Task.attempt, h, Progress.bind_ok]
    rfl
  have hbody : ∀ response, withoutBody r response = response := by
    intro response
    simp [withoutBody, hr.method]
  have hsegment : Api.segment segment = .ok text := by
    simp only [Api.segment, htext, Option.elim_some]
  have hconnection : connectionId text = .ok id := by
    simp only [connectionId, hid]
  simp only [handle, hresource, haction, answer, pageSize?_asks hr.query, hsegment,
    Option.elim_some, bind, Except.bind, hconnection, pure, Except.pure, withValue]
  rw [hpaid, Progress.bind_ok, hbody]

end Api

/-- A page of the payments of a stored connection has so many of the newest ones. Requests are
answered with pages of at most 500. The list of its limits has every limit that it was given in the
run, once and as it is now. -/
theorem history_newest_first (run : Run policy rule (w :: path))
    (hk : w.service.store.connection? id = some k) :
    (∀ most, ∃ ps, payments id most w.service = .done (.ok ps) w.service ∧
      Page Payment.id Payment.createdAt (w.service.store.share id).payments most ps) ∧
    (∀ storage r n, Api.Request.AsksPayments r id n →
      ∃ ps : List Payment, Api.handle storage r w.service =
          .done (.ok ⟨200, some (.arr (ps.map Payment.toJson))⟩) w.service ∧
        Page Payment.id Payment.createdAt (w.service.store.share id).payments (min 500 n) ps) ∧
    ∃ ls, limitHistory id w.service = .done (.ok ls) w.service ∧
      Listing Limit.id Limit.start (w.service.store.share id).limits ls ∧
      ∀ v ∈ w :: path, ∀ l ∈ v.service.store.limits, l.connection = id →
        (ls.map Limit.id).count l.id = 1 ∧ ∃ l' ∈ ls, l'.id = l.id ∧ l.Follows l' := by
  have hs := run.sound.coherent
  refine ⟨payments_page hs hk, fun storage r n hr => ?_, ?_⟩
  · obtain ⟨ps, hrun, hpage⟩ := payments_page hs hk (min Api.largestPage n)
    exact ⟨ps, Api.handle_payments hr hrun, hpage⟩
  · obtain ⟨ls, hrun, hlisting⟩ := limitHistory_listing hs (reachable_keyed run) hk
    refine ⟨ls, hrun, hlisting, fun v hv l hl howner => ?_⟩
    obtain ⟨l', hl', hfollows⟩ := run.keepsLimit hv hl
    have hid : l'.id = l.id := Table.key_of_get? hl'
    have hmem : l' ∈ ls := by
      refine hlisting.complete.mem_iff.mpr (List.mem_filter.mpr ⟨Table.mem_of_get? hl', ?_⟩)
      exact decide_eq_true (hfollows.connection.trans howner)
    refine ⟨List.count_eq_one_of_mem hlisting.distinct ?_, l', hmem, hid, hfollows⟩
    exact hid ▸ List.mem_map_of_mem hmem

/-- Three payments of three days, of which a page has two, and a daily limit that was replaced by a
weekly one. -/
theorem history_newest_first_replaced :
    ∃ w path, Run .exact World.Steady (w :: path) ∧
      (w.service.store.share Sample.connection.id).payments.map (·.createdAt) =
        [Sample.start, Sample.secondDay, Sample.thirdDay] ∧
      (∃ ps : List Payment,
        Api.handle .memory ⟨"GET", Api.paymentsTarget Sample.connection.id 2, none, ""⟩ w.service =
          .done (.ok ⟨200, some (.arr (ps.map Payment.toJson))⟩) w.service ∧
        Page Payment.id Payment.createdAt (w.service.store.share Sample.connection.id).payments 2
          ps) ∧
      ∃ ls, limitHistory Sample.connection.id w.service = .done (.ok ls) w.service ∧
        ls.length = 2 ∧ (ls.map Limit.id).count ⟨Uuid.ofNat 1⟩ = 1 := by
  obtain ⟨w, path, run, hf⟩ := Run.reaches .exact World.Steady ⟨Sample.start, rfl⟩ Uuid.ofNat
    [ Sample.created,
      .call (.reserve Sample.connection Sample.request (Sample.intent .sat 30)),
      .clock ⟨Sample.secondDay, rfl⟩,
      .call (.reserve Sample.connection Sample.request (Sample.intent .sat 20)),
      .call (.updateLimit Sample.connection.id ⟨true, some 50, none, some .weekly⟩
        Sample.secondDay),
      .clock ⟨Sample.thirdDay, rfl⟩,
      .call (.reserve Sample.connection Sample.request (Sample.intent .sat 10)) ]
    (fun w _ => (w.service.store.connection? Sample.connection.id,
      (w.service.store.share Sample.connection.id).payments.map (·.createdAt),
      (w.service.store.share Sample.connection.id).limits.length,
      (w.service.store.limit? ⟨Uuid.ofNat 1⟩).map (·.connection)))
    (some { Sample.connection with limit := some ⟨Uuid.ofNat 6⟩ },
      [Sample.start, Sample.secondDay, Sample.thirdDay], 2, some Sample.connection.id)
    (by decide +kernel)
  simp only [Prod.mk.injEq] at hf
  obtain ⟨hk, hpayments, hlimits, hfirst⟩ := hf
  obtain ⟨l, hl, howner⟩ := Option.map_eq_some_iff.mp hfirst
  obtain ⟨-, hanswers, ls, hhistory, hlisting, hcomplete⟩ := history_newest_first run hk
  have hasks := Api.asksPayments_target (n := 2) Sample.connection.id (by decide) none ""
  obtain ⟨hcount, -⟩ := hcomplete w List.mem_cons_self l (Table.mem_of_get? hl) howner
  rw [Table.key_of_get? hl] at hcount
  exact ⟨w, path, run, hpayments, hanswers .memory _ 2 hasks, ls, hhistory,
    hlisting.complete.length_eq.trans hlimits, hcount⟩

end WalletBudget
