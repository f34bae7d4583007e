import WalletBudget.Proofs.CurrentCycle
import WalletBudget.Service.History

/-!
Lists of the payments and the limits of a connection: its rows and no others, newest first.

The tables hand out their rows in any order, and rows of one time stay in the order in which they
came. So two lists of the same rows may differ in it, and two pages in which of such rows they have
at the cut.
-/

namespace WalletBudget

section Listing

variable {ρ κ : Type} {key : ρ → κ} {time : ρ → Instant} {all rows : List ρ}

/-- All rows, each once, newest first. -/
structure Listing (key : ρ → κ) (time : ρ → Instant) (all rows : List ρ) : Prop where
  complete : rows.Perm all
  distinct : (rows.map key).Nodup
  newestFirst : rows.Pairwise fun a b => time b ≤ time a

/-- So many of the newest rows, or all where there are fewer, each once, newest first. -/
structure Page (key : ρ → κ) (time : ρ → Instant) (all : List ρ) (most : Nat)
    (rows : List ρ) : Prop where
  stored : ∀ r ∈ rows, r ∈ all
  distinct : (rows.map key).Nodup
  size : rows.length = min most all.length
  newestFirst : rows.Pairwise fun a b => time b ≤ time a
  newest : ∀ r ∈ all, r ∉ rows → ∀ shown ∈ rows, time r ≤ time shown

theorem listing_mergeSort (hd : Table.Distinct key all) (hrows : rows.Perm all)
    (time : ρ → Instant) :
    Listing key time all (rows.mergeSort fun a b => time b ≤ time a) where
  complete := (List.mergeSort_perm rows _).trans hrows
  distinct := (((List.mergeSort_perm rows _).trans hrows).map key).nodup_iff.mpr hd
  newestFirst := by
    have htotal : ∀ a b, time b ≤ time a ∨ time a ≤ time b := fun a b =>
      (Decidable.em (time b ≤ time a)).imp_right fun h => Instant.le_of_lt (Instant.not_le.mp h)
    refine (List.pairwise_mergeSort ?_ ?_ rows).imp of_decide_eq_true
    · intro a b c hab hbc
      exact decide_eq_true (Instant.le_trans (of_decide_eq_true hbc) (of_decide_eq_true hab))
    · intro a b
      simpa using htotal a b

/-- The front of a list is a page of it. -/
theorem Listing.page (h : Listing key time all rows) (most : Nat) :
    Page key time all most (rows.take most) := by
  have hparts := h.newestFirst
  rw [← List.take_append_drop most rows, List.pairwise_append] at hparts
  obtain ⟨hfront, -, hacross⟩ := hparts
  refine ⟨fun r hr => h.complete.mem_iff.mp (List.mem_of_mem_take hr), ?_, ?_, hfront, ?_⟩
  · exact h.distinct.sublist ((List.take_sublist most rows).map key)
  · rw [List.length_take, h.complete.length_eq]
  · intro r hr hleft shown hshown
    have hmem := h.complete.mem_iff.mpr hr
    rw [← List.take_append_drop most rows, List.mem_append] at hmem
    exact hacross shown hshown r (hmem.resolve_left hleft)

end Listing

namespace Store

theorem limitsOf_listing {s : Store} (hd : Table.Distinct Limit.id s.limits) (scan : Scan)
    (id : ConnectionId) :
    Listing Limit.id Limit.start (s.limits.filter fun l => l.connection = id)
      (s.limitsOf scan id) :=
  listing_mergeSort (hd.sublist (List.filter_sublist.map _)) ((scan.limits_perm _).filter _) _

theorem paymentsOf_page {s : Store} (hd : Table.Distinct Payment.id s.payments) (scan : Scan)
    (id : ConnectionId) (most : Nat) :
    Page Payment.id Payment.createdAt (s.payments.filter fun p => p.connection = id) most
      (s.paymentsOf scan id most) :=
  (listing_mergeSort (hd.sublist (List.filter_sublist.map _))
    ((scan.payments_perm _).filter _) _).page most

end Store

namespace Service

variable {s : Service}

theorem limitHistory_run (hq : s.outages = []) (id : ConnectionId) :
    limitHistory id s =
      match s.store.connection? id with
      | some _ => .done (.ok (s.store.limitsOf s.scan id)) s
      | none => .done (.error (.refused (.connectionNotFound id))) s := by
  simp only [limitHistory, Task.bind_run, connection_run hq]
  cases hk : s.store.connection? id with
  | none => rfl
  | some k =>
    obtain rfl := Store.connection?_id hk
    simp only [Progress.bind_ok, Task.scan_run, Task.ask_quiet hq]

theorem payments_run (hq : s.outages = []) (id : ConnectionId) (most : Nat) :
    payments id most s =
      match s.store.connection? id with
      | some _ => .done (.ok (s.store.paymentsOf s.scan id most)) s
      | none => .done (.error (.refused (.connectionNotFound id))) s := by
  simp only [payments, Task.bind_run, connection_run hq]
  cases hk : s.store.connection? id with
  | none => rfl
  | some k =>
    obtain rfl := Store.connection?_id hk
    simp only [Progress.bind_ok, Task.scan_run, Task.ask_quiet hq]

end Service

end WalletBudget
