import WalletBudget.Proofs.HoldCeiling
import WalletBudget.Proofs.WriteSets

/-!
Estimates that no hold comes of.

A hold that is no amount is refused. That check comes behind the product, though, which is a
decimal: an estimate whose product has too many digits for one is a defect and not a refusal. Either
way the reservation ends where it has the estimate, before it writes anything.
-/

namespace WalletBudget

open Service

namespace HoldPolicy

variable {policy : HoldPolicy} {estimate : Int}

/-- The hold for an estimate is an amount. It is one below the exact hold if it lost a part. -/
def HoldFits (policy : HoldPolicy) (estimate : Int) : Prop :=
  policy.exactHold estimate ≤ largestAmount ∨
    policy.exactHold estimate = largestAmount + 1 ∧ policy.LosesPart estimate

theorem HoldFits.hasProduct (hvalid : policy.validate = .ok ()) (hestimate : 0 ≤ estimate)
    (h : policy.HoldFits estimate) : policy.HasProduct estimate := by
  have hexact : policy.exactHold estimate ≤ largestAmount + 1 := by
    rcases h with h | ⟨h, -⟩ <;> omega
  have hproduct : (policy.scaled estimate : Int) ≤ (2 ^ 63 : Nat) * policy.multiplier.unit :=
    (scaled_le hvalid hestimate).trans
      (Int.mul_le_mul_of_nonneg_right hexact policy.multiplier.unit_pos.le)
  have hwhole : policy.scaled estimate / policy.multiplier.unit ≤ 2 ^ 63 :=
    Nat.div_le_of_le_mul (by rw [Nat.mul_comm]; exact_mod_cast hproduct)
  have hround := roundHalfEven_le (policy.scaled estimate) policy.multiplier.unit
  simp only [HasProduct, Decimal.mantissaBound]
  omega

theorem exactHold_nonneg (hvalid : policy.validate = .ok ()) (hestimate : 0 ≤ estimate) :
    0 ≤ policy.exactHold estimate := by
  refine Int.nonneg_of_mul_nonneg_left ?_ policy.multiplier.unit_pos
  exact (Int.natCast_nonneg _).trans (scaled_le hvalid hestimate)

/-- Where there is a product, the hold is an amount or it is refused. -/
theorem holdFor_result (hvalid : policy.validate = .ok ()) (hestimate : 0 ≤ estimate)
    (hamount : estimate ≤ largestAmount) {r : Except ValidationError Int}
    (h : policy.holdFor estimate = .ok r) :
    policy.HoldFits estimate ∧ (∃ hold, r = .ok hold) ∨
      ¬ policy.HoldFits estimate ∧ r = .error (.holdOverflow estimate) := by
  obtain ⟨left, dropped, rounded, hplaces, hfewest, hrounded, rfl⟩ :=
    holdFor_rounded hvalid hestimate hamount h
  have hnonneg := exactHold_nonneg hvalid hestimate
  have hfits : policy.HoldFits estimate ↔ inRange rounded := by
    simp only [HoldFits, inRange_iff, leastAmount]
    by_cases hnear : policy.exactHold estimate ≤ largestAmount + 1
    · have hlost := lost_iff hvalid hestimate hnear hplaces hfewest
      by_cases hloses : policy.LosesPart estimate
      · rw [if_pos (hlost.mpr hloses)] at hrounded
        simp only [hloses, and_true]
        constructor <;> omega
      · rw [if_neg fun h => hloses (hlost.mp h)] at hrounded
        simp only [hloses, and_false, or_false]
        constructor <;> omega
    · split at hrounded <;> omega
  cases hrange : inRange rounded with
  | true => exact .inl ⟨hfits.mpr hrange, rounded, by simp⟩
  | false => exact .inr ⟨fun h => by simp [hfits.mp h] at hrange, by simp⟩

theorem holdFor_fits (hvalid : policy.validate = .ok ()) (hestimate : 0 ≤ estimate)
    (hamount : estimate ≤ largestAmount) :
    (∃ hold, policy.holdFor estimate = .ok (.ok hold)) ↔ policy.HoldFits estimate := by
  constructor
  · rintro ⟨hold, h⟩
    rcases holdFor_result hvalid hestimate hamount h with ⟨hfits, -⟩ | ⟨-, he⟩
    · exact hfits
    · cases he
  · intro hfits
    cases h : policy.holdFor estimate with
    | error d =>
      have hnone := ((holdFor_defect hestimate hamount).mp h).2
      exact absurd (hfits.hasProduct hvalid hestimate) hnone
    | ok r =>
      rcases holdFor_result hvalid hestimate hamount h with ⟨-, hold, rfl⟩ | ⟨hnot, -⟩
      · exact ⟨hold, rfl⟩
      · exact absurd hfits hnot

theorem holdFor_refused (hvalid : policy.validate = .ok ()) (hestimate : 0 ≤ estimate)
    (hamount : estimate ≤ largestAmount) {e : ValidationError} :
    policy.holdFor estimate = .ok (.error e) ↔
      e = .holdOverflow estimate ∧ ¬ policy.HoldFits estimate ∧ policy.HasProduct estimate := by
  have hdefect {d : Defect} : policy.holdFor estimate = .error d ↔ _ :=
    holdFor_defect hestimate hamount
  constructor
  · intro h
    rcases holdFor_result hvalid hestimate hamount h with ⟨-, hold, he⟩ | ⟨hnot, he⟩
    · cases he
    · refine ⟨Except.error.inj he, hnot, ?_⟩
      by_contra hproduct
      rw [hdefect.mpr ⟨rfl, hproduct⟩] at h
      cases h
  · rintro ⟨rfl, hnot, hproduct⟩
    cases h : policy.holdFor estimate with
    | error d => exact absurd hproduct (hdefect.mp h).2
    | ok r =>
      rcases holdFor_result hvalid hestimate hamount h with ⟨hfits, -⟩ | ⟨-, rfl⟩
      · exact absurd hfits hnot
      · rfl

/-- How a reservation ends that comes to this estimate, if no hold comes of it. -/
def refusal? (policy : HoldPolicy) (estimate : Int) : Option Abort :=
  match policy.holdFor estimate with
  | .ok (.ok _) => none
  | .ok (.error e) => some (.refused (.validation e))
  | .error d => some (.broken d)

end HoldPolicy

namespace Service

variable {β : Type} {policy : HoldPolicy} {k : Connection} {request : RequestId} {intent : Intent}
  {l : Limit} {c : Cycle} {left estimate : Int} {a : Abort} {t u m : Service}

theorem hold_unheld (ha : policy.refusal? estimate = some a) (f : Int → Service → Progress β) :
    (Task.sound (policy.holdFor estimate) t).bind (fun hold s => (Task.valid hold s).bind f) =
      .done (.error a) t := by
  simp only [HoldPolicy.refusal?] at ha
  cases hhold : policy.holdFor estimate with
  | error d =>
    rw [hhold] at ha
    cases ha
    rfl
  | ok r =>
    cases r with
    | ok hold =>
      rw [hhold] at ha
      cases ha
    | error e =>
      rw [hhold] at ha
      cases ha
      rfl

/-- An attempt that has found a cycle with something left in it prices the payment, and ends there
if no hold comes of the price. -/
theorem reserveWithin_unheld (n : Nat) (hlimit : activeLimit k t = .done (.ok (some l)) u)
    (hcycle : currentCycle l t.clock u = .done (.ok c) m) (havailable : c.available = .ok left)
    (hleft : 0 < left) :
    (intent.currency.same c.currency = true → ∀ a, policy.refusal? intent.amount = some a →
      reserveWithin policy request intent (n + 1) k t = .done (.error a) m) ∧
    (intent.currency.same c.currency = false →
      ∃ resume, reserveWithin policy request intent (n + 1) k t =
          .convert ⟨intent.currency, intent.amount, c.currency⟩ m resume ∧
        ∀ estimate v a, 0 ≤ estimate → policy.refusal? estimate = some a →
          resume (.ok estimate) v = .done (.error a) v) := by
  have hattempt : tryReserve policy k request intent t =
      (price c intent m).bind fun estimate s =>
        (Task.sound (policy.holdFor estimate) s).bind fun hold s =>
          (Task.valid hold s).bind fun hold s =>
            placeHold c.id k.id request intent estimate hold t.clock s := by
    simp only [tryReserve, Task.bind_run, Task.clock_run, Progress.bind_ok, hlimit, hcycle,
      havailable, Task.sound_ok, Int.not_le.mpr hleft, if_false]
  simp only [reserveWithin, Task.bind_run, hattempt]
  constructor
  · intro hsame a ha
    rw [price_same hsame, Progress.bind_ok, hold_unheld ha, Progress.bind_error]
  · intro hother
    rw [price_converted hother]
    refine ⟨_, rfl, fun estimate v a hestimate ha => ?_⟩
    dsimp only
    rw [priceOf_nonneg hestimate, Progress.bind_ok, hold_unheld ha, Progress.bind_error]

theorem Reserved.opens {P : Service → Prop} {called : Service} (ht : Coherent t)
    (h : Reserved policy P called k request intent t (.error a) u) (hu : u.FreshIds) :
    Opens t u := by
  cases h with
  | short _ _ _ _ _ _ _ _ _ _ hm => exact .of_opening ht hm hu
  | failed _ _ hm => exact .of_opening ht hm hu

end Service

variable {policy : HoldPolicy} {rule : World → Event → Prop} {w : World} {past : List World}

/-- There is a hold where it is an amount. Another estimate is refused for its amount if there is a
product of it, and is a defect if there is none. Any attempt of a reservation ends with that, as
soon as it has the estimate. A reservation without an answer leaves nothing but cycles that it
opened. -/
theorem estimate_decided (hvalid : policy.validate = .ok ()) (run : Run policy rule (w :: past)) :
    (∀ estimate, 0 ≤ estimate → estimate ≤ largestAmount →
      ((∃ hold, policy.holdFor estimate = .ok (.ok hold)) ↔ policy.HoldFits estimate) ∧
      (∀ e, policy.holdFor estimate = .ok (.error e) ↔
        e = .holdOverflow estimate ∧ ¬ policy.HoldFits estimate ∧ policy.HasProduct estimate) ∧
      (∀ e, policy.holdFor estimate = .ok (.error e) → e.field = "amount") ∧
      ∀ d, policy.holdFor estimate = .error d ↔
        d = .productRange ∧ ¬ policy.HasProduct estimate) ∧
    (∀ k request intent n t l u c m left, activeLimit k t = .done (.ok (some l)) u →
      currentCycle l t.clock u = .done (.ok c) m → c.available = .ok left → 0 < left →
      (intent.currency.same c.currency = true → ∀ a, policy.refusal? intent.amount = some a →
        reserveWithin policy request intent (n + 1) k t = .done (.error a) m) ∧
      (intent.currency.same c.currency = false →
        ∃ resume, reserveWithin policy request intent (n + 1) k t =
            .convert ⟨intent.currency, intent.amount, c.currency⟩ m resume ∧
          ∀ estimate v a, 0 ≤ estimate → policy.refusal? estimate = some a →
            resume (.ok estimate) v = .done (.error a) v)) ∧
    ∀ k ∈ w.connections, ∀ request intent path a s,
      Course policy World.Alone (reserve policy k request intent) w path (.done (.error a) s) →
        Opens w.service s := by
  refine ⟨fun estimate hestimate hamount => ⟨?_, fun e => ?_, fun e h => ?_, fun d => ?_⟩, ?_, ?_⟩
  · exact HoldPolicy.holdFor_fits hvalid hestimate hamount
  · exact HoldPolicy.holdFor_refused hvalid hestimate hamount
  · obtain ⟨rfl, -⟩ := (HoldPolicy.holdFor_refused hvalid hestimate hamount).mp h
    rfl
  · exact HoldPolicy.holdFor_defect hestimate hamount
  · intro k request intent n t l u c m left hlimit hcycle havailable hleft
    exact reserveWithin_unheld n hlimit hcycle havailable hleft
  · intro k hk request intent path a s course
    have hw := run.sound
    have hgoes : (reserve policy k request intent w.service).Goes Opening
        (Rely (Moment (Opens w.service)))
        (Reserved policy (Moment (Opens w.service)) w.service k request intent) w.service :=
      reserve_goes (fun _ h => h.1) ⟨hw.coherent, .of_store rfl⟩ (hw.connections k hk)
    obtain ⟨v, before, -, hf, ⟨hcoherent, hopens⟩, hreserved⟩ := course.opens hw hgoes
    exact hopens.trans (hreserved.opens hcoherent hf)

def Sample.tenBillion : HoldPolicy :=
  ⟨{ Decimal.one with mantissa := 10000000000, mantissa_lt := by decide }⟩

/-- Under that factor a payment of a billion sats is refused, and one of the largest amount breaks
the reservation. -/
theorem estimate_decided_largest : Sample.tenBillion.validate = .ok () ∧
    ∃ w past s, Run Sample.tenBillion World.Steady (w :: past) ∧
      reserve Sample.tenBillion Sample.connection Sample.request (Sample.intent .sat 1000000000)
        w.service = .done (.error (.refused (.validation (.holdOverflow 1000000000)))) s ∧
      Opens w.service s ∧
      (reserve Sample.tenBillion Sample.connection Sample.request
        (Sample.intent .sat 9223372036854775807) w.service).abort? = some (.broken .productRange) ∧
      ¬ Sample.tenBillion.HasProduct largestAmount ∧
      ¬ Sample.tenBillion.HoldFits 1000000000 := by
  have hvalid : Sample.tenBillion.validate = .ok () := by decide
  obtain ⟨w, past, run, hf⟩ := Run.reaches Sample.tenBillion World.Steady ⟨Sample.start, rfl⟩
    Uuid.ofNat [Sample.created]
    (fun w _ => (decide (Sample.connection ∈ w.connections),
      (reserve Sample.tenBillion Sample.connection Sample.request
        (Sample.intent .sat 1000000000) w.service).abort?,
      (reserve Sample.tenBillion Sample.connection Sample.request
        (Sample.intent .sat 9223372036854775807) w.service).abort?,
      decide (reserve Sample.tenBillion Sample.connection Sample.request
        (Sample.intent .sat 1000000000) w.service).service.FreshIds))
    (true, some (.refused (.validation (.holdOverflow 1000000000))),
      some (.broken .productRange), true) (by decide +kernel)
  simp only [Prod.mk.injEq, decide_eq_true_eq] at hf
  obtain ⟨hk, hrefused, hbroken, hfresh⟩ := hf
  obtain ⟨s, hreserve⟩ := Progress.abort?_some hrefused
  have course : Course Sample.tenBillion World.Alone (reserve Sample.tenBillion Sample.connection
    Sample.request (Sample.intent .sat 1000000000)) w _ _ := .called hfresh
  rw [hreserve] at course
  obtain ⟨hholds, -, hleaves⟩ := estimate_decided hvalid run
  obtain ⟨-, -, -, hdefect⟩ := hholds largestAmount (by decide) (by decide)
  obtain ⟨-, hrefusal, -⟩ := hholds 1000000000 (by decide) (by decide)
  have hproduct := ((hdefect .productRange).mp (by decide +kernel)).2
  have hfits := ((hrefusal (.holdOverflow 1000000000)).mp (by decide +kernel)).2.1
  exact ⟨hvalid, w, past, s, run, hreserve, hleaves _ hk _ _ _ _ _ course, hbroken, hproduct, hfits⟩

end WalletBudget
