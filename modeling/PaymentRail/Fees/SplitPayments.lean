import PaymentRail.Contracts.EscrowTransactions
import PaymentRail.Fees.FeePolicy
import PaymentRail.Money.Rounding
import Mathlib.Algebra.BigOperators.Ring.Finset
import Mathlib.Algebra.Order.BigOperators.Group.List

/-!
# SplitPayments — the fee of a payment that is made in parts

Every part of a payment is charged its own rounded-down share, so the parts together are charged no
more than the whole, and less by at most one wei for each part after the first one.  The quotation
of the rail and the hub round alike: for the hub the parts are the payouts of one escrow, and the
whole is what the escrow has spent.
-/

namespace PaymentRail
namespace Fees

open Machine Money

/-! ## Quoted fees -/

/-- A rate without a minimum and a cap. -/
def unbounded (bps : Nat) : FeePolicy := { bps, minFee := 0, maxFee := none }

theorem computeFee_unbounded {bps : Nat} (hbps : bps ≤ 10000) {amount : Int} (h : 0 ≤ amount) :
    ∃ breakdown, computeFee amount (unbounded bps) = .ok breakdown ∧
      breakdown.fee = amount * bps / 10000 := by
  obtain ⟨breakdown, hok⟩ : ∃ breakdown, computeFee amount (unbounded bps) = .ok breakdown := by
    rw [computeFee, require_of h]
    exact ⟨_, rfl⟩
  exact ⟨breakdown, hok, computeFee_proportional rfl rfl hbps hok⟩

/-- The fees of the parts of a payment, each quoted on its own. -/
def partFees (policy : FeePolicy) (amounts : List Int) : Except String (List Int) :=
  amounts.mapM fun amount => (computeFee amount policy).map FeeBreakdown.fee

theorem partFees_unbounded {bps : Nat} (hbps : bps ≤ 10000) {amounts : List Int}
    (h : ∀ amount ∈ amounts, 0 ≤ amount) :
    partFees (unbounded bps) amounts = .ok (amounts.map (· * (bps : Int) / 10000)) := by
  induction amounts with
  | nil => rfl
  | cons amount amounts ih =>
      rcases computeFee_unbounded hbps (h amount List.mem_cons_self) with ⟨breakdown, hok, hfee⟩
      have hrest := ih (fun a ha => h a (List.mem_cons_of_mem amount ha))
      rw [partFees] at hrest ⊢
      rw [List.mapM_cons, hrest, hok, List.map_cons, ← hfee]
      rfl

/-! ## Fees withheld by the hub -/

section Withheld

open Contracts

/-- What an entry takes from the escrow `id` for one payout, the fee included. -/
def paymentOf (id : Bytes32) : Entry → Option Nat
  | .paid k _ payout fee => if k = id then some (payout + fee) else none
  | _ => none

/-- The payouts of an escrow, fees included. -/
def payments (id : Bytes32) (es : List Entry) : List Nat := es.filterMap (paymentOf id)

/-- Every fee of the history is the rounded-down share of its payout. -/
def WithheldAt (rate : Nat) (es : List Entry) : Prop :=
  ∀ k payee payout fee, Entry.paid k payee payout fee ∈ es → fee = (payout + fee) * rate / 10000

theorem WithheldAt.of_cons {rate : Nat} {e : Entry} {es : List Entry}
    (h : WithheldAt rate (e :: es)) : WithheldAt rate es :=
  fun k payee payout fee hmem => h k payee payout fee (List.mem_cons_of_mem e hmem)

theorem WithheldAt.cons_paid {rate amount : Nat} {es : List Entry} (h : WithheldAt rate es)
    (hless : amount * rate / 10000 ≤ amount) (id : Bytes32) (payee : Address) :
    WithheldAt rate
      (.paid id payee (amount - amount * rate / 10000) (amount * rate / 10000) :: es) := by
  intro k agentB payout fee hmem
  rcases List.mem_cons.1 hmem with heq | hmem
  · cases heq
    rw [Nat.sub_add_cancel hless]
  · exact h k agentB payout fee hmem

theorem WithheldAt.cons_other {rate : Nat} {e : Entry} {es : List Entry} (h : WithheldAt rate es)
    (he : ∀ k payee payout fee, e ≠ .paid k payee payout fee) : WithheldAt rate (e :: es) := by
  intro k payee payout fee hmem
  rcases List.mem_cons.1 hmem with heq | hmem
  · exact absurd heq.symm (he k payee payout fee)
  · exact h k payee payout fee hmem

/-- An entry pays for the escrow, and its payout and fee are counted, or it does neither. -/
theorem paymentOf_cases (id : Bytes32) (e : Entry) :
    (∃ payee payout fee, e = .paid id payee payout fee ∧ paymentOf id e = some (payout + fee) ∧
      e.payoutOf id = payout ∧ e.feeOf id = fee) ∨
    (paymentOf id e = none ∧ e.payoutOf id = 0 ∧ e.feeOf id = 0) := by
  cases e with
  | paid k payee payout fee =>
      by_cases hk : k = id
      · subst hk
        exact .inl ⟨payee, payout, fee, rfl, if_pos rfl, if_pos rfl, if_pos rfl⟩
      · exact .inr ⟨if_neg hk, if_neg hk, if_neg hk⟩
  | opened k session => exact .inr ⟨rfl, rfl, rfl⟩
  | closed k payer refund => exact .inr ⟨rfl, rfl, rfl⟩
  | frozen k => exact .inr ⟨rfl, rfl, rfl⟩
  | received amount => exact .inr ⟨rfl, rfl, rfl⟩

theorem sum_payments (id : Bytes32) (es : List Entry) :
    (payments id es).sum = payouts id es + fees id es := by
  induction es with
  | nil => rfl
  | cons e es ih =>
      simp only [payments, payouts, fees, List.map_cons, List.sum_cons] at ih ⊢
      rcases paymentOf_cases id e with ⟨_, payout, fee, _, hpayment, hpayout, hfee⟩ |
        ⟨hpayment, hpayout, hfee⟩
      · rw [List.filterMap_cons_some hpayment, List.sum_cons, hpayout, hfee, ih]
        omega
      · rw [List.filterMap_cons_none hpayment, hpayout, hfee, ih]
        omega

theorem fees_eq_shares {rate : Nat} {es : List Entry} (h : WithheldAt rate es) (id : Bytes32) :
    fees id es = ((payments id es).map (· * rate / 10000)).sum := by
  induction es with
  | nil => rfl
  | cons e es ih =>
      have hrest := ih h.of_cons
      simp only [payments, fees, List.map_cons, List.sum_cons] at hrest ⊢
      rcases paymentOf_cases id e with ⟨payee, payout, fee, rfl, hpayment, _, hfee⟩ |
        ⟨hpayment, _, hfee⟩
      · rw [List.filterMap_cons_some hpayment, List.map_cons, List.sum_cons, hfee, hrest,
          ← h id payee payout fee List.mem_cons_self]
      · rw [List.filterMap_cons_none hpayment, hfee, hrest, Nat.zero_add]

/-! ### Histories of the hub -/

/-- The invariant of a world: its books are faithful, and its fees were withheld at its rate. -/
structure Withholds (w : World) : Prop where
  faithful : Faithful w
  fees : WithheldAt w.feePercent w.ledger

theorem payAgentB_withholds {w : World} {id : Bytes32} {amount : Nat} {resume : Resume} {next : Next}
    (hw : WithheldAt w.feePercent w.ledger) (h : payAgentB id amount resume w = .ok next) :
    WithheldAt w.feePercent next.after.ledger := by
  rcases payAgentB_ledger h with ⟨hless, hledger⟩
  rw [hledger]
  exact hw.cons_paid hless id _

theorem exec_withholds {now : Nat} {msg : Msg} {c : Call} {w : World} {next : Next}
    (hw : WithheldAt w.feePercent w.ledger) (h : exec now msg c w = .ok next) :
    WithheldAt w.feePercent next.after.ledger := by
  rcases exec_books h with ⟨entry, hbooks, hledger⟩
  cases c with
  | settleBatch id receiptsHash totalAmount =>
      simp only [exec, nonPayable, settleBatch, bind_eq_ok, require_eq_ok, exists_and_left,
        exists_const] at h
      exact payAgentB_withholds hw h.2.2.2
  | claimStream id usageDelta =>
      simp only [exec, nonPayable, claimStream, bind_eq_ok, require_eq_ok, exists_and_left,
        exists_const] at h
      obtain ⟨_, _, _, _, _, _, _, h⟩ := h
      exact payAgentB_withholds hw h
  -- the other functions pay nobody
  | openEscrow id agentB budgetLimit verificationRequired ttl =>
      rw [hledger, hbooks.2]
      exact hw.cons_other (by simp)
  | closeEscrow id =>
      rw [hledger, hbooks.2]
      exact hw.cons_other (by simp)
  | emergencyClose id =>
      rw [hledger, hbooks.2]
      exact hw.cons_other (by simp)
  | freezeOnDispute id =>
      rw [hledger, show entry = .frozen id from hbooks]
      exact hw.cons_other (by simp)
  | receive =>
      rw [hledger, show entry = .received msg.value from hbooks]
      exact hw.cons_other (by simp)

theorem withholds_kept {now : Nat} (hnow : 0 < now) : Kept now Withholds where
  receive := fun w value hw =>
    ⟨receive_faithful hw.faithful value, hw.fees.cons_other (by simp)⟩
  resume := by
    intro w resume hw
    have hfaithful := resume_faithful hw.faithful resume
    refine ⟨hfaithful, ?_⟩
    rw [hfaithful.feePercent, ← hw.faithful.feePercent, ledger_resume]
    exact hw.fees
  exec := by
    intro msg c w next hw h
    have hfaithful := (exec_faithful hw.faithful hnow h).after
    refine ⟨hfaithful, ?_⟩
    rw [hfaithful.feePercent, ← hw.faithful.feePercent]
    exact exec_withholds hw.fees h

theorem withholds_of_reachable {self owner : Address} {funded parent delay : Nat} {s : State}
    (h : Reachable self owner funded parent delay s) : Withholds s.world := by
  have hstart : (initial owner funded parent delay).journal.All Withholds ∧
      0 < (initial owner funded parent delay).now := by
    have hnone : WithheldAt 50 [] := by
      intro k payee payout fee hmem
      cases hmem
    exact ⟨Journal.All.start ⟨deploy_faithful owner funded, hnone.cons_other (by simp)⟩,
      (initial_ok owner funded parent delay).now⟩
  have hend := Reaches.invariant h
    (fun a _ _ hd hd' => step_all (fun _ hnow => withholds_kept hnow) a hd.1 hd.2 hd') hstart
  exact hend.1.1

/-- The payouts of an escrow are the parts of what it has spent. -/
theorem fees_spent {w : World} (hw : Withholds w) (id : Bytes32) :
    (fees id w.ledger : Int) =
        (((payments id w.ledger).map Nat.cast).map fun n : Int => n * w.feePercent / 10000).sum ∧
      ((w.escrows id).spent : Int) = ((payments id w.ledger).map Nat.cast).sum := by
  have hspent : (payments id w.ledger).sum = (w.escrows id).spent := by
    rw [sum_payments, payouts_add_fees hw.faithful.legal, ← hw.faithful.sessions]
  rw [fees_eq_shares hw.fees id, ← hspent, Nat.cast_list_sum, Nat.cast_list_sum, List.map_map,
    List.map_map]
  exact ⟨rfl, rfl⟩

end Withheld

/-- Parts that are quoted one by one are charged like their sum, up to one wei for each part after the
first. -/
theorem quotes_within_rounding {bps : Nat} (hbps : bps ≤ 10000) {amounts : List Int}
    (hne : amounts ≠ []) (hnonneg : ∀ amount ∈ amounts, 0 ≤ amount) :
    ∃ parts whole, partFees (unbounded bps) amounts = .ok parts ∧
      computeFee amounts.sum (unbounded bps) = .ok whole ∧
      parts.sum ≤ whole.fee ∧ whole.fee ≤ parts.sum + (amounts.length - 1 : Nat) := by
  rcases computeFee_unbounded hbps (List.sum_nonneg hnonneg) with ⟨whole, hwhole, hfee⟩
  refine ⟨_, whole, partFees_unbounded hbps hnonneg, hwhole, ?_⟩
  rw [hfee]
  exact shares_within (by decide) _ hne

open Contracts in
/-- The fees that the hub has withheld from an escrow are the share of what it has spent, up to one wei
for each payment after the first. -/
theorem payments_within_rounding {self owner : Address} {funded parent delay : Nat} {s : State}
    (h : Reachable self owner funded parent delay s) {id : Bytes32}
    (hpaid : 1 ≤ (payments id s.world.ledger).length) :
    ((s.world.escrows id).spent : Int) * s.world.feePercent / 10000 -
        ((payments id s.world.ledger).length - 1 : Nat) ≤ fees id s.world.ledger ∧
      (fees id s.world.ledger : Int) ≤
        ((s.world.escrows id).spent : Int) * s.world.feePercent / 10000 := by
  -- the hub's history is a split of what it has spent
  rcases fees_spent (withholds_of_reachable h) id with ⟨hfees, hspent⟩
  have hsome : (payments id s.world.ledger).map (Nat.cast : Nat → Int) ≠ [] :=
    mt List.map_eq_nil_iff.1 (List.length_pos_iff.1 hpaid)
  have hshares := shares_within (d := 10000) (by decide) s.world.feePercent hsome
  rw [List.length_map] at hshares
  rw [hfees, hspent]
  exact ⟨Int.sub_right_le_of_le_add hshares.2, hshares.1⟩

open Contracts in
/-- Parts of a payment, quoted by the rail or paid by the hub, are charged like the whole up to one
wei for each part after the first. -/
theorem split_within_rounding :
    (∀ bps ≤ 10000, ∀ amounts : List Int, amounts ≠ [] → (∀ amount ∈ amounts, 0 ≤ amount) →
      ∃ parts whole, partFees (unbounded bps) amounts = .ok parts ∧
        computeFee amounts.sum (unbounded bps) = .ok whole ∧
        parts.sum ≤ whole.fee ∧ whole.fee ≤ parts.sum + (amounts.length - 1 : Nat)) ∧
    ∀ (self owner : Address) (funded parent delay : Nat) (s : State),
      Reachable self owner funded parent delay s →
      ∀ id : Bytes32, 1 ≤ (payments id s.world.ledger).length →
        ((s.world.escrows id).spent : Int) * s.world.feePercent / 10000 -
            ((payments id s.world.ledger).length - 1 : Nat) ≤ fees id s.world.ledger ∧
          (fees id s.world.ledger : Int) ≤
            ((s.world.escrows id).spent : Int) * s.world.feePercent / 10000 := by
  constructor
  · intro bps hbps amounts hne hnonneg
    exact quotes_within_rounding hbps hne hnonneg
  · intro self owner funded parent delay s h id hpaid
    exact payments_within_rounding h hpaid

open Contracts in
theorem split_within_rounding_of_reentrantPayout :
    ∃ s, run (step 7) reentrantPayout (initial 1 0 0 0) = some s ∧
      1 ≤ (payments 5 s.world.ledger).length ∧
      (∃ parts whole, partFees (unbounded 50) [150, 199] = .ok parts ∧
        computeFee 349 (unbounded 50) = .ok whole ∧
        parts.sum ≤ whole.fee ∧ whole.fee ≤ parts.sum + 1) ∧
      (fees 5 s.world.ledger : Int) ≤
        ((s.world.escrows 5).spent : Int) * s.world.feePercent / 10000 := by
  have hend : (run (step 7) reentrantPayout (initial 1 0 0 0)).any
      (fun s => decide (1 ≤ (payments 5 s.world.ledger).length)) = true := by decide
  rcases (Option.any_eq_true _ _).1 hend with ⟨s, hs, hpaid⟩
  have hpaid := of_decide_eq_true hpaid
  have hquoted := split_within_rounding.1 50 (by decide) [150, 199] (by decide) (by decide)
  have hwithheld := split_within_rounding.2 7 1 0 0 0 s ⟨_, hs⟩ 5 hpaid
  exact ⟨s, hs, hpaid, hquoted, hwithheld.2⟩

end Fees
end PaymentRail
