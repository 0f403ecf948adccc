import PaymentRail.Money.Amount

/-!
# FeePolicy — protocol fees

This module embeds `fees/fee-policy.ts` and the quotation of `fees/fee-policy.service.ts`.
-/

namespace PaymentRail
namespace Fees

open Machine Strings Money

structure FeePolicy where
  bps : Nat
  minFee : Int
  maxFee : Option Int
  deriving DecidableEq, Repr

inductive FeeBound where
  | none
  | min
  | max
  | amount
  deriving DecidableEq, Repr

structure FeeBreakdown where
  amount : Int
  fee : Int
  net : Int
  bps : Nat
  bound : FeeBound
  deriving DecidableEq, Repr

/-- `BPS_DENOMINATOR` -/
def bpsDenominator : Int := 10000

/-- `MAX_FEE_BPS` -/
def maxFeeBps : Nat := 1000

def assertValidPolicy (policy : FeePolicy) (label : String) : Except String Unit := do
  require (policy.bps ≤ maxFeeBps)
    (label ++ ": bps must be an integer between 0 and " ++ toString maxFeeBps)
  require (0 ≤ policy.minFee) (label ++ ": minFee must not be negative")
  match policy.maxFee with
  | some maxFee => require (policy.minFee ≤ maxFee) (label ++ ": maxFee must not be below minFee")
  | none => return ()

/-- The three bounds are applied one after the other, each to what the one before it left. -/
def computeFee (amount : Int) (policy : FeePolicy) : Except String FeeBreakdown := do
  require (0 ≤ amount) "amount must not be negative"
  -- both factors are non-negative, so the division of the source rounds down as well
  let proportional := amount * policy.bps / bpsDenominator
  let (fee, bound) : Int × FeeBound :=
    if proportional < policy.minFee then (policy.minFee, .min) else (proportional, .none)
  let (fee, bound) : Int × FeeBound :=
    match policy.maxFee with
    | some maxFee => if fee > maxFee then (maxFee, .max) else (fee, bound)
    | none => (fee, bound)
  -- a fee never exceeds the payment it is taken from
  let (fee, bound) : Int × FeeBound := if fee > amount then (amount, .amount) else (fee, bound)
  return { amount, fee, net := amount - fee, bps := policy.bps, bound }

theorem nonneg_of_computeFee {amount : Int} {policy : FeePolicy} {breakdown : FeeBreakdown}
    (h : computeFee amount policy = .ok breakdown) : 0 ≤ amount := by
  rcases bind_eq_ok.1 h with ⟨_, hamount, _⟩
  exact require_eq_ok.1 hamount

/-- Without a minimum and a cap the fee is the rounded-down share. -/
theorem computeFee_proportional {amount : Int} {policy : FeePolicy} {breakdown : FeeBreakdown}
    (hmin : policy.minFee = 0) (hmax : policy.maxFee = none) (hbps : policy.bps ≤ 10000)
    (h : computeFee amount policy = .ok breakdown) :
    breakdown.fee = amount * policy.bps / bpsDenominator := by
  have hamount := nonneg_of_computeFee h
  rw [computeFee, require_of hamount, ok_bind, pure_eq_ok] at h
  have hshare : 0 ≤ amount * policy.bps / bpsDenominator :=
    Int.ediv_nonneg (Int.mul_nonneg hamount (Int.natCast_nonneg _)) (by decide)
  have hless : amount * policy.bps / bpsDenominator ≤ amount := by
    have hmul : amount * policy.bps ≤ amount * bpsDenominator :=
      Int.mul_le_mul_of_nonneg_left (by unfold bpsDenominator; omega) hamount
    exact Int.ediv_le_of_le_mul (by decide) hmul
  rw [← h]
  simp only [hmin, hmax, if_neg (Int.not_lt.2 hshare), if_neg (Int.not_lt.2 hless)]

/-- A policy that was accepted takes no negative fee. -/
theorem fee_nonneg {amount : Int} {policy : FeePolicy} {label : String} {breakdown : FeeBreakdown}
    (hvalid : assertValidPolicy policy label = .ok ())
    (h : computeFee amount policy = .ok breakdown) : 0 ≤ breakdown.fee := by
  have hamount := nonneg_of_computeFee h
  have hshare : 0 ≤ amount * policy.bps / bpsDenominator :=
    Int.ediv_nonneg (Int.mul_nonneg hamount (Int.natCast_nonneg _)) (by decide)
  rcases bind_eq_ok.1 hvalid with ⟨_, _, hrest⟩
  rcases bind_eq_ok.1 hrest with ⟨_, hmin, hmax⟩
  have hmin : 0 ≤ policy.minFee := require_eq_ok.1 hmin
  rw [computeFee, require_of hamount, ok_bind, pure_eq_ok] at h
  rw [← h]
  cases hcap : policy.maxFee with
  | none =>
      simp only
      split_ifs <;> assumption
  | some maxFee =>
      rw [hcap] at hmax
      have hbound : policy.minFee ≤ maxFee := require_eq_ok.1 hmax
      simp only
      split_ifs <;> omega

/-- One to 18 decimal digits. -/
def upTo18Digits (s : Text) : Bool := s.all isDecDigit && 1 ≤ s.length && s.length ≤ 18

/-- `AMOUNT_PATTERN`: `/^\d{1,18}(\.\d{1,18})?$/.test(s)` -/
def amountPattern (s : Text) : Bool :=
  match s.dropWhile isDecDigit with
  | [] => upTo18Digits s
  | '.' :: fraction => upTo18Digits (s.takeWhile isDecDigit) && upTo18Digits fraction
  | _ => false

structure FeeQuote where
  amount : Text
  fee : Text
  net : Text
  bps : Nat
  bound : FeeBound
  deriving DecidableEq, Repr

/-- `FeePolicyService.quote` under the policy of the chain. -/
def quote (policy : FeePolicy) (amount : Text) : Except String FeeQuote := do
  require (amountPattern amount = true)
    "amount must be a non-negative decimal with up to 18 decimals"
  let parsed ← amountFrom amount
  let breakdown ← computeFee parsed.wei policy
  return { amount := (Amount.fromWei breakdown.amount).toString
           fee := (Amount.fromWei breakdown.fee).toString
           net := (Amount.fromWei breakdown.net).toString
           bps := breakdown.bps
           bound := breakdown.bound }

end Fees
end PaymentRail
