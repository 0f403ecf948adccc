import PaymentRail.Fees.FeePolicy
import PaymentRail.Money.Rounding

/-!
# FeeClamp — what the three bounds of a fee amount to

`computeFee` replaces the proportional fee step by step.  Under a policy that `assertValidPolicy`
accepts the steps do not get in each other's way: the fee is the share of the amount, clamped into
the interval of the policy and cut off at the amount (`computeFee_eq`).  Every ingredient of this
term is a steady charge, so a larger payment is never charged less and never nets less
(`computeFee_monotone_and_fair`).
-/

namespace PaymentRail
namespace Fees

open Machine Money

/-- The fee in the interval of the policy. -/
def FeePolicy.clamp (policy : FeePolicy) (fee : Int) : Int :=
  match policy.maxFee with
  | none => max fee policy.minFee
  | some maxFee => min (max fee policy.minFee) maxFee

/-- The share of the amount exceeds the cap. -/
def FeePolicy.Capped (policy : FeePolicy) (share : Int) : Prop :=
  ∃ maxFee, policy.maxFee = some maxFee ∧ maxFee < share

/-- A policy `assertValidPolicy` accepts. -/
structure FeePolicy.Valid (policy : FeePolicy) : Prop where
  bps : policy.bps ≤ maxFeeBps
  minFee : 0 ≤ policy.minFee
  maxFee : ∀ maxFee, policy.maxFee = some maxFee → policy.minFee ≤ maxFee

theorem valid_of_assertValidPolicy {policy : FeePolicy} {label : String}
    (h : assertValidPolicy policy label = .ok ()) : policy.Valid := by
  rcases bind_eq_ok.1 h with ⟨_, hbps, hrest⟩
  rcases bind_eq_ok.1 hrest with ⟨_, hmin, hmax⟩
  refine ⟨require_eq_ok.1 hbps, require_eq_ok.1 hmin, ?_⟩
  intro maxFee hcap
  rw [hcap] at hmax
  exact require_eq_ok.1 hmax

section Clamp

variable {policy : FeePolicy} {amount share : Int}

theorem steady_clamp (policy : FeePolicy) {f : Int → Int} (hf : Steady f) :
    Steady fun a => policy.clamp (f a) := by
  unfold FeePolicy.clamp
  cases policy.maxFee with
  | none => exact hf.max (steady_const _)
  | some maxFee => exact (hf.max (steady_const _)).min (steady_const _)

theorem FeePolicy.Valid.clamp_nonneg (hvalid : policy.Valid) : 0 ≤ policy.clamp share := by
  have hmin := hvalid.minFee
  unfold FeePolicy.clamp
  cases hcap : policy.maxFee with
  | none => exact le_max_of_le_right hmin
  | some maxFee => exact le_min (le_max_of_le_right hmin) (hmin.trans (hvalid.maxFee maxFee hcap))

/-! ## The fee and its bound -/

/-- The bound that replaces the share where the amount suffices. -/
def FeePolicy.boundOf (policy : FeePolicy) (share : Int) : FeeBound :=
  if policy.maxFee.any (fun maxFee => maxFee < share) = true then .max
  else if share < policy.minFee then .min
  else .none

/-- The first two bounds of `computeFee`. -/
def FeePolicy.between (policy : FeePolicy) (share : Int) : Int × FeeBound :=
  let (fee, bound) : Int × FeeBound :=
    if share < policy.minFee then (policy.minFee, .min) else (share, .none)
  match policy.maxFee with
  | some maxFee => if fee > maxFee then (maxFee, .max) else (fee, bound)
  | none => (fee, bound)

/-- The last one. -/
def within (amount : Int) (charge : Int × FeeBound) : Int × FeeBound :=
  if charge.1 > amount then (amount, .amount) else charge

theorem between_eq (hvalid : policy.Valid) (share : Int) :
    policy.between share = (policy.clamp share, policy.boundOf share) := by
  simp only [FeePolicy.between, FeePolicy.clamp, FeePolicy.boundOf]
  cases hcap : policy.maxFee with
  | none =>
      by_cases hlow : share < policy.minFee
      · simp [hlow, Int.le_of_lt hlow]
      · simp [hlow, Int.not_lt.1 hlow]
  | some maxFee =>
      have hle := hvalid.maxFee maxFee hcap
      -- the minimum is below the cap, so at most one of the two replaces the share
      by_cases hlow : share < policy.minFee
      · have hnot : ¬ maxFee < share := by omega
        simp [hlow, hnot, Int.not_lt.2 hle, Int.le_of_lt hlow, hle]
      · by_cases hhigh : maxFee < share
        · simp [hlow, hhigh, Int.not_lt.1 hlow, Int.le_of_lt hhigh]
        · simp [hlow, hhigh, Int.not_lt.1 hlow, Int.not_lt.1 hhigh]

theorem within_eq (amount fee : Int) (bound : FeeBound) :
    within amount (fee, bound) = (min amount fee, if amount < fee then .amount else bound) := by
  by_cases h : amount < fee
  · simp [within, h, Int.le_of_lt h]
  · simp [within, h, Int.not_lt.1 h]

theorem computeFee_eq (hvalid : policy.Valid) (hamount : 0 ≤ amount) :
    computeFee amount policy = .ok
      { amount
        fee := min amount (policy.clamp (amount * policy.bps / 10000))
        net := amount - min amount (policy.clamp (amount * policy.bps / 10000))
        bps := policy.bps
        bound := if amount < policy.clamp (amount * policy.bps / 10000) then .amount
          else policy.boundOf (amount * policy.bps / 10000) } := by
  have hstages : computeFee amount policy = do
      require (0 ≤ amount) "amount must not be negative"
      let charge := within amount (policy.between (amount * policy.bps / 10000))
      return { amount, fee := charge.1, net := amount - charge.1, bps := policy.bps
               bound := charge.2 } := rfl
  rw [hstages, require_of hamount, ok_bind, between_eq hvalid, within_eq]
  rfl

/-! ## Which bound is reported -/

theorem boundOf_eq_max : policy.boundOf share = .max ↔ policy.Capped share := by
  unfold FeePolicy.boundOf FeePolicy.Capped
  cases policy.maxFee with
  | none =>
      by_cases hlow : share < policy.minFee
      · simp [hlow]
      · simp [hlow]
  | some maxFee =>
      by_cases hhigh : maxFee < share
      · simp [hhigh]
      · by_cases hlow : share < policy.minFee
        · simp [hhigh, hlow]
        · simp [hhigh, hlow]

theorem boundOf_of_not_capped (h : ¬ policy.Capped share) :
    policy.boundOf share = if share < policy.minFee then .min else .none := by
  have hnot : ¬ policy.maxFee.any (fun maxFee => maxFee < share) = true := by
    intro hany
    rcases (Option.any_eq_true _ _).1 hany with ⟨maxFee, hcap, hlt⟩
    exact h ⟨maxFee, hcap, of_decide_eq_true hlt⟩
  rw [FeePolicy.boundOf, if_neg hnot]

theorem boundOf_eq_min :
    policy.boundOf share = .min ↔ ¬ policy.Capped share ∧ share < policy.minFee := by
  by_cases hcapped : policy.Capped share
  · simp [boundOf_eq_max.2 hcapped, hcapped]
  · rw [boundOf_of_not_capped hcapped]
    by_cases hlow : share < policy.minFee
    · simp [hcapped, hlow]
    · simp [hlow]

theorem boundOf_eq_none :
    policy.boundOf share = .none ↔ ¬ policy.Capped share ∧ policy.minFee ≤ share := by
  by_cases hcapped : policy.Capped share
  · simp [boundOf_eq_max.2 hcapped, hcapped]
  · rw [boundOf_of_not_capped hcapped]
    by_cases hlow : share < policy.minFee
    · simp [hlow, Int.not_le.2 hlow]
    · simp [hcapped, hlow, Int.not_lt.1 hlow]

theorem boundOf_ne_amount : policy.boundOf share ≠ .amount := by
  unfold FeePolicy.boundOf
  split
  · nofun
  · split
    · nofun
    · nofun

end Clamp

/-- The fee as a function of the amount is steady. -/
theorem steady_fee {policy : FeePolicy} (hvalid : policy.Valid) :
    Steady fun a : Int => min a (policy.clamp (a * policy.bps / 10000)) := by
  have hrate : (policy.bps : Int) ≤ 10000 := by
    have hbps := hvalid.bps
    unfold maxFeeBps at hbps
    omega
  have hshare : Steady fun a : Int => a * policy.bps / 10000 :=
    steady_share (Int.natCast_nonneg _) hrate (by decide)
  exact steady_id.min (steady_clamp policy hshare)

/-- Under an accepted policy the fee of an amount is its rounded share, clamped and cut off at the
amount; fee and net add up to the amount; a larger payment is charged no less and nets no less; and
`bound` tells which bound has decided. -/
theorem computeFee_monotone_and_fair {policy : FeePolicy} {label : String}
    (hvalid : assertValidPolicy policy label = .ok ()) {a b : Int} (ha : 0 ≤ a) (hab : a ≤ b) :
    ∃ x y, computeFee a policy = .ok x ∧ computeFee b policy = .ok y ∧
      x.fee = min a (policy.clamp (a * policy.bps / 10000)) ∧
      x.fee + x.net = a ∧ 0 ≤ x.fee ∧ 0 ≤ x.net ∧
      x.fee ≤ y.fee ∧ x.net ≤ y.net ∧
      (x.bound = .amount ↔ a < policy.clamp (a * policy.bps / 10000)) ∧
      (x.bound = .max ↔ policy.clamp (a * policy.bps / 10000) ≤ a ∧
        policy.Capped (a * policy.bps / 10000)) ∧
      (x.bound = .min ↔ policy.clamp (a * policy.bps / 10000) ≤ a ∧
        ¬ policy.Capped (a * policy.bps / 10000) ∧ a * policy.bps / 10000 < policy.minFee) ∧
      (x.bound = .none ↔ policy.clamp (a * policy.bps / 10000) ≤ a ∧
        ¬ policy.Capped (a * policy.bps / 10000) ∧ policy.minFee ≤ a * policy.bps / 10000) := by
  have hpolicy := valid_of_assertValidPolicy hvalid
  have hsteady := steady_fee hpolicy
  have hfee : min a (policy.clamp (a * policy.bps / 10000)) ≤ a := min_le_left _ _
  refine ⟨_, _, computeFee_eq hpolicy ha, computeFee_eq hpolicy (ha.trans hab), rfl, ?_, ?_, ?_,
    hsteady.charge hab, hsteady.rest hab, ?_⟩
  · exact add_sub_cancel _ _
  · exact le_min ha hpolicy.clamp_nonneg
  · exact Int.sub_nonneg.2 hfee
  · generalize a * (policy.bps : Int) / 10000 = share
    -- an amount below its fee is taken whole; otherwise the bound is the one that clamps the share
    by_cases hall : a < policy.clamp share
    · simp [hall, Int.not_le.2 hall]
    · simp [hall, Int.not_lt.1 hall, boundOf_ne_amount, boundOf_eq_max, boundOf_eq_min,
        boundOf_eq_none]

/-- Half a percent, at least 3 and at most 40. -/
def samplePolicy : FeePolicy := { bps := 50, minFee := 3, maxFee := some 40 }

theorem computeFee_monotone_and_fair_samplePolicy :
    assertValidPolicy samplePolicy "default fee policy" = .ok () ∧
      ∃ x y, computeFee 2 samplePolicy = .ok x ∧ computeFee 9000 samplePolicy = .ok y ∧
        x.fee ≤ y.fee ∧ x.net ≤ y.net ∧ x.bound = .amount := by
  have hvalid : assertValidPolicy samplePolicy "default fee policy" = .ok () := by decide
  rcases computeFee_monotone_and_fair hvalid (by decide : (0 : Int) ≤ 2)
    (by decide : (2 : Int) ≤ 9000) with ⟨x, y, hx, hy, _, _, _, _, hfee, hnet, hbound, _⟩
  exact ⟨hvalid, x, y, hx, hy, hfee, hnet, hbound.2 (by decide)⟩

end Fees
end PaymentRail
