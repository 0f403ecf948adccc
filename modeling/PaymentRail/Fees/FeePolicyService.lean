import Mathlib.Data.Rat.Lemmas
import PaymentRail.Collections.Arrange
import PaymentRail.Collections.Table
import PaymentRail.Fees.FeeClamp
import PaymentRail.Strings.Number

/-!
# FeePolicyService — the fee policies of an instance

This module embeds `fees/fee-policy.service.ts`: the default policy and the overrides per chain are read
once, checked, and used for every quotation.  A field that an override leaves out, or leaves empty, is
the one of the default policy.

A chain is named by the key of its override, which is any text that `Number` reads as a positive
integer; where two keys name the same chain, be it that they are rounded to the same `number`, the later
one counts.  `policies_as_configured` says what an instance that has started charges on every chain, and
that it lists the same.  Messages print chain ids below `2 ^ 53` as the source does.
-/

namespace PaymentRail
namespace Fees

open Machine Strings Money Collections

/-! ## Settings -/

/-- An omitted field is `none`; amounts are decimal texts. -/
structure RawFeePolicy where
  bps : Option Double
  minFee : Option Text
  maxFee : Option Text
  deriving DecidableEq, Repr

structure FeesConfig where
  chainId : Double
  defaultBps : Double
  defaultMinFee : Text
  defaultMaxFee : Text
  /-- In the order of `Object.entries`. -/
  policies : List (Text × RawFeePolicy)
  deriving DecidableEq, Repr

/-- The number as a natural one, if it is an integer and not negative. -/
def natural : Double → Option Nat
  | .finite q => if q.den = 1 ∧ 0 ≤ q.num then some q.num.toNat else none
  | _ => none

/-- The chain a key names: the `number` next to its value, if that is a positive integer. -/
def chainOf (key : Text) : Option Nat :=
  (natural (stringToNumber key).rounded).filter fun chainId => 0 < chainId

/-- A chain that is written in decimal digits is the one that its key names. -/
theorem chainOf_toDigits {n : Nat} (hpos : 0 < n) (hless : n < 2 ^ 53) :
    chainOf (Nat.toDigits 10 n) = some n := by
  have hdigits : ∀ c ∈ Nat.toDigits 10 n, isDecDigit c = true := fun c hc =>
    isDecDigit_iff.2 (mem_decDigits_of_mem_toDigits hc)
  have hvalue : value 10 (Nat.toDigits 10 n) = n := value_toDigits (by decide) (by decide) n
  have hnumber : (stringToNumber (Nat.toDigits 10 n)).rounded = .finite n := by
    rw [stringToNumber_digits Nat.toDigits_ne_nil hdigits, hvalue]
    exact Double.nearest_natCast hless
  simp [chainOf, hnumber, natural, hpos]

example : chainOf "9007199254740993".toList = some 9007199254740992 := by decide +kernel

/-- `amount` of `parsePolicy`: a field that is omitted or empty has none. -/
def amountField (label field : String) (value : Option Text) : Except String (Option Int) :=
  match value with
  | none => .ok none
  | some text =>
      if text = [] then .ok none
      else do
        require (amountPattern text = true)
          (label ++ ": " ++ field ++ " must be a decimal string, got \"" ++ String.ofList text ++ "\"")
        let parsed ← amountFrom text
        return some parsed.wei

/-- The rate of a policy; one that is no integer fails the first check of `assertValidPolicy`. -/
def bpsField (label : String) (fallback : Nat) (bps : Option Double) : Except String Nat :=
  match bps with
  | none => .ok fallback
  | some bps =>
      match natural bps with
      | some bps => .ok bps
      | none => .error (label ++ ": bps must be an integer between 0 and " ++ toString maxFeeBps)

/-- What a missing field of the default policy is read as. -/
def noPolicy : FeePolicy := { bps := 0, minFee := 0, maxFee := none }

def parsePolicy (raw : RawFeePolicy) (fallback : Option FeePolicy) (label : String) :
    Except String FeePolicy := do
  let fallback := fallback.getD noPolicy
  let minFee ← amountField label "minFee" raw.minFee
  let maxFee ← amountField label "maxFee" raw.maxFee
  let bps ← bpsField label fallback.bps raw.bps
  let policy : FeePolicy :=
    { bps, minFee := minFee.getD fallback.minFee, maxFee := maxFee.or fallback.maxFee }
  assertValidPolicy policy label
  return policy

/-! ## The service -/

structure FeePolicyService where
  chainId : Double
  defaultPolicy : FeePolicy
  chainPolicies : List (Nat × FeePolicy)
  deriving DecidableEq, Repr

def FeesConfig.defaults (cfg : FeesConfig) : RawFeePolicy where
  bps := some cfg.defaultBps
  minFee := some cfg.defaultMinFee
  maxFee := some cfg.defaultMaxFee

/-- One override is read into the map.  The label has the number of the chain in all its digits, as the
language prints it up to 2^53. -/
def addOverride (defaultPolicy : FeePolicy) (chainPolicies : List (Nat × FeePolicy))
    (entry : Text × RawFeePolicy) : Except String (List (Nat × FeePolicy)) :=
  match chainOf entry.1 with
  | none => .error ("FEE_POLICIES: \"" ++ String.ofList entry.1 ++ "\" is not a chain id")
  | some chainId => do
      let label := "fee policy for chain " ++ toString chainId
      let policy ← parsePolicy entry.2 (some defaultPolicy) label
      return Table.put Prod.fst chainPolicies (chainId, policy)

namespace FeePolicyService

/-- The constructor. -/
def create (cfg : FeesConfig) : Except String FeePolicyService := do
  let defaultPolicy ← parsePolicy cfg.defaults none "default fee policy"
  let chainPolicies ← cfg.policies.foldlM (addOverride defaultPolicy) []
  return { chainId := cfg.chainId, defaultPolicy, chainPolicies }

def policyFor (service : FeePolicyService) (chainId : Double) : FeePolicy :=
  match natural chainId with
  | none => service.defaultPolicy
  | some chainId =>
      match Table.lookup Prod.fst service.chainPolicies chainId with
      | some (_, policy) => policy
      | none => service.defaultPolicy

/-- The chain of the instance is quoted for unless another one is asked for. -/
def quote (service : FeePolicyService) (amount : Text) (chainId : Option Double) :
    Except String (Double × FeeQuote) := do
  let chainId := chainId.getD service.chainId
  let quoted ← Fees.quote (service.policyFor chainId) amount
  return (chainId, quoted)

end FeePolicyService

/-- The chain is `none` for the default policy. -/
structure FeePolicyView where
  chainId : Option Nat
  bps : Nat
  minFee : Text
  maxFee : Option Text
  deriving DecidableEq, Repr

def viewOf (chainId : Option Nat) (policy : FeePolicy) : FeePolicyView where
  chainId := chainId
  bps := policy.bps
  minFee := (Amount.fromWei policy.minFee).toString
  maxFee := policy.maxFee.map fun maxFee => (Amount.fromWei maxFee).toString

def FeePolicyService.listPolicies (service : FeePolicyService) : List FeePolicyView :=
  viewOf none service.defaultPolicy ::
    (Arrange.orderBy Prod.fst service.chainPolicies).map fun entry => viewOf (some entry.1) entry.2

/-! ## What the settings say -/

/-- A field is not set. -/
def Omitted (value : Option Text) : Prop := value = none ∨ value = some []

/-- The policy has the fields that are set, and the others from `fallback`. -/
structure RawFeePolicy.States (raw : RawFeePolicy) (fallback policy : FeePolicy) : Prop where
  bps : raw.bps = some (.finite policy.bps) ∨ raw.bps = none ∧ policy.bps = fallback.bps
  minFee : (∃ text, raw.minFee = some text ∧ text ≠ [] ∧ amountFrom text = .ok ⟨policy.minFee⟩) ∨
    Omitted raw.minFee ∧ policy.minFee = fallback.minFee
  maxFee : (∃ text maxFee, raw.maxFee = some text ∧ text ≠ [] ∧ amountFrom text = .ok ⟨maxFee⟩ ∧
      policy.maxFee = some maxFee) ∨
    Omitted raw.maxFee ∧ policy.maxFee = fallback.maxFee

/-- The override of a chain: the last one whose key names it. -/
def FeesConfig.overrideOf (cfg : FeesConfig) (chainId : Nat) : Option RawFeePolicy :=
  ((cfg.policies.reverse.find? fun entry => chainOf entry.1 = some chainId)).map Prod.snd

/-- A view tells the policy. -/
structure FeePolicyView.Shows (view : FeePolicyView) (policy : FeePolicy) : Prop where
  bps : view.bps = policy.bps
  minFee : amountFrom view.minFee = .ok ⟨policy.minFee⟩
  maxFee : view.maxFee = none ∧ policy.maxFee = none ∨
    ∃ text maxFee, view.maxFee = some text ∧ policy.maxFee = some maxFee ∧
      amountFrom text = .ok ⟨maxFee⟩

/-- A quotation takes the fee of the policy from the amount. -/
structure FeeQuote.Charges (quoted : FeeQuote) (policy : FeePolicy) (wei : Int) : Prop where
  amount : amountFrom quoted.amount = .ok ⟨wei⟩
  fee : amountFrom quoted.fee = .ok ⟨min wei (policy.clamp (wei * policy.bps / 10000))⟩
  net : amountFrom quoted.net = .ok ⟨wei - min wei (policy.clamp (wei * policy.bps / 10000))⟩
  bps : quoted.bps = policy.bps

/-! ## Reading a policy -/

section Parsing

variable {raw : RawFeePolicy} {fallback policy : FeePolicy} {label field : String} {n : Nat}
  {d : Double}

theorem natural_eq_some : natural d = some n ↔ d = .finite n := by
  constructor
  · intro h
    cases d with
    | finite q =>
        simp only [natural] at h
        split at h
        · rename_i hq
          cases h
          have hinteger : (q.num : ℚ) = q := Rat.coe_int_num_of_den_eq_one hq.1
          have hnum : ((q.num.toNat : Int) : ℚ) = (q.num : ℚ) := by rw [Int.toNat_of_nonneg hq.2]
          rw [Double.finite.injEq, ← hinteger, ← hnum]
          rfl
        · cases h
    | _ => cases h
  · rintro rfl
    simp [natural]

theorem amountField_eq_ok {value : Option Text} {parsed : Option Int}
    (h : amountField label field value = .ok parsed) :
    (∃ text wei, value = some text ∧ text ≠ [] ∧ amountFrom text = .ok ⟨wei⟩ ∧ parsed = some wei) ∨
      Omitted value ∧ parsed = none := by
  cases value with
  | none =>
      cases h
      exact Or.inr ⟨Or.inl rfl, rfl⟩
  | some text =>
      simp only [amountField] at h
      split at h
      · rename_i hempty
        cases h
        exact Or.inr ⟨Or.inr (by rw [hempty]), rfl⟩
      · rename_i htext
        rcases bind_eq_ok.1 h with ⟨_, _, hrest⟩
        rcases bind_eq_ok.1 hrest with ⟨a, ha, hreturn⟩
        cases hreturn
        exact Or.inl ⟨text, a.wei, rfl, htext, ha, rfl⟩

theorem bpsField_eq_ok {bps : Option Double} (h : bpsField label fallback.bps bps = .ok n) :
    bps = some (.finite n) ∨ bps = none ∧ n = fallback.bps := by
  cases bps with
  | none =>
      cases h
      exact Or.inr ⟨rfl, rfl⟩
  | some d =>
      simp only [bpsField] at h
      split at h
      · rename_i m hm
        cases h
        exact Or.inl (by rw [natural_eq_some.1 hm])
      · cases h

theorem states_of_parsePolicy {base : Option FeePolicy} (h : parsePolicy raw base label = .ok policy) :
    policy.Valid ∧ raw.States (base.getD noPolicy) policy := by
  rcases bind_eq_ok.1 h with ⟨minFee, hmin, h⟩
  rcases bind_eq_ok.1 h with ⟨maxFee, hmax, h⟩
  rcases bind_eq_ok.1 h with ⟨bps, hbps, h⟩
  rcases bind_eq_ok.1 h with ⟨_, hvalid, h⟩
  cases h
  refine ⟨valid_of_assertValidPolicy hvalid, bpsField_eq_ok hbps, ?_, ?_⟩
  · rcases amountField_eq_ok hmin with ⟨text, wei, htext, hset, hread, rfl⟩ | ⟨homitted, rfl⟩
    · exact Or.inl ⟨text, htext, hset, hread⟩
    · exact Or.inr ⟨homitted, rfl⟩
  · rcases amountField_eq_ok hmax with ⟨text, wei, htext, hset, hread, rfl⟩ | ⟨homitted, rfl⟩
    · exact Or.inl ⟨text, wei, htext, hset, hread, rfl⟩
    · exact Or.inr ⟨homitted, Option.none_or⟩

/-- The pattern lets decimal texts through that are amounts, and not negative. -/
theorem amountFrom_of_pattern {text : Text} (h : amountPattern text = true) :
    ∃ wei, amountFrom text = .ok ⟨wei⟩ ∧ 0 ≤ wei := by
  have hupto : ∀ s, upTo18Digits s = true → Digits s ∧ s.length ≤ 18 := by
    intro s hs
    simp only [upTo18Digits, Bool.and_eq_true, decide_eq_true_eq] at hs
    exact ⟨⟨List.ne_nil_of_length_pos hs.1.2, List.all_eq_true.1 hs.1.1⟩, hs.2⟩
  have hsplit := List.takeWhile_append_dropWhile (p := isDecDigit) (l := text)
  -- whole digits, and a fraction that may be missing
  have hparts : ∃ whole fraction, Digits whole ∧ (∀ c ∈ fraction, isDecDigit c = true) ∧
      fraction.length ≤ 18 ∧ text = minus false ++ (whole ++ dotted fraction) := by
    unfold amountPattern at h
    split at h
    · exact ⟨text, [], (hupto text h).1, nofun, Nat.zero_le _, by simp [minus, dotted]⟩
    · rename_i fraction hrest
      rw [Bool.and_eq_true] at h
      rcases hupto fraction h.2 with ⟨hfraction, hplaces⟩
      refine ⟨text.takeWhile isDecDigit, fraction, (hupto _ h.1).1, hfraction.digits, hplaces, ?_⟩
      rw [hrest] at hsplit
      simpa [minus, dotted, hfraction.ne_nil] using hsplit.symm
    · cases h
  rcases hparts with ⟨whole, fraction, hwhole, hfraction, hplaces, rfl⟩
  refine ⟨_, amountFrom_decimal hwhole hfraction ((length_stripTrailingZeros_le _).trans hplaces), ?_⟩
  exact Int.add_nonneg (Int.mul_nonneg (Int.natCast_nonneg _) (Int.natCast_nonneg _))
    (Int.natCast_nonneg _)

theorem quote_charges {amount : Text} (hvalid : policy.Valid) (h : amountPattern amount = true) :
    ∃ wei quoted, amountFrom amount = .ok ⟨wei⟩ ∧ Fees.quote policy amount = .ok quoted ∧
      quoted.Charges policy wei := by
  rcases amountFrom_of_pattern h with ⟨wei, hread, hnonneg⟩
  have hquoted : ∃ quoted, Fees.quote policy amount = .ok quoted ∧
      quoted.amount = (Amount.fromWei wei).toString ∧
      quoted.fee = (Amount.fromWei (min wei (policy.clamp (wei * policy.bps / 10000)))).toString ∧
      quoted.net = (Amount.fromWei (wei - min wei (policy.clamp (wei * policy.bps / 10000)))).toString ∧
      quoted.bps = policy.bps := by
    rw [Fees.quote, require_of h, ok_bind, hread, ok_bind, computeFee_eq hvalid hnonneg, ok_bind]
    exact ⟨_, rfl, rfl, rfl, rfl, rfl⟩
  rcases hquoted with ⟨quoted, hquote, hamount, hfee, hnet, hbps⟩
  refine ⟨wei, quoted, hread, hquote, ?_, ?_, ?_, hbps⟩
  · rw [hamount]
    exact Amount.amountFrom_toString _
  · rw [hfee]
    exact Amount.amountFrom_toString _
  · rw [hnet]
    exact Amount.amountFrom_toString _

theorem viewOf_shows (chainId : Option Nat) (policy : FeePolicy) :
    (viewOf chainId policy).Shows policy := by
  refine ⟨rfl, Amount.amountFrom_toString _, ?_⟩
  cases hcap : policy.maxFee with
  | none => exact Or.inl ⟨by simp [viewOf, hcap], rfl⟩
  | some maxFee =>
      exact Or.inr ⟨_, maxFee, by simp only [viewOf, hcap]; rfl, rfl, Amount.amountFrom_toString _⟩

end Parsing

/-! ## Reading all of them -/

/-- The map that `chainPolicies` is after some overrides, in terms of the map before them. -/
structure Overrides (defaultPolicy : FeePolicy) (entries : List (Text × RawFeePolicy))
    (before after : List (Nat × FeePolicy)) : Prop where
  keyed : Table.Keyed Prod.fst before → Table.Keyed Prod.fst after
  overridden : ∀ n key raw,
    entries.reverse.find? (fun entry => chainOf entry.1 = some n) = some (key, raw) →
    ∃ policy, Table.lookup Prod.fst after n = some (n, policy) ∧
      parsePolicy raw (some defaultPolicy) ("fee policy for chain " ++ toString n) = .ok policy
  other : ∀ n, entries.reverse.find? (fun entry => chainOf entry.1 = some n) = none →
    Table.lookup Prod.fst after n = Table.lookup Prod.fst before n

section Overriding

variable {cfg : FeesConfig} {service : FeePolicyService} {defaultPolicy : FeePolicy}
  {entries : List (Text × RawFeePolicy)} {entry : Text × RawFeePolicy}
  {before after : List (Nat × FeePolicy)}

/-- An override that can be read. -/
def Readable (defaultPolicy : FeePolicy) (entry : Text × RawFeePolicy) : Prop :=
  ∃ n policy, chainOf entry.1 = some n ∧
    parsePolicy entry.2 (some defaultPolicy) ("fee policy for chain " ++ toString n) = .ok policy

theorem addOverride_eq_ok (h : addOverride defaultPolicy before entry = .ok after) :
    ∃ n policy, chainOf entry.1 = some n ∧
      parsePolicy entry.2 (some defaultPolicy) ("fee policy for chain " ++ toString n) = .ok policy ∧
      after = Table.put Prod.fst before (n, policy) := by
  unfold addOverride at h
  split at h
  · cases h
  · rename_i n hn
    rcases bind_eq_ok.1 h with ⟨policy, hpolicy, hreturn⟩
    cases hreturn
    exact ⟨n, policy, hn, hpolicy, rfl⟩

theorem addOverride_of_readable (before : List (Nat × FeePolicy)) (h : Readable defaultPolicy entry) :
    ∃ after, addOverride defaultPolicy before entry = .ok after := by
  rcases h with ⟨n, policy, hn, hpolicy⟩
  refine ⟨Table.put Prod.fst before (n, policy), ?_⟩
  rw [addOverride, hn]
  simp only
  rw [hpolicy]
  rfl

theorem overrides_of_foldlM (h : entries.foldlM (addOverride defaultPolicy) before = .ok after) :
    Overrides defaultPolicy entries before after ∧ ∀ entry ∈ entries, Readable defaultPolicy entry := by
  induction entries generalizing before with
  | nil =>
      cases h
      exact ⟨⟨fun hkeyed => hkeyed, nofun, fun _ _ => rfl⟩, nofun⟩
  | cons entry entries ih =>
      rw [List.foldlM_cons] at h
      rcases bind_eq_ok.1 h with ⟨middle, hfirst, hrest⟩
      rcases addOverride_eq_ok hfirst with ⟨n, policy, hn, hpolicy, rfl⟩
      rcases ih hrest with ⟨hoverrides, hreadable⟩
      refine ⟨⟨fun hkeyed => hoverrides.keyed hkeyed.put, ?_, ?_⟩, ?_⟩
      · intro m key raw hfind
        rw [List.reverse_cons, List.find?_append, Option.or_eq_some_iff] at hfind
        rcases hfind with hlater | ⟨hnone, hself⟩
        · exact hoverrides.overridden m key raw hlater
        · -- the first entry is the last one that names the chain
          have hmem := List.mem_of_find?_eq_some hself
          have hnames := List.find?_some hself
          rw [List.mem_singleton] at hmem
          subst hmem
          have hm : m = n := by
            have hkey : chainOf key = some m := of_decide_eq_true hnames
            exact Option.some.inj (hkey.symm.trans hn)
          subst hm
          refine ⟨policy, ?_, hpolicy⟩
          rw [hoverrides.other m hnone]
          exact Table.lookup_put_self _ _
      · intro m hfind
        rw [List.reverse_cons, List.find?_append, Option.or_eq_none_iff] at hfind
        have hne : n ≠ m := by
          rintro rfl
          simpa [hn] using hfind.2
        rw [hoverrides.other m hfind.1]
        exact Table.lookup_put_of_ne _ _ hne
      · intro other hother
        rcases List.mem_cons.1 hother with rfl | hlater
        · exact ⟨n, policy, hn, hpolicy⟩
        · exact hreadable other hlater

theorem foldlM_of_readable (before : List (Nat × FeePolicy))
    (h : ∀ entry ∈ entries, Readable defaultPolicy entry) :
    ∃ after, entries.foldlM (addOverride defaultPolicy) before = .ok after := by
  induction entries generalizing before with
  | nil => exact ⟨before, rfl⟩
  | cons entry entries ih =>
      rcases addOverride_of_readable before (h entry List.mem_cons_self) with ⟨middle, hmiddle⟩
      rcases ih middle (fun other hother => h other (List.mem_cons_of_mem _ hother)) with
        ⟨after, hafter⟩
      exact ⟨after, by rw [List.foldlM_cons, hmiddle, ok_bind, hafter]⟩

end Overriding

/-! ## An instance that has started -/

/-- The settings can be read, also the overrides that a later one replaces. -/
def FeesConfig.Startable (cfg : FeesConfig) : Prop :=
  ∃ defaultPolicy, parsePolicy cfg.defaults none "default fee policy" = .ok defaultPolicy ∧
    ∀ entry ∈ cfg.policies, Readable defaultPolicy entry

namespace FeePolicyService

/-- What a listing says: the default policy, and in ascending order the chains that have their own. -/
structure Lists (service : FeePolicyService) (cfg : FeesConfig) (views : List FeePolicyView) : Prop where
  chains : ∃ chains : List Nat, chains.Pairwise (· < ·) ∧
    (∀ n, n ∈ chains ↔ (cfg.overrideOf n).isSome = true) ∧
    views.map FeePolicyView.chainId = none :: chains.map some
  default : ∀ view ∈ views, view.chainId = none → view.Shows service.defaultPolicy
  chain : ∀ view ∈ views, ∀ n, view.chainId = some n → view.Shows (service.policyFor (.finite n))

/-- The instance charges what the settings say. -/
structure Follows (service : FeePolicyService) (cfg : FeesConfig) : Prop where
  default : cfg.defaults.States noPolicy service.defaultPolicy
  valid : ∀ chainId, (service.policyFor chainId).Valid
  overridden : ∀ n raw, cfg.overrideOf n = some raw →
    raw.States service.defaultPolicy (service.policyFor (.finite n))
  other : ∀ n : Nat, cfg.overrideOf n = none → service.policyFor (.finite n) = service.defaultPolicy
  quotes : ∀ amount chainId, amountPattern amount = true → ∃ wei quoted,
    amountFrom amount = .ok ⟨wei⟩ ∧
      service.quote amount chainId = .ok (chainId.getD service.chainId, quoted) ∧
      quoted.Charges (service.policyFor (chainId.getD service.chainId)) wei
  lists : service.Lists cfg service.listPolicies

section Started

variable {cfg : FeesConfig} {service : FeePolicyService}

/-- What is left of the constructor once it has returned. -/
theorem create_eq_ok (h : create cfg = .ok service) :
    parsePolicy cfg.defaults none "default fee policy" = .ok service.defaultPolicy ∧
      cfg.policies.foldlM (addOverride service.defaultPolicy) [] = .ok service.chainPolicies ∧
      service.chainId = cfg.chainId := by
  rcases bind_eq_ok.1 h with ⟨defaultPolicy, hdefault, hrest⟩
  rcases bind_eq_ok.1 hrest with ⟨chainPolicies, hchains, hreturn⟩
  cases hreturn
  exact ⟨hdefault, hchains, rfl⟩

theorem policyFor_of_lookup {n : Nat} {policy : FeePolicy}
    (h : Table.lookup Prod.fst service.chainPolicies n = some (n, policy)) :
    service.policyFor (.finite n) = policy := by
  rw [policyFor, natural_eq_some.2 rfl]
  simp only [h]

theorem policyFor_of_none {n : Nat} (h : Table.lookup Prod.fst service.chainPolicies n = none) :
    service.policyFor (.finite n) = service.defaultPolicy := by
  rw [policyFor, natural_eq_some.2 rfl]
  simp only [h]

/-- A chain has its own policy exactly if an override names it. -/
theorem lookup_overrides
    (hoverrides : Overrides service.defaultPolicy cfg.policies [] service.chainPolicies) (n : Nat) :
    (cfg.overrideOf n = none ∧ Table.lookup Prod.fst service.chainPolicies n = none) ∨
      ∃ raw policy, cfg.overrideOf n = some raw ∧
        Table.lookup Prod.fst service.chainPolicies n = some (n, policy) ∧
        parsePolicy raw (some service.defaultPolicy) ("fee policy for chain " ++ toString n) =
          .ok policy := by
  unfold FeesConfig.overrideOf
  cases hfind : cfg.policies.reverse.find? fun entry => chainOf entry.1 = some n with
  | none => exact Or.inl ⟨rfl, hoverrides.other n hfind⟩
  | some entry =>
      rcases entry with ⟨key, raw⟩
      rcases hoverrides.overridden n key raw hfind with ⟨policy, hlookup, hpolicy⟩
      exact Or.inr ⟨raw, policy, rfl, hlookup, hpolicy⟩

theorem lists_listPolicies
    (hoverrides : Overrides service.defaultPolicy cfg.policies [] service.chainPolicies) :
    service.Lists cfg service.listPolicies := by
  have hkeyed : Table.Keyed Prod.fst service.chainPolicies := hoverrides.keyed List.nodup_nil
  have hperm : (Arrange.orderBy Prod.fst service.chainPolicies).Perm service.chainPolicies :=
    Arrange.perm_orderBy _
  have hlookup : ∀ entry ∈ service.chainPolicies,
      Table.lookup Prod.fst service.chainPolicies entry.1 = some entry :=
    fun entry hentry => Table.lookup_of_mem hkeyed hentry
  refine ⟨⟨(Arrange.orderBy Prod.fst service.chainPolicies).map Prod.fst, ?_, ?_, ?_⟩, ?_, ?_⟩
  · -- sorted, and no chain twice
    have hsorted : ((Arrange.orderBy Prod.fst service.chainPolicies).map Prod.fst).Pairwise (· ≤ ·) :=
      List.pairwise_map.2 (Arrange.sorted_orderBy _)
    have hnodup : ((Arrange.orderBy Prod.fst service.chainPolicies).map Prod.fst).Nodup :=
      (hperm.map Prod.fst).nodup_iff.2 hkeyed
    exact hsorted.imp₂ (fun _ _ hle hne => lt_of_le_of_ne hle hne) hnodup
  · intro n
    rw [(hperm.map Prod.fst).mem_iff]
    rcases lookup_overrides hoverrides n with ⟨hnone, hmissing⟩ | ⟨raw, policy, hsome, hfound, _⟩
    · rw [hnone]
      refine ⟨?_, nofun⟩
      intro hmem
      rcases List.mem_map.1 hmem with ⟨entry, hentry, hkey⟩
      exact absurd hkey (Table.lookup_eq_none.1 hmissing entry hentry)
    · rw [hsome]
      exact ⟨fun _ => rfl, fun _ => List.mem_map.2 ⟨_, Table.mem_of_lookup hfound, rfl⟩⟩
  · simp [listPolicies, viewOf, Function.comp_def]
  · intro view hview hchain
    rcases List.mem_cons.1 hview with rfl | hview
    · exact viewOf_shows _ _
    · rcases List.mem_map.1 hview with ⟨entry, _, rfl⟩
      cases hchain
  · intro view hview n hchain
    rcases List.mem_cons.1 hview with rfl | hview
    · cases hchain
    · rcases List.mem_map.1 hview with ⟨⟨m, policy⟩, hentry, rfl⟩
      have hm : m = n := Option.some.inj hchain
      subst hm
      rw [policyFor_of_lookup (hlookup _ (hperm.mem_iff.1 hentry))]
      exact viewOf_shows _ _

theorem follows_of_create (h : create cfg = .ok service) : service.Follows cfg := by
  rcases create_eq_ok h with ⟨hdefault, hchains, _⟩
  rcases states_of_parsePolicy hdefault with ⟨hvalid, hstates⟩
  have hoverrides := (overrides_of_foldlM hchains).1
  have hown : ∀ n raw, cfg.overrideOf n = some raw → (service.policyFor (.finite n)).Valid ∧
      raw.States service.defaultPolicy (service.policyFor (.finite n)) := by
    intro n raw hraw
    rcases lookup_overrides hoverrides n with ⟨hnone, _⟩ | ⟨raw', policy, hsome, hfound, hpolicy⟩
    · rw [hnone] at hraw
      cases hraw
    · rw [hsome] at hraw
      cases hraw
      rw [policyFor_of_lookup hfound]
      exact states_of_parsePolicy hpolicy
  have hother : ∀ n : Nat, cfg.overrideOf n = none →
      service.policyFor (.finite n) = service.defaultPolicy := by
    intro n hnone
    rcases lookup_overrides hoverrides n with ⟨_, hmissing⟩ | ⟨raw, _, hsome, _⟩
    · exact policyFor_of_none hmissing
    · rw [hnone] at hsome
      cases hsome
  have hall : ∀ chainId, (service.policyFor chainId).Valid := by
    intro chainId
    cases hn : natural chainId with
    | none =>
        rw [policyFor, hn]
        exact hvalid
    | some n =>
        rw [natural_eq_some.1 hn]
        cases hraw : cfg.overrideOf n with
        | none =>
            rw [hother n hraw]
            exact hvalid
        | some raw => exact (hown n raw hraw).1
  have hquotes : ∀ amount chainId, amountPattern amount = true → ∃ wei quoted,
      amountFrom amount = .ok ⟨wei⟩ ∧
        service.quote amount chainId = .ok (chainId.getD service.chainId, quoted) ∧
        quoted.Charges (service.policyFor (chainId.getD service.chainId)) wei := by
    intro amount chainId hamount
    rcases quote_charges (hall (chainId.getD service.chainId)) hamount with
      ⟨wei, quoted, hread, hquoted, hcharges⟩
    refine ⟨wei, quoted, hread, ?_, hcharges⟩
    rw [FeePolicyService.quote, hquoted]
    rfl
  have hoverridden : ∀ n raw, cfg.overrideOf n = some raw →
      raw.States service.defaultPolicy (service.policyFor (.finite n)) := by
    intro n raw hraw
    exact (hown n raw hraw).2
  exact ⟨hstates, hall, hoverridden, hother, hquotes, lists_listPolicies hoverrides⟩

theorem create_of_startable (h : cfg.Startable) : ∃ service, create cfg = .ok service := by
  rcases h with ⟨defaultPolicy, hdefault, hreadable⟩
  rcases foldlM_of_readable [] hreadable with ⟨chainPolicies, hchains⟩
  refine ⟨⟨cfg.chainId, defaultPolicy, chainPolicies⟩, ?_⟩
  rw [create, hdefault, ok_bind, hchains]
  rfl

end Started

end FeePolicyService

/-- An instance starts exactly if all of its policies can be read, and then it follows its settings on
every chain and for every amount: the policy of a chain is the last override that names it, completed
from the default, every policy in force is valid, every amount is quoted by the policy of its chain, and
the listing shows these policies.  The decimal digits of a chain below 2^53 name it. -/
theorem policies_as_configured (cfg : FeesConfig) :
    ((∃ service, FeePolicyService.create cfg = .ok service) ↔ cfg.Startable) ∧
      (∀ service, FeePolicyService.create cfg = .ok service → service.Follows cfg) ∧
      ∀ n, 0 < n → n < 2 ^ 53 → chainOf (Nat.toDigits 10 n) = some n := by
  refine ⟨⟨?_, FeePolicyService.create_of_startable⟩, fun _ => FeePolicyService.follows_of_create,
    fun _ => chainOf_toDigits⟩
  rintro ⟨service, h⟩
  rcases FeePolicyService.create_eq_ok h with ⟨hdefault, hchains, _⟩
  exact ⟨service.defaultPolicy, hdefault, (overrides_of_foldlM hchains).2⟩

/-- Two keys for the same chain, the second of them in hexadecimal. -/
def sampleConfig : FeesConfig where
  chainId := .finite 31337
  defaultBps := .finite 50
  defaultMinFee := ['0']
  defaultMaxFee := []
  policies :=
    [("71234".toList, { bps := some (.finite 30), minFee := none, maxFee := some ['5'] }),
      ("0x11642".toList, { bps := none, minFee := some "0.0001".toList, maxFee := none })]

/-- The second override counts, and what it leaves out is the default's. -/
theorem policies_as_configured_sampleConfig :
    ∃ service, FeePolicyService.create sampleConfig = .ok service ∧ service.Follows sampleConfig ∧
      service.policyFor (.finite 71234) = { bps := 50, minFee := 10 ^ 14, maxFee := none } := by
  have hcreated : ((FeePolicyService.create sampleConfig).toOption.any fun service =>
      service.policyFor (.finite 71234) = { bps := 50, minFee := 10 ^ 14, maxFee := none }) = true := by
    decide +kernel
  rcases (Option.any_eq_true _ _).1 hcreated with ⟨service, hservice, hpolicy⟩
  have hok : FeePolicyService.create sampleConfig = .ok service := by
    cases hcreate : FeePolicyService.create sampleConfig with
    | error message =>
        rw [hcreate] at hservice
        cases hservice
    | ok created =>
        rw [hcreate] at hservice
        cases hservice
        rfl
  exact ⟨service, hok, (policies_as_configured sampleConfig).2.1 service hok, of_decide_eq_true hpolicy⟩

end Fees
end PaymentRail
