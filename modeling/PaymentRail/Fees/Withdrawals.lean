import PaymentRail.Fees.FeeLedger
import PaymentRail.Settlement.Accruals

/-!
# Withdrawals — no more fees leave the ledger than have come in

A withdrawal compares its amount with totals that it has read under the lock of its chain.  Until it
commits nobody else withdraws on that chain: equal chains have equal keys.  Different chains may
share a key, which makes them wait for each other and nothing worse.  Accruals take no lock and may
come between the check and the commit, but they only add to what is available.
-/

namespace PaymentRail
namespace FeeLedger

open Machine Strings Money Collections

/-! ## Totals -/

section Totals

variable {store : Store} {entry : FeeLedgerEntry} {chainId : ChainId} {type : FeeLedgerEntryType}

theorem sum_insert : (store.insert entry).sum chainId type =
    (if entry.belongs chainId type = true then entry.amount.wei else 0) + store.sum chainId type := by
  by_cases h : entry.belongs chainId type = true
  · simp [Store.sum, Store.insert, h]
  · simp [Store.sum, Store.insert, h]

@[simp] theorem sum_unlock (id : CallId) :
    (store.unlock id).sum chainId type = store.sum chainId type := rfl

theorem sum_eq_zero (h : ¬ store.entries.any (FeeLedgerEntry.belongs chainId type) = true) :
    store.sum chainId type = 0 := by
  have hnil : store.entries.filter (FeeLedgerEntry.belongs chainId type) = [] := by
    rw [List.filter_eq_nil_iff]
    intro entry hentry hbelongs
    exact h (List.any_eq_true.2 ⟨entry, hentry, hbelongs⟩)
  rw [Store.sum, hnil]
  rfl

theorem amountFrom_sumText (store : Store) (chainId : ChainId) (type : FeeLedgerEntryType) :
    amountFrom ((store.sumText chainId type).getD ['0']) = .ok ⟨store.sum chainId type⟩ := by
  by_cases h : store.entries.any (FeeLedgerEntry.belongs chainId type) = true
  · rw [Store.sumText, if_pos h]
    exact Amount.amountFrom_toFixed _
  · rw [Store.sumText, if_neg h, sum_eq_zero h]
    rfl

/-- The totals are those of the committed rows. -/
theorem totals_eq (store : Store) (chainId : ChainId) : totals store chainId =
    .ok { accrued := store.sum chainId .accrual, withdrawn := store.sum chainId .withdrawal } := by
  rw [totals, amountFrom_sumText, amountFrom_sumText]
  rfl

end Totals

/-! ## What a step can do -/

inductive Resumes (id : CallId) (store : Store) : Process → Store → Flow Process Answer → Prop
  | accrues {settlement : SettledFee} {chainId : ChainId} {amount : Amount} {new : EntryId}
      {a : Answer} (hnew : store.accrued settlement.id = false) :
      Resumes id store (.saveAccrual settlement chainId amount)
        (store.insert (accrual new settlement chainId amount)) (.answer a)
  | ends {p : Process} {a : Answer} (hp : ∀ b, p ≠ .rollback b) : Resumes id store p store (.answer a)
  | begun {dto : WithdrawFeesDto} {chainId : ChainId} {amount : Amount} :
      Resumes id store (.begin dto chainId amount) store (.await (.lock dto chainId amount))
  | locks {dto : WithdrawFeesDto} {chainId : ChainId} {amount : Amount} {locks : Locks Nat}
      (hlocks : store.locks.acquire (lockKey chainId) id = some locks) :
      Resumes id store (.lock dto chainId amount) { store with locks }
        (.await (.totals dto chainId amount))
  | fits {dto : WithdrawFeesDto} {chainId : ChainId} {amount : Amount} {sums : Totals}
      (hfits : amount.wei ≤ store.sum chainId .accrual - store.sum chainId .withdrawal) :
      Resumes id store (.totals dto chainId amount) store (.await (.save dto chainId amount sums))
  | saves {dto : WithdrawFeesDto} {chainId : ChainId} {amount : Amount} {sums : Totals}
      {new : EntryId} {balance : FeeBalance} :
      Resumes id store (.save dto chainId amount sums) store
        (.await (.commit (withdrawal new dto chainId amount) balance))
  | commits {entry : FeeLedgerEntry} {balance : FeeBalance} :
      Resumes id store (.commit entry balance) ((store.insert entry).unlock id)
        (.answer (.withdrawn entry balance))
  | commitLost {entry : FeeLedgerEntry} {balance : FeeBalance} {message : String} :
      Resumes id store (.commit entry balance) ((store.insert entry).unlock id)
        (.await (.rollback (.error 500 message)))
  | fails {p : Process} {a : Answer} (hp : ∀ b, p ≠ .rollback b) :
      Resumes id store p store (.await (.rollback a))
  | rolledBack {a : Answer} : Resumes id store (.rollback a) (store.unlock id) (.answer a)

theorem resumes_of_resume {id : CallId} {store store' : Store} {p : Process} {reply : Reply}
    {flow : Flow Process Answer} (h : resume id p reply store = some (store', flow)) :
    Resumes id store p store' flow := by
  cases p with
  | saveAccrual settlement chainId amount =>
      cases reply with
      | inserted new =>
          simp only [resume] at h
          split at h
          · cases h
          · rename_i hnew
            cases h
            exact .accrues (by simpa using hnew)
      | lost new message =>
          simp only [resume] at h
          split at h
          · cases h
          · rename_i hnew
            cases h
            exact .accrues (by simpa using hnew)
      | uniqueViolation =>
          simp only [resume] at h
          split at h
          · cases h
            exact .ends fun _ hp => by cases hp
          · cases h
      | failed message =>
          cases h
          exact .ends fun _ hp => by cases hp
      | done => cases h
  | balance chainId =>
      cases reply with
      | done =>
          simp only [resume, totals_eq] at h
          cases h
          exact .ends fun _ hp => by cases hp
      | failed message =>
          cases h
          exact .ends fun _ hp => by cases hp
      | _ => cases h
  | begin dto chainId amount =>
      cases reply with
      | done =>
          cases h
          exact .begun
      | failed message =>
          cases h
          exact .ends fun _ hp => by cases hp
      | _ => cases h
  | lock dto chainId amount =>
      cases reply with
      | done =>
          simp only [resume] at h
          split at h
          · rename_i locks hlocks
            cases h
            exact .locks hlocks
          · cases h
      | failed message =>
          cases h
          exact .fails fun _ hp => by cases hp
      | _ => cases h
  | totals dto chainId amount =>
      cases reply with
      | done =>
          simp only [resume, totals_eq] at h
          split at h
          · cases h
            exact .fails fun _ hp => by cases hp
          · rename_i hfits
            cases h
            exact .fits (not_lt.1 hfits)
      | failed message =>
          cases h
          exact .fails fun _ hp => by cases hp
      | _ => cases h
  | save dto chainId amount sums =>
      cases reply with
      | inserted new =>
          cases h
          exact .saves
      | failed message =>
          cases h
          exact .fails fun _ hp => by cases hp
      | _ => cases h
  | commit entry balance =>
      cases reply with
      | done =>
          cases h
          exact .commits
      | lost new message =>
          cases h
          exact .commitLost
      | failed message =>
          cases h
          exact .fails fun _ hp => by cases hp
      | _ => cases h
  | rollback a =>
      cases reply with
      | done =>
          cases h
          exact .rolledBack
      | failed message =>
          cases h
          exact .rolledBack
      | _ => cases h

/-! ## The invariant -/

/-- No chain is overdrawn, and no settlement has accrued twice. -/
structure Sound (store : Store) : Prop where
  solvent : ∀ chainId, store.sum chainId .withdrawal ≤ store.sum chainId .accrual
  once : (store.entries.filterMap (·.settlementId)).Nodup

/-- The call has the lock of the chain. -/
def Holds (store : Store) (id : CallId) (chainId : ChainId) : Prop :=
  store.locks.holder (lockKey chainId) = some id

/-- The amount is available on the chain. -/
def Fits (store : Store) (chainId : ChainId) (amount : Amount) : Prop :=
  amount.wei ≤ store.sum chainId .accrual - store.sum chainId .withdrawal

/-- What a waiting call knows. -/
def Process.Ok (store : Store) (id : CallId) : Process → Prop
  | .saveAccrual _ _ amount => 0 ≤ amount.wei
  | .totals _ chainId _ => Holds store id chainId
  | .save _ chainId amount _ => Holds store id chainId ∧ Fits store chainId amount
  | .commit entry _ =>
      entry.type = .withdrawal ∧ entry.settlementId = none ∧ Holds store id entry.chainId ∧
        Fits store entry.chainId entry.amount
  | _ => True

section Steps

variable {store store' : Store} {entry : FeeLedgerEntry} {id k : CallId} {p q : Process}

/-- What others do disturbs a call only if it takes its lock or what is available under it. -/
theorem Process.Ok.frame (h : p.Ok store id)
    (hlocks : ∀ chainId, Holds store id chainId → Holds store' id chainId)
    (hfits : ∀ chainId amount, Holds store id chainId → Fits store chainId amount →
      Fits store' chainId amount) : p.Ok store' id := by
  cases p with
  | saveAccrual settlement chainId amount => exact h
  | totals dto chainId amount => exact hlocks _ h
  | save dto chainId amount sums => exact ⟨hlocks _ h.1, hfits _ _ h.1 h.2⟩
  | commit entry balance =>
      rcases h with ⟨htype, hnone, hholds, hfit⟩
      exact ⟨htype, hnone, hlocks _ hholds, hfits _ _ hholds hfit⟩
  | _ => trivial

/-- A chain has one holder at a time. -/
theorem Holds.eq {chainId : ChainId} (h : Holds store id chainId) (h' : Holds store k chainId) :
    id = k :=
  Option.some.inj (h.symm.trans h')

theorem Holds.unlock {chainId : ChainId} (h : Holds store k chainId) (hne : k ≠ id) :
    Holds (store.unlock id) k chainId :=
  Locks.holder_release h hne

/-! ### Accruals -/

theorem sum_accrue (htype : entry.type = .accrual) (chainId : ChainId) :
    (store.insert entry).sum chainId .withdrawal = store.sum chainId .withdrawal := by
  rw [sum_insert, if_neg, zero_add]
  simp [FeeLedgerEntry.belongs, htype]

theorem le_sum_accrue (hnonneg : 0 ≤ entry.amount.wei) (chainId : ChainId)
    (type : FeeLedgerEntryType) : store.sum chainId type ≤ (store.insert entry).sum chainId type := by
  rw [sum_insert]
  split_ifs with h
  · exact le_add_of_nonneg_left hnonneg
  · rw [zero_add]

theorem Sound.accrue (h : Sound store) (htype : entry.type = .accrual)
    (hnonneg : 0 ≤ entry.amount.wei) {sid : SettlementId} (hsid : entry.settlementId = some sid)
    (hnew : store.accrued sid = false) : Sound (store.insert entry) where
  solvent := by
    intro chainId
    calc (store.insert entry).sum chainId .withdrawal
        = store.sum chainId .withdrawal := sum_accrue htype chainId
      _ ≤ store.sum chainId .accrual := h.solvent chainId
      _ ≤ (store.insert entry).sum chainId .accrual := le_sum_accrue hnonneg chainId .accrual
  once := by
    have hfresh : sid ∉ store.entries.filterMap (·.settlementId) := by
      intro hmem
      rcases List.mem_filterMap.1 hmem with ⟨row, hrow, hid⟩
      have hany : store.accrued sid = true := List.any_eq_true.2 ⟨row, hrow, by simpa using hid⟩
      rw [hnew] at hany
      cases hany
    rw [Store.insert, List.filterMap_cons_some hsid]
    exact List.nodup_cons.2 ⟨hfresh, h.once⟩

theorem Fits.accrue {chainId : ChainId} {amount : Amount} (h : Fits store chainId amount)
    (htype : entry.type = .accrual) (hnonneg : 0 ≤ entry.amount.wei) :
    Fits (store.insert entry) chainId amount := by
  rw [Fits, sum_accrue htype]
  exact h.trans (Int.sub_le_sub_right (le_sum_accrue hnonneg chainId .accrual) _)

/-! ### Withdrawals -/

theorem sum_withdraw (htype : entry.type = .withdrawal) (chainId : ChainId) :
    (store.insert entry).sum chainId .accrual = store.sum chainId .accrual := by
  rw [sum_insert, if_neg, zero_add]
  simp [FeeLedgerEntry.belongs, htype]

theorem sum_withdraw_of_ne {chainId : ChainId} (hne : entry.chainId ≠ chainId)
    (type : FeeLedgerEntryType) : (store.insert entry).sum chainId type = store.sum chainId type := by
  rw [sum_insert, if_neg, zero_add]
  simp [FeeLedgerEntry.belongs, hne]

theorem Sound.withdraw (h : Sound store) (htype : entry.type = .withdrawal)
    (hnone : entry.settlementId = none) (hfits : Fits store entry.chainId entry.amount) :
    Sound (store.insert entry) where
  solvent := by
    intro chainId
    rw [sum_withdraw htype]
    by_cases hchain : entry.chainId = chainId
    · subst hchain
      have hself : entry.belongs entry.chainId .withdrawal = true := by
        simp [FeeLedgerEntry.belongs, htype]
      calc (store.insert entry).sum entry.chainId .withdrawal
          = entry.amount.wei + store.sum entry.chainId .withdrawal := by rw [sum_insert, if_pos hself]
        _ ≤ store.sum entry.chainId .accrual := Int.add_le_of_le_sub_right hfits
    · rw [sum_withdraw_of_ne hchain]
      exact h.solvent chainId
  once := by
    rw [Store.insert, List.filterMap_cons_none hnone]
    exact h.once

theorem Sound.unlock (h : Sound store) (id : CallId) : Sound (store.unlock id) := ⟨h.solvent, h.once⟩

/-- A withdrawal commits: its chain stays solvent, and whoever waits under another lock is not
disturbed. -/
theorem Sound.commit (h : Sound store) {balance : FeeBalance}
    (hp : (Process.commit entry balance).Ok store id) :
    Sound ((store.insert entry).unlock id) ∧
      ∀ k (q : Process), k ≠ id → q.Ok store k → q.Ok ((store.insert entry).unlock id) k := by
  rcases hp with ⟨htype, hnone, hholds, hfits⟩
  refine ⟨(h.withdraw htype hnone hfits).unlock id, ?_⟩
  intro k q hne hq
  refine hq.frame (fun chainId hk => Holds.unlock hk hne) ?_
  intro chainId amount hk hfit
  -- on this chain the lock is with the call that commits
  have hchain : entry.chainId ≠ chainId := by
    rintro rfl
    exact hne (hk.eq hholds)
  rw [Fits, sum_unlock, sum_unlock, sum_withdraw_of_ne hchain, sum_withdraw_of_ne hchain]
  exact hfit

end Steps

/-! ## Calls -/

theorem start_store (cfg : Config) (r : Request) (store : Store) : (start cfg r store).1 = store := by
  cases r with
  | accrue settlement chainId =>
      simp only [start]
      split
      · rfl
      · split_ifs
        · rfl
        · split
          · rfl
          · split_ifs
            · rfl
            · rfl
  | balance chainId => rfl
  | withdraw dto =>
      simp only [start]
      split
      · rfl
      · split_ifs
        · rfl
        · rfl

/-- A call begins with a fee that is not negative, or without a lock. -/
theorem start_ok (cfg : Config) (r : Request) (store : Store) (id : CallId) :
    (start cfg r store).2.Awaits fun p => p.Ok store id := by
  cases r with
  | accrue settlement chainId =>
      simp only [start]
      split
      · trivial
      · rename_i fee hfee
        split_ifs
        · trivial
        · split
          · trivial
          · rename_i amount hamount
            split_ifs
            · trivial
            · exact settlement.nonneg fee hfee amount hamount
  | balance chainId => trivial
  | withdraw dto =>
      simp only [start]
      split
      · trivial
      · split_ifs
        · trivial
        · trivial

theorem withdrawals_outline (cfg : Config) :
    Outline (service cfg) Sound (fun store id p => p.Ok store id) (fun _ _ => True) where
  symm := fun _ _ _ => trivial
  start := by
    intro id r s hI
    have hstore : ((service cfg).start r s).1 = s := start_store cfg r s
    rw [hstore]
    exact ⟨hI, start_ok cfg r s id, fun k q hq => ⟨hq, Flow.awaits_of_forall (fun _ => trivial) _⟩⟩
  resume := by
    intro id p i s s' flow hI hA hresume
    suffices h : Sound s' ∧ flow.Awaits (fun q => q.Ok s' id) ∧
        ∀ k (q : Process), k ≠ id → q.Ok s k → q.Ok s' k from
      ⟨h.1, h.2.1, fun k q hk hq _ => ⟨h.2.2 k q hk hq, flow.awaits_of_forall fun _ => trivial⟩⟩
    cases resumes_of_resume hresume with
    | accrues hnew =>
        refine ⟨hI.accrue rfl hA rfl hnew, trivial, ?_⟩
        intro k q _ hq
        exact hq.frame (fun _ hk => hk) (fun _ _ _ hfits => hfits.accrue rfl hA)
    | ends _ => exact ⟨hI, trivial, fun _ _ _ hq => hq⟩
    | begun => exact ⟨hI, trivial, fun _ _ _ hq => hq⟩
    | locks hlocks =>
        refine ⟨⟨hI.solvent, hI.once⟩, Locks.holder_acquire_self hlocks, ?_⟩
        intro k q _ hq
        exact hq.frame (fun _ hk => Locks.holder_acquire hlocks hk) (fun _ _ _ hfits => hfits)
    | fits hfits => exact ⟨hI, ⟨hA, hfits⟩, fun _ _ _ hq => hq⟩
    | saves => exact ⟨hI, ⟨rfl, rfl, hA.1, hA.2⟩, fun _ _ _ hq => hq⟩
    | commits =>
        rcases hI.commit hA with ⟨hsound, hothers⟩
        exact ⟨hsound, trivial, hothers⟩
    | commitLost =>
        rcases hI.commit hA with ⟨hsound, hothers⟩
        exact ⟨hsound, trivial, hothers⟩
    | fails _ => exact ⟨hI, trivial, fun _ _ _ hq => hq⟩
    | rolledBack =>
        refine ⟨hI.unlock id, trivial, ?_⟩
        intro k q hne hq
        exact hq.frame (fun _ hk => Holds.unlock hk hne) (fun _ _ _ hfits => hfits)
  external := fun e => nomatch e

/-! ## Refused withdrawals -/

/-- The answer is a 409. -/
def Answer.isConflict : Answer → Bool
  | .error 409 _ => true
  | _ => false

/-- The call is a withdrawal. -/
def Process.withdraws : Process → Bool
  | .saveAccrual _ _ _ | .balance _ => false
  | _ => true

/-- The withdrawal is rolled back, but not with a 409. -/
def Process.broken : Process → Bool
  | .rollback a => !a.isConflict
  | _ => false

/-- A withdrawal that ends in a conflict has not committed. -/
theorem withdrawals_refuse (cfg : Config) :
    (service cfg).Refuses (fun p => p.withdraws = true) (fun p => p.broken = true)
      (fun store store' => store'.entries = store.entries) (fun a => a.isConflict = true) where
  waits := by
    intro id p i s s' flow hwithdraws hresume
    cases resumes_of_resume hresume with
    | accrues _ => cases hwithdraws
    | ends _ => exact Or.inl ⟨rfl, trivial⟩
    | commits => exact Or.inr ⟨trivial, Bool.false_ne_true⟩
    | commitLost => exact Or.inr ⟨rfl, trivial⟩
    | rolledBack => exact Or.inl ⟨rfl, trivial⟩
    | _ => exact Or.inl ⟨rfl, rfl⟩
  committed := by
    intro id p i s s' flow hbroken hresume
    cases p with
    | rollback a =>
        cases resumes_of_resume hresume with
        | ends hp => exact absurd rfl (hp a)
        | fails hp => exact absurd rfl (hp a)
        | rolledBack => exact ⟨trivial, by simpa [Process.broken, Flow.Answers] using hbroken⟩
    | _ => cases hbroken

theorem start_withdraws (cfg : Config) (dto : WithdrawFeesDto) (store : Store) :
    (start cfg (.withdraw dto) store).2.Awaits fun p => p.withdraws = true := by
  simp only [start]
  split
  · trivial
  · split_ifs
    · trivial
    · rfl

/-! ## Where the fees come from -/

/-- Under a policy that was accepted, the fee of a settlement is not negative. -/
theorem settledFee_of_priced {policy : Fees.FeePolicy} {label : String} {row : Settlement.SettlementRow}
    (hvalid : Fees.assertValidPolicy policy label = .ok ()) (h : Settlement.Priced policy row) :
    ∃ settled : SettledFee, settled.id = row.id ∧ settled.feeAmount = row.feeAmount := by
  rcases h.fee with ⟨breakdown, text, hbreakdown, hfee, htext⟩
  refine ⟨⟨row.id, row.feeAmount, ?_⟩, rfl, rfl⟩
  intro fee hmem a ha
  rw [hfee] at hmem
  cases hmem
  rw [htext] at ha
  cases ha
  exact Fees.fee_nonneg hvalid hbreakdown

/-- Whatever an attempt of `SettlementService` is about to accrue can be asked of the ledger. -/
theorem settledFee_of_accrueFee {cfg : Settlement.Config} {label : String}
    (hvalid : Fees.assertValidPolicy cfg.policy label = .ok ()) {as : List Settlement.Action}
    {s : Settlement.State} (h : run (Settlement.step cfg) as Settlement.initial = some s)
    {pid : Settlement.Pid} {caller : Settlement.Caller} {now : Settlement.Time}
    {entity : Settlement.SettlementRow}
    (hp : s.process pid = some (.attempt caller now entity .accrueFee)) :
    ∃ settled : SettledFee, settled.id = entity.id ∧ settled.feeAmount = entity.feeAmount := by
  have hbilled : Settlement.Billed cfg.policy s :=
    run_invariant (fun _ _ _ hs hstep => Settlement.step_billed hs hstep)
      (Settlement.initial_billed cfg.policy) h
  exact settledFee_of_priced hvalid (hbilled.processes pid _ hp).1.priced

/-! ## The theorem -/

/-- After any interleaving of calls, from any number of instances, the withdrawals of every chain sum
to at most its accruals, and every settlement has accrued at most once; and a withdrawal that is
answered with a 409, in whatever comes next, adds no entry.  What the attempts of the rail ask to accrue
under an accepted policy are requests of the kind that is considered here. -/
theorem withdrawals_never_exceed_accruals {cfg : Config} {moves : List (Move Request Reply Empty)}
    {c : Calls Store Process Answer}
    (h : run (service cfg).step moves (.start .empty) = some c) :
    (∀ chainId, c.store.sum chainId .withdrawal ≤ c.store.sum chainId .accrual) ∧
      (∀ sid, (c.store.entries.filter fun entry =>
        entry.type = .accrual ∧ entry.settlementId = some sid).length ≤ 1) ∧
      (∀ id dto later c' message,
        run (service cfg).step (.call id (.withdraw dto) :: later) c = some c' →
          c'.answered id = some (.error 409 message) →
            (service cfg).Along (fun m d d' => m.callId = some id → d'.store.entries = d.store.entries)
              (.call id (.withdraw dto) :: later) c) ∧
      ∀ (rail : Settlement.Config) (label : String),
        Fees.assertValidPolicy rail.policy label = .ok () →
          ∀ as s, run (Settlement.step rail) as Settlement.initial = some s →
            ∀ pid caller now entity, s.process pid = some (.attempt caller now entity .accrueFee) →
              ∃ settled : SettledFee, settled.id = entity.id ∧
                settled.feeAmount = entity.feeAmount := by
  have hempty : Sound Store.empty := ⟨fun _ => le_refl _, List.nodup_nil⟩
  have hc := ((withdrawals_outline cfg).run (Calls.Annotated.start hempty) h).store
  refine ⟨hc.solvent, ?_, ?_, ?_⟩
  · intro sid
    refine Table.length_filter_le_one_of_unique (k := sid) hc.once ?_
    intro entry hentry
    exact (of_decide_eq_true hentry).2
  · intro id dto later c' message hrun hanswer
    have hstore : ((service cfg).start (.withdraw dto) c.store).1 = c.store := start_store _ _ _
    refine (withdrawals_refuse cfg).along_call (congrArg Store.entries hstore) ?_ hrun hanswer rfl
    exact start_withdraws cfg dto c.store
  · intro rail label hvalid as s hrun pid caller now entity hp
    exact settledFee_of_accrueFee hvalid hrun hp

def sampleConfig : Config where
  chainId := 71234

/-- A fee of 1.5. -/
def sampleFee : SettledFee where
  id := 1
  feeAmount := some ['1', '.', '5']
  nonneg := by
    intro fee hfee a ha
    cases hfee
    have hparsed : amountFrom ['1', '.', '5'] = .ok ⟨1500000000000000000⟩ := rfl
    rw [hparsed] at ha
    cases ha
    decide

def sampleWithdrawal (amount : Text) : WithdrawFeesDto where
  amount := amount
  recipient := "0xB0".toList
  chainId := none
  txHash := none
  note := none

/-- One withdrawal commits while another one waits for the lock. -/
def sampleMoves : List (Move Request Reply Empty) :=
  [.call 0 (.accrue sampleFee none), .resume 0 (.inserted 100),
    .call 1 (.withdraw (sampleWithdrawal "0.4".toList)), .resume 1 .done, .resume 1 .done,
    .call 2 (.withdraw (sampleWithdrawal "1.2".toList)), .resume 2 .done,
    .resume 1 .done, .resume 1 (.inserted 101), .resume 1 .done]

/-- A third withdrawal asks for more than is left. -/
def refusedWithdrawal : List (Move Request Reply Empty) :=
  [.resume 3 .done, .resume 3 .done, .resume 3 .done, .resume 3 .done]

theorem withdrawals_never_exceed_accruals_sampleMoves :
    ∃ c c' message, run (service sampleConfig).step sampleMoves (.start .empty) = some c ∧
      run (service sampleConfig).step
        (.call 3 (.withdraw (sampleWithdrawal "1.2".toList)) :: refusedWithdrawal) c = some c' ∧
      c.store.sum 71234 .withdrawal = 400000000000000000 ∧
      c.store.sum 71234 .withdrawal ≤ c.store.sum 71234 .accrual ∧
      c'.answered 3 = some (.error 409 message) ∧
      (service sampleConfig).Along
        (fun m d d' => m.callId = some 3 → d'.store.entries = d.store.entries)
        (.call 3 (.withdraw (sampleWithdrawal "1.2".toList)) :: refusedWithdrawal) c := by
  have hreached : ((run (service sampleConfig).step sampleMoves (.start .empty)).any fun c =>
      c.store.sum 71234 .withdrawal = 400000000000000000 &&
        (run (service sampleConfig).step
          (.call 3 (.withdraw (sampleWithdrawal "1.2".toList)) :: refusedWithdrawal) c).any fun c' =>
            c'.answered 3 = some (insufficient 71234 (sampleWithdrawal "1.2".toList)
              1100000000000000000)) = true := by
    decide +kernel
  rcases (Option.any_eq_true _ _).1 hreached with ⟨c, hc, hrest⟩
  rcases Bool.and_eq_true_iff.1 hrest with ⟨hsum, hrest⟩
  rcases (Option.any_eq_true _ _).1 hrest with ⟨c', hc', hanswer⟩
  have hsafe := withdrawals_never_exceed_accruals hc
  exact ⟨c, c', _, hc, hc', of_decide_eq_true hsum, hsafe.1 71234, of_decide_eq_true hanswer,
    hsafe.2.2.1 3 _ refusedWithdrawal c' _ hc' (of_decide_eq_true hanswer)⟩

end FeeLedger
end PaymentRail
