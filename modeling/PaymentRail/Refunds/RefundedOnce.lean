import PaymentRail.Escrow.ReleaseBounds
import PaymentRail.Refunds.RefundCompleted

/-!
# RefundedOnce — an escrow is refunded at most once, for at most what is left

Two endpoints refund an escrow.  `RefundsService.refund` computes what is left once, when it creates
its row; `refundUnused` subtracts the stream claims only, and does not know of the rows of the first.
So a refund issues no more than what is left if, at the moment it is issued,

* for a row: what was spent is still what the row was computed from;
* for `refundUnused`: nothing was settled or released, and no row has been completed;

or if its amount is zero anyway (`refundsCovered`).  Here the calls come one after the other
(`oneByOne`).
-/

namespace PaymentRail
namespace Refunds

open Machine Strings Money Collections Escrow
open Settlement (Fate)

/-! ## The statement -/

/-- What is left of the deposit, never below zero. -/
def Store.left (store : Store) (sid : SessionId) : Int :=
  match store.escrow.find sid with
  | none => 0
  | some session =>
      max 0 (session.depositAmount.wei -
        (store.settled sid + store.claimed sid + session.releasedAmount.wei))

/-- The amount of the refund row of an escrow, once it is completed. -/
def Store.completedAmount (store : Store) (sid : SessionId) : Int :=
  match store.findRefund sid with
  | none => 0
  | some refund => if refund.status = .completed then refund.refundAmount.wei else 0

/-- The result of a `refundUnused` of the escrow. -/
def Answer.refunded? (sid : SessionId) : Answer → Option RefundResult
  | .escrow (.refunded result) => if result.escrowId = sid then some result else none
  | _ => none

def RefundResult.wei (result : RefundResult) : Int :=
  match amountFrom result.refundAmount with
  | .ok amount => amount.wei
  | .error _ => 0

def Answer.refundedWei (sid : SessionId) (a : Answer) : Int :=
  ((a.refunded? sid).map RefundResult.wei).getD 0

/-- What both endpoints have issued for an escrow. -/
def issued (c : State) (sid : SessionId) : Int :=
  c.store.completedAmount sid + (c.answers.map fun entry => entry.2.refundedWei sid).sum

/-- A refund has been issued, if only of zero. -/
def Issued (sid : SessionId) (c : State) : Prop :=
  c.store.Completed sid ∨ ∃ entry ∈ c.answers, (entry.2.refunded? sid).isSome = true

instance (store : Store) (sid : SessionId) : Decidable (store.Completed sid) :=
  decidable_of_iff ((store.findRefund sid).any (fun refund => refund.status = .completed) = true) <| by
    simp [Store.Completed, Option.any_eq_true]

instance (sid : SessionId) (c : State) : Decidable (Issued sid c) :=
  inferInstanceAs (Decidable (_ ∨ _))

/-- One operation after the other; in the middle of one only the chain and the clock move. -/
def oneByOne : Move Request Reply Event → State → Bool
  | .call _ _, c => c.processes.isEmpty
  | .external (.settlement _), c => c.processes.isEmpty
  | .external (.escrow (.expireDue _)), c => c.processes.isEmpty
  | _, _ => true

def refundsCovered : Move Request Reply Event → State → Bool
  | .resume id _, c =>
      match c.process id with
      | some (.escrow (.saveSession (.refundUnused _) loaded _)) =>
          loaded.depositAmount.wei ≤ c.store.claimed loaded.id ||
            (c.store.settled loaded.id = 0 && loaded.releasedAmount.wei = 0 &&
              (c.store.findRefund loaded.id).all fun refund => refund.status ≠ .completed)
      | some (.refund _ sid (.save refund)) =>
          refund.status ≠ .completed || refund.depositAmount.wei ≤ refund.spentAmount.wei ||
            (c.store.escrow.find sid).any fun session => refund.spentAmount.wei =
              c.store.settled sid + c.store.claimed sid + session.releasedAmount.wei
      | _ => true
  | _, _ => true

def oneByOneStep (cfg : Config) :
    Move Request Reply Event → State → Option State :=
  guarded (fun m c => oneByOne m c = true) (service cfg).step

def coveredStep (cfg : Config) :
    Move Request Reply Event → State → Option State :=
  guarded (fun m c => refundsCovered m c = true) (oneByOneStep cfg)

/-! ## What the call under way knows -/

/-- The amounts of a refund row are those of the session. -/
structure EscrowRefund.Amounts (refund : EscrowRefund) (session : EscrowSession) : Prop where
  deposit : refund.depositAmount = session.depositAmount
  refund : refund.refundAmount.wei = max 0 (session.depositAmount.wei - refund.spentAmount.wei)

/-- The session was loaded as it is stored, and may be refunded. -/
def Store.Current (store : Store) (sid : SessionId) (session : EscrowSession) : Prop :=
  store.escrow.find sid = some session ∧ (refundable session.status).isSome = true

structure Store.Executes (store : Store) (sid : SessionId) (refund : EscrowRefund) : Prop where
  escrowId : refund.escrowId = sid
  session : ∃ session, store.Current sid session ∧ EscrowRefund.Amounts refund session
  uncompleted : ¬ store.Completed sid

def Stage.Fresh (store : Store) (sid : SessionId) : Stage → Prop
  | .findById => True
  | .findOne session _ => store.Current sid session
  | .settled session _ => store.Current sid session ∧ ¬ store.Completed sid
  | .claimed session _ _ => store.Current sid session ∧ ¬ store.Completed sid
  | .insert refund => store.Executes sid refund ∧ refund.status ≠ .completed
  | .adopt => (∃ session, store.Current sid session) ∧ ¬ store.Completed sid
  | .send refund => store.Executes sid refund
  | .waitFor refund _ => store.Executes sid refund
  | .save refund => store.Executes sid refund
  | .markRefunded refund => refund.escrowId = sid

/-- The result was computed from the session and the claims as they are. -/
structure RefundResult.Of (result : RefundResult) (store : Store) (session : EscrowSession) :
    Prop where
  escrowId : result.escrowId = session.id
  wei : RefundResult.wei result = max (session.depositAmount.wei - store.claimed session.id) 0
  unclosed : session.status ≠ .closed

def Process.Fresh (store : Store) : Process → Prop
  | .escrow (.findClaims session _) =>
      store.escrow.find session.id = some session ∧ session.status ≠ .closed
  | .escrow (.findById (.refundUnused result) sid) =>
      ∃ session, store.escrow.find sid = some session ∧ RefundResult.Of result store session
  | .escrow (.saveSession op loaded _) =>
      store.escrow.find loaded.id = some loaded ∧ (op = .cancel → loaded.status = .open) ∧
        ∀ result, op = .refundUnused result → RefundResult.Of result store loaded
  | .refund _ sid stage => stage.Fresh store sid
  | _ => True

/-- The rows have the amounts of their sessions. -/
def Store.RowsOk (store : Store) : Prop :=
  ∀ sid refund, store.findRefund sid = some refund →
    ∃ session, store.escrow.find sid = some session ∧ EscrowRefund.Amounts refund session

/-- No further refund of the escrow will be issued: its row is completed, or it is closed. -/
def Store.Final (store : Store) (sid : SessionId) : Prop :=
  store.Completed sid ∨ ∃ session, store.escrow.find sid = some session ∧ session.status = .closed

/-! ## Calls on the session -/

section Sessions

variable {cfg : Config} {id : CallId} {store : Store} {escrow escrow' : Escrow.Store}
  {p : Escrow.Process} {reply : Reply} {flow : Flow Escrow.Process Escrow.Answer}

/-- The deposit does not change, and a closed session stays closed. -/
structure EscrowSession.KeepsTerms (session session' : EscrowSession) : Prop where
  depositAmount : session'.depositAmount = session.depositAmount
  closed : session.status = .closed → session'.status = .closed

def KeepsSessions (escrow escrow' : Escrow.Store) : Prop :=
  ∀ sid session, escrow.find sid = some session →
    ∃ session', escrow'.find sid = some session' ∧ EscrowSession.KeepsTerms session session'

theorem EscrowSession.KeepsTerms.refl (session : EscrowSession) :
    EscrowSession.KeepsTerms session session :=
  ⟨rfl, fun hclosed => hclosed⟩

theorem KeepsSessions.of_same (h : escrow'.sessions = escrow.sessions) :
    KeepsSessions escrow escrow' :=
  Table.Evolves.of_eq EscrowSession.KeepsTerms.refl h

theorem keepsTerms_expire (now : Time) (session : EscrowSession) :
    EscrowSession.KeepsTerms session (session.expire now) := by
  rcases Escrow.Store.expire_cases now session with hsame | ⟨hopen, hexpired⟩
  · rw [hsame]
    exact .refl session
  · rw [hexpired]
    refine ⟨rfl, ?_⟩
    intro hclosed
    rw [hopen] at hclosed
    cases hclosed

theorem keepsSessions_expireDue (now : Time) : KeepsSessions escrow (escrow.expireDue now) :=
  Table.Evolves.map (Escrow.Store.id_expire now) (keepsTerms_expire now)

theorem keepsTerms_refundedRow (sid : SessionId) (now : Time) (session : EscrowSession) :
    EscrowSession.KeepsTerms session (Escrow.Store.refundedRow sid now session) := by
  rcases Escrow.Store.refundedRow_cases sid now session with ⟨_, hsame⟩ | ⟨_, hmarked⟩
  · rw [hsame]
    exact .refl session
  · rw [hmarked]
    exact ⟨rfl, fun hclosed => hclosed⟩

theorem keepsSessions_markRefunded (sid : SessionId) (now : Time) :
    KeepsSessions escrow (escrow.markRefunded sid now) :=
  Table.Evolves.map (Escrow.Store.id_refundedRow now) (keepsTerms_refundedRow sid now)

theorem keepsSessions_of_resumes (h : Escrow.Resumes cfg.escrow id store.escrow p reply escrow' flow)
    (hfresh : (Process.escrow p).Fresh store) : KeepsSessions store.escrow escrow' := by
  refine h.evolves EscrowSession.KeepsTerms.refl ?_ fun _ _ _ => ⟨rfl, fun hclosed => hclosed⟩
  rintro op loaded closedAt rfl session hfind
  have hEq : loaded = session := Option.some.inj (hfresh.1.symm.trans hfind)
  rw [← hEq]
  refine ⟨rfl, ?_⟩
  intro hclosed
  cases op with
  | cancel =>
      rw [hfresh.2.1 rfl] at hclosed
      cases hclosed
  | _ => rfl

/-! ### What `refundUnused` knows -/

theorem refundOf_of {session : EscrowSession} {reason : Option String}
    (hunclosed : session.status ≠ .closed) :
    RefundResult.Of (refundOf session (store.escrow.claimsOf session.id) reason) store session := by
  refine ⟨rfl, ?_, hunclosed⟩
  have hwei : (session.depositAmount.minusFloored (Amount.sum
      ((store.escrow.claimsOf session.id).map (·.usageDelta)))).wei =
        max (session.depositAmount.wei - store.claimed session.id) 0 := by
    rw [Amount.wei_minusFloored, Amount.sum_eq, Store.claimed, List.map_map]
    rfl
  rw [RefundResult.wei, refundOf, Amount.amountFrom_toPlain]
  exact hwei

theorem fresh_of_waits {q : Escrow.Process} (h : Escrow.Waits cfg.escrow store.escrow p reply q)
    (hfresh : (Process.escrow p).Fresh store) : (Process.escrow q).Fresh store := by
  cases h with
  | @loaded op sid session hfind hcancel =>
      have hid : session.id = sid := Escrow.Store.id_of_find hfind
      refine ⟨by rw [hid]; exact hfind, hcancel, ?_⟩
      rintro result rfl
      rcases hfresh with ⟨session', hfind', hof⟩
      rw [hfind] at hfind'
      cases hfind'
      exact hof
  | @unclosed sid session reason hfind hstatus =>
      have hid : session.id = sid := Escrow.Store.id_of_find hfind
      exact ⟨by rw [hid]; exact hfind, hstatus⟩
  | @summed session reason => exact ⟨session, hfresh.1, refundOf_of hfresh.2⟩
  | _ => trivial

/-- After a step that has written something, a call knows nothing that matters here. -/
theorem fresh_of_resumes (h : Escrow.Resumes cfg.escrow id store.escrow p reply escrow' flow)
    (hfresh : (Process.escrow p).Fresh store) :
    (lift flow).Awaits (Process.Fresh (store.withEscrow escrow')) := by
  have hlift : ∀ flow : Flow Escrow.Process Escrow.Answer,
      flow.Awaits (fun q => (Process.escrow q).Fresh (store.withEscrow escrow')) →
        (lift flow).Awaits (Process.Fresh (store.withEscrow escrow')) := by
    intro flow hflow
    cases flow with
    | await q => exact hflow
    | answer a => trivial
  refine hlift flow ?_
  cases h with
  | waits h => exact fresh_of_waits h hfresh
  | inserts hnew => exact afterOpen_awaits (fun _ _ _ => trivial) _ _
  | commits hnew => exact afterOpen_awaits (fun _ _ _ => trivial) _ _
  | saves => exact afterSave_awaits (fun _ _ _ => trivial) _ _ _ _
  | insertsRelease hnew =>
      exact afterInsert_of (A := fun q => (Process.escrow q).Fresh _) trivial trivial cfg.escrow
  | _ => trivial

/-! ### What a call on a session answers -/

theorem refusal_ne_refunded (session : EscrowSession) (dto : ReleaseEscrowDto) (result : RefundResult) :
    refusal session dto ≠ .refunded result := by
  intro h
  simp only [refusal] at h
  split at h
  · cases h
  · split at h
    · cases h
    · cases h

theorem ends_ne_refunded {a : Escrow.Answer} {result : RefundResult}
    (h : Escrow.Ends store.escrow p reply a) : a ≠ .refunded result := by
  cases h with
  | refusal hfind => exact refusal_ne_refunded _ _ _
  | _ => exact fun hEq => by cases hEq

/-- Only `refundUnused` answers with a refund: the one it has computed. -/
theorem refunded_of_resumes {result : RefundResult}
    (h : Escrow.Resumes cfg.escrow id store.escrow p reply escrow' flow)
    (hflow : flow = .answer (.refunded result)) :
    ∃ computed loaded closedAt, p = .saveSession (.refundUnused computed) loaded closedAt ∧
      result.escrowId = computed.escrowId ∧ result.refundAmount = computed.refundAmount := by
  cases h with
  | ends h =>
      cases hflow
      exact absurd rfl (ends_ne_refunded h)
  | inserts hnew =>
      simp only [afterOpen] at hflow
      split at hflow
      · cases hflow
      · cases hflow
  | commits hnew =>
      simp only [afterOpen] at hflow
      split at hflow
      · cases hflow
      · cases hflow
  | @saves op loaded closedAt =>
      cases op with
      | refundUnused computed =>
          cases hflow
          exact ⟨computed, loaded, closedAt, rfl, rfl, rfl⟩
      | close =>
          simp only [afterSave] at hflow
          split at hflow
          · cases hflow
          · cases hflow
      | _ => cases hflow
  | _ => cases hflow

theorem start_ne_refunded {r : Escrow.Request} {result : RefundResult} :
    (Escrow.start r escrow).2 ≠ .answer (.refunded result) := by
  intro h
  cases r with
  | release sid dto =>
      simp only [Escrow.start] at h
      split at h
      · cases h
      · split at h
        · cases h
        · split at h
          · cases h
          · cases h
  | claim sid usageDelta =>
      simp only [Escrow.start] at h
      split at h
      · cases h
      · cases h
  | _ => cases h

end Sessions

/-! ## Refunds -/

section Stages

variable {cfg : Config} {store s : Store} {sid k : SessionId} {stage : Stage} {reply : Reply}
  {next : Next} {refund : EscrowRefund}

theorem completedAmount_congr {store' : Store} (h : store'.findRefund sid = store.findRefund sid) :
    store'.completedAmount sid = store.completedAmount sid := by
  rw [Store.completedAmount, Store.completedAmount, h]

theorem findRefund_congr {store' : Store} (hrefunds : store'.refunds = store.refunds)
    (sid : SessionId) : store'.findRefund sid = store.findRefund sid := by
  rw [Store.findRefund, Store.findRefund, hrefunds]

/-- What is final stays so: a completed row is not changed, and a closed session stays closed. -/
theorem Store.Final.keeps {store' : Store} (h : store.Final sid)
    (hcompleted : store'.Completed sid ↔ store.Completed sid)
    (hkeeps : KeepsSessions store.escrow store'.escrow) : store'.Final sid := by
  rcases h with hdone | ⟨session, hfind, hclosed⟩
  · exact Or.inl (hcompleted.2 hdone)
  · rcases hkeeps sid session hfind with ⟨session', hfind', hterms⟩
    exact Or.inr ⟨session', hfind', hterms.closed hclosed⟩

theorem completedAmount_eq_zero (h : ¬ store.Completed sid) : store.completedAmount sid = 0 := by
  rw [Store.completedAmount]
  cases hrow : store.findRefund sid with
  | none => rfl
  | some refund =>
      have hstatus : refund.status ≠ .completed := fun hcompleted => h ⟨refund, hrow, hcompleted⟩
      simp [hstatus]

theorem Store.Executes.of_amounts {refund' : EscrowRefund} (h : store.Executes sid refund)
    (hescrowId : refund'.escrowId = refund.escrowId)
    (hdeposit : refund'.depositAmount = refund.depositAmount)
    (hspent : refund'.spentAmount = refund.spentAmount)
    (hrefund : refund'.refundAmount = refund.refundAmount) : store.Executes sid refund' := by
  rcases h.session with ⟨session, hcurrent, hamounts⟩
  refine ⟨hescrowId.trans h.escrowId, ⟨session, hcurrent, hdeposit.trans hamounts.deposit, ?_⟩,
    h.uncompleted⟩
  rw [hrefund, hspent, hamounts.refund]

theorem execute_fresh {now : Time} (h : store.Executes sid refund) :
    (execute cfg refund now).Fresh store sid := by
  by_cases hhub : cfg.escrow.hubConfigured = true
  · simp only [execute, hhub, if_true]
    exact h
  · simp only [execute, hhub]
    exact h.of_amounts rfl rfl rfl rfl

/-- A stored row is executed for the session that is stored. -/
theorem executes_of_row {session : EscrowSession} (hrows : store.RowsOk)
    (hcurrent : store.Current sid session) (hrow : store.findRefund sid = some refund)
    (huncompleted : ¬ store.Completed sid) : store.Executes sid refund := by
  rcases hrows sid refund hrow with ⟨session', hfind, hamounts⟩
  rw [hcurrent.1] at hfind
  cases hfind
  exact ⟨escrowId_of_findRefund hrow, ⟨session, hcurrent, hamounts⟩, huncompleted⟩

theorem newRefund_amounts (session : EscrowSession) (reason : RefundReason) (spent : Int) :
    EscrowRefund.Amounts (newRefund session reason spent) session := by
  refine ⟨rfl, ?_⟩
  simp only [newRefund]
  split
  · rename_i hlt
    rw [max_eq_left (by omega)]
  · rename_i hle
    rw [max_eq_right (by omega)]

theorem not_completed_of_row (hrow : store.findRefund sid = some refund)
    (hstatus : refund.status ≠ .completed) : ¬ store.Completed sid := by
  rintro ⟨row, hrow', hcompleted⟩
  rw [hrow] at hrow'
  cases hrow'
  exact hstatus hcompleted

theorem not_completed_of_none (hrow : store.findRefund sid = none) : ¬ store.Completed sid := by
  rintro ⟨row, hrow', _⟩
  rw [hrow] at hrow'
  cases hrow'

theorem Stages.fresh {stage' : Stage} (h : Stages cfg store sid stage reply s (.goes stage'))
    (hfresh : stage.Fresh store sid) (hrows : store.RowsOk) : stage'.Fresh s sid := by
  cases h with
  | loaded hfind hstatus => exact ⟨hfind, by rw [hstatus]; rfl⟩
  | retried hrow hstatus =>
      exact execute_fresh (executes_of_row hrows hfresh hrow (not_completed_of_row hrow hstatus))
  | creates hrow => exact ⟨hfresh, not_completed_of_none hrow⟩
  | sumsSettled => exact hfresh
  | @sumsClaimed session reason settled =>
      refine ⟨⟨Escrow.Store.id_of_find hfresh.1.1, ?_, hfresh.2⟩, by simp [newRefund]⟩
      exact ⟨session, hfresh.1, newRefund_amounts session reason _⟩
  | @inserts refund now hrow =>
      refine execute_fresh ⟨hfresh.1.escrowId, hfresh.1.session, ?_⟩
      exact not_completed_of_row (findRefund_saveRefund_self hfresh.1.escrowId) hfresh.2
  | overtaken hrow =>
      rcases hfresh.1.session with ⟨session, hcurrent, _⟩
      exact ⟨⟨session, hcurrent⟩, hfresh.1.uncompleted⟩
  | adopts hrow =>
      rcases hfresh.1 with ⟨session, hcurrent⟩
      exact execute_fresh (executes_of_row hrows hcurrent hrow hfresh.2)
  | @sends refund hash hnew =>
      have hsent : store.Executes sid { refund with txHash := some hash } :=
        Store.Executes.of_amounts hfresh rfl rfl rfl rfl
      exact ⟨hsent.escrowId, hsent.session, hsent.uncompleted⟩
  | unsent => exact Store.Executes.of_amounts hfresh rfl rfl rfl rfl
  | mined hmined => exact Store.Executes.of_amounts hfresh rfl rfl rfl rfl
  | gaveUp => exact Store.Executes.of_amounts hfresh rfl rfl rfl rfl
  | completes hstatus => exact Store.Executes.escrowId hfresh

theorem Store.RowsOk.keeps {store' : Store} (h : store.RowsOk)
    (hrefunds : store'.refunds = store.refunds)
    (hkeeps : KeepsSessions store.escrow store'.escrow) : store'.RowsOk := by
  intro k refund hrow
  rw [Store.findRefund, hrefunds] at hrow
  rcases h k refund hrow with ⟨session, hfind, hamounts⟩
  rcases hkeeps k session hfind with ⟨session', hfind', hterms⟩
  refine ⟨session', hfind', hamounts.deposit.trans hterms.depositAmount.symm, ?_⟩
  rw [hterms.depositAmount]
  exact hamounts.refund

theorem rowsOk_saveRefund (h : store.RowsOk) (hexecutes : store.Executes sid refund) :
    (store.saveRefund refund).RowsOk := by
  intro k row hrow
  by_cases hk : refund.escrowId = k
  · rw [findRefund_saveRefund_self hk] at hrow
    cases hrow
    rcases hexecutes.session with ⟨session, hcurrent, hamounts⟩
    refine ⟨session, ?_, hamounts⟩
    rw [← hk, hexecutes.escrowId]
    exact hcurrent.1
  · rw [findRefund_saveRefund_of_ne hk] at hrow
    exact h k row hrow

theorem Stages.rowsOk (h : Stages cfg store sid stage reply s next)
    (hfresh : stage.Fresh store sid) (hrows : store.RowsOk) : s.RowsOk := by
  cases h with
  | inserts hrow => exact rowsOk_saveRefund hrows hfresh.1
  | completes hstatus => exact rowsOk_saveRefund hrows hfresh
  | fails hstatus => exact rowsOk_saveRefund hrows hfresh
  | marks => exact hrows.keeps rfl (keepsSessions_markRefunded _ _)
  | _ => exact hrows

theorem Stages.keepsSessions (h : Stages cfg store sid stage reply s next) :
    KeepsSessions store.escrow s.escrow := by
  cases h with
  | marks => exact keepsSessions_markRefunded _ _
  | _ => exact .of_same rfl

/-- A row that is saved and not completed has not been completed before, so nothing was issued. -/
theorem completed_saveRefund (hexecutes : store.Executes sid refund)
    (hstatus : refund.status ≠ .completed) :
    (∀ k, (store.saveRefund refund).Completed k ↔ store.Completed k) ∧
      ∀ k, (store.saveRefund refund).completedAmount k = store.completedAmount k := by
  have hself : ¬ (store.saveRefund refund).Completed sid :=
    not_completed_of_row (findRefund_saveRefund_self hexecutes.escrowId) hstatus
  refine ⟨?_, ?_⟩
  · intro k
    by_cases hk : refund.escrowId = k
    · rw [← hk, hexecutes.escrowId]
      exact iff_of_false hself hexecutes.uncompleted
    · exact completed_congr (findRefund_saveRefund_of_ne hk)
  · intro k
    by_cases hk : refund.escrowId = k
    · rw [← hk, hexecutes.escrowId, completedAmount_eq_zero hself,
        completedAmount_eq_zero hexecutes.uncompleted]
    · exact completedAmount_congr (findRefund_saveRefund_of_ne hk)

end Stages

/-! ## What a step issues -/

/-- The answer a flow gives, if it gives one, is not a refund of the escrow. -/
def quietly (sid : SessionId) (flow : Flow Process Answer) : Prop :=
  flow.Answers fun a => a.refunded? sid = none

/-- A step issues nothing for an escrow; or it completes its row, for at most what is left and for
the first time; or it answers with the result of a `refundUnused`, which closes the session. -/
inductive Issues (sid : SessionId) (store store' : Store) (flow : Flow Process Answer) : Prop
  | nothing (hcompleted : store'.Completed sid ↔ store.Completed sid)
      (hamount : store'.completedAmount sid = store.completedAmount sid) (hflow : quietly sid flow)
  | row (hbefore : ¬ store.Final sid) (hafter : store'.Completed sid)
      (hamount : store'.completedAmount sid ≤ store.left sid) (hflow : quietly sid flow)
  | unused {result : RefundResult} (hflow : flow = .answer (.escrow (.refunded result)))
      (hsid : result.escrowId = sid) (hrefunds : store'.refunds = store.refunds)
      (hagain : store.Final sid → RefundResult.wei result = 0)
      (hfirst : ¬ store.Completed sid → RefundResult.wei result ≤ store.left sid)
      (hclosed : ∃ session, store'.escrow.find sid = some session ∧ session.status = .closed)

section Issues

variable {cfg : Config} {id : CallId} {store store' s : Store} {sid k : SessionId} {stage : Stage}
  {reply : Reply} {next : Next} {caller : Caller} {flow : Flow Process Answer} {c : State}

theorem Issues.of_same (hrefunds : store'.refunds = store.refunds) (hflow : quietly sid flow) :
    Issues sid store store' flow := by
  have hrow := findRefund_congr hrefunds sid
  exact .nothing (completed_congr hrow) (completedAmount_congr hrow) hflow

/-- A refund does not answer as `refundUnused` does. -/
theorem Continues.quietly (h : Continues s caller sid next store' flow)
    (hstages : Stages cfg store sid stage reply s next) (k : SessionId) :
    Refunds.quietly k flow := by
  cases h with
  | answers hcaller =>
      cases hstages with
      | _ => rfl
  | swept => rfl
  | _ => trivial

theorem Continues.refunds (h : Continues s caller sid next store' flow) :
    store'.refunds = s.refunds ∧ store'.escrow = s.escrow := by
  cases h with
  | _ => exact ⟨rfl, rfl⟩

theorem Current.not_final {session : EscrowSession} (hcurrent : store.Current sid session)
    (huncompleted : ¬ store.Completed sid) : ¬ store.Final sid := by
  rintro (hcompleted | ⟨session', hfind, hclosed⟩)
  · exact huncompleted hcompleted
  · rw [hcurrent.1] at hfind
    cases hfind
    have hstatus := hcurrent.2
    rw [hclosed] at hstatus
    cases hstatus

/-- The row of an escrow is completed for what is left, if what was spent is what it was computed
from. -/
theorem refundAmount_le_left {refund : EscrowRefund} (hexecutes : store.Executes sid refund)
    (hcovered : refund.depositAmount.wei ≤ refund.spentAmount.wei ∨
      ∃ session, store.escrow.find sid = some session ∧ refund.spentAmount.wei =
        store.settled sid + store.claimed sid + session.releasedAmount.wei) :
    refund.refundAmount.wei ≤ store.left sid := by
  rcases hexecutes.session with ⟨session, hcurrent, hamounts⟩
  rw [Store.left, hcurrent.1, hamounts.refund]
  rcases hcovered with hspent | ⟨session', hfind, hspent⟩
  · rw [hamounts.deposit] at hspent
    rw [max_eq_left (by omega)]
    exact le_max_left _ _
  · rw [hcurrent.1] at hfind
    cases hfind
    rw [hspent]

theorem Stages.issues (h : Stages cfg store sid stage reply s next)
    (hfresh : stage.Fresh store sid) (hcontinues : Continues s caller sid next store' flow)
    (hcovered : ∀ refund, stage = .save refund → refund.status = .completed →
      refund.depositAmount.wei ≤ refund.spentAmount.wei ∨
        ∃ session, store.escrow.find sid = some session ∧ refund.spentAmount.wei =
          store.settled sid + store.claimed sid + session.releasedAmount.wei)
    (k : SessionId) : Issues k store store' flow := by
  have hquiet := hcontinues.quietly h k
  -- the call goes on without touching the rows
  have hsame := findRefund_congr hcontinues.refunds.1 k
  have hcompleted : store'.Completed k ↔ s.Completed k := completed_congr hsame
  have hamount : store'.completedAmount k = s.completedAmount k := completedAmount_congr hsame
  cases h with
  | inserts hrow =>
      have hsaved := completed_saveRefund hfresh.1 hfresh.2
      exact .nothing (hcompleted.trans (hsaved.1 k)) (hamount.trans (hsaved.2 k)) hquiet
  | fails hstatus =>
      have hsaved := completed_saveRefund hfresh hstatus
      exact .nothing (hcompleted.trans (hsaved.1 k)) (hamount.trans (hsaved.2 k)) hquiet
  | @completes refund hstatus =>
      have hexecutes : store.Executes sid refund := hfresh
      by_cases hk : refund.escrowId = k
      · obtain rfl : sid = k := hexecutes.escrowId.symm.trans hk
        rcases hexecutes.session with ⟨session, hcurrent, _⟩
        have hrow : (store.saveRefund refund).findRefund sid = some refund :=
          findRefund_saveRefund_self hk
        refine .row (Current.not_final hcurrent hexecutes.uncompleted)
          (hcompleted.2 ⟨refund, hrow, hstatus⟩) ?_ hquiet
        rw [hamount, Store.completedAmount, hrow]
        simp only [hstatus, if_true]
        exact refundAmount_le_left hexecutes (hcovered refund rfl hstatus)
      · -- the row of another escrow
        have hother : (store.saveRefund refund).findRefund k = store.findRefund k :=
          findRefund_saveRefund_of_ne hk
        exact .nothing (hcompleted.trans (completed_congr hother))
          (hamount.trans (completedAmount_congr hother)) hquiet
  | _ => exact .nothing hcompleted hamount hquiet

theorem refunded?_eq_some {a : Answer} {result : RefundResult} (h : a.refunded? k = some result) :
    a = .escrow (.refunded result) ∧ result.escrowId = k := by
  cases a with
  | escrow a =>
      cases a with
      | refunded result' =>
          simp only [Answer.refunded?] at h
          split at h
          · rename_i hid
            cases h
            exact ⟨rfl, hid⟩
          · cases h
      | _ => cases h
  | _ => cases h

/-- A call on a session issues a refund only as `refundUnused`. -/
theorem escrow_issues {p : Escrow.Process} {escrow : Escrow.Store}
    {flow : Flow Escrow.Process Escrow.Answer}
    (h : Escrow.Resumes cfg.escrow id store.escrow p reply escrow flow)
    (hfresh : (Process.escrow p).Fresh store)
    (hcovered : ∀ result loaded closedAt, p = .saveSession (.refundUnused result) loaded closedAt →
      loaded.depositAmount.wei ≤ store.claimed loaded.id ∨
        (store.settled loaded.id = 0 ∧ loaded.releasedAmount.wei = 0 ∧ ¬ store.Completed loaded.id))
    (k : SessionId) : Issues k store (store.withEscrow escrow) (lift flow) := by
  cases hflow : flow with
  | await q => exact .of_same rfl trivial
  | answer a =>
      cases hrefunded : (Answer.escrow a).refunded? k with
      | none => exact .of_same rfl hrefunded
      | some result =>
          rcases refunded?_eq_some hrefunded with ⟨hEq, hid⟩
          cases hEq
          rcases refunded_of_resumes h hflow with ⟨computed, loaded, closedAt, rfl, hescrow, hamount⟩
          rcases hfresh with ⟨hfind, _, hof⟩
          have hof := hof computed rfl
          obtain rfl : loaded.id = k := by rw [← hof.escrowId, ← hescrow, hid]
          have hwei : RefundResult.wei result =
              max (loaded.depositAmount.wei - store.claimed loaded.id) 0 := by
            rw [← hof.wei, RefundResult.wei, RefundResult.wei, hamount]
          have hcovered := hcovered computed loaded closedAt rfl
          refine .unused rfl hid rfl ?_ ?_ ?_
          · -- after a refund either nothing is left, or the session is closed and no refund is computed
            rintro (hcompleted | ⟨session, hfind', hclosed⟩)
            · rcases hcovered with hle | ⟨_, _, huncompleted⟩
              · rw [hwei, max_eq_right (by omega)]
              · exact absurd hcompleted huncompleted
            · rw [hfind] at hfind'
              cases hfind'
              exact absurd hclosed hof.unclosed
          · intro _
            rw [hwei, Store.left, hfind]
            rcases hcovered with hle | ⟨hsettled, hreleased, _⟩
            · rw [max_eq_right (by omega)]
              exact le_max_left _ _
            · simp only [hsettled, hreleased, zero_add, add_zero]
              rw [max_comm]
          · subst hflow
            cases h with
            | saves => exact ⟨_, Escrow.Store.find_save_self, rfl⟩
            | ends h => cases h

end Issues

/-! ## The invariant -/

structure OneByOne (c : State) : Prop where
  annotated : c.Annotated Store.RowsOk (fun store _ p => p.Fresh store) (fun _ _ => False)
  waiting : ∀ id p, c.process id = some p → c.answered id = none
  final : ∀ sid, Issued sid c → c.store.Final sid

/-- What a step from `c` to `c'` issues for an escrow. -/
structure Covered (sid : SessionId) (c c' : State) : Prop where
  again : Issued sid c → Issued sid c' ∧ issued c' sid = issued c sid
  first : ¬ Issued sid c → Issued sid c' → issued c' sid ≤ c.store.left sid

section Invariant

variable {cfg : Config} {c c' : State} {id : CallId} {store' : Store} {sid : SessionId}
  {flow : Flow Process Answer}

theorem refundedWei_of_none {a : Answer} (h : a.refunded? sid = none) : a.refundedWei sid = 0 := by
  rw [Answer.refundedWei, h]
  rfl

theorem issued_eq_zero (h : ¬ Issued sid c) : issued c sid = 0 := by
  rw [issued, completedAmount_eq_zero fun hcompleted => h (Or.inl hcompleted), zero_add]
  refine List.sum_eq_zero ?_
  intro x hx
  rcases List.mem_map.1 hx with ⟨entry, hentry, rfl⟩
  refine refundedWei_of_none ?_
  by_contra hne
  exact h (Or.inr ⟨entry, hentry, Option.isSome_iff_ne_none.2 hne⟩)

/-- The answers of a step that issues nothing do not count. -/
theorem quietly_answers (hunanswered : c.answered id = none) (hflow : quietly sid flow) :
    ((c.go id store' flow).answers.map fun entry => entry.2.refundedWei sid).sum =
        (c.answers.map fun entry => entry.2.refundedWei sid).sum ∧
      ((∃ entry ∈ (c.go id store' flow).answers, (entry.2.refunded? sid).isSome = true) ↔
        ∃ entry ∈ c.answers, (entry.2.refunded? sid).isSome = true) := by
  cases flow with
  | await p => exact ⟨rfl, Iff.rfl⟩
  | answer a =>
      have hnone : a.refunded? sid = none := hflow
      rw [Calls.answers_go hunanswered]
      refine ⟨by simp [refundedWei_of_none hnone], ?_⟩
      simp [hnone]

theorem Issues.covered (h : Issues sid c.store store' flow) (hc : OneByOne c)
    (hunanswered : c.answered id = none) : Covered sid c (c.go id store' flow) := by
  cases h with
  | nothing hcompleted hamount hflow =>
      have hissued : Issued sid (c.go id store' flow) ↔ Issued sid c := by
        rw [Issued, Issued, Calls.store_go, hcompleted, (quietly_answers hunanswered hflow).2]
      refine ⟨fun hold => ⟨hissued.2 hold, ?_⟩, fun hold hnew => absurd (hissued.1 hnew) hold⟩
      rw [issued, issued, Calls.store_go, hamount, (quietly_answers hunanswered hflow).1]
  | row hbefore hafter hamount hflow =>
      -- what has been issued before makes the escrow final, and no row of a final one is completed
      refine ⟨fun hold => absurd (hc.final sid hold) hbefore, ?_⟩
      intro hold _
      have htotal := issued_eq_zero hold
      rw [issued, completedAmount_eq_zero fun hcompleted => hold (Or.inl hcompleted), zero_add]
        at htotal
      rw [issued, (quietly_answers hunanswered hflow).1, htotal, add_zero, Calls.store_go]
      exact hamount
  | @unused result hflow hsid hrefunds hagain hfirst hclosed =>
      subst hflow
      -- the answer adds its amount to what the earlier ones have issued
      have hwei : (Answer.escrow (.refunded result)).refundedWei sid = RefundResult.wei result := by
        simp [Answer.refundedWei, Answer.refunded?, hsid]
      have htotal : issued (c.go id store' (.answer (.escrow (.refunded result)))) sid =
          issued c sid + RefundResult.wei result := by
        rw [issued, issued, Calls.answers_go hunanswered, List.map_cons, List.sum_cons, hwei,
          Calls.store_go, completedAmount_congr (findRefund_congr hrefunds sid)]
        omega
      refine ⟨fun hold => ⟨Or.inr ⟨(id, .escrow (.refunded result)), ?_, ?_⟩, ?_⟩, ?_⟩
      · rw [Calls.answers_go hunanswered]
        exact List.mem_cons_self
      · simp [Answer.refunded?, hsid]
      · rw [htotal, hagain (hc.final sid hold), add_zero]
      · intro hold _
        rw [htotal, issued_eq_zero hold, zero_add]
        exact hfirst fun hcompleted => hold (Or.inl hcompleted)

/-- After a step that has issued a refund of the escrow, no further one follows. -/
theorem Issues.final (h : Issues sid c.store store' flow) (hc : OneByOne c)
    (hunanswered : c.answered id = none) (hkeeps : KeepsSessions c.store.escrow store'.escrow)
    (hissued : Issued sid (c.go id store' flow)) : store'.Final sid := by
  cases h with
  | nothing hcompleted hamount hflow =>
      have hold : Issued sid c := by
        rw [Issued, Calls.store_go, hcompleted, (quietly_answers hunanswered hflow).2] at hissued
        exact hissued
      exact (hc.final sid hold).keeps hcompleted hkeeps
  | row hbefore hafter hamount hflow => exact Or.inl hafter
  | unused hflow hsid hrefunds hagain hfirst hclosed => exact Or.inr hclosed

/-- The call `id`, the only one, goes on. -/
theorem OneByOne.go (hc : OneByOne c) (halone : ∀ k q, k ≠ id → c.process k ≠ some q)
    (hunanswered : c.answered id = none) (hrows : store'.RowsOk)
    (hfresh : flow.Awaits (Process.Fresh store'))
    (hkeeps : KeepsSessions c.store.escrow store'.escrow)
    (hissues : ∀ sid, Issues sid c.store store' flow) :
    OneByOne (c.go id store' flow) ∧ ∀ sid, Covered sid c (c.go id store' flow) := by
  refine ⟨⟨?_, ?_, ?_⟩, fun sid => (hissues sid).covered hc hunanswered⟩
  · exact hc.annotated.go (fun _ _ hfalse => hfalse) hrows hfresh
      fun k q hk hq => absurd hq (halone k q hk)
  · intro k q hq
    by_cases hk : id = k
    · subst hk
      rw [Calls.process_go_self.1 hq]
      exact hunanswered
    · rw [Calls.process_go_of_ne hk] at hq
      exact absurd hq (halone k q (Ne.symm hk))
  · intro sid hissued
    rw [Calls.store_go]
    exact (hissues sid).final hc hunanswered hkeeps hissued

/-- Nothing that a call under way knows is changed in the middle of it. -/
theorem OneByOne.external (hc : OneByOne c) (hrefunds : store'.refunds = c.store.refunds)
    (hkeeps : KeepsSessions c.store.escrow store'.escrow)
    (hfresh : ∀ id p, c.process id = some p → p.Fresh store') :
    OneByOne { c with store := store' } ∧ ∀ sid, Covered sid c { c with store := store' } := by
  have hrow := findRefund_congr hrefunds
  have hcompleted : ∀ sid, store'.Completed sid ↔ c.store.Completed sid :=
    fun sid => completed_congr (hrow sid)
  have hissued : ∀ sid, Issued sid { c with store := store' } ↔ Issued sid c := by
    intro sid
    rw [Issued, Issued, hcompleted]
  refine ⟨⟨⟨hc.annotated.store.keeps hrefunds hkeeps, hfresh, hc.annotated.apart⟩, hc.waiting, ?_⟩, ?_⟩
  · intro sid hnew
    exact (hc.final sid ((hissued sid).1 hnew)).keeps (hcompleted sid) hkeeps
  · intro sid
    refine ⟨fun hold => ⟨(hissued sid).2 hold, ?_⟩, fun hold hnew => absurd ((hissued sid).1 hnew) hold⟩
    rw [issued, issued, completedAmount_congr (hrow sid)]

/-! ### Every step -/

theorem refundsCovered_save {caller : Caller} {refund : EscrowRefund} {reply : Reply}
    (h : refundsCovered (.resume id reply) c = true)
    (hp : c.process id = some (.refund caller sid (.save refund))) (hstatus : refund.status = .completed) :
    refund.depositAmount.wei ≤ refund.spentAmount.wei ∨
      ∃ session, c.store.escrow.find sid = some session ∧ refund.spentAmount.wei =
        c.store.settled sid + c.store.claimed sid + session.releasedAmount.wei := by
  simp only [refundsCovered, hp] at h
  rcases Bool.or_eq_true_iff.1 h with h | h
  · rcases Bool.or_eq_true_iff.1 h with h | h
    · exact absurd hstatus (of_decide_eq_true h)
    · exact Or.inl (of_decide_eq_true h)
  · rcases (Option.any_eq_true _ _).1 h with ⟨session, hfind, hspent⟩
    exact Or.inr ⟨session, hfind, of_decide_eq_true hspent⟩

theorem refundsCovered_unused {result : RefundResult} {loaded : EscrowSession} {closedAt : Time}
    {reply : Reply} (h : refundsCovered (.resume id reply) c = true)
    (hp : c.process id = some (.escrow (.saveSession (.refundUnused result) loaded closedAt))) :
    loaded.depositAmount.wei ≤ c.store.claimed loaded.id ∨
      (c.store.settled loaded.id = 0 ∧ loaded.releasedAmount.wei = 0 ∧
        ¬ c.store.Completed loaded.id) := by
  simp only [refundsCovered, hp] at h
  rcases Bool.or_eq_true_iff.1 h with h | h
  · exact Or.inl (of_decide_eq_true h)
  · rcases Bool.and_eq_true_iff.1 h with ⟨h, hrow⟩
    rcases Bool.and_eq_true_iff.1 h with ⟨hsettled, hreleased⟩
    refine Or.inr ⟨of_decide_eq_true hsettled, of_decide_eq_true hreleased, ?_⟩
    rintro ⟨refund, hfind, hcompleted⟩
    rw [hfind] at hrow
    exact of_decide_eq_true hrow hcompleted

theorem no_process_of_isEmpty (h : c.processes.isEmpty = true) (k : CallId) (q : Process) :
    c.process k ≠ some q := by
  intro hq
  rw [Calls.process, List.isEmpty_iff.1 h] at hq
  cases hq

/-- The first wait of a call. -/
theorem OneByOne.call {r : Request} (hc : OneByOne c) (hempty : c.processes.isEmpty = true)
    (hunanswered : c.answered id = none) :
    OneByOne (c.go id (start r c.store).1 (start r c.store).2) ∧
      ∀ sid, Covered sid c (c.go id (start r c.store).1 (start r c.store).2) := by
  have halone : ∀ k q, k ≠ id → c.process k ≠ some q :=
    fun k q _ => no_process_of_isEmpty hempty k q
  cases r with
  | escrow r =>
      have hstore : (start (.escrow r) c.store).1 = c.store.withEscrow c.store.escrow := by
        simp only [start]
        rw [start_store]
      rw [hstore]
      refine hc.go halone hunanswered hc.annotated.store ?_ (.of_same rfl) ?_
      · cases hflow : (Escrow.start r c.store.escrow).2 with
        | await p =>
            simp only [start, hflow]
            cases starts_of_start hflow with
            | _ => trivial
        | answer a =>
            simp only [start, hflow]
            trivial
      · intro sid
        refine .of_same rfl ?_
        cases hflow : (Escrow.start r c.store.escrow).2 with
        | await p =>
            simp only [start, hflow]
            trivial
        | answer a =>
            simp only [start, hflow]
            cases hrefunded : (Answer.escrow a).refunded? sid with
            | none => exact hrefunded
            | some result =>
                cases (refunded?_eq_some hrefunded).1
                exact absurd hflow start_ne_refunded
  | refund sid =>
      exact hc.go halone hunanswered hc.annotated.store trivial (.of_same rfl)
        fun _ => .of_same rfl trivial
  | sweep server =>
      -- a server that is sweeping already answers at once
      by_cases hsweeping : server ∈ c.store.sweeping
      · simp only [start, hsweeping, if_true]
        exact hc.go halone hunanswered hc.annotated.store trivial (.of_same rfl)
          fun _ => .of_same rfl rfl
      · simp only [start, hsweeping, if_false]
        have hrefunds : (c.store.setSweeping server).refunds = c.store.refunds := rfl
        exact hc.go halone hunanswered (hc.annotated.store.keeps hrefunds (.of_same rfl)) trivial
          (.of_same rfl) fun _ => .of_same hrefunds trivial

theorem OneByOne.resume {p : Process} {reply : Reply} (hc : OneByOne c)
    (hp : c.process id = some p) (h : Resumes cfg id c.store p reply store' flow)
    (hcovered : refundsCovered (.resume id reply) c = true) :
    OneByOne (c.go id store' flow) ∧ ∀ sid, Covered sid c (c.go id store' flow) := by
  have halone : ∀ k q, k ≠ id → c.process k ≠ some q :=
    fun k q hk hq => hc.annotated.apart k id q p hk hq hp
  have hunanswered := hc.waiting id p hp
  have hfresh := hc.annotated.process id p hp
  cases h with
  | escrow h =>
      have hkeeps := keepsSessions_of_resumes h hfresh
      refine hc.go halone hunanswered (hc.annotated.store.keeps rfl hkeeps)
        (fresh_of_resumes h hfresh) hkeeps (escrow_issues h hfresh ?_)
      rintro result loaded closedAt rfl
      exact refundsCovered_unused hcovered hp
  | refund h hcontinues =>
      have hkeeps : KeepsSessions c.store.escrow store'.escrow := by
        rw [hcontinues.refunds.2]
        exact h.keepsSessions
      have hrows := (h.rowsOk hfresh hc.annotated.store).keeps hcontinues.refunds.1
        (.of_same (by rw [hcontinues.refunds.2]))
      refine hc.go halone hunanswered hrows ?_ hkeeps (h.issues hfresh hcontinues ?_)
      · cases hcontinues with
        | goes => exact h.fresh hfresh hc.annotated.store
        | _ => trivial
      · rintro refund rfl hstatus
        exact refundsCovered_save hcovered hp hstatus
  | expires =>
      exact hc.go halone hunanswered (hc.annotated.store.keeps rfl (keepsSessions_expireDue _)) trivial
        (keepsSessions_expireDue _) fun _ => .of_same rfl trivial
  | sweeps =>
      exact hc.go halone hunanswered hc.annotated.store trivial (.of_same rfl)
        fun _ => .of_same rfl trivial
  | @swept server expired result =>
      have hrefunds : (c.store.endSweep server).refunds = c.store.refunds := rfl
      exact hc.go halone hunanswered (hc.annotated.store.keeps hrefunds (.of_same rfl)) trivial
        (.of_same rfl) fun _ => .of_same hrefunds rfl

theorem Stage.Fresh.of_same {store : Store} {stage : Stage} (h : stage.Fresh store sid)
    (hfind : ∀ k, store'.escrow.find k = store.escrow.find k)
    (hrefunds : store'.refunds = store.refunds) : stage.Fresh store' sid := by
  have hcurrent : ∀ session, store.Current sid session → store'.Current sid session := by
    intro session hsession
    exact ⟨(hfind sid).trans hsession.1, hsession.2⟩
  have huncompleted : ¬ store.Completed sid → ¬ store'.Completed sid :=
    (not_congr (completed_congr (findRefund_congr hrefunds sid))).2
  have hexecutes : ∀ refund, store.Executes sid refund → store'.Executes sid refund := by
    intro refund hrefund
    rcases hrefund.session with ⟨session, hsession, hamounts⟩
    exact ⟨hrefund.escrowId, ⟨session, hcurrent session hsession, hamounts⟩,
      huncompleted hrefund.uncompleted⟩
  cases stage with
  | findById => trivial
  | findOne session reason => exact hcurrent session h
  | settled session reason => exact ⟨hcurrent session h.1, huncompleted h.2⟩
  | claimed session reason settled => exact ⟨hcurrent session h.1, huncompleted h.2⟩
  | insert refund => exact ⟨hexecutes refund h.1, h.2⟩
  | adopt =>
      rcases h.1 with ⟨session, hsession⟩
      exact ⟨⟨session, hcurrent session hsession⟩, huncompleted h.2⟩
  | send refund => exact hexecutes refund h
  | waitFor refund hash => exact hexecutes refund h
  | save refund => exact hexecutes refund h
  | markRefunded refund => exact h

theorem Process.Fresh.of_same {store : Store} {p : Process} (h : p.Fresh store)
    (hfind : ∀ k, store'.escrow.find k = store.escrow.find k)
    (hclaims : store'.escrow.claims = store.escrow.claims)
    (hrefunds : store'.refunds = store.refunds) : p.Fresh store' := by
  have hof : ∀ result session, RefundResult.Of result store session →
      RefundResult.Of result store' session := by
    intro result session hresult
    refine ⟨hresult.escrowId, ?_, hresult.unclosed⟩
    rw [hresult.wei, Store.claimed, Store.claimed, Escrow.Store.claimsOf, Escrow.Store.claimsOf,
      hclaims]
  cases p with
  | refund caller sid stage => exact Stage.Fresh.of_same h hfind hrefunds
  | escrow p =>
      cases p with
      | findClaims session reason => exact ⟨(hfind _).trans h.1, h.2⟩
      | findById op sid =>
          cases op with
          | refundUnused result =>
              rcases h with ⟨session, hsession, hresult⟩
              exact ⟨session, (hfind sid).trans hsession, hof result session hresult⟩
          | _ => trivial
      | saveSession op loaded closedAt =>
          exact ⟨(hfind _).trans h.1, h.2.1, fun result hop => hof result loaded (h.2.2 result hop)⟩
      | _ => trivial
  | _ => trivial

theorem OneByOne.happens {e : Event} (hc : OneByOne c) (h : Happens c.store e store')
    (hone : oneByOne (.external e) c = true) :
    OneByOne { c with store := store' } ∧ ∀ sid, Covered sid c { c with store := store' } := by
  cases h with
  | escrow hmark h =>
      cases h with
      | expireDue now =>
          exact hc.external rfl (keepsSessions_expireDue now)
            fun id p hp => absurd hp (no_process_of_isEmpty hone id p)
      | markRefunded k refundedAt => exact absurd rfl (hmark k refundedAt)
      | _ =>
          refine hc.external rfl (.of_same rfl) fun id p hp => ?_
          exact (hc.annotated.process id p hp).of_same (fun _ => rfl) rfl rfl
  | @settlement row =>
      have hrefunds : (c.store.saveSettlement row).refunds = c.store.refunds := rfl
      exact hc.external hrefunds (.of_same rfl)
        fun id p hp => absurd hp (no_process_of_isEmpty hone id p)
  | @closing hash fate tx hlookup hbecomes honce =>
      have hrefunds : (c.store.broadcast { tx with fate }).refunds = c.store.refunds := rfl
      exact hc.external hrefunds (.of_same rfl)
        fun id p hp => (hc.annotated.process id p hp).of_same (fun _ => rfl) rfl rfl

theorem OneByOne.step (hc : OneByOne c) {m : Move Request Reply Event}
    (h : coveredStep cfg m c = some c') : OneByOne c' ∧ ∀ sid, Covered sid c c' := by
  rcases guarded_eq_some.1 h with ⟨hcovered, h⟩
  rcases guarded_eq_some.1 h with ⟨hone, h⟩
  cases Service.steps_of_step h with
  | call id r hnew hunanswered => exact hc.call hone hunanswered
  | resume id p i store' flow hp hresume =>
      exact hc.resume hp (resumes_of_resume hresume) hcovered
  | external e store' hexternal => exact hc.happens (happens_of_external hexternal) hone

theorem OneByOne.initial : OneByOne (.start .empty) := by
  refine ⟨.start ?_, fun _ _ _ => rfl, ?_⟩
  · intro sid refund hrow
    cases hrow
  · rintro sid (⟨refund, hrow, _⟩ | ⟨entry, hentry, _⟩)
    · cases hrow
    · cases hentry

theorem OneByOne.run {moves : List (Move Request Reply Event)} (hc : OneByOne c)
    (h : run (coveredStep cfg) moves c = some c') : OneByOne c' :=
  run_invariant (fun _ _ _ hd hd' => (hd.step hd').1) hc h

/-- Once a refund has been issued, nothing is added. -/
theorem OneByOne.run_issued {moves : List (Move Request Reply Event)} (hc : OneByOne c)
    (hissued : Issued sid c) (h : Machine.run (coveredStep cfg) moves c = some c') :
    issued c' sid = issued c sid := by
  have hstep : ∀ m d d', (OneByOne d ∧ Issued sid d ∧ issued d sid = issued c sid) →
      coveredStep cfg m d = some d' →
        OneByOne d' ∧ Issued sid d' ∧ issued d' sid = issued c sid := by
    rintro m d d' ⟨hd, hold, htotal⟩ hd'
    have hnext := hd.step hd'
    have hagain := (hnext.2 sid).again hold
    exact ⟨hnext.1, hagain.1, hagain.2.trans htotal⟩
  exact (run_invariant (P := fun d => OneByOne d ∧ Issued sid d ∧ issued d sid = issued c sid) hstep
    ⟨hc, hissued, rfl⟩ h).2.2

end Invariant

/-- In every sequence of operations whose refunds meet `refundsCovered`, what both endpoints issue
for an escrow, from its first refund on, is never more than what was left before that refund. -/
theorem refunded_at_most_what_is_left {cfg : Config} {moves later : List (Move Request Reply Event)}
    {c first c' : State} {m : Move Request Reply Event} {sid : SessionId}
    (h : run (coveredStep cfg) moves (.start .empty) = some c) (hnone : ¬ Issued sid c)
    (hfirst : coveredStep cfg m c = some first) (hissued : Issued sid first)
    (hlater : run (coveredStep cfg) later first = some c') :
    issued c' sid ≤ c.store.left sid := by
  have hc := OneByOne.initial.run h
  have hstep := hc.step hfirst
  rw [hstep.1.run_issued hissued hlater]
  exact (hstep.2 sid).first hnone hissued

/-- Session 1 of 2 is opened; 0.5 are settled, 0.25 claimed, and the session is cancelled. -/
def spentAndCancelled : List (Move Request Reply Event) :=
  [.call 0 (.escrow (.open sampleDto)), .resume 0 .done, .resume 0 (.inserted 1),
    .resume 0 (.failed "timeout"),
    .external (.settlement
      { id := 1, escrowId := 1, totalAmount := ⟨scale / 2⟩, status := .settled }),
    .call 1 (.escrow (.claim 1 ⟨scale / 4⟩)), .resume 1 .done, .resume 1 .done,
    .call 2 (.escrow (.cancel 1)), .resume 2 .done, .resume 2 .done]

/-- A refund of it up to its `emergencyClose`, which is mined. -/
def refundMined : List (Move Request Reply Event) :=
  [.call 3 (.refund 1), .resume 3 .done, .resume 3 .done, .resume 3 .done, .resume 3 .done,
    .resume 3 .done, .resume 3 (.sent 100), .external (.closing 100 (.mined 1)), .resume 3 .done]

def refundedAgain : List (Move Request Reply Event) :=
  [.resume 3 .done, .call 4 (.refund 1), .resume 4 .done, .resume 4 .done]

theorem refunded_at_most_what_is_left_spentAndCancelled :
    ∃ c first c', run (coveredStep sampleConfig) (spentAndCancelled ++ refundMined) (.start .empty) =
        some c ∧ ¬ Issued 1 c ∧ coveredStep sampleConfig (.resume 3 .done) c = some first ∧
      Issued 1 first ∧ run (coveredStep sampleConfig) refundedAgain first = some c' ∧
      c.store.left 1 = (scale : Int) * 5 / 4 ∧ issued c' 1 ≤ c.store.left 1 := by
  have hreached : ((run (coveredStep sampleConfig) (spentAndCancelled ++ refundMined)
      (.start .empty)).any fun c => !decide (Issued 1 c) &&
        c.store.left 1 = (scale : Int) * 5 / 4 &&
          (coveredStep sampleConfig (.resume 3 .done) c).any fun first => decide (Issued 1 first) &&
            (run (coveredStep sampleConfig) refundedAgain first).isSome) = true := by
    decide +kernel
  rcases (Option.any_eq_true _ _).1 hreached with ⟨c, hc, hstate⟩
  rcases Bool.and_eq_true_iff.1 hstate with ⟨hbefore, hany⟩
  rcases Bool.and_eq_true_iff.1 hbefore with ⟨hnot, hleft⟩
  rcases (Option.any_eq_true _ _).1 hany with ⟨first, hfirst, hstate'⟩
  rcases Bool.and_eq_true_iff.1 hstate' with ⟨hissued, hsome⟩
  rcases Option.isSome_iff_exists.1 hsome with ⟨c', hc'⟩
  have hnone : ¬ Issued 1 c := by simpa using hnot
  have hissued' : Issued 1 first := of_decide_eq_true hissued
  exact ⟨c, first, c', hc, hnone, hfirst, hissued', hc', of_decide_eq_true hleft,
    refunded_at_most_what_is_left hc hnone hfirst hissued' hc'⟩

/-- The session is not closed by its refund, so it is refunded again. -/
def refundedUnused : List (Move Request Reply Event) :=
  [.resume 3 .done, .call 4 (.escrow (.refundUnused 1 none)), .resume 4 .done, .resume 4 .done,
    .resume 4 .done, .resume 4 .done]

theorem refunded_more_than_what_is_left :
    ¬ ∀ (cfg : Config) (moves later : List (Move Request Reply Event)) (c first c' : State)
      (m : Move Request Reply Event) (sid : SessionId),
      run (oneByOneStep cfg) moves (.start .empty) = some c → ¬ Issued sid c →
        oneByOneStep cfg m c = some first → Issued sid first →
          run (oneByOneStep cfg) later first = some c' → issued c' sid ≤ c.store.left sid := by
  intro hclaim
  have hreached : ((run (oneByOneStep sampleConfig) (spentAndCancelled ++ refundMined)
      (.start .empty)).any fun c => !decide (Issued 1 c) &&
        (oneByOneStep sampleConfig (.resume 3 .done) c).any fun first => decide (Issued 1 first) &&
          (run (oneByOneStep sampleConfig) refundedUnused first).any fun c' =>
            decide (c.store.left 1 < issued c' 1)) = true := by
    decide +kernel
  rcases (Option.any_eq_true _ _).1 hreached with ⟨c, hc, hstate⟩
  rcases Bool.and_eq_true_iff.1 hstate with ⟨hnot, hany⟩
  rcases (Option.any_eq_true _ _).1 hany with ⟨first, hfirst, hstate'⟩
  rcases Bool.and_eq_true_iff.1 hstate' with ⟨hissued, hany'⟩
  rcases (Option.any_eq_true _ _).1 hany' with ⟨c', hc', hmore⟩
  have hnone : ¬ Issued 1 c := by simpa using hnot
  have hle := hclaim sampleConfig _ refundedUnused c first c' (.resume 3 .done) 1 hc hnone hfirst
    (of_decide_eq_true hissued) hc'
  have hlt : c.store.left 1 < issued c' 1 := of_decide_eq_true hmore
  omega

end Refunds
end PaymentRail
