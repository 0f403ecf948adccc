import PaymentRail.Refunds.RefundsService

/-!
# Transitions — what a step of a refund can do

The stages of a refund as a relation, one constructor for each thing that can happen.  Whether the
refund was requested or belongs to a sweep only matters at its end: then the request is answered, or
the sweep goes on with its next session (`Continues`).
-/

namespace PaymentRail
namespace Refunds

open Machine Strings Money Collections Escrow
open Settlement (Fate)

/-! ## Stages -/

/-- A refund waits again, or it returns or throws. -/
inductive Next where
  | goes (stage : Stage)
  | ends (a : Answer)

inductive Stages (cfg : Config) (store : Store) (sid : SessionId) :
    Stage → Reply → Store → Next → Prop
  | missing {message : String} (hfind : store.escrow.find sid = none) :
      Stages cfg store sid .findById .done store (.ends (.error 404 message))
  | refused {session : EscrowSession} (hfind : store.escrow.find sid = some session)
      (hstatus : refundable session.status = none) :
      Stages cfg store sid .findById .done store (.ends (notRefundable session))
  | loaded {session : EscrowSession} {reason : RefundReason}
      (hfind : store.escrow.find sid = some session)
      (hstatus : refundable session.status = some reason) :
      Stages cfg store sid .findById .done store (.goes (.findOne session reason))
  | returned {session : EscrowSession} {reason : RefundReason} {refund : EscrowRefund}
      (hrow : store.findRefund sid = some refund) (hstatus : refund.status = .completed) :
      Stages cfg store sid (.findOne session reason) .done store (.ends (.refund refund))
  | retried {session : EscrowSession} {reason : RefundReason} {refund : EscrowRefund} {now : Time}
      (hrow : store.findRefund sid = some refund) (hstatus : refund.status ≠ .completed) :
      Stages cfg store sid (.findOne session reason) .done store (.goes (execute cfg refund now))
  | creates {session : EscrowSession} {reason : RefundReason}
      (hrow : store.findRefund sid = none) :
      Stages cfg store sid (.findOne session reason) .done store (.goes (.settled session reason))
  | sumsSettled {session : EscrowSession} {reason : RefundReason} :
      Stages cfg store sid (.settled session reason) .done store
        (.goes (.claimed session reason (store.settled sid)))
  | sumsClaimed {session : EscrowSession} {reason : RefundReason} {settled : Int} :
      Stages cfg store sid (.claimed session reason settled) .done store
        (.goes (.insert (newRefund session reason
          (settled + store.claimed sid + session.releasedAmount.wei))))
  | inserts {refund : EscrowRefund} {now : Time} (hrow : store.findRefund sid = none) :
      Stages cfg store sid (.insert refund) .done (store.saveRefund refund)
        (.goes (execute cfg refund now))
  | overtaken {refund row : EscrowRefund} (hrow : store.findRefund sid = some row) :
      Stages cfg store sid (.insert refund) .done store (.goes .adopt)
  | adopts {refund : EscrowRefund} {now : Time} (hrow : store.findRefund sid = some refund) :
      Stages cfg store sid .adopt .done store (.goes (execute cfg refund now))
  | lost (hrow : store.findRefund sid = none) :
      Stages cfg store sid .adopt .done store (.ends (noRefund sid))
  | sends {refund : EscrowRefund} {hash : TxHash}
      (hnew : Table.lookup ClosingTx.hash store.closings hash = none) :
      Stages cfg store sid (.send refund) (.sent hash)
        (store.broadcast { hash, escrowId := refund.escrowId, fate := .pending })
        (.goes (.waitFor { refund with txHash := some hash } hash))
  | unsent {refund : EscrowRefund} {message : String} :
      Stages cfg store sid (.send refund) (.failed message) store
        (.goes (.save (failed refund message)))
  | mined {refund : EscrowRefund} {hash : TxHash} {now : Time}
      (hmined : (store.fateOf hash).isMined = true) :
      Stages cfg store sid (.waitFor refund hash) .done store
        (.goes (.save (completed refund now)))
  | gaveUp {refund : EscrowRefund} {hash : TxHash} {message : String} :
      Stages cfg store sid (.waitFor refund hash) (.failed message) store
        (.goes (.save (failed refund message)))
  | completes {refund : EscrowRefund} (hstatus : refund.status = .completed) :
      Stages cfg store sid (.save refund) .done (store.saveRefund refund)
        (.goes (.markRefunded refund))
  | fails {refund : EscrowRefund} (hstatus : refund.status ≠ .completed) :
      Stages cfg store sid (.save refund) .done (store.saveRefund refund)
        (.ends (.refund refund))
  | marks {refund : EscrowRefund} {now : Time} :
      Stages cfg store sid (.markRefunded refund) .done
        (store.withEscrow (store.escrow.markRefunded refund.escrowId now))
        (.ends (.refund refund))

/-- What the caller of a refund makes of it. -/
inductive Continues (store : Store) (caller : Caller) (sid : SessionId) :
    Next → Store → Flow Process Answer → Prop
  | goes {stage : Stage} :
      Continues store caller sid (.goes stage) store (.await (.refund caller sid stage))
  | answers {a : Answer} (hcaller : caller = .request) :
      Continues store caller sid (.ends a) store (.answer a)
  | next {a : Answer} {server : Nat} {next : SessionId} {rest : List SessionId}
      {result : RefundSweepResult} :
      Continues store caller sid (.ends a) store
        (.await (.refund (.sweep server rest result) next .findById))
  | swept {a : Answer} {server : Nat} {result : RefundSweepResult} :
      Continues store caller sid (.ends a) (store.endSweep server) (.answer (.swept result))

section Inversion

variable {cfg : Config} {store store' : Store} {caller : Caller} {sid : SessionId} {stage : Stage}
  {reply : Reply} {flow : Flow Process Answer}

theorem continues_finish (store : Store) (caller : Caller) (sid : SessionId) (a : Answer) :
    Continues store caller sid (.ends a) (finish store a caller).1 (finish store a caller).2 := by
  cases caller with
  | request => exact .answers rfl
  | sweep server rest result =>
      cases rest with
      | nil => exact .swept
      | cons next rest => exact .next

/-- A refund ends here. -/
theorem stages_ends {s : Store} {a : Answer} (h : Stages cfg store sid stage reply s (.ends a))
    (hEq : some (finish s a caller) = some (store', flow)) :
    ∃ s next, Stages cfg store sid stage reply s next ∧ Continues s caller sid next store' flow := by
  refine ⟨s, _, h, ?_⟩
  have hfinish := continues_finish s caller sid a
  rw [Option.some.inj hEq] at hfinish
  exact hfinish

/-- A refund goes on. -/
theorem stages_goes {s : Store} {next : Stage}
    (h : Stages cfg store sid stage reply s (.goes next))
    (hEq : some (s, Flow.await (Process.refund caller sid next)) = some (store', flow)) :
    ∃ s next, Stages cfg store sid stage reply s next ∧ Continues s caller sid next store' flow := by
  cases hEq
  exact ⟨_, _, h, .goes⟩

theorem stages_of_refundStep
    (h : refundStep cfg caller sid stage reply store = some (store', flow)) :
    ∃ s next, Stages cfg store sid stage reply s next ∧ Continues s caller sid next store' flow := by
  cases stage with
  | findById =>
      cases reply with
      | done =>
          simp only [refundStep] at h
          split at h
          · rename_i hfind
            exact stages_ends (.missing hfind) h
          · rename_i session hfind
            split at h
            · rename_i hstatus
              exact stages_ends (.refused hfind hstatus) h
            · rename_i reason hstatus
              exact stages_goes (.loaded hfind hstatus) h
      | _ => cases h
  | findOne session reason =>
      cases reply with
      | done =>
          simp only [refundStep] at h
          split at h
          · rename_i hrow
            exact stages_goes (.creates hrow) h
          · rename_i refund hrow
            split at h
            · rename_i hstatus
              exact stages_ends (.returned hrow hstatus) h
            · rename_i hstatus
              exact stages_goes (.retried hrow hstatus) h
      | _ => cases h
  | settled session reason =>
      cases reply with
      | done => exact stages_goes .sumsSettled h
      | _ => cases h
  | claimed session reason settled =>
      cases reply with
      | done => exact stages_goes .sumsClaimed h
      | _ => cases h
  | insert refund =>
      cases reply with
      | done =>
          simp only [refundStep] at h
          split at h
          · rename_i row hrow
            exact stages_goes (.overtaken hrow) h
          · rename_i hrow
            exact stages_goes (.inserts hrow) h
      | _ => cases h
  | adopt =>
      cases reply with
      | done =>
          simp only [refundStep] at h
          split at h
          · rename_i hrow
            exact stages_ends (.lost hrow) h
          · rename_i refund hrow
            exact stages_goes (.adopts hrow) h
      | _ => cases h
  | send refund =>
      cases reply with
      | sent hash =>
          simp only [refundStep] at h
          split at h
          · rename_i hnew
            exact stages_goes (.sends hnew) h
          · cases h
      | failed message => exact stages_goes .unsent h
      | _ => cases h
  | waitFor refund hash =>
      cases reply with
      | done =>
          simp only [refundStep] at h
          split at h
          · rename_i hmined
            exact stages_goes (.mined hmined) h
          · cases h
      | failed message => exact stages_goes .gaveUp h
      | _ => cases h
  | save refund =>
      cases reply with
      | done =>
          simp only [refundStep] at h
          split at h
          · rename_i hstatus
            exact stages_goes (.completes hstatus) h
          · rename_i hstatus
            exact stages_ends (.fails hstatus) h
      | _ => cases h
  | markRefunded refund =>
      cases reply with
      | done => exact stages_ends .marks h
      | _ => cases h

end Inversion

/-! ## All steps of a call -/

inductive Resumes (cfg : Config) (id : CallId) (store : Store) :
    Process → Reply → Store → Flow Process Answer → Prop
  | escrow {p : Escrow.Process} {reply : Reply} {escrow : Escrow.Store}
      {flow : Flow Escrow.Process Escrow.Answer}
      (h : Escrow.Resumes cfg.escrow id store.escrow p reply escrow flow) :
      Resumes cfg id store (.escrow p) reply (store.withEscrow escrow) (lift flow)
  | refund {caller : Caller} {sid : SessionId} {stage : Stage} {reply : Reply} {s store' : Store}
      {next : Next} {flow : Flow Process Answer} (h : Stages cfg store sid stage reply s next)
      (hcaller : Continues s caller sid next store' flow) :
      Resumes cfg id store (.refund caller sid stage) reply store' flow
  | expires {server : Nat} {now : Time} {expired : Nat} :
      Resumes cfg id store (.expireDue server now) .done
        (store.withEscrow (store.escrow.expireDue now)) (.await (.findAwaitingRefund server expired))
  | sweeps {server expired : Nat} {next : SessionId} {rest : List SessionId}
      {result : RefundSweepResult} :
      Resumes cfg id store (.findAwaitingRefund server expired) .done store
        (.await (.refund (.sweep server rest result) next .findById))
  | swept {server expired : Nat} {result : RefundSweepResult} :
      Resumes cfg id store (.findAwaitingRefund server expired) .done (store.endSweep server)
        (.answer (.swept result))

theorem resumes_of_resume {cfg : Config} {id : CallId} {store store' : Store} {p : Process}
    {reply : Reply} {flow : Flow Process Answer}
    (h : resume cfg id p reply store = some (store', flow)) :
    Resumes cfg id store p reply store' flow := by
  cases p with
  | escrow p =>
      rcases Option.map_eq_some_iff.1 h with ⟨next, hresume, hnext⟩
      cases hnext
      exact .escrow (Escrow.resumes_of_resume hresume)
  | refund caller sid stage =>
      rcases stages_of_refundStep h with ⟨s, next, hstages, hcontinues⟩
      exact .refund hstages hcontinues
  | expireDue server now =>
      cases reply with
      | done =>
          cases h
          exact .expires
      | _ => cases h
  | findAwaitingRefund server expired =>
      cases reply with
      | done =>
          simp only [resume] at h
          cases hpending : (store.escrow.findAwaitingRefund cfg.sweepBatch).map (·.id) with
          | nil =>
              rw [hpending] at h
              cases h
              exact .swept
          | cons next rest =>
              rw [hpending] at h
              cases h
              exact .sweeps
      | _ => cases h

/-! ## Events -/

inductive Happens (store : Store) : Event → Store → Prop
  | escrow {e : Escrow.Event} {escrow : Escrow.Store}
      (hmark : ∀ sid refundedAt, e ≠ .markRefunded sid refundedAt)
      (h : Escrow.Happens store.escrow e escrow) :
      Happens store (.escrow e) (store.withEscrow escrow)
  | settlement {row : SettlementRow} : Happens store (.settlement row) (store.saveSettlement row)
  | closing {hash : TxHash} {fate : Fate} {tx : ClosingTx}
      (hlookup : Table.lookup ClosingTx.hash store.closings hash = some tx)
      (hbecomes : tx.fate.canBecome fate = true)
      (honce : ¬ (fate.isMined = true ∧ store.closedBy tx = true)) :
      Happens store (.closing hash fate) (store.broadcast { tx with fate })

theorem happens_of_external {e : Event} {store store' : Store}
    (h : external e store = some store') : Happens store e store' := by
  cases e with
  | escrow e =>
      have hmark : ∀ sid refundedAt, e ≠ .markRefunded sid refundedAt := by
        intro sid refundedAt hEq
        rw [hEq] at h
        cases h
      have hexternal : (Escrow.external e store.escrow).map store.withEscrow = some store' := by
        cases e with
        | markRefunded sid refundedAt => exact absurd rfl (hmark sid refundedAt)
        | _ => exact h
      rcases Option.map_eq_some_iff.1 hexternal with ⟨escrow, hescrow, rfl⟩
      exact .escrow hmark (Escrow.happens_of_external hescrow)
  | settlement row =>
      cases h
      exact .settlement
  | closing hash fate =>
      simp only [external] at h
      split at h
      · cases h
      · rename_i tx hlookup
        split at h
        · rename_i hok
          cases h
          exact .closing hlookup hok.1 hok.2
        · cases h

end Refunds
end PaymentRail
