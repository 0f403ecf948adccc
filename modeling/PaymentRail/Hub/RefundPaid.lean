import PaymentRail.Hub.PayerOnHub
import PaymentRail.Hub.SyncedRuns

/-!
# RefundPaid — the recorded refund and the refund paid

When the row of a refund is completed, its `emergencyClose` has transferred what the ledger has
neither settled nor released at that moment:

  transferred = deposit - spent on the hub = deposit - settled - released

The amount of the row is another one: what was left when the row was created, less the stream
claims, of which the hub knows nothing.
-/

namespace PaymentRail
namespace Hub

open Machine Strings Money Collections Refunds
open Escrow (SessionId TxHash Reply EscrowSession)
open Contracts (World Faithful)

/-- The wei the hub has refunded of a session. -/
def Network.refunded (net : Network) (hub : World) (sid : SessionId) : Nat :=
  ((Contracts.refunds (net.escrowIdHash sid) hub.ledger).map Prod.snd).sum

/-- A run has created the row of an escrow, with the state `created` after that step. -/
def Creates (net : Network) (cfg : Config) (r : Rail) (acts : List Act) (sid : SessionId)
    (created : Rail) : Prop :=
  ∃ before a after r₁, acts = before ++ a :: after ∧ run (net.step cfg) before r = some r₁ ∧
    r₁.store.findRefund sid = none ∧ net.step cfg a r₁ = some created ∧
      (created.store.findRefund sid).isSome = true

/-! ## Steps that write the row -/

/-- The row of an escrow is written: it is created, or the result of an attempt is saved. -/
structure Writes (net : Network) (r r' : Rail) (sid : SessionId) (refund : EscrowRefund) : Prop where
  row : r'.store.findRefund sid = some refund
  hub : r'.hub = r.hub
  escrow : r'.store.escrow = r.store.escrow
  settlements : r'.store.settlements = r.store.settlements
  mirrors : Mirrors net r.hub r.store fun _ => 0
  stage : ∃ caller stage, Holds net r.hub r.store (.refund caller sid stage) ∧
    (stage = .insert refund ∧ r.store.findRefund sid = none ∨ stage = .save refund)

section Rows

variable {net : Network} {cfg : Config} {r r' : Rail} {store store' : Store} {sid : SessionId}
  {refund : EscrowRefund} {id : CallId}

theorem saved_of_stages {stage : Stage} {reply : Reply} {next : Next}
    (h : Stages cfg store sid stage reply store' next) :
    store'.refunds = store.refunds ∨ ∃ refund, store' = store.saveRefund refund ∧
      (stage = .insert refund ∧ store.findRefund sid = none ∨ stage = .save refund) := by
  cases h with
  | inserts hrow => exact Or.inr ⟨_, rfl, Or.inl ⟨rfl, hrow⟩⟩
  | completes hstatus => exact Or.inr ⟨_, rfl, Or.inr rfl⟩
  | fails hstatus => exact Or.inr ⟨_, rfl, Or.inr rfl⟩
  | _ => exact Or.inl rfl

theorem settlements_of_continues {caller : Caller} {next : Next} {flow : Flow Process Answer}
    (h : Continues store caller sid next store' flow) : store'.settlements = store.settlements := by
  cases h with
  | _ => rfl

theorem refunds_start (request : Request) : (start request store).1.refunds = store.refunds := by
  cases request with
  | sweep server =>
      simp only [start]
      split
      · rfl
      · rfl
  | _ => rfl

theorem refunds_happens {e : Event} (h : Happens store e store') : store'.refunds = store.refunds := by
  cases h with
  | _ => rfl

/-- The row a stage saves is the one of its own escrow. -/
theorem escrowId_of_saves {caller : Caller} {stage : Stage} {hub : World}
    (h : Holds net hub store (.refund caller sid stage))
    (hstage : stage = .insert refund ∧ store.findRefund sid = none ∨ stage = .save refund) :
    refund.escrowId = sid := by
  have hfresh : stage.Fresh store sid := h.fresh
  rcases hstage with ⟨rfl, _⟩ | rfl
  · exact hfresh.1.escrowId
  · exact Store.Executes.escrowId hfresh

/-- Only a stage that saves its row changes the rows. -/
theorem writes_of_resumes {p : Process} {reply : Reply} {flow : Flow Process Answer} {calls : State}
    (hs : Synced net r.hub r.store (some p)) (h : Resumes cfg id r.store p reply store' flow)
    (hcalls : calls.store = store') (hchanged : store'.findRefund sid ≠ r.store.findRefund sid) :
    ∃ refund, Writes net r { r with calls } sid refund := by
  have hsame : store'.refunds ≠ r.store.refunds := by
    intro hrefunds
    exact hchanged (by rw [Store.findRefund, hrefunds]; rfl)
  cases h with
  | @refund caller k stage _ s _ next _ hstages hcontinues =>
      have hends := Continues.refunds hcontinues
      have hsettlements := settlements_of_continues hcontinues
      rcases saved_of_stages hstages with hrefunds | ⟨refund, rfl, hstage⟩
      · exact absurd (hends.1.trans hrefunds) hsame
      · have hholds := hs.process _ rfl
        have hid : refund.escrowId = k := escrowId_of_saves hholds hstage
        have hfind : ∀ l, store'.findRefund l = (r.store.saveRefund refund).findRefund l := by
          intro l
          rw [Store.findRefund, hends.1]
          rfl
        have hself : k = sid := by
          by_contra hne
          rw [hfind, findRefund_saveRefund_of_ne (by rw [hid]; exact hne)] at hchanged
          exact hchanged rfl
        subst hself
        subst hcalls
        exact ⟨refund, (hfind k).trans (findRefund_saveRefund_self hid), rfl, hends.2, hsettlements,
          hs.mirrors, caller, stage, hholds, hstage⟩
  | _ => exact absurd rfl hsame

theorem writes_of_acts (hr : r.Ok net) (h : Acts net cfg r r')
    (hchanged : r'.store.findRefund sid ≠ r.store.findRefund sid) :
    ∃ refund, Writes net r r' sid refund := by
  have hsame : r'.store.refunds ≠ r.store.refunds := by
    intro hrefunds
    exact hchanged (by rw [Store.findRefund, hrefunds]; rfl)
  cases h with
  | @rail m calls hallows h =>
      rcases hr.synced with ⟨q, halone, hs⟩
      cases Service.steps_of_step (guarded_eq_some.1 h).2 with
      | call id request hnew hunanswered =>
          rw [Rail.store, Calls.store_go] at hsame
          exact absurd (refunds_start request) hsame
      | resume id p reply store' flow hp hresume =>
          rcases alone_eq_some halone hp with ⟨rfl, _⟩
          rw [Rail.store, Calls.store_go] at hchanged
          exact writes_of_resumes hs (resumes_of_resume hresume) Calls.store_go hchanged
      | external e store' hexternal =>
          exact absurd (refunds_happens (happens_of_external hexternal)) hsame
  | _ => exact absurd rfl hsame

/-! ## The amounts of the row -/

theorem spent_of_same {session : EscrowSession} (hescrow : store'.escrow = store.escrow)
    (hsettlements : store'.settlements = store.settlements) :
    spent store' session = spent store session := by
  simp only [spent, Store.settled, Store.claimed, hescrow, hsettlements]

/-- A new row is computed from what is spent when it is created. -/
theorem Writes.created (h : Writes net r r' sid refund) (hnone : r.store.findRefund sid = none) :
    ∃ session, r'.store.escrow.find sid = some session ∧
      refund.spentAmount.wei = spent r'.store session := by
  rcases h.stage with ⟨caller, stage, hholds, ⟨rfl, _⟩ | rfl⟩
  · rcases hholds.knows with ⟨session, hfind, hspent⟩
    refine ⟨session, by rw [h.escrow]; exact hfind, ?_⟩
    rw [spent_of_same h.escrow h.settlements]
    exact hspent
  · -- an attempt has its row stored already
    rcases hholds.knows.1 with ⟨row, hrow, _⟩
    rw [hnone] at hrow
    cases hrow

theorem spentAmount_step {row : EscrowRefund} (hr : r.Ok net) (h : Acts net cfg r r')
    (hrow : r.store.findRefund sid = some row) :
    ∃ row', r'.store.findRefund sid = some row' ∧ row'.spentAmount = row.spentAmount := by
  by_cases hchanged : r'.store.findRefund sid = r.store.findRefund sid
  · exact ⟨row, hchanged.trans hrow, rfl⟩
  · rcases writes_of_acts hr h hchanged with ⟨refund, hwrites⟩
    refine ⟨refund, hwrites.row, ?_⟩
    rcases hwrites.stage with ⟨caller, stage, hholds, ⟨_, hnone⟩ | rfl⟩
    · rw [hrow] at hnone
      cases hnone
    · rcases hholds.knows.1 with ⟨stored, hstored, hspent⟩
      rw [hrow] at hstored
      cases hstored
      exact hspent.symm

/-- However often it is attempted, a refund keeps what it was computed from. -/
theorem spentAmount_run {acts : List Act} {row : EscrowRefund}
    (hcfg : cfg.escrow.hubConfigured = true) (hr : r.Ok net)
    (hrow : r.store.findRefund sid = some row) (h : run (net.step cfg) acts r = some r') :
    ∃ row', r'.store.findRefund sid = some row' ∧ row'.spentAmount = row.spentAmount := by
  have hstep : ∀ a d d', (d.Ok net ∧ ∃ row', d.store.findRefund sid = some row' ∧
      row'.spentAmount = row.spentAmount) → net.step cfg a d = some d' →
        d'.Ok net ∧ ∃ row', d'.store.findRefund sid = some row' ∧
          row'.spentAmount = row.spentAmount := by
    rintro a d d' ⟨hd, row₁, hrow₁, hspent₁⟩ hd'
    have hacts := acts_of_step hd'
    rcases spentAmount_step hd hacts hrow₁ with ⟨row₂, hrow₂, hspent₂⟩
    exact ⟨hd.step hcfg hacts, row₂, hrow₂, hspent₂.trans hspent₁⟩
  exact (run_invariant (P := fun d => d.Ok net ∧ ∃ row', d.store.findRefund sid = some row' ∧
    row'.spentAmount = row.spentAmount) hstep ⟨hr, row, hrow, rfl⟩ h).2

theorem refunded_of_closed_escrow {hub : World} (hfaithful : Faithful hub)
    (hclosed : Closed net hub sid) :
    (net.refunded hub sid : Int) = (net.escrow hub sid).deposit - (net.escrow hub sid).spent := by
  rcases hclosed with ⟨hopen, hinactive⟩
  have hle := (Contracts.spent_le hfaithful.legal (net.escrowIdHash sid)).1
  rw [Network.escrow, hfaithful.sessions] at hopen hinactive ⊢
  rw [Network.refunded, Contracts.refunded_of_closed hfaithful.legal hopen hinactive]
  omega

/-- When the row is completed, the hub has paid what is neither settled nor released. -/
theorem Writes.paid (hr : r.Ok net) (h : Writes net r r' sid refund)
    (hstatus : refund.status = .completed) :
    Recorded r.store sid refund ∧ ∃ session, r'.store.escrow.find sid = some session ∧
      (net.refunded r'.hub sid : Int) =
        (net.escrow r'.hub sid).deposit - (net.escrow r'.hub sid).spent ∧
      (net.refunded r'.hub sid : Int) =
        session.depositAmount.wei - r'.store.settled sid - session.releasedAmount.wei ∧
      refund.refundAmount.wei = max 0 (session.depositAmount.wei - refund.spentAmount.wei) := by
  rcases h.stage with ⟨caller, stage, hholds, ⟨rfl, _⟩ | rfl⟩
  · have hfresh : Stage.Fresh r.store sid (.insert refund) := hholds.fresh
    exact absurd hstatus hfresh.2
  · rcases hholds.knows with ⟨hrecorded, hcloses⟩
    rcases Store.Executes.session hholds.fresh with ⟨session, hcurrent, hamounts⟩
    have hclosed := hcloses hstatus
    have hpaid := refunded_of_closed_escrow hr.faithful hclosed
    have hdeposit := h.mirrors.deposit sid session hcurrent.1 hclosed.1
    have hspent := h.mirrors.spent sid session hcurrent.1
    refine ⟨hrecorded, session, by rw [h.escrow]; exact hcurrent.1, ?_, ?_, hamounts.refund⟩
    · rw [h.hub]
      exact hpaid
    · rw [h.hub, Store.settled, h.settlements, hpaid, hdeposit]
      rw [Store.settled] at hspent
      omega

end Rows

/-- When the row of a refund is completed, the hub has transferred exactly its deposit less what it
has spent, which is the deposit of the session less what the ledger has settled and released.  The
recorded amount is the deposit less what was spent when the row was created, the stream claims
included, and never below zero; so if nothing has been spent since, it is what was transferred less
the stream claims. -/
theorem recorded_refund_and_transferred {net : Network} {cfg : Config} {owner : Contracts.Address}
    {funded parent delay : Nat} {s : Contracts.State} {acts : List Act} {a : Act} {r r' : Rail}
    {sid : SessionId} {refund : EscrowRefund} (hcfg : cfg.escrow.hubConfigured = true)
    (hhub : Contracts.Reachable net.hub owner funded parent delay s)
    (h : run (net.step cfg) acts (.start s.world s.now) = some r)
    (hbefore : ¬ r.store.Completed sid) (hstep : net.step cfg a r = some r')
    (hrow : r'.store.findRefund sid = some refund) (hstatus : refund.status = .completed) :
    ∃ session created earlier, r'.store.escrow.find sid = some session ∧
      (net.refunded r'.hub sid : Int) =
        (net.escrow r'.hub sid).deposit - (net.escrow r'.hub sid).spent ∧
      (net.refunded r'.hub sid : Int) =
        session.depositAmount.wei - r'.store.settled sid - session.releasedAmount.wei ∧
      Creates net cfg (.start s.world s.now) acts sid created ∧
      created.store.escrow.find sid = some earlier ∧
      refund.refundAmount.wei = max 0 (session.depositAmount.wei - spent created.store earlier) ∧
      (spent r'.store session = spent created.store earlier →
        refund.refundAmount.wei = max 0 (net.refunded r'.hub sid - r'.store.claimed sid)) := by
  have hstart : (Rail.start s.world s.now).Ok net :=
    .start hhub.ok.worlds.1 hhub.ok.now
  have hr := hstart.run hcfg h
  have hchanged : r'.store.findRefund sid ≠ r.store.findRefund sid := by
    intro hsame
    rw [hrow] at hsame
    exact hbefore ⟨refund, hsame.symm, hstatus⟩
  rcases writes_of_acts hr (acts_of_step hstep) hchanged with ⟨saved, hwrites⟩
  obtain rfl : saved = refund := Option.some.inj (hwrites.row.symm.trans hrow)
  rcases hwrites.paid hr hstatus with ⟨⟨row, hrecorded, hspentAmount⟩, session, hfind, hhubPaid, hpaid,
    hamount⟩
  -- the row was there before, so it was created on the way
  rcases run_turns (P := fun d : Rail => (d.store.findRefund sid).isSome = true) h
    (by intro hsome; cases hsome) (by rw [hrecorded]; rfl) with
    ⟨before, b, after, r₁, created, hacts, hrun₁, hnone, hcreates, hsome, hrun₂⟩
  have hr₁ := hstart.run hcfg hrun₁
  have hnone₁ : r₁.store.findRefund sid = none := by simpa using hnone
  have hchanged₁ : created.store.findRefund sid ≠ r₁.store.findRefund sid := by
    intro hsame
    rw [hsame, hnone₁] at hsome
    cases hsome
  rcases writes_of_acts hr₁ (acts_of_step hcreates) hchanged₁ with ⟨first, hfirst⟩
  rcases hfirst.created hnone₁ with ⟨earlier, hearlier, hspent⟩
  rcases spentAmount_run hcfg (hr₁.step hcfg (acts_of_step hcreates)) hfirst.row hrun₂ with
    ⟨row', hrow', hkept⟩
  have hcomputed : saved.spentAmount.wei = spent created.store earlier := by
    rw [hrecorded] at hrow'
    cases hrow'
    rw [← hspentAmount, hkept, hspent]
  refine ⟨session, created, earlier, hfind, hhubPaid, hpaid,
    ⟨before, b, after, r₁, hacts, hrun₁, hnone₁, hcreates, hsome⟩, hearlier, ?_, ?_⟩
  · rw [← hcomputed]
    exact hamount
  · intro hsame
    have hid : session.id = sid := Escrow.Store.id_of_find hfind
    rw [hamount, hcomputed, ← hsame, spent, hid, hpaid]
    congr 1
    omega

/-! ## A session with a stream claim -/

def railConfig : Refunds.Config := { escrow := sampleConfig, sweepBatch := 20 }

/-- Session 1 of 2 is opened on the hub; 0.25 are claimed and 0.5 settled, and it is cancelled. -/
def claimedAndCancelled : List Act :=
  [.rail (.call 0 (.escrow (.open (dtoOf "0x00000000000000000000000000000000000000a1")))),
    .rail (.resume 0 .done), .rail (.resume 0 (.inserted 1)), .rail (.resume 0 (.sent 10)),
    .mine 10 1 true, .rail (.resume 0 .done),
    .rail (.call 1 (.escrow (.claim 1 ⟨scale / 4⟩))), .rail (.resume 1 .done), .rail (.resume 1 .done),
    .settle { id := 1, escrowId := 1, totalAmount := ⟨scale / 2⟩, status := .pending } 7 true,
    .rail (.call 2 (.escrow (.cancel 1))), .rail (.resume 2 .done), .rail (.resume 2 .done)]

/-- A refund whose `emergencyClose` is not sent, and one whose `emergencyClose` is mined. -/
def refundedAtLast : List Act :=
  [.rail (.call 3 (.refund 1)), .rail (.resume 3 .done), .rail (.resume 3 .done),
    .rail (.resume 3 .done), .rail (.resume 3 .done), .rail (.resume 3 .done),
    .rail (.resume 3 (.failed "nonce too low")), .rail (.resume 3 .done),
    .rail (.call 4 (.refund 1)), .rail (.resume 4 .done), .rail (.resume 4 .done),
    .rail (.resume 4 (.sent 100)), .mineClosing 100 1 true, .rail (.resume 4 .done)]

theorem recorded_refund_and_transferred_claimed :
    ∃ r r' refund session, run (sampleNetwork.step railConfig) (claimedAndCancelled ++ refundedAtLast)
        (.start hubDeployed.world hubDeployed.now) = some r ∧
      sampleNetwork.step railConfig (.rail (.resume 4 .done)) r = some r' ∧
      r'.store.findRefund 1 = some refund ∧ r'.store.escrow.find 1 = some session ∧
      r'.store.claimed 1 = (scale : Int) / 4 ∧ refund.refundAmount.wei = 5 * (scale : Int) / 4 ∧
      (sampleNetwork.refunded r'.hub 1 : Int) =
        session.depositAmount.wei - r'.store.settled 1 - session.releasedAmount.wei := by
  have hreached : ((run (sampleNetwork.step railConfig) (claimedAndCancelled ++ refundedAtLast)
      (.start hubDeployed.world hubDeployed.now)).any fun r => !decide (r.store.Completed 1) &&
        (sampleNetwork.step railConfig (.rail (.resume 4 .done)) r).any fun r' =>
          r'.store.claimed 1 = (scale : Int) / 4 && (r'.store.findRefund 1).any fun refund =>
            refund.status = .completed && refund.refundAmount.wei = 5 * (scale : Int) / 4) = true := by
    decide +kernel
  rcases (Option.any_eq_true _ _).1 hreached with ⟨r, hr, hstate⟩
  rcases Bool.and_eq_true_iff.1 hstate with ⟨hbefore, hany⟩
  rcases (Option.any_eq_true _ _).1 hany with ⟨r', hr', hstate'⟩
  rcases Bool.and_eq_true_iff.1 hstate' with ⟨hclaimed, hany'⟩
  rcases (Option.any_eq_true _ _).1 hany' with ⟨refund, hrow, hrefund⟩
  rcases Bool.and_eq_true_iff.1 hrefund with ⟨hstatus, hamount⟩
  have huncompleted : ¬ r.store.Completed 1 := by simpa using hbefore
  rcases recorded_refund_and_transferred rfl ⟨[], rfl⟩ hr huncompleted hr' hrow
    (of_decide_eq_true hstatus) with ⟨session, _, _, hfind, _, hpaid, _⟩
  exact ⟨r, r', refund, session, hr, hr', hrow, hfind, of_decide_eq_true hclaimed,
    of_decide_eq_true hamount, hpaid⟩

/-- The stream claim is subtracted in the ledger, and refunded by the hub. -/
theorem recorded_refund_ne_transferred :
    ¬ ∀ (net : Network) (cfg : Refunds.Config) (owner : Contracts.Address) (funded parent delay : Nat)
      (s : Contracts.State) (acts : List Act) (a : Act) (r r' : Rail) (sid : SessionId)
      (refund : EscrowRefund), cfg.escrow.hubConfigured = true →
        Contracts.Reachable net.hub owner funded parent delay s → s.journal.stack = [] →
        run (net.step cfg) acts (.start s.world s.now) = some r → ¬ r.store.Completed sid →
        net.step cfg a r = some r' → r'.store.findRefund sid = some refund →
        refund.status = .completed →
        (r'.store.escrow.transactions.all fun tx => tx.fate.isMined) = true →
        (r'.store.closings.all fun tx => tx.fate.isMined) = true →
          refund.refundAmount.wei = net.refunded r'.hub sid := by
  intro hclaim
  have hreached : ((run (sampleNetwork.step railConfig) (claimedAndCancelled ++ refundedAtLast)
      (.start hubDeployed.world hubDeployed.now)).any fun r => !decide (r.store.Completed 1) &&
        (sampleNetwork.step railConfig (.rail (.resume 4 .done)) r).any fun r' =>
          (r'.store.escrow.transactions.all fun tx => tx.fate.isMined) &&
            (r'.store.closings.all fun tx => tx.fate.isMined) &&
              (r'.store.findRefund 1).any fun refund => refund.status = .completed &&
                refund.refundAmount.wei ≠ (sampleNetwork.refunded r'.hub 1 : Int)) = true := by
    decide +kernel
  rcases (Option.any_eq_true _ _).1 hreached with ⟨r, hr, hstate⟩
  rcases Bool.and_eq_true_iff.1 hstate with ⟨hbefore, hany⟩
  rcases (Option.any_eq_true _ _).1 hany with ⟨r', hr', hstate'⟩
  rcases Bool.and_eq_true_iff.1 hstate' with ⟨hmined, hany'⟩
  rcases Bool.and_eq_true_iff.1 hmined with ⟨htransactions, hclosings⟩
  rcases (Option.any_eq_true _ _).1 hany' with ⟨refund, hrow, hrefund⟩
  rcases Bool.and_eq_true_iff.1 hrefund with ⟨hstatus, hne⟩
  have huncompleted : ¬ r.store.Completed 1 := by simpa using hbefore
  have hEq := hclaim sampleNetwork railConfig sampleNetwork.wallet 0 0 0 hubDeployed _ _ r r' 1 refund
    rfl ⟨[], rfl⟩ rfl hr huncompleted hr' hrow (of_decide_eq_true hstatus) htransactions hclosings
  exact absurd hEq (of_decide_eq_true hne)

end Hub
end PaymentRail
