import PaymentRail.Hub.RailOnHub

/-!
# Mirror — the ledger of the rail and the sessions of the hub

For every session the hub has spent what the ledger has settled and released, up to the reservation
of a release that is not paid out yet:

  spent on the hub + reserved = settled + released

Stream claims are on neither side of the equation: the rail only records them.  What the call under
way knows of the hub (`Knows`) and of its reservation (`Reserves`) goes with it.
-/

namespace PaymentRail
namespace Hub

open Machine Strings Money Collections Refunds
open Escrow (SessionId TxHash Reply EscrowSession HubCall SessionsBounded)
open Settlement (Fate)
open Contracts (World transact Faithful)

/-! ## The equation -/

structure Mirrors (net : Network) (hub : World) (store : Store) (reserved : SessionId → Int) :
    Prop where
  /-- No two sessions share a hash. -/
  apart : ∀ k l, (store.escrow.find k).isSome = true → (store.escrow.find l).isSome = true →
    net.escrowIdHash k = net.escrowIdHash l → k = l
  unsettled : ∀ sid, store.escrow.find sid = none → store.settled sid = 0
  spent : ∀ sid session, store.escrow.find sid = some session →
    ((net.escrow hub sid).spent : Int) + reserved sid =
      store.settled sid + session.releasedAmount.wei
  deposit : ∀ sid session, store.escrow.find sid = some session →
    (net.escrow hub sid).createdAt ≠ 0 →
      ((net.escrow hub sid).deposit : Int) = session.depositAmount.wei

/-- The sessions stay, with their deposits, and what is released moves with what is reserved. -/
structure Moves (store store' : Escrow.Store) (reserved reserved' : SessionId → Int) : Prop where
  back : ∀ sid session', store'.find sid = some session' → ∃ session,
    store.find sid = some session ∧ session'.depositAmount = session.depositAmount ∧
      session'.releasedAmount.wei - reserved' sid = session.releasedAmount.wei - reserved sid
  forth : ∀ sid, store'.find sid = none → store.find sid = none

section Mirrors

variable {net : Network} {hub hub' : World} {store store' : Store} {escrow escrow' : Escrow.Store}
  {reserved reserved' : SessionId → Int}

theorem Moves.of_same (hfind : ∀ sid, escrow'.find sid = escrow.find sid)
    (hreserved : ∀ sid, reserved' sid = reserved sid) : Moves escrow escrow' reserved reserved' where
  back := by
    intro sid session' hsession
    rw [hfind] at hsession
    exact ⟨session', hsession, rfl, by rw [hreserved]⟩
  forth := by
    intro sid hnone
    rw [← hfind]
    exact hnone

theorem Moves.save {session entity : EscrowSession} (hfind : escrow.find entity.id = some session)
    (hdeposit : entity.depositAmount = session.depositAmount)
    (hreleased : entity.releasedAmount.wei - reserved' entity.id =
      session.releasedAmount.wei - reserved entity.id)
    (hothers : ∀ sid, sid ≠ entity.id → reserved' sid = reserved sid) :
    Moves escrow (escrow.save entity) reserved reserved' where
  back := by
    intro sid session' hsession
    by_cases hid : entity.id = sid
    · subst hid
      rw [Escrow.Store.find_save_self] at hsession
      cases hsession
      exact ⟨session, hfind, hdeposit, hreleased⟩
    · rw [Escrow.Store.find_save_of_ne hid] at hsession
      exact ⟨session', hsession, rfl, by rw [hothers sid (Ne.symm hid)]⟩
  forth := by
    intro sid hnone
    by_cases hid : entity.id = sid
    · subst hid
      rw [Escrow.Store.find_save_self] at hnone
      cases hnone
    · rw [Escrow.Store.find_save_of_ne hid] at hnone
      exact hnone

/-- An update in place of other columns. -/
theorem Moves.map {g : EscrowSession → EscrowSession}
    (hfind : ∀ sid, escrow'.find sid = (escrow.find sid).map g)
    (hg : ∀ session, (g session).depositAmount = session.depositAmount ∧
      (g session).releasedAmount = session.releasedAmount)
    (hreserved : ∀ sid, reserved' sid = reserved sid) : Moves escrow escrow' reserved reserved' where
  back := by
    intro sid session' hsession
    rw [hfind] at hsession
    rcases Option.map_eq_some_iff.1 hsession with ⟨session, hstored, rfl⟩
    exact ⟨session, hstored, (hg session).1, by rw [(hg session).2, hreserved]⟩
  forth := by
    intro sid hnone
    rw [hfind] at hnone
    exact Option.map_eq_none_iff.1 hnone

theorem moves_expireDue (now : Escrow.Time) (hreserved : ∀ sid, reserved' sid = reserved sid) :
    Moves escrow (escrow.expireDue now) reserved reserved' := by
  refine .map (fun _ => Escrow.Store.find_expireDue now) ?_ hreserved
  intro session
  rcases Escrow.Store.expire_cases now session with hsame | ⟨_, hexpired⟩
  · rw [hsame]
    exact ⟨rfl, rfl⟩
  · rw [hexpired]
    exact ⟨rfl, rfl⟩

theorem moves_markRefunded (sid : SessionId) (now : Escrow.Time)
    (hreserved : ∀ k, reserved' k = reserved k) :
    Moves escrow (escrow.markRefunded sid now) reserved reserved' := by
  refine .map (fun k => Escrow.Store.find_markRefunded k now) ?_ hreserved
  intro session
  rcases Escrow.Store.refundedRow_cases sid now session with ⟨_, hsame⟩ | ⟨_, hmarked⟩
  · rw [hsame]
    exact ⟨rfl, rfl⟩
  · rw [hmarked]
    exact ⟨rfl, rfl⟩

theorem isSome_of_moves (h : Moves escrow escrow' reserved reserved') {sid : SessionId}
    (hsome : (escrow'.find sid).isSome = true) : (escrow.find sid).isSome = true := by
  rcases Option.isSome_iff_exists.1 hsome with ⟨session', hsession⟩
  rcases h.back sid session' hsession with ⟨session, hfind, _⟩
  rw [hfind]
  rfl

theorem Mirrors.moves (h : Mirrors net hub store reserved)
    (hmoves : Moves store.escrow store'.escrow reserved reserved')
    (hsettled : ∀ sid, store'.settled sid = store.settled sid) :
    Mirrors net hub store' reserved' := by
  refine ⟨?_, ?_, ?_, ?_⟩
  · intro k l hk hl
    exact h.apart k l (isSome_of_moves hmoves hk) (isSome_of_moves hmoves hl)
  · intro sid hnone
    rw [hsettled]
    exact h.unsettled sid (hmoves.forth sid hnone)
  · intro sid session' hsession
    rcases hmoves.back sid session' hsession with ⟨session, hfind, _, hreleased⟩
    have hspent := h.spent sid session hfind
    rw [hsettled]
    -- what is reserved moves with what is released
    omega
  · intro sid session' hsession hcreated
    rcases hmoves.back sid session' hsession with ⟨session, hfind, hdeposit, _⟩
    rw [hdeposit]
    exact h.deposit sid session hfind hcreated

/-- A session is stored whose id is new on the hub. -/
theorem Mirrors.inserts {session : EscrowSession} (h : Mirrors net hub store reserved)
    (hfaithful : Faithful hub) (hnew : store.escrow.find session.id = none)
    (hunused : (net.escrow hub session.id).createdAt = 0)
    (hhash : ∀ other ∈ store.escrow.sessions,
      net.escrowIdHash other.id ≠ net.escrowIdHash session.id)
    (hreleased : session.releasedAmount.wei = 0) (hreserved : ∀ sid, reserved sid = 0)
    (hfind : ∀ sid, store'.escrow.find sid = (store.escrow.save session).find sid)
    (hsettled : ∀ sid, store'.settled sid = store.settled sid) :
    Mirrors net hub store' reserved := by
  have hself : store'.escrow.find session.id = some session := by
    rw [hfind, Escrow.Store.find_save_self]
  have hother : ∀ sid, session.id ≠ sid → store'.escrow.find sid = store.escrow.find sid := by
    intro sid hne
    rw [hfind, Escrow.Store.find_save_of_ne hne]
  have hdistinct : ∀ sid, session.id ≠ sid → (store'.escrow.find sid).isSome = true →
      net.escrowIdHash sid ≠ net.escrowIdHash session.id := by
    intro sid hne hsome
    rw [hother sid hne] at hsome
    rcases Option.isSome_iff_exists.1 hsome with ⟨stored, hstored⟩
    rw [← Escrow.Store.id_of_find hstored]
    exact hhash stored (Escrow.Store.mem_of_find hstored)
  refine ⟨?_, ?_, ?_, ?_⟩
  · intro k l hk hl hEq
    -- only the new session needs a look
    by_cases hkid : session.id = k
    · by_cases hlid : session.id = l
      · exact hkid.symm.trans hlid
      · rw [← hkid] at hEq
        exact absurd hEq.symm (hdistinct l hlid hl)
    · by_cases hlid : session.id = l
      · rw [← hlid] at hEq
        exact absurd hEq (hdistinct k hkid hk)
      · rw [hother k hkid] at hk
        rw [hother l hlid] at hl
        exact h.apart k l hk hl hEq
  · intro sid hnone
    have hne : session.id ≠ sid := by
      rintro rfl
      rw [hself] at hnone
      cases hnone
    rw [hother sid hne] at hnone
    rw [hsettled]
    exact h.unsettled sid hnone
  · intro sid stored hstored
    by_cases hid : session.id = sid
    · subst hid
      rw [hself] at hstored
      cases hstored
      -- nothing has happened under its id on the hub
      have hzero : net.escrow hub session.id = Contracts.EscrowSession.unset := by
        rw [Network.escrow, hfaithful.sessions] at hunused ⊢
        exact Contracts.replay_unset hfaithful.legal hunused
      rw [hzero, hsettled, h.unsettled session.id hnew, hreleased, hreserved]
      rfl
    · rw [hother sid hid] at hstored
      rw [hsettled]
      exact h.spent sid stored hstored
  · intro sid stored hstored hcreated
    by_cases hid : session.id = sid
    · subst hid
      exact absurd hunused hcreated
    · rw [hother sid hid] at hstored
      exact h.deposit sid stored hstored hcreated

/-- The hub spends of one escrow what was reserved, or opens it. -/
theorem Mirrors.hubSteps {sid : SessionId} (h : Mirrors net hub store reserved)
    (hstored : (store.escrow.find sid).isSome = true)
    (hothers : ∀ k, k ≠ net.escrowIdHash sid → hub'.escrows k = hub.escrows k)
    (hspent : ((net.escrow hub' sid).spent : Int) + reserved' sid =
      (net.escrow hub sid).spent + reserved sid)
    (hreserved : ∀ k, k ≠ sid → reserved' k = reserved k)
    (hdeposit : ∀ session, store.escrow.find sid = some session →
      (net.escrow hub' sid).createdAt ≠ 0 →
        ((net.escrow hub' sid).deposit : Int) = session.depositAmount.wei) :
    Mirrors net hub' store reserved' := by
  have hother : ∀ k, k ≠ sid → (store.escrow.find k).isSome = true →
      net.escrow hub' k = net.escrow hub k :=
    fun k hk hsome => hothers _ fun hEq => hk (h.apart k sid hsome hstored hEq)
  refine ⟨h.apart, h.unsettled, ?_, ?_⟩
  · intro k session hsession
    have hold := h.spent k session hsession
    by_cases hk : k = sid
    · subst hk
      omega
    · rw [hother k hk (by rw [hsession]; rfl), hreserved k hk]
      exact hold
  · intro k session hsession hcreated
    by_cases hk : k = sid
    · subst hk
      exact hdeposit session hsession hcreated
    · rw [hother k hk (by rw [hsession]; rfl)] at hcreated ⊢
      exact h.deposit k session hsession hcreated

/-- The hub spends nothing of the stored sessions. -/
theorem Mirrors.hubKeeps (h : Mirrors net hub store reserved)
    (hkeeps : ∀ sid, (store.escrow.find sid).isSome = true →
      (net.escrow hub' sid).spent = (net.escrow hub sid).spent ∧
        (net.escrow hub' sid).deposit = (net.escrow hub sid).deposit ∧
          (net.escrow hub' sid).createdAt = (net.escrow hub sid).createdAt) :
    Mirrors net hub' store reserved := by
  refine ⟨h.apart, h.unsettled, ?_, ?_⟩
  · intro sid session hsession
    rw [(hkeeps sid (by rw [hsession]; rfl)).1]
    exact h.spent sid session hsession
  · intro sid session hsession hcreated
    rcases hkeeps sid (by rw [hsession]; rfl) with ⟨_, hdeposit, hsame⟩
    rw [hsame] at hcreated
    rw [hdeposit]
    exact h.deposit sid session hsession hcreated

end Mirrors

/-! ## What the call under way has reserved -/

/-- The session a release has reserved from, and how much. -/
def reservation : Process → Option (SessionId × Int)
  | .escrow (.insertRelease sid _ amount) => some (sid, amount.wei)
  | .escrow (.payOut release) => some (release.escrowId, release.amount.wei)
  | .escrow (.waitPayOut release _) => some (release.escrowId, release.amount.wei)
  | .escrow (.giveBack release _) => some (release.escrowId, release.amount.wei)
  | _ => none

/-- The payout the process waits for is mined. -/
def paidOut (store : Store) : Process → Bool
  | .escrow (.waitPayOut _ hash) => (store.escrow.fateOf hash).isMined
  | _ => false

/-- What is reserved from a session and not paid out. -/
def reservedBy (store : Store) (p : Option Process) (sid : SessionId) : Int :=
  match p with
  | none => 0
  | some q =>
      match reservation q with
      | none => 0
      | some (k, amount) => if k = sid ∧ paidOut store q = false then amount else 0

/-- The reservation can be given back. -/
def Reserves (store : Store) (q : Process) : Prop :=
  ∀ sid amount, reservation q = some (sid, amount) →
    ∃ session, store.escrow.find sid = some session ∧ session.reservable (-amount) = true

theorem reservedBy_of_none {store : Store} {q : Process} (h : reservation q = none) (sid : SessionId) :
    reservedBy store (some q) sid = 0 := by
  simp only [reservedBy, h]

theorem reservedBy_of_some {store : Store} {q : Process} {k : SessionId} {amount : Int}
    (h : reservation q = some (k, amount)) (sid : SessionId) :
    reservedBy store (some q) sid = if k = sid ∧ paidOut store q = false then amount else 0 := by
  simp only [reservedBy, h]

theorem Reserves.of_none {store : Store} {q : Process} (h : reservation q = none) :
    Reserves store q := by
  intro sid amount hreservation
  rw [h] at hreservation
  cases hreservation

theorem Reserves.of_same {store store' : Store} {q q' : Process} (h : Reserves store q)
    (hfind : ∀ sid, store'.escrow.find sid = store.escrow.find sid)
    (hreservation : reservation q' = reservation q) : Reserves store' q' := by
  intro sid amount hq
  rw [hreservation] at hq
  rcases h sid amount hq with ⟨session, hsession, hok⟩
  exact ⟨session, (hfind sid).trans hsession, hok⟩

/-! ## What the call under way knows of the hub -/

/-- A call of `open` or `close`, for a session with this deposit. -/
def ForSession (store : Store) : HubCall → Prop
  | .openEscrow sid _ _ _ _ depositWei =>
      ∃ session, store.escrow.find sid = some session ∧ session.depositAmount.wei = depositWei
  | .closeEscrow _ => True
  | .settleBatch _ _ _ => False

/-- The escrow was opened on the hub, and has been closed. -/
def Closed (net : Network) (hub : World) (sid : SessionId) : Prop :=
  (net.escrow hub sid).createdAt ≠ 0 ∧ (net.escrow hub sid).active = false

/-- What the ledger has spent of a session. -/
def spent (store : Store) (session : EscrowSession) : Int :=
  store.settled session.id + store.claimed session.id + session.releasedAmount.wei

/-- The row of the refund is stored, and was computed from the same spending. -/
def Recorded (store : Store) (sid : SessionId) (refund : EscrowRefund) : Prop :=
  ∃ row, store.findRefund sid = some row ∧ row.spentAmount = refund.spentAmount

def Knows (net : Network) (hub : World) (store : Store) : Process → Prop
  | .escrow (.commit session _ _) => session.releasedAmount.wei = 0
  | .escrow (.sendCall _ call) => ForSession store call
  | .escrow (.waitCall _ hash) =>
      ∃ tx, Table.lookup Escrow.Transaction.hash store.escrow.transactions hash = some tx ∧
        ForSession store tx.call
  | .escrow (.waitPayOut release hash) =>
      ∃ tx, Table.lookup Escrow.Transaction.hash store.escrow.transactions hash = some tx ∧
        tx.call = .settleBatch release.escrowId release.id release.amount.wei
  | .refund _ sid (.claimed _ _ settled) => settled = store.settled sid
  | .refund _ sid (.insert refund) =>
      ∃ session, store.escrow.find sid = some session ∧ refund.spentAmount.wei = spent store session
  | .refund _ sid (.send refund) => Recorded store sid refund
  | .refund _ sid (.waitFor refund hash) =>
      Recorded store sid refund ∧
        ∃ tx, Table.lookup ClosingTx.hash store.closings hash = some tx ∧ tx.escrowId = sid ∧
          (tx.fate.isMined = true → Closed net hub sid)
  | .refund _ sid (.save refund) =>
      Recorded store sid refund ∧ (refund.status = .completed → Closed net hub sid)
  | _ => True

/-- The hash of the transaction a process waits for. -/
def waitsFor : Process → Option TxHash
  | .escrow (.waitCall _ hash) => some hash
  | .escrow (.waitPayOut _ hash) => some hash
  | _ => none

/-- The hash of the `emergencyClose` a process waits for. -/
def waitsForClosing : Process → Option TxHash
  | .refund _ _ (.waitFor _ hash) => some hash
  | _ => none

/-- Only the transaction that is waited for may still be mined. -/
structure Waited (store : Store) (p : Option Process) : Prop where
  transactions : ∀ hash, store.escrow.fateOf hash = .pending → p.bind waitsFor = some hash
  closings : ∀ hash, store.fateOf hash = .pending → p.bind waitsForClosing = some hash

end Hub
end PaymentRail
