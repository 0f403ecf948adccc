import PaymentRail.Refunds.Transitions

/-!
# RefundCompleted — a mined refund ends COMPLETED and stays so

A refund marks its row FAILED whenever the wait for its `emergencyClose` is given up, also while the
transaction may still be mined; and two refunds of one escrow may run side by side, each with its own
copy of the row.  Once the escrow is closed on the hub every further `emergencyClose` reverts, so a
row that was marked FAILED by mistake stays FAILED.

In the runs in which a wait is only given up for a transaction that cannot be mined any more, and
the refunds of an escrow come one after the other (`inTurn`), a mined refund is completed.
-/

namespace PaymentRail
namespace Refunds

open Machine Strings Money Collections Escrow
open Settlement (Fate)

/-! ## The runs -/

/-- The refund has looked for its row and is not at its end. -/
def Stage.executing : Stage → Bool
  | .findById => false
  | .findOne _ _ => false
  | _ => true

def Process.refunding (sid : SessionId) : Process → Bool
  | .refund _ escrowId stage => escrowId = sid && stage.executing
  | _ => false

/-- Refunds are requested and swept; nobody else calls. -/
def refundsOnly : Move Request Reply Event → Bool
  | .call _ (.escrow _) => false
  | _ => true

/-- A refund looks for its row while no other one of the escrow is under way, and gives up waiting
for a transaction that cannot be mined any more. -/
def inTurn : Move Request Reply Event → Calls Store Process Answer → Bool
  | .resume id reply, c =>
      match c.process id, reply with
      | some (.refund _ sid (.findOne _ _)), _ => c.processes.all fun entry => !entry.2.refunding sid
      | some (.refund _ _ (.waitFor _ hash)), .failed _ => !(c.store.fateOf hash).live
      | _, _ => true
  | _, _ => true

def refundsStep (cfg : Config) :
    Move Request Reply Event → Calls Store Process Answer → Option (Calls Store Process Answer) :=
  guarded (fun m _ => refundsOnly m = true) (service cfg).step

def inTurnStep (cfg : Config) :
    Move Request Reply Event → Calls Store Process Answer → Option (Calls Store Process Answer) :=
  guarded (fun m c => inTurn m c = true) (refundsStep cfg)

/-- No refund has been made yet. -/
def Store.unrefunded (escrow : Escrow.Store) (settlements : List SettlementRow) : Store where
  escrow := escrow
  settlements := settlements
  refunds := []
  closings := []
  sweeping := []

/-! ## One escrow -/

def Store.Completed (store : Store) (sid : SessionId) : Prop :=
  ∃ refund, store.findRefund sid = some refund ∧ refund.status = .completed

/-- The session has expired or was cancelled. -/
def Store.Ended (store : Store) (sid : SessionId) : Prop :=
  ∃ session, store.escrow.find sid = some session ∧ (refundable session.status).isSome = true

/-- `refundedAt` is set. -/
def Store.Marked (store : Store) (sid : SessionId) : Prop :=
  ∃ session, store.escrow.find sid = some session ∧ session.refundedAt ≠ none

/-- An `emergencyClose` of the escrow has been mined. -/
def Store.Mined (store : Store) (sid : SessionId) : Prop :=
  ∃ tx ∈ store.closings, tx.escrowId = sid ∧ tx.fate.isMined = true

/-- No `emergencyClose` of the escrow has been or will be mined, of those that were sent. -/
def Store.NoneLive (store : Store) (sid : SessionId) : Prop :=
  ∀ tx ∈ store.closings, tx.escrowId = sid → tx.fate.live = false

/-- Hashes are distinct, and only sessions that have ended are closed this way. -/
structure Store.Sound (store : Store) : Prop where
  keyed : Table.Keyed ClosingTx.hash store.closings
  ended : ∀ tx ∈ store.closings, store.Ended tx.escrowId

/-- The escrow is still to be refunded. -/
structure Store.Due (store : Store) (sid : SessionId) : Prop where
  noneLive : store.NoneLive sid
  uncompleted : ¬ store.Completed sid

/-- What holds of an escrow while no refund of it is under way. -/
structure Store.Idle (store : Store) (sid : SessionId) : Prop where
  live : store.NoneLive sid ∨ store.Completed sid
  marked : store.Completed sid → store.Marked sid

/-- What a refund of the escrow `sid` knows. -/
def Stage.Holds (store : Store) (sid : SessionId) : Stage → Prop
  | .findById => True
  | .findOne session _ => session.id = sid ∧ store.Ended sid
  | .settled session _ => session.id = sid ∧ store.Ended sid ∧ store.Due sid
  | .claimed session _ _ => session.id = sid ∧ store.Ended sid ∧ store.Due sid
  | .insert refund =>
      refund.escrowId = sid ∧ refund.status ≠ .completed ∧ store.Ended sid ∧ store.Due sid
  | .adopt => store.Ended sid ∧ store.Due sid
  | .send refund => refund.escrowId = sid ∧ store.Ended sid ∧ store.Due sid
  | .waitFor refund hash =>
      refund.escrowId = sid ∧ store.Ended sid ∧ ¬ store.Completed sid ∧
        ∀ tx ∈ store.closings, tx.escrowId = sid → tx.fate.live = true → tx.hash = hash
  | .save refund =>
      refund.escrowId = sid ∧ store.Ended sid ∧ (refund.status = .completed ∨ store.Due sid)
  | .markRefunded refund => refund.escrowId = sid ∧ store.Ended sid ∧ store.Completed sid

def Process.Holds (store : Store) : Process → Prop
  | .refund _ sid stage => stage.Holds store sid
  | .escrow _ => False
  | _ => True

/-- Two refunds of one escrow are not under way together. -/
def Process.Apart (p q : Process) : Prop :=
  ∀ sid, p.refunding sid = true → q.refunding sid = false

theorem Process.Apart.symm {p q : Process} (h : p.Apart q) : q.Apart p := by
  intro sid hq
  by_contra hp
  rw [h sid (by simpa using hp)] at hq
  cases hq

/-! ## What the others leave alone -/

section Frames

variable {store store' : Store} {sid : SessionId} {stage : Stage} {q : Process}

/-- The escrow stays as it is, up to the fates of its transactions. -/
structure Store.Untouched (sid : SessionId) (store store' : Store) : Prop where
  refund : store'.findRefund sid = store.findRefund sid
  ended : store.Ended sid → store'.Ended sid
  marked : store.Marked sid → store'.Marked sid
  closings : ∀ tx' ∈ store'.closings, tx'.escrowId = sid →
    ∃ tx ∈ store.closings, tx.escrowId = sid ∧ tx.hash = tx'.hash ∧
      tx.fate.canBecome tx'.fate = true

theorem Store.Untouched.of_same (hrefunds : store'.refunds = store.refunds)
    (hescrow : store'.escrow = store.escrow) (hclosings : store'.closings = store.closings)
    (sid : SessionId) : Store.Untouched sid store store' := by
  refine ⟨?_, ?_, ?_, ?_⟩
  · rw [Store.findRefund, Store.findRefund, hrefunds]
  · rw [Store.Ended, Store.Ended, hescrow]
    exact fun h => h
  · rw [Store.Marked, Store.Marked, hescrow]
    exact fun h => h
  · rw [hclosings]
    exact fun tx htx hid => ⟨tx, htx, hid, rfl, tx.fate.canBecome_self⟩

/-- Whether a refund is completed is read off its row. -/
theorem completed_congr (h : store'.findRefund sid = store.findRefund sid) :
    store'.Completed sid ↔ store.Completed sid := by
  rw [Store.Completed, Store.Completed, h]

theorem Store.Untouched.completed (h : Store.Untouched sid store store') :
    store'.Completed sid ↔ store.Completed sid :=
  completed_congr h.refund

theorem Store.Untouched.noneLive (h : Store.Untouched sid store store')
    (hnone : store.NoneLive sid) : store'.NoneLive sid := by
  intro tx' htx' hid
  rcases h.closings tx' htx' hid with ⟨tx, htx, htxid, _, hbecome⟩
  by_contra hlive
  have hold := Fate.live_of_canBecome hbecome (by simpa using hlive)
  rw [hnone tx htx htxid] at hold
  cases hold

theorem Store.Untouched.due (h : Store.Untouched sid store store') (hdue : store.Due sid) :
    store'.Due sid :=
  ⟨h.noneLive hdue.noneLive, fun hcompleted => hdue.uncompleted (h.completed.1 hcompleted)⟩

theorem Store.Untouched.idle (h : Store.Untouched sid store store') (hidle : store.Idle sid) :
    store'.Idle sid := by
  refine ⟨hidle.live.imp h.noneLive h.completed.2, ?_⟩
  intro hcompleted
  exact h.marked (hidle.marked (h.completed.1 hcompleted))

/-- Whoever is not under way only knows that the session exists. -/
theorem Stage.Holds.frame (h : stage.Holds store sid) (hended : store.Ended sid → store'.Ended sid)
    (huntouched : stage.executing = true → Store.Untouched sid store store') :
    stage.Holds store' sid := by
  cases stage with
  | findById => trivial
  | findOne session reason => exact ⟨h.1, hended h.2⟩
  | settled session reason => exact ⟨h.1, hended h.2.1, (huntouched rfl).due h.2.2⟩
  | claimed session reason settled => exact ⟨h.1, hended h.2.1, (huntouched rfl).due h.2.2⟩
  | insert refund => exact ⟨h.1, h.2.1, hended h.2.2.1, (huntouched rfl).due h.2.2.2⟩
  | adopt => exact ⟨hended h.1, (huntouched rfl).due h.2⟩
  | send refund => exact ⟨h.1, hended h.2.1, (huntouched rfl).due h.2.2⟩
  | waitFor refund hash =>
      rcases h with ⟨hid, hk, huncompleted, hlive⟩
      refine ⟨hid, hended hk, fun hcompleted => huncompleted ((huntouched rfl).completed.1 hcompleted), ?_⟩
      intro tx' htx' htxid hlive'
      rcases (huntouched rfl).closings tx' htx' htxid with ⟨tx, htx, hsid, hhash, hbecome⟩
      rw [← hhash]
      exact hlive tx htx hsid (Fate.live_of_canBecome hbecome hlive')
  | save refund => exact ⟨h.1, hended h.2.1, h.2.2.imp_right (huntouched rfl).due⟩
  | markRefunded refund => exact ⟨h.1, hended h.2.1, (huntouched rfl).completed.2 h.2.2⟩

theorem Process.Holds.frame (h : q.Holds store)
    (hended : ∀ sid, store.Ended sid → store'.Ended sid)
    (huntouched : ∀ sid, q.refunding sid = true → Store.Untouched sid store store') :
    q.Holds store' := by
  cases q with
  | escrow p => exact h
  | refund caller sid stage =>
      refine Stage.Holds.frame h (hended sid) ?_
      intro hexecuting
      exact huntouched sid (by simp [Process.refunding, hexecuting])
  | expireDue server now => trivial
  | findAwaitingRefund server expired => trivial

end Frames

/-! ## One step of a refund -/

section Steps

variable {cfg : Config} {store store' s : Store} {sid k : SessionId} {stage : Stage} {reply : Reply}
  {next : Next} {caller : Caller} {flow : Flow Process Answer} {refund : EscrowRefund}

theorem findRefund_saveRefund_self (h : refund.escrowId = sid) :
    (store.saveRefund refund).findRefund sid = some refund := by
  subst h
  exact Table.lookup_put_self _ _

theorem findRefund_saveRefund_of_ne (h : refund.escrowId ≠ k) :
    (store.saveRefund refund).findRefund k = store.findRefund k :=
  Table.lookup_put_of_ne _ _ h

theorem escrowId_of_findRefund (h : store.findRefund sid = some refund) : refund.escrowId = sid :=
  Table.key_of_lookup h

theorem untouched_saveRefund (h : refund.escrowId ≠ k) :
    Store.Untouched k store (store.saveRefund refund) :=
  ⟨findRefund_saveRefund_of_ne h, fun hended => hended, fun hmarked => hmarked,
    fun tx htx hid => ⟨tx, htx, hid, rfl, tx.fate.canBecome_self⟩⟩

/-- An `emergencyClose` of another escrow is sent. -/
theorem untouched_broadcast {tx : ClosingTx} (h : tx.escrowId ≠ k) :
    Store.Untouched k store (store.broadcast tx) := by
  refine ⟨rfl, fun hended => hended, fun hmarked => hmarked, ?_⟩
  intro tx' htx' hid
  rcases Table.mem_put htx' with rfl | ⟨hmem, _⟩
  · exact absurd hid h
  · exact ⟨tx', hmem, hid, rfl, tx'.fate.canBecome_self⟩

theorem ended_markRefunded {now : Time} (h : store.Ended sid) :
    (store.withEscrow (store.escrow.markRefunded k now)).Ended sid := by
  rcases h with ⟨session, hfind, hstatus⟩
  refine ⟨Escrow.Store.refundedRow k now session, ?_, ?_⟩
  · rw [Store.withEscrow, Escrow.Store.find_markRefunded, hfind, Option.map_some]
  · rcases Escrow.Store.refundedRow_cases k now session with ⟨_, hsame⟩ | ⟨_, hset⟩
    · rw [hsame]
      exact hstatus
    · rw [hset]
      exact hstatus

theorem marked_markRefunded {now : Time} {session : EscrowSession}
    (hfind : store.escrow.find sid = some session) (hmarked : k = sid ∨ store.Marked sid) :
    (store.withEscrow (store.escrow.markRefunded k now)).Marked sid := by
  have hrow : (store.withEscrow (store.escrow.markRefunded k now)).escrow.find sid =
      some (Escrow.Store.refundedRow k now session) := by
    rw [Store.withEscrow, Escrow.Store.find_markRefunded, hfind, Option.map_some]
  refine ⟨_, hrow, ?_⟩
  rcases Escrow.Store.refundedRow_cases k now session with ⟨hid, hsame⟩ | ⟨_, hnow⟩
  · rcases hmarked with rfl | ⟨session', hfind', hset⟩
    · exact absurd (Escrow.Store.id_of_find hfind) hid
    · rw [hfind] at hfind'
      cases hfind'
      rw [hsame]
      exact hset
  · rw [hnow]
    exact Option.some_ne_none now

theorem untouched_markRefunded {now : Time} :
    Store.Untouched k store (store.withEscrow (store.escrow.markRefunded sid now)) := by
  refine ⟨rfl, ended_markRefunded, ?_, fun tx htx hid => ⟨tx, htx, hid, rfl, tx.fate.canBecome_self⟩⟩
  rintro ⟨session, hfind, hset⟩
  exact marked_markRefunded hfind (Or.inr ⟨session, hfind, hset⟩)

/-- A refund does not touch other escrows. -/
theorem Stages.untouched (h : Stages cfg store sid stage reply s next) (hstage : stage.Holds store sid)
    (hk : k ≠ sid) : Store.Untouched k store s := by
  cases h with
  | inserts hrow => exact untouched_saveRefund (by rw [hstage.1]; exact Ne.symm hk)
  | sends hnew => exact untouched_broadcast (by rw [hstage.1]; exact Ne.symm hk)
  | completes hstatus => exact untouched_saveRefund (by rw [hstage.1]; exact Ne.symm hk)
  | fails hstatus => exact untouched_saveRefund (by rw [hstage.1]; exact Ne.symm hk)
  | marks => exact untouched_markRefunded
  | _ => exact .of_same rfl rfl rfl k

theorem Stages.ended (h : Stages cfg store sid stage reply s next) (hended : store.Ended k) :
    s.Ended k := by
  cases h with
  | marks => exact ended_markRefunded hended
  | _ => exact hended

theorem Stages.marked (h : Stages cfg store sid stage reply s next) (hmarked : store.Marked k) :
    s.Marked k := by
  cases h with
  | marks => exact untouched_markRefunded.marked hmarked
  | _ => exact hmarked

/-- A row that is completed stays completed: the others were saved before. -/
theorem Stages.completed (h : Stages cfg store sid stage reply s next)
    (hstage : stage.Holds store sid) (hcompleted : store.Completed sid) : s.Completed sid := by
  cases h with
  | inserts hrow =>
      rcases hcompleted with ⟨refund, hrefund, _⟩
      rw [hrow] at hrefund
      cases hrefund
  | completes hstatus => exact ⟨_, findRefund_saveRefund_self hstage.1, hstatus⟩
  | fails hstatus =>
      rcases hstage.2.2 with hdone | hdue
      · exact absurd hdone hstatus
      · exact absurd hcompleted hdue.uncompleted
  | _ => exact hcompleted

theorem due_saveRefund (hid : refund.escrowId = sid) (hstatus : refund.status ≠ .completed)
    (hdue : store.Due sid) : (store.saveRefund refund).Due sid := by
  refine ⟨hdue.noneLive, ?_⟩
  rintro ⟨row, hrow, hcompleted⟩
  rw [findRefund_saveRefund_self hid] at hrow
  cases hrow
  exact hstatus hcompleted

theorem execute_holds {now : Time} (hid : refund.escrowId = sid) (hended : store.Ended sid)
    (hdue : store.Due sid) : (execute cfg refund now).Holds store sid := by
  by_cases hhub : cfg.escrow.hubConfigured = true
  · simp only [execute, hhub, if_true]
    exact ⟨hid, hended, hdue⟩
  · simp only [execute, hhub]
    exact ⟨hid, hended, Or.inl rfl⟩

/-- What a refund knows when it waits again.  At the two ends of its execution it relies on being
the only one, and on the transaction it waited for. -/
theorem Stages.holds {stage' : Stage} (h : Stages cfg store sid stage reply s (.goes stage'))
    (hkeyed : Table.Keyed ClosingTx.hash store.closings) (hstage : stage.Holds store sid)
    (hidle : ∀ session reason, stage = .findOne session reason → store.Idle sid)
    (hgiven : ∀ refund hash message, stage = .waitFor refund hash → reply = .failed message →
      (store.fateOf hash).live = false) :
    stage'.Holds s sid := by
  cases h with
  | loaded hfind hstatus =>
      exact ⟨Escrow.Store.id_of_find hfind, _, hfind, by rw [hstatus]; rfl⟩
  | retried hrow hstatus =>
      have huncompleted : ¬ store.Completed sid := by
        rintro ⟨row, hrow', hcompleted⟩
        rw [hrow] at hrow'
        cases hrow'
        exact hstatus hcompleted
      have hlive := (hidle _ _ rfl).live.resolve_right huncompleted
      exact execute_holds (escrowId_of_findRefund hrow) hstage.2 ⟨hlive, huncompleted⟩
  | creates hrow =>
      have huncompleted : ¬ store.Completed sid := by
        rintro ⟨row, hrow', _⟩
        rw [hrow] at hrow'
        cases hrow'
      exact ⟨hstage.1, hstage.2, (hidle _ _ rfl).live.resolve_right huncompleted, huncompleted⟩
  | sumsSettled => exact hstage
  | sumsClaimed => exact ⟨hstage.1, by simp [newRefund], hstage.2⟩
  | inserts hrow =>
      exact execute_holds hstage.1 hstage.2.2.1 (due_saveRefund hstage.1 hstage.2.1 hstage.2.2.2)
  | overtaken hrow => exact hstage.2.2
  | adopts hrow => exact execute_holds (escrowId_of_findRefund hrow) hstage.1 hstage.2
  | sends hnew =>
      refine ⟨hstage.1, hstage.2.1, hstage.2.2.uncompleted, ?_⟩
      intro tx htx hid hlive
      rcases Table.mem_put htx with rfl | ⟨hmem, _⟩
      · rfl
      · rw [hstage.2.2.noneLive tx hmem hid] at hlive
        cases hlive
  | unsent => exact ⟨hstage.1, hstage.2.1, Or.inr hstage.2.2⟩
  | mined hmined => exact ⟨hstage.1, hstage.2.1, Or.inl rfl⟩
  | @gaveUp refund hash message =>
      refine ⟨hstage.1, hstage.2.1, Or.inr ⟨?_, hstage.2.2.1⟩⟩
      intro tx htx hid
      by_contra hlive
      have hhash := hstage.2.2.2 tx htx hid (by simpa using hlive)
      have hfate := hgiven refund hash message rfl rfl
      rw [Store.fateOf, ← hhash, Table.lookup_of_mem hkeyed htx] at hfate
      exact hlive hfate
  | completes hstatus =>
      exact ⟨hstage.1, hstage.2.1, _, findRefund_saveRefund_self hstage.1, hstatus⟩

/-- A refund that was under way leaves the escrow in order when it ends. -/
theorem Stages.idle {a : Answer} (h : Stages cfg store sid stage reply s (.ends a))
    (hstage : stage.Holds store sid) (hexecuting : stage.executing = true) : s.Idle sid := by
  cases h with
  | lost hrow =>
      exact ⟨Or.inl hstage.2.noneLive, fun hcompleted => absurd hcompleted hstage.2.uncompleted⟩
  | fails hstatus =>
      have hdue := due_saveRefund hstage.1 hstatus (hstage.2.2.resolve_left hstatus)
      exact ⟨Or.inl hdue.noneLive, fun hcompleted => absurd hcompleted hdue.uncompleted⟩
  | marks =>
      rcases hstage.2.1 with ⟨session, hfind, _⟩
      exact ⟨Or.inr hstage.2.2, fun _ => marked_markRefunded hfind (Or.inl hstage.1)⟩
  | _ => cases hexecuting

/-- A refund that is not under way yet does not write. -/
theorem Stages.unchanged (h : Stages cfg store sid stage reply s next)
    (hexecuting : stage.executing = false) : s = store := by
  cases h with
  | _ => first | rfl | cases hexecuting

/-- Once under way, a refund stays so until it ends. -/
theorem Stages.executing {stage' : Stage} (h : Stages cfg store sid stage reply s (.goes stage'))
    (hexecuting : stage.executing = true) : stage'.executing = true := by
  have hexecute : ∀ refund now, (execute cfg refund now).executing = true := by
    intro refund now
    by_cases hhub : cfg.escrow.hubConfigured = true
    · simp [execute, hhub, Stage.executing]
    · simp [execute, hhub, Stage.executing]
  cases h with
  | loaded hfind hstatus => cases hexecuting
  | retried hrow hstatus => cases hexecuting
  | creates hrow => cases hexecuting
  | inserts hrow => exact hexecute _ _
  | adopts hrow => exact hexecute _ _
  | _ => rfl

theorem Stages.sound (h : Stages cfg store sid stage reply s next) (hstage : stage.Holds store sid)
    (hsound : store.Sound) : s.Sound := by
  have hended : ∀ k, store.Ended k → s.Ended k := fun _ => h.ended
  cases h with
  | sends hnew =>
      refine ⟨hsound.keyed.put, ?_⟩
      intro tx htx
      rcases Table.mem_put htx with rfl | ⟨hmem, _⟩
      · have hsid : store.Ended sid := hstage.2.1
        rw [← hstage.1] at hsid
        exact hsid
      · exact hsound.ended tx hmem
  | _ => exact ⟨hsound.keyed, fun tx htx => hended _ (hsound.ended tx htx)⟩

theorem untouched_endSweep (server : Nat) (k : SessionId) :
    Store.Untouched k store (store.endSweep server) := by
  have hrefunds : (store.endSweep server).refunds = store.refunds := rfl
  exact .of_same hrefunds rfl rfl k

/-- A refund comes under way by looking for its row. -/
theorem Stages.under_way {stage' : Stage} (h : Stages cfg store sid stage reply s (.goes stage'))
    (hexecuting : stage'.executing = true) :
    stage.executing = true ∨ ∃ session reason, stage = .findOne session reason := by
  cases hbefore : stage.executing with
  | true => exact Or.inl rfl
  | false =>
      cases stage with
      | findById =>
          cases h with
          | loaded hfind hstatus => cases hexecuting
      | findOne session reason => exact Or.inr ⟨session, reason, rfl⟩
      | _ => cases hbefore

theorem Continues.untouched (h : Continues s caller sid next store' flow) (k : SessionId) :
    Store.Untouched k s store' := by
  cases h with
  | swept => exact untouched_endSweep _ k
  | _ => exact .of_same rfl rfl rfl k

theorem Continues.closings (h : Continues s caller sid next store' flow) :
    store'.closings = s.closings := by
  cases h with
  | _ => rfl

/-- A step of one refund does not touch another session. -/
theorem Stages.others_untouched (h : Stages cfg store sid stage reply s next)
    (hstage : stage.Holds store sid) (hcontinues : Continues s caller sid next store' flow)
    (hk : k ≠ sid) : Store.Untouched k store store' := by
  have hstep := h.untouched hstage hk
  have hcaller := hcontinues.untouched k
  refine ⟨hcaller.refund.trans hstep.refund, fun hended => hcaller.ended (hstep.ended hended),
    fun hmarked => hcaller.marked (hstep.marked hmarked), ?_⟩
  rw [hcontinues.closings]
  exact hstep.closings

end Steps

/-! ## The invariant -/

abbrev State := Calls Store Process Answer

structure Orderly (c : State) : Prop where
  annotated : c.Annotated Store.Sound (fun store _ p => p.Holds store) Process.Apart
  idle : ∀ sid, (∀ id p, c.process id = some p → p.refunding sid = false) → c.store.Idle sid

section Invariant

variable {cfg : Config} {c c' : State} {id : CallId} {store' : Store}
  {flow : Flow Process Answer} {p : Process} {reply : Reply}

theorem Store.Sound.untouched {store : Store} (h : store.Sound)
    (huntouched : ∀ sid, Store.Untouched sid store store')
    (hkeyed : Table.Keyed ClosingTx.hash store'.closings) : store'.Sound := by
  refine ⟨hkeyed, ?_⟩
  intro tx' htx'
  rcases (huntouched _).closings tx' htx' rfl with ⟨tx, htx, hid, _⟩
  rw [← hid]
  exact (huntouched _).ended (h.ended tx htx)

theorem refunding_eq_true {caller : Caller} {sid k : SessionId} {stage : Stage} :
    (Process.refund caller sid stage).refunding k = true ↔ sid = k ∧ stage.executing = true := by
  simp [Process.refunding]

/-- The obligations of a step that does not come under way with a refund. -/
theorem Orderly.go_of_untouched (hc : Orderly c)
    (huntouched : ∀ sid, Store.Untouched sid c.store store')
    (hclosings : store'.closings = c.store.closings)
    (hself : flow.Awaits fun q => q.Holds store' ∧ ∀ sid, q.refunding sid = false)
    (hp : ∀ q sid, c.process id = some q → q.refunding sid = false) :
    Orderly (c.go id store' flow) := by
  have hholds : flow.Awaits fun q => q.Holds store' := by
    cases flow with
    | await q => exact hself.1
    | answer a => trivial
  have hsound := Store.Sound.untouched hc.annotated.store huntouched
    (by rw [hclosings]; exact hc.annotated.store.keyed)
  refine ⟨hc.annotated.go (fun _ _ h => h.symm) hsound hholds ?_, ?_⟩
  · intro k q hk hq
    refine ⟨(hc.annotated.process k q hq).frame (fun sid => (huntouched sid).ended)
      (fun sid _ => huntouched sid), ?_⟩
    cases flow with
    | await next => exact fun sid _ => hself.2 sid
    | answer a => trivial
  · intro sid hnone
    rw [Calls.store_go]
    refine (huntouched sid).idle (hc.idle sid ?_)
    intro k q hq
    by_cases hk : id = k
    · subst hk
      exact hp q sid hq
    · exact hnone k q (by rw [Calls.process_go_of_ne hk]; exact hq)

/-- A session that no refund is under way with after a step is idle then. -/
theorem Orderly.idle_refund (hc : Orderly c) {caller : Caller} {sid : SessionId} {stage : Stage}
    {s : Store} {next : Next} (hp : c.process id = some (.refund caller sid stage))
    (h : Stages cfg c.store sid stage reply s next)
    (hcontinues : Continues s caller sid next store' flow) {k : SessionId}
    (hnone : ∀ j q, (c.go id store' flow).process j = some q → q.refunding k = false) :
    store'.Idle k := by
  have hstage : stage.Holds c.store sid := hc.annotated.process id _ hp
  have hbefore : ((Process.refund caller sid stage).refunding k = false) → c.store.Idle k := by
    intro hfalse
    refine hc.idle k ?_
    intro j q hq
    by_cases hj : id = j
    · subst hj
      rw [hp] at hq
      cases hq
      exact hfalse
    · exact hnone j q (by rw [Calls.process_go_of_ne hj]; exact hq)
  by_cases hk : k = sid
  · subst hk
    cases hexecuting : stage.executing with
    | false =>
        have hidle := hbefore (by simp [Process.refunding, hexecuting])
        rw [h.unchanged hexecuting] at hcontinues
        exact (hcontinues.untouched k).idle hidle
    | true =>
        cases hcontinues with
        | goes =>
            have hstill := hnone id _ (Calls.process_go_self.2 rfl)
            rw [refunding_eq_true.2 ⟨rfl, h.executing hexecuting⟩] at hstill
            cases hstill
        | answers hcaller => exact h.idle hstage hexecuting
        | next => exact h.idle hstage hexecuting
        | swept =>
            exact (untouched_endSweep _ k).idle (h.idle hstage hexecuting)
  · refine (h.others_untouched hstage hcontinues hk).idle (hbefore ?_)
    simp [Process.refunding, Ne.symm hk]

/-- One step of a refund, with what its guard gives. -/
theorem Orderly.go_refund (hc : Orderly c) {caller : Caller} {sid : SessionId} {stage : Stage}
    {s : Store} {next : Next} (hp : c.process id = some (.refund caller sid stage))
    (h : Stages cfg c.store sid stage reply s next)
    (hcontinues : Continues s caller sid next store' flow)
    (hturn : ∀ session reason, stage = .findOne session reason →
      ∀ k q, c.process k = some q → q.refunding sid = false)
    (hgiven : ∀ refund hash message, stage = .waitFor refund hash → reply = .failed message →
      (c.store.fateOf hash).live = false) :
    Orderly (c.go id store' flow) := by
  have hstage : stage.Holds c.store sid := hc.annotated.process id _ hp
  have hsound : store'.Sound := by
    refine (h.sound hstage hc.annotated.store).untouched hcontinues.untouched ?_
    rw [hcontinues.closings]
    exact (h.sound hstage hc.annotated.store).keyed
  have hended : ∀ k, c.store.Ended k → store'.Ended k :=
    fun k hk => (hcontinues.untouched k).ended (h.ended hk)
  have hself : ∀ stage', next = .goes stage' → stage'.Holds s sid := by
    rintro stage' rfl
    exact h.holds hc.annotated.store.keyed hstage
      (fun session reason hEq => hc.idle sid (hturn session reason hEq)) hgiven
  have hholds : flow.Awaits fun q => q.Holds store' := by
    cases hcontinues with
    | goes => exact hself _ rfl
    | _ => trivial
  -- nobody else is under way with this escrow once the refund is
  have halone : stage.executing = true ∨ (∃ session reason, stage = .findOne session reason) →
      ∀ k q, k ≠ id → c.process k = some q → q.refunding sid = false := by
    rintro (hexecuting | ⟨session, reason, hEq⟩) k q hk hq
    · exact hc.annotated.apart id k _ q (Ne.symm hk) hp hq sid
        (refunding_eq_true.2 ⟨rfl, hexecuting⟩)
    · exact hturn session reason hEq k q hq
  refine ⟨hc.annotated.go (fun _ _ hapart => hapart.symm) hsound hholds ?_, ?_⟩
  · intro k q hk hq
    refine ⟨(hc.annotated.process k q hq).frame hended ?_, ?_⟩
    · intro k' hrefunding
      by_cases hk' : k' = sid
      · subst hk'
        cases hexecuting : stage.executing with
        | true =>
            rw [halone (Or.inl hexecuting) k q hk hq] at hrefunding
            cases hrefunding
        | false =>
            rw [h.unchanged hexecuting] at hcontinues
            exact hcontinues.untouched k'
      · exact h.others_untouched hstage hcontinues hk'
    · cases hcontinues with
      | @goes stage' =>
          intro k' hrefunding
          by_contra hboth
          have hnext := refunding_eq_true.1 (by simpa using hboth)
          obtain rfl : sid = k' := hnext.1
          rw [halone (h.under_way hnext.2) k q hk hq] at hrefunding
          cases hrefunding
      | next => exact fun _ _ => by simp [Process.refunding, Stage.executing]
      | _ => trivial
  · intro k hnone
    rw [Calls.store_go]
    exact hc.idle_refund hp h hcontinues hnone

/-! ### Events and other calls -/

/-- A session that has ended keeps its status, and every session its `refundedAt`. -/
structure EscrowSession.KeepsRefund (session session' : EscrowSession) : Prop where
  refundedAt : session'.refundedAt = session.refundedAt
  ended : (refundable session.status).isSome = true → session'.status = session.status

theorem untouched_withEscrow {store : Store} {escrow : Escrow.Store}
    (h : ∀ sid session, store.escrow.find sid = some session →
      ∃ session', escrow.find sid = some session' ∧ EscrowSession.KeepsRefund session session')
    (sid : SessionId) : Store.Untouched sid store (store.withEscrow escrow) := by
  refine ⟨rfl, ?_, ?_, fun tx htx hid => ⟨tx, htx, hid, rfl, tx.fate.canBecome_self⟩⟩
  · rintro ⟨session, hfind, hstatus⟩
    rcases h sid session hfind with ⟨session', hfind', hkeeps⟩
    exact ⟨session', hfind', by rw [hkeeps.ended hstatus]; exact hstatus⟩
  · rintro ⟨session, hfind, hset⟩
    rcases h sid session hfind with ⟨session', hfind', hkeeps⟩
    exact ⟨session', hfind', by rw [hkeeps.refundedAt]; exact hset⟩

theorem keepsRefund_expire (now : Time) (session : EscrowSession) :
    EscrowSession.KeepsRefund session (session.expire now) := by
  rcases Escrow.Store.expire_cases now session with hsame | ⟨hopen, hexpired⟩
  · rw [hsame]
    exact ⟨rfl, fun _ => rfl⟩
  · rw [hexpired]
    refine ⟨rfl, ?_⟩
    intro hstatus
    rw [hopen] at hstatus
    cases hstatus

theorem untouched_expireDue {store : Store} (now : Time) (sid : SessionId) :
    Store.Untouched sid store (store.withEscrow (store.escrow.expireDue now)) := by
  refine untouched_withEscrow ?_ sid
  exact Table.Evolves.map (Escrow.Store.id_expire now) (keepsRefund_expire now)

theorem Happens.untouched {store : Store} {e : Event} (h : Happens store e store')
    (sid : SessionId) : Store.Untouched sid store store' := by
  cases h with
  | escrow hmark h =>
      cases h with
      | expireDue now => exact untouched_expireDue now sid
      | markRefunded k refundedAt => exact absurd rfl (hmark k refundedAt)
      | _ =>
          refine untouched_withEscrow ?_ sid
          exact fun _ session hfind => ⟨session, hfind, rfl, fun _ => rfl⟩
  | @settlement row =>
      have hrefunds : (store.saveSettlement row).refunds = store.refunds := rfl
      exact .of_same hrefunds rfl rfl sid
  | @closing hash fate tx hlookup hbecomes honce =>
      refine ⟨rfl, fun hended => hended, fun hmarked => hmarked, ?_⟩
      intro tx' htx' hid
      rcases Table.mem_put htx' with rfl | ⟨hmem, _⟩
      · exact ⟨tx, Table.mem_of_lookup hlookup, hid, rfl, hbecomes⟩
      · exact ⟨tx', hmem, hid, rfl, tx'.fate.canBecome_self⟩

theorem Happens.keyed {store : Store} {e : Event} (h : Happens store e store')
    (hkeyed : Table.Keyed ClosingTx.hash store.closings) :
    Table.Keyed ClosingTx.hash store'.closings := by
  cases h with
  | closing hlookup hbecomes honce => exact hkeyed.put
  | _ => exact hkeyed

theorem Orderly.external {e : Event} (hc : Orderly c) (h : Happens c.store e store') :
    Orderly { c with store := store' } := by
  refine ⟨⟨hc.annotated.store.untouched h.untouched (h.keyed hc.annotated.store.keyed), ?_,
    hc.annotated.apart⟩, ?_⟩
  · intro id p hp
    exact (hc.annotated.process id p hp).frame (fun sid => (h.untouched sid).ended)
      (fun sid _ => h.untouched sid)
  · intro sid hnone
    exact (h.untouched sid).idle (hc.idle sid hnone)

/-! ### Every step -/

theorem inTurn_findOne {caller : Caller} {sid : SessionId} {session : EscrowSession}
    {reason : RefundReason} (h : inTurn (.resume id reply) c = true)
    (hp : c.process id = some (.refund caller sid (.findOne session reason))) :
    ∀ k q, c.process k = some q → q.refunding sid = false := by
  intro k q hq
  simp only [inTurn, hp] at h
  rcases Option.map_eq_some_iff.1 hq with ⟨entry, hentry, rfl⟩
  simpa using List.all_eq_true.1 h entry (Table.mem_of_lookup hentry)

theorem inTurn_waitFor {caller : Caller} {sid : SessionId} {refund : EscrowRefund} {hash : TxHash}
    {message : String} (h : inTurn (.resume id (.failed message)) c = true)
    (hp : c.process id = some (.refund caller sid (.waitFor refund hash))) :
    (c.store.fateOf hash).live = false := by
  simpa [inTurn, hp] using h

theorem Orderly.step (m : Move Request Reply Event) (c c' : State) (hc : Orderly c)
    (h : inTurnStep cfg m c = some c') : Orderly c' := by
  rcases guarded_eq_some.1 h with ⟨hturn, h⟩
  rcases guarded_eq_some.1 h with ⟨honly, h⟩
  cases Service.steps_of_step h with
  | call id r hnew hunanswered =>
      have hnone : ∀ q sid, c.process id = some q → q.refunding sid = false := by
        intro q sid hq
        rw [hnew] at hq
        cases hq
      cases r with
      | escrow r => cases honly
      | refund sid =>
          exact hc.go_of_untouched (fun _ => .of_same rfl rfl rfl _) rfl
            ⟨trivial, by simp [Process.refunding, Stage.executing]⟩ hnone
      | sweep server =>
          by_cases hsweeping : server ∈ c.store.sweeping
          · simp only [service, start, hsweeping, if_true]
            exact hc.go_of_untouched (fun _ => .of_same rfl rfl rfl _) rfl trivial hnone
          · simp only [service, start, hsweeping, if_false]
            have hrefunds : (c.store.setSweeping server).refunds = c.store.refunds := rfl
            exact hc.go_of_untouched (fun _ => .of_same hrefunds rfl rfl _) rfl
              ⟨trivial, fun _ => rfl⟩ hnone
  | resume id p i store' flow hp hresume =>
      have hown : ∀ sid, p.refunding sid = false →
          ∀ q, c.process id = some q → q.refunding sid = false := by
        intro sid hfalse q hq
        rw [hp] at hq
        cases hq
        exact hfalse
      cases resumes_of_resume hresume with
      | escrow h => exact absurd (hc.annotated.process id _ hp) (fun hfalse => hfalse)
      | refund hstages hcontinues =>
          refine hc.go_refund hp hstages hcontinues ?_ ?_
          · rintro session reason rfl
            exact inTurn_findOne hturn hp
          · rintro refund hash message rfl rfl
            exact inTurn_waitFor hturn hp
      | expires =>
          exact hc.go_of_untouched (untouched_expireDue _) rfl
            ⟨trivial, fun _ => rfl⟩ (fun q sid hq => hown sid rfl q hq)
      | sweeps =>
          exact hc.go_of_untouched (fun _ => .of_same rfl rfl rfl _) rfl
            ⟨trivial, by simp [Process.refunding, Stage.executing]⟩ (fun q sid hq => hown sid rfl q hq)
      | swept =>
          exact hc.go_of_untouched (untouched_endSweep _) rfl trivial
            (fun q sid hq => hown sid rfl q hq)
  | external e store' hexternal => exact hc.external (happens_of_external hexternal)

theorem Orderly.initial (escrow : Escrow.Store) (settlements : List SettlementRow) :
    Orderly (.start (.unrefunded escrow settlements)) := by
  have hsound : (Store.unrefunded escrow settlements).Sound := by
    refine ⟨List.nodup_nil, ?_⟩
    intro tx htx
    cases htx
  refine ⟨.start hsound, ?_⟩
  intro sid _
  refine ⟨Or.inl ?_, ?_⟩
  · intro tx htx
    cases htx
  · rintro ⟨refund, hrow, _⟩
    cases hrow

/-! ## What stays -/

/-- The row is completed and the session marked. -/
def Store.Refunded (store : Store) (sid : SessionId) : Prop :=
  store.Completed sid ∧ store.Marked sid

/-- What a step keeps of every escrow. -/
structure Store.Advances (store store' : Store) : Prop where
  completed : ∀ sid, store.Completed sid → store'.Completed sid
  marked : ∀ sid, store.Marked sid → store'.Marked sid
  mined : ∀ sid, store.Mined sid → store'.Mined sid

theorem Store.Advances.of_untouched {store : Store}
    (h : ∀ sid, Store.Untouched sid store store') (hclosings : store'.closings = store.closings) :
    store.Advances store' := by
  refine ⟨fun sid => (h sid).completed.2, fun sid => (h sid).marked, ?_⟩
  intro sid hmined
  rw [Store.Mined, hclosings]
  exact hmined

theorem Stages.advances {store s : Store} {sid : SessionId} {stage : Stage} {next : Next}
    (h : Stages cfg store sid stage reply s next) (hstage : stage.Holds store sid) :
    store.Advances s := by
  refine ⟨?_, fun k => h.marked, ?_⟩
  · intro k hcompleted
    by_cases hk : k = sid
    · subst hk
      exact h.completed hstage hcompleted
    · exact (h.untouched hstage hk).completed.2 hcompleted
  · rintro k ⟨tx, htx, hid, hmined⟩
    cases h with
    | @sends refund hash hnew =>
        have hne : tx.hash ≠ hash := Table.lookup_eq_none.1 hnew tx htx
        exact ⟨tx, List.mem_cons_of_mem _ (Table.mem_drop.2 ⟨htx, hne⟩), hid, hmined⟩
    | _ => exact ⟨tx, htx, hid, hmined⟩

theorem Happens.advances {store : Store} {e : Event} (h : Happens store e store')
    (hkeyed : Table.Keyed ClosingTx.hash store.closings) : store.Advances store' := by
  refine ⟨fun sid => (h.untouched sid).completed.2, fun sid => (h.untouched sid).marked, ?_⟩
  rintro sid ⟨tx, htx, hid, hmined⟩
  cases h with
  | @closing hash fate old hlookup hbecomes honce =>
      by_cases hhash : tx.hash = old.hash
      · have hEq := hkeyed.eq_of_key htx (Table.mem_of_lookup hlookup) hhash
        subst hEq
        exact ⟨_, List.mem_cons_self, hid, Fate.isMined_of_canBecome hbecomes hmined⟩
      · exact ⟨tx, List.mem_cons_of_mem _ (Table.mem_drop.2 ⟨htx, hhash⟩), hid, hmined⟩
  | _ => exact ⟨tx, htx, hid, hmined⟩

theorem Orderly.advances {m : Move Request Reply Event} (hc : Orderly c)
    (h : inTurnStep cfg m c = some c') : c.store.Advances c'.store := by
  rcases guarded_eq_some.1 h with ⟨hturn, h⟩
  rcases guarded_eq_some.1 h with ⟨honly, h⟩
  cases Service.steps_of_step h with
  | call id r hnew hunanswered =>
      rw [Calls.store_go]
      cases r with
      | escrow r => cases honly
      | refund sid => exact .of_untouched (fun _ => .of_same rfl rfl rfl _) rfl
      | sweep server =>
          by_cases hsweeping : server ∈ c.store.sweeping
          · simp only [service, start, hsweeping, if_true]
            exact .of_untouched (fun _ => .of_same rfl rfl rfl _) rfl
          · simp only [service, start, hsweeping, if_false]
            have hrefunds : (c.store.setSweeping server).refunds = c.store.refunds := rfl
            exact .of_untouched (fun _ => .of_same hrefunds rfl rfl _) rfl
  | resume id p i store' flow hp hresume =>
      rw [Calls.store_go]
      cases resumes_of_resume hresume with
      | escrow h => exact absurd (hc.annotated.process id _ hp) (fun hfalse => hfalse)
      | refund hstages hcontinues =>
          have hstep := hstages.advances (hc.annotated.process id _ hp)
          have hrest := Store.Advances.of_untouched hcontinues.untouched hcontinues.closings
          exact ⟨fun sid hk => hrest.completed sid (hstep.completed sid hk),
            fun sid hk => hrest.marked sid (hstep.marked sid hk),
            fun sid hk => hrest.mined sid (hstep.mined sid hk)⟩
      | expires => exact .of_untouched (untouched_expireDue _) rfl
      | sweeps => exact .of_untouched (fun _ => .of_same rfl rfl rfl _) rfl
      | swept => exact .of_untouched (untouched_endSweep _) rfl
  | external e store' hexternal =>
      exact (happens_of_external hexternal).advances hc.annotated.store.keyed

/-! ## A call after the transaction was mined -/

/-- A mined refund is completed as soon as no refund of the escrow is under way. -/
theorem Orderly.refunded (hc : Orderly c) {sid : SessionId} (hmined : c.store.Mined sid)
    (hnone : ∀ id p, c.process id = some p → p.refunding sid = false) : c.store.Refunded sid := by
  have hidle := hc.idle sid hnone
  rcases hidle.live with hlive | hcompleted
  · rcases hmined with ⟨tx, htx, hid, htxmined⟩
    have hdead := hlive tx htx hid
    rw [Fate.live_of_isMined htxmined] at hdead
    cases hdead
  · exact ⟨hcompleted, hidle.marked hcompleted⟩

/-- The request has not come under way yet, or the escrow is refunded. -/
structure Catches (sid : SessionId) (id : CallId) (c : State) : Prop where
  orderly : Orderly c
  mined : c.store.Mined sid
  request : (c.answered id = none ∧ ∃ stage, c.process id = some (.refund .request sid stage) ∧
    stage.executing = false) ∨ c.store.Refunded sid

theorem Catches.step {sid : SessionId} (m : Move Request Reply Event) (c c' : State)
    (hc : Catches sid id c) (h : inTurnStep cfg m c = some c') : Catches sid id c' := by
  have hadvances := hc.orderly.advances h
  refine ⟨hc.orderly.step m c c' h, hadvances.mined sid hc.mined, ?_⟩
  have hrefunded : c.store.Refunded sid → c'.store.Refunded sid :=
    fun hr => ⟨hadvances.completed sid hr.1, hadvances.marked sid hr.2⟩
  rcases hc.request with ⟨hunanswered, stage, hp, hexecuting⟩ | hr
  · rcases guarded_eq_some.1 h with ⟨hturn, h⟩
    rcases guarded_eq_some.1 h with ⟨honly, h⟩
    have hsteps := Service.steps_of_step h
    by_cases hid : m.callId = some id
    · cases hsteps with
      | call k r hnew _ =>
          cases hid
          rw [hnew] at hp
          cases hp
      | external e store hexternal => cases hid
      | resume k p i store flow hp' hresume =>
          cases hid
          rw [hp] at hp'
          cases hp'
          rcases hc.mined with ⟨tx, htx, htxid, _⟩
          have hended := hc.orderly.annotated.store.ended tx htx
          rw [htxid] at hended
          rcases hended with ⟨session, hfind, hstatus⟩
          have hresumes : Resumes cfg id c.store (.refund .request sid stage) i store flow :=
            resumes_of_resume hresume
          cases hresumes with
          | refund hstages hcontinues =>
              cases hstages with
              | missing hnone =>
                  rw [hfind] at hnone
                  cases hnone
              | refused hfind' hnone =>
                  rw [hfind] at hfind'
                  cases hfind'
                  rw [hnone] at hstatus
                  cases hstatus
              | loaded hfind' hstatus' =>
                  cases hcontinues with
                  | goes => exact Or.inl ⟨hunanswered, _, Calls.process_go_self.2 rfl, rfl⟩
              | returned hrow hcompleted =>
                  exact Or.inr (hrefunded (hc.orderly.refunded hc.mined (inTurn_findOne hturn hp)))
              | retried hrow hcompleted =>
                  exact Or.inr (hrefunded (hc.orderly.refunded hc.mined (inTurn_findOne hturn hp)))
              | creates hrow =>
                  exact Or.inr (hrefunded (hc.orderly.refunded hc.mined (inTurn_findOne hturn hp)))
              | _ => cases hexecuting
    · have hframe := hsteps.frame hid
      rw [hframe.1, hframe.2]
      exact Or.inl ⟨hunanswered, stage, hp, hexecuting⟩
  · exact Or.inr (hrefunded hr)

theorem Orderly.run {moves : List (Move Request Reply Event)} (hc : Orderly c)
    (h : run (inTurnStep cfg) moves c = some c') : Orderly c' ∧ c.store.Advances c'.store := by
  have hrefl : c.store.Advances c.store :=
    ⟨fun _ hk => hk, fun _ hk => hk, fun _ hk => hk⟩
  have hstep : ∀ m d d', (Orderly d ∧ c.store.Advances d.store) → inTurnStep cfg m d = some d' →
      Orderly d' ∧ c.store.Advances d'.store := by
    rintro m d d' ⟨hd, hadv⟩ hd'
    have hnext := hd.advances hd'
    exact ⟨hd.step m d d' hd', fun sid hk => hnext.completed sid (hadv.completed sid hk),
      fun sid hk => hnext.marked sid (hadv.marked sid hk),
      fun sid hk => hnext.mined sid (hadv.mined sid hk)⟩
  exact run_invariant (P := fun d : State => Orderly d ∧ c.store.Advances d.store) hstep ⟨hc, hrefl⟩ h

end Invariant

/-- In every run that keeps to `inTurn`, once an `emergencyClose` of an escrow has been mined:
whenever no refund of it is under way, and whenever a request that came later has been answered, its
row is completed and the session marked; and a completed row stays completed. -/
theorem mined_refund_completed {cfg : Config} {escrow : Escrow.Store}
    {settlements : List SettlementRow} {moves later : List (Move Request Reply Event)} {c c' : State}
    (h : run (inTurnStep cfg) moves (.start (.unrefunded escrow settlements)) = some c)
    (hlater : run (inTurnStep cfg) later c = some c') (sid : SessionId) :
    (c.store.Completed sid → c'.store.Completed sid) ∧
      (c.store.Mined sid →
        ((∀ id p, c.process id = some p → p.refunding sid = false) → c.store.Refunded sid) ∧
        ∀ id, .call id (.refund sid) ∈ later → c'.answered id ≠ none → c'.store.Refunded sid) := by
  have hc := (Orderly.initial escrow settlements).run h
  refine ⟨(hc.1.run hlater).2.completed sid, ?_⟩
  intro hmined
  refine ⟨hc.1.refunded hmined, ?_⟩
  intro id hcall hanswered
  rcases List.append_of_mem hcall with ⟨before, after, rfl⟩
  rcases run_append.1 hlater with ⟨d, hd, hrest⟩
  rcases run_cons_eq_some.1 hrest with ⟨d', hd', hafter⟩
  have hbefore := hc.1.run hd
  -- the request begins, and catches up with the refund that was mined
  have hcatches : Catches sid id d' := by
    refine ⟨hbefore.1.step _ d d' hd', ?_, ?_⟩
    · exact (hbefore.1.advances hd').mined sid (hbefore.2.mined sid hmined)
    · cases Service.steps_of_step (guarded_eq_some.1 (guarded_eq_some.1 hd').2).2 with
      | call _ _ hnew hunanswered =>
          exact Or.inl ⟨hunanswered, .findById, Calls.process_go_self.2 rfl, rfl⟩
  have hend := run_invariant Catches.step hcatches hafter
  rcases hend.request with ⟨hunanswered, _⟩ | hrefunded
  · exact absurd hunanswered hanswered
  · exact hrefunded

/-- A session of 1 that was cancelled. -/
def cancelledSession : EscrowSession where
  id := 1
  agentA := "0xA1".toList
  agentB := "0xB2".toList
  depositAmount := ⟨scale⟩
  budgetLimit := ⟨scale⟩
  releasedAmount := ⟨0⟩
  verificationRequired := false
  status := .cancelled
  ttl := 3600
  createdAt := 0
  closedAt := some 5
  refundedAt := none

def cancelledStore : Store :=
  .unrefunded { Escrow.Store.empty with sessions := [cancelledSession] } []

def sampleConfig : Config where
  escrow :=
    { hubConfigured := true
      overrides := []
      defaultLimit := none
      windowHours := "24"
      window := 86400000000
      hashtext := List.length }
  sweepBatch := 50

/-- The first `emergencyClose` reverts; the second one, sent by a sweep, is mined. -/
def refundedInTurn : List (Move Request Reply Event) :=
  [.call 1 (.refund 1), .resume 1 .done, .resume 1 .done, .resume 1 .done, .resume 1 .done,
    .resume 1 .done, .resume 1 (.sent 100), .external (.closing 100 .reverted),
    .resume 1 (.failed "reverted"), .resume 1 .done, .call 2 (.sweep 0), .resume 2 .done,
    .resume 2 .done, .resume 2 .done, .resume 2 .done, .resume 2 (.sent 101),
    .external (.closing 101 (.mined 1))]

/-- The sweep completes the refund, and a request returns its row. -/
def requestedAgain : List (Move Request Reply Event) :=
  [.resume 2 .done, .resume 2 .done, .call 3 (.refund 1), .resume 2 .done, .resume 3 .done,
    .resume 3 .done]

theorem mined_of_any {store : Store} {sid : SessionId}
    (h : (store.closings.any fun tx => tx.escrowId = sid && tx.fate.isMined) = true) :
    store.Mined sid := by
  rcases List.any_eq_true.1 h with ⟨tx, htx, hok⟩
  rcases Bool.and_eq_true_iff.1 hok with ⟨hid, hmined⟩
  exact ⟨tx, htx, of_decide_eq_true hid, hmined⟩

theorem mined_refund_completed_refundedInTurn :
    ∃ c c', run (inTurnStep sampleConfig) refundedInTurn (.start cancelledStore) = some c ∧
      run (inTurnStep sampleConfig) requestedAgain c = some c' ∧
      c.store.Mined 1 ∧ c'.answered 3 ≠ none ∧ c'.store.Refunded 1 := by
  have hreached : ((run (inTurnStep sampleConfig) refundedInTurn (.start cancelledStore)).any
      fun c => (c.store.closings.any fun tx => tx.escrowId = 1 && tx.fate.isMined) &&
        (run (inTurnStep sampleConfig) requestedAgain c).any fun c' => (c'.answered 3).isSome) =
          true := by
    decide +kernel
  rcases (Option.any_eq_true _ _).1 hreached with ⟨c, hc, hstate⟩
  rcases Bool.and_eq_true_iff.1 hstate with ⟨hclosings, hany⟩
  rcases (Option.any_eq_true _ _).1 hany with ⟨c', hc', hsome⟩
  have hmined : c.store.Mined 1 := mined_of_any hclosings
  have hanswered : c'.answered 3 ≠ none := Option.isSome_iff_ne_none.1 hsome
  have hcompleted := mined_refund_completed hc hc' 1
  exact ⟨c, c', hc, hc', hmined, hanswered,
    (hcompleted.2 hmined).2 3 (by decide) hanswered⟩

/-- The wait for the `emergencyClose` times out, and it is mined afterwards. -/
def minedLate : List (Move Request Reply Event) :=
  [.call 1 (.refund 1), .resume 1 .done, .resume 1 .done, .resume 1 .done, .resume 1 .done,
    .resume 1 .done, .resume 1 (.sent 100), .resume 1 (.failed "timeout"), .resume 1 .done,
    .external (.closing 100 (.mined 1))]

/-- The next request sends another one, which reverts. -/
def retriedLate : List (Move Request Reply Event) :=
  [.call 2 (.refund 1), .resume 2 .done, .resume 2 .done, .resume 2 (.sent 101),
    .external (.closing 101 .reverted), .resume 2 (.failed "EscrowHub: not active"), .resume 2 .done]

/-- Without the condition the payer has been refunded and the row is failed, for every later request
as well. -/
theorem mined_refund_failed :
    ¬ ∀ (cfg : Config) (escrow : Escrow.Store) (settlements : List SettlementRow)
      (moves later : List (Move Request Reply Event)) (c c' : State),
      cfg.escrow.hubConfigured = true →
      run (refundsStep cfg) moves (.start (.unrefunded escrow settlements)) = some c →
        run (refundsStep cfg) later c = some c' →
          ∀ sid id, c.store.Mined sid → .call id (.refund sid) ∈ later → c'.answered id ≠ none →
            c'.store.Refunded sid := by
  intro hclaim
  have hreached : ((run (refundsStep sampleConfig) minedLate (.start cancelledStore)).any
      fun c => (c.store.closings.any fun tx => tx.escrowId = 1 && tx.fate.isMined) &&
        (run (refundsStep sampleConfig) retriedLate c).any fun c' => (c'.answered 2).isSome &&
          (c'.store.findRefund 1).any fun refund => refund.status = .failed) = true := by
    decide +kernel
  rcases (Option.any_eq_true _ _).1 hreached with ⟨c, hc, hstate⟩
  rcases Bool.and_eq_true_iff.1 hstate with ⟨hclosings, hany⟩
  rcases (Option.any_eq_true _ _).1 hany with ⟨c', hc', hafter⟩
  rcases Bool.and_eq_true_iff.1 hafter with ⟨hsome, hrow⟩
  rcases (Option.any_eq_true _ _).1 hrow with ⟨refund, hrefund, hfailed⟩
  have hcompleted := hclaim sampleConfig _ _ minedLate retriedLate c c' rfl hc hc' 1 2
    (mined_of_any hclosings) (by decide) (Option.isSome_iff_ne_none.1 hsome)
  rcases hcompleted.1 with ⟨row, hrow', hstatus⟩
  rw [hrefund] at hrow'
  cases hrow'
  rw [of_decide_eq_true hfailed] at hstatus
  cases hstatus

end Refunds
end PaymentRail
