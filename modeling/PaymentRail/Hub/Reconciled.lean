import PaymentRail.Hub.RefundPaid
import PaymentRail.Reconciliation.ReconciliationService

/-!
# Reconciled — what a reconciliation finds between two calls

The rail closes a session in its own table before it closes the escrow on the hub: `close` saves the
session and then sends, and `emergencyClose` is only sent for a session that has expired or was
cancelled.  So an open session is never inactive on the hub (`ClosedAfter`), and with the equation of
`Mirror` nothing is left that a reconciliation could report but sessions the hub has never heard of
(`only_missing_sessions_reported`).
-/

namespace PaymentRail
namespace Hub

open Machine Strings Money Collections Refunds
open Escrow (SessionId TxHash Reply EscrowSession HubCall)
open Settlement (Fate)
open Contracts (World transact Faithful)
open Reconciliation (Ledger ReconciliationRun report snapshot sessionReports)

/-! ## Sessions that have left OPEN -/

/-- The session is stored, and not open. -/
def Left (store : Store) (sid : SessionId) : Prop :=
  ∃ session, store.escrow.find sid = some session ∧ session.status ≠ .open

/-- No session returns to OPEN. -/
def KeepsLeft (store store' : Escrow.Store) : Prop :=
  Table.Evolves EscrowSession.id (fun session session' => session.status ≠ .open →
    session'.status ≠ .open) store.sessions store'.sessions

/-- What is closed on the hub, or is going to be, has left OPEN in the table. -/
structure ClosedAfter (net : Network) (hub : World) (store : Store) : Prop where
  keyed : Table.Keyed EscrowSession.id store.escrow.sessions
  closed : ∀ sid, (store.escrow.find sid).isSome = true → Closed net hub sid → Left store sid
  calls : ∀ tx ∈ store.escrow.transactions, ∀ sid, tx.call = .closeEscrow sid → Left store sid
  closings : ∀ tx ∈ store.closings, Left store tx.escrowId

/-- A `closeEscrow` that is about to be sent belongs to such a session. -/
def ClosesLeft (store : Store) : Process → Prop
  | .escrow (.sendCall _ call) => ∀ sid, call = .closeEscrow sid → Left store sid
  | _ => True

section Left

variable {net : Network} {cfg : Config} {hub hub' : World} {store store' : Store}
  {escrow : Escrow.Store} {id : CallId} {sid : SessionId} {p : Escrow.Process} {reply : Reply}
  {flow : Flow Escrow.Process Escrow.Answer}

theorem Left.keeps (h : Left store sid) (hkeeps : KeepsLeft store.escrow store'.escrow) :
    Left store' sid := by
  rcases h with ⟨session, hfind, hstatus⟩
  rcases hkeeps sid session hfind with ⟨session', hfind', hleft⟩
  exact ⟨session', hfind', hleft hstatus⟩

theorem KeepsLeft.of_same {escrow escrow' : Escrow.Store} (h : escrow'.sessions = escrow.sessions) :
    KeepsLeft escrow escrow' :=
  .of_eq (fun _ hstatus => hstatus) h

theorem ClosesLeft.keeps {q : Process} (h : ClosesLeft store q)
    (hkeeps : KeepsLeft store.escrow store'.escrow) : ClosesLeft store' q := by
  cases q with
  | escrow p =>
      cases p with
      | sendCall session call => exact fun sid hcall => (h sid hcall).keeps hkeeps
      | _ => trivial
  | _ => trivial

/-! ## Steps of a call -/

theorem status_written (op : Escrow.Closing) (loaded : EscrowSession) (closedAt : Escrow.Time) :
    (op.written loaded closedAt).status ≠ .open := by
  cases op with
  | cancel => exact nofun
  | _ => exact nofun

theorem keepsLeft_of_resumes (h : Escrow.Resumes cfg.escrow id store.escrow p reply escrow flow) :
    KeepsLeft store.escrow escrow :=
  h.evolves (fun _ hstatus => hstatus) (fun op loaded closedAt _ _ _ _ =>
    status_written op loaded closedAt) fun _ _ _ hstatus => hstatus

theorem keepsLeft_expireDue (escrow : Escrow.Store) (now : Escrow.Time) :
    KeepsLeft escrow (escrow.expireDue now) := by
  refine .map (Escrow.Store.id_expire now) ?_
  intro session hstatus
  rcases Escrow.Store.expire_cases now session with hsame | ⟨hopen, _⟩
  · rw [hsame]
    exact hstatus
  · exact absurd hopen hstatus

theorem keepsLeft_markRefunded (escrow : Escrow.Store) (sid : SessionId) (now : Escrow.Time) :
    KeepsLeft escrow (escrow.markRefunded sid now) := by
  refine .map (Escrow.Store.id_refundedRow now) ?_
  intro session hstatus
  rcases Escrow.Store.refundedRow_cases sid now session with ⟨_, hsame⟩ | ⟨_, hmarked⟩
  · rw [hsame]
    exact hstatus
  · rw [hmarked]
    exact hstatus

/-- A session that a step has stored is new on the hub. -/
theorem stored_of_resumes (h : Escrow.Resumes cfg.escrow id store.escrow p reply escrow flow)
    (hfresh : (Process.escrow p).Fresh store) (hnew : NewOnHub net hub store p reply)
    (hsome : (escrow.find sid).isSome = true) :
    (store.escrow.find sid).isSome = true ∨ (net.escrow hub sid).createdAt = 0 := by
  have hsaved : ∀ entity : EscrowSession, ((store.escrow.save entity).find sid).isSome = true →
      (store.escrow.find entity.id).isSome = true → (store.escrow.find sid).isSome = true := by
    intro entity hsome hentity
    by_cases hid : entity.id = sid
    · rwa [hid] at hentity
    · rwa [Escrow.Store.find_save_of_ne hid] at hsome
  have hinserted : ∀ entity : EscrowSession, ((store.escrow.save entity).find sid).isSome = true →
      (net.escrow hub entity.id).createdAt = 0 →
        (store.escrow.find sid).isSome = true ∨ (net.escrow hub sid).createdAt = 0 := by
    intro entity hsome hunused
    by_cases hid : entity.id = sid
    · exact Or.inr (by rw [← hid]; exact hunused)
    · rw [Escrow.Store.find_save_of_ne hid] at hsome
      exact Or.inl hsome
  cases h with
  | inserts _ => exact hinserted _ hsome hnew.1
  | commits _ => exact hinserted _ hsome hnew.1
  | @saves op loaded closedAt =>
      refine Or.inl (hsaved _ hsome ?_)
      have hfind : store.escrow.find loaded.id = some loaded := hfresh.1
      rw [show (op.written loaded closedAt).id = loaded.id from rfl, hfind]
      rfl
  | @reserves k dto amount session hfind _ =>
      refine Or.inl (hsaved _ hsome ?_)
      rw [Escrow.Store.id_of_find hfind, hfind]
      rfl
  | @givesBack release message session hfind _ =>
      refine Or.inl (hsaved _ hsome ?_)
      rw [Escrow.Store.id_of_find hfind, hfind]
      rfl
  | _ => exact Or.inl hsome

theorem keyed_of_resumes (h : Escrow.Resumes cfg.escrow id store.escrow p reply escrow flow)
    (hkeyed : Table.Keyed EscrowSession.id store.escrow.sessions) :
    Table.Keyed EscrowSession.id escrow.sessions := by
  cases h with
  | inserts _ => exact hkeyed.put
  | commits _ => exact hkeyed.put
  | saves => exact hkeyed.put
  | reserves _ _ => exact hkeyed.put
  | givesBack _ _ => exact hkeyed.put
  | _ => exact hkeyed

/-- What is sent is the call the process was about to send. -/
theorem calls_of_resumes (h : Escrow.Resumes cfg.escrow id store.escrow p reply escrow flow)
    (hp : ClosesLeft store (.escrow p)) {tx : Escrow.Transaction} (htx : tx ∈ escrow.transactions)
    (hcall : tx.call = .closeEscrow sid) :
    (∃ tx₀ ∈ store.escrow.transactions, tx₀.call = .closeEscrow sid) ∨ Left store sid := by
  cases h with
  | sendsCall _ =>
      rcases Table.mem_put htx with rfl | ⟨hmem, _⟩
      · exact Or.inr (hp sid hcall)
      · exact Or.inl ⟨tx, hmem, hcall⟩
  | paysOut _ =>
      rcases Table.mem_put htx with rfl | ⟨hmem, _⟩
      · cases hcall
      · exact Or.inl ⟨tx, hmem, hcall⟩
  | _ => exact Or.inl ⟨tx, htx, hcall⟩

/-- `close` has saved the session before it sends. -/
theorem closesLeft_of_resumes (h : Escrow.Resumes cfg.escrow id store.escrow p reply escrow flow) :
    flow.Awaits fun q => ClosesLeft (store.withEscrow escrow) (.escrow q) := by
  have hopened : ∀ session, (Escrow.afterOpen cfg.escrow session).Awaits
      fun q => ClosesLeft (store.withEscrow escrow) (.escrow q) := by
    intro session
    simp only [Escrow.afterOpen]
    split
    · intro sid hcall
      cases hcall
    · trivial
  cases h with
  | waits h =>
      cases h with
      | _ => trivial
  | inserts _ => exact hopened _
  | commits _ => exact hopened _
  | @saves op loaded closedAt =>
      cases op with
      | close =>
          simp only [Escrow.afterSave]
          split
          · intro sid hcall
            cases hcall
            exact ⟨_, Escrow.Store.find_save_self, status_written .close loaded closedAt⟩
          · trivial
      | _ => trivial
  | insertsRelease _ =>
      exact Escrow.afterInsert_of (A := fun q => ClosesLeft _ (.escrow q)) trivial trivial cfg.escrow
  | _ => trivial

/-! ## The rule for all steps -/

/-- Sessions stay closed, and nothing is closed that is open in the table. -/
theorem ClosedAfter.rule (h : ClosedAfter net hub store)
    (hkeeps : KeepsLeft store.escrow store'.escrow)
    (hkeyed : Table.Keyed EscrowSession.id store'.escrow.sessions)
    (hclosed : ∀ sid, (store'.escrow.find sid).isSome = true → Closed net hub' sid →
      ((store.escrow.find sid).isSome = true ∧ Closed net hub sid) ∨ Left store sid)
    (hcalls : ∀ tx ∈ store'.escrow.transactions, ∀ sid, tx.call = .closeEscrow sid →
      (∃ tx₀ ∈ store.escrow.transactions, tx₀.call = .closeEscrow sid) ∨ Left store sid)
    (hclosings : ∀ tx ∈ store'.closings,
      (∃ tx₀ ∈ store.closings, tx₀.escrowId = tx.escrowId) ∨ Left store tx.escrowId) :
    ClosedAfter net hub' store' where
  keyed := hkeyed
  closed := by
    intro sid hsome hclosed'
    rcases hclosed sid hsome hclosed' with ⟨hstored, hbefore⟩ | hleft
    · exact (h.closed sid hstored hbefore).keeps hkeeps
    · exact hleft.keeps hkeeps
  calls := by
    intro tx htx sid hcall
    rcases hcalls tx htx sid hcall with ⟨tx₀, htx₀, hcall₀⟩ | hleft
    · exact (h.calls tx₀ htx₀ sid hcall₀).keeps hkeeps
    · exact hleft.keeps hkeeps
  closings := by
    intro tx htx
    rcases hclosings tx htx with ⟨tx₀, htx₀, hid⟩ | hleft
    · rw [← hid]
      exact (h.closings tx₀ htx₀).keeps hkeeps
    · exact hleft.keeps hkeeps

/-- Only rows of other tables change, and the hub stays. -/
theorem ClosedAfter.of_rows (h : ClosedAfter net hub store)
    (hsessions : store'.escrow.sessions = store.escrow.sessions)
    (htransactions : store'.escrow.transactions = store.escrow.transactions)
    (hclosings : store'.closings = store.closings) : ClosedAfter net hub store' := by
  refine h.rule (.of_same hsessions) (by rw [hsessions]; exact h.keyed) ?_ ?_ ?_
  · intro sid hsome hclosed
    rw [Escrow.Store.find, hsessions] at hsome
    exact Or.inl ⟨hsome, hclosed⟩
  · intro tx htx sid hcall
    rw [htransactions] at htx
    exact Or.inl ⟨tx, htx, hcall⟩
  · intro tx htx
    rw [hclosings] at htx
    exact Or.inl ⟨tx, htx, rfl⟩

end Left

/-! ## Transactions -/

section Transactions

variable {net : Network} {hub hub' : World} {store store' : Store} {now depth : Nat}
  {msg : Contracts.Msg} {call : Contracts.Call} {accepts : Bool}

/-- A transaction is mined; if it closes an escrow, then one of a session that has left OPEN. -/
theorem ClosedAfter.transacts (h : ClosedAfter net hub store) (hfaithful : Faithful hub)
    (hnow : 0 < now) (htransact : transact net.hub now msg call accepts hub = some hub')
    (hcall : ∀ sid, (store.escrow.find sid).isSome = true →
      call = .closeEscrow (net.escrowIdHash sid) ∨ call = .emergencyClose (net.escrowIdHash sid) →
        Left store sid)
    (hsessions : store'.escrow.sessions = store.escrow.sessions)
    (hcalls : ∀ tx ∈ store'.escrow.transactions,
      ∃ tx₀ ∈ store.escrow.transactions, tx₀.call = tx.call)
    (hclosings : ∀ tx ∈ store'.closings, ∃ tx₀ ∈ store.closings, tx₀.escrowId = tx.escrowId) :
    ClosedAfter net hub' store' := by
  refine h.rule (.of_same hsessions) (by rw [hsessions]; exact h.keyed) ?_ ?_ ?_
  · intro sid hsome hclosed
    rw [Escrow.Store.find, hsessions] at hsome
    rcases Contracts.transact_deactivates hfaithful hnow htransact hclosed.1 hclosed.2 with
      hbefore | hcloses
    · exact Or.inl ⟨hsome, hbefore⟩
    · exact Or.inr (hcall sid hsome hcloses)
  · intro tx htx sid hclose
    rcases hcalls tx htx with ⟨tx₀, htx₀, hsame⟩
    exact Or.inl ⟨tx₀, htx₀, hsame.trans hclose⟩
  · exact fun tx htx => Or.inl (hclosings tx htx)

/-- The fate of a transaction changes. -/
theorem calls_fated {escrow : Escrow.Store} {tx : Escrow.Transaction} (fate : Fate)
    (hmem : tx ∈ escrow.transactions) :
    ∀ tx' ∈ (escrow.broadcast { tx with fate }).transactions,
      ∃ tx₀ ∈ escrow.transactions, tx₀.call = tx'.call := by
  intro tx' htx'
  rcases Table.mem_put htx' with rfl | ⟨hmem', _⟩
  · exact ⟨tx, hmem, rfl⟩
  · exact ⟨tx', hmem', rfl⟩

theorem closings_fated {tx : ClosingTx} (fate : Fate) (hmem : tx ∈ store.closings) :
    ∀ tx' ∈ (store.broadcast { tx with fate }).closings,
      ∃ tx₀ ∈ store.closings, tx₀.escrowId = tx'.escrowId := by
  intro tx' htx'
  rcases Table.mem_put htx' with rfl | ⟨hmem', _⟩
  · exact ⟨tx, hmem, rfl⟩
  · exact ⟨tx', hmem', rfl⟩

theorem ClosedAfter.fated {tx : Escrow.Transaction} (h : ClosedAfter net hub store) (fate : Fate)
    (hmem : tx ∈ store.escrow.transactions) :
    ClosedAfter net hub (store.withEscrow (store.escrow.broadcast { tx with fate })) := by
  refine h.rule (.of_same rfl) h.keyed (fun sid hsome hclosed => Or.inl ⟨hsome, hclosed⟩) ?_
    fun tx htx => Or.inl ⟨tx, htx, rfl⟩
  intro tx' htx' sid hcall
  rcases calls_fated fate hmem tx' htx' with ⟨tx₀, htx₀, hsame⟩
  exact Or.inl ⟨tx₀, htx₀, hsame.trans hcall⟩

theorem ClosedAfter.closingFated {tx : ClosingTx} (h : ClosedAfter net hub store) (fate : Fate)
    (hmem : tx ∈ store.closings) : ClosedAfter net hub (store.broadcast { tx with fate }) :=
  h.rule (.of_same rfl) h.keyed (fun _ hsome hclosed => Or.inl ⟨hsome, hclosed⟩)
    (fun tx htx _ hcall => Or.inl ⟨tx, htx, hcall⟩)
    fun tx' htx' => Or.inl (closings_fated fate hmem tx' htx')

/-- The call of a session whose hash is the one in a transaction is the call of that session. -/
theorem left_of_hash {reserved : SessionId → Int} {k sid : SessionId}
    (hmirrors : Mirrors net hub store reserved) (hleft : Left store k)
    (hsome : (store.escrow.find sid).isSome = true)
    (hhash : net.escrowIdHash k = net.escrowIdHash sid) : Left store sid := by
  rcases hleft with ⟨session, hfind, hstatus⟩
  have hEq : k = sid := hmirrors.apart k sid (by rw [hfind]; rfl) hsome hhash
  rw [← hEq]
  exact ⟨session, hfind, hstatus⟩

theorem ClosedAfter.mine {tx : Escrow.Transaction} {reserved : SessionId → Int}
    (h : ClosedAfter net hub store) (hmirrors : Mirrors net hub store reserved)
    (hfaithful : Faithful hub) (hnow : 0 < now) (hmem : tx ∈ store.escrow.transactions)
    (hexecute : net.execute now tx.call accepts hub = some hub') :
    ClosedAfter net hub'
      (store.withEscrow (store.escrow.broadcast { tx with fate := .mined depth })) := by
  rcases execute_eq_some hexecute with ⟨msg, c, hencode, htransact⟩
  refine h.transacts hfaithful hnow htransact ?_ rfl (calls_fated _ hmem) fun tx htx => ⟨tx, htx, rfl⟩
  intro sid hsome hcloses
  cases hcall : tx.call with
  | openEscrow k agentB budgetWei verificationRequired ttl depositWei =>
      rw [hcall] at hencode
      rcases encode_openEscrow hencode with ⟨_, _, _, _, _, rfl⟩
      rcases hcloses with hEq | hEq
      · cases hEq
      · cases hEq
  | closeEscrow k =>
      rw [hcall] at hencode
      cases hencode
      rcases hcloses with hEq | hEq
      · exact left_of_hash hmirrors (h.calls tx hmem k hcall) hsome (Contracts.Call.closeEscrow.inj hEq)
      · cases hEq
  | settleBatch k releaseId amountWei =>
      rw [hcall] at hencode
      rcases encode_settleBatch hencode with ⟨_, _, rfl⟩
      rcases hcloses with hEq | hEq
      · cases hEq
      · cases hEq

theorem ClosedAfter.mineClosing {tx : ClosingTx} {reserved : SessionId → Int}
    (h : ClosedAfter net hub store) (hmirrors : Mirrors net hub store reserved)
    (hfaithful : Faithful hub) (hnow : 0 < now) (hmem : tx ∈ store.closings)
    (hclose : net.emergencyClose now tx.escrowId accepts hub = some hub') :
    ClosedAfter net hub' (store.broadcast { tx with fate := .mined depth }) := by
  refine h.transacts hfaithful hnow hclose ?_ rfl (fun tx htx => ⟨tx, htx, rfl⟩)
    (closings_fated _ hmem)
  intro sid hsome hcloses
  rcases hcloses with hEq | hEq
  · cases hEq
  · exact left_of_hash hmirrors (h.closings tx hmem) hsome (Contracts.Call.emergencyClose.inj hEq)

theorem ClosedAfter.settle {row saved : SettlementRow} {receiptsHash : Contracts.Bytes32}
    (h : ClosedAfter net hub store) (hfaithful : Faithful hub) (hnow : 0 < now)
    (hsettle : net.settleBatch now row receiptsHash accepts hub = some hub') :
    ClosedAfter net hub' (store.saveSettlement saved) := by
  rcases settleBatch_eq_some hsettle with ⟨amount, _, htransact⟩
  refine h.transacts hfaithful hnow htransact ?_ rfl (fun tx htx => ⟨tx, htx, rfl⟩)
    fun tx htx => ⟨tx, htx, rfl⟩
  intro sid _ hcloses
  rcases hcloses with hEq | hEq
  · cases hEq
  · cases hEq

theorem ClosedAfter.others (h : ClosedAfter net hub store) (hfaithful : Faithful hub)
    (hnow : 0 < now) (hcall : ∀ session ∈ store.escrow.sessions,
      call.escrowId? ≠ some (net.escrowIdHash session.id))
    (htransact : transact net.hub now msg call accepts hub = some hub') :
    ClosedAfter net hub' store := by
  refine h.transacts hfaithful hnow htransact ?_ rfl (fun tx htx => ⟨tx, htx, rfl⟩)
    fun tx htx => ⟨tx, htx, rfl⟩
  intro sid hsome hcloses
  rcases Option.isSome_iff_exists.1 hsome with ⟨session, hfind⟩
  have hother := hcall session (Escrow.Store.mem_of_find hfind)
  rw [Escrow.Store.id_of_find hfind] at hother
  rcases hcloses with rfl | rfl
  · exact absurd rfl hother
  · exact absurd rfl hother

end Transactions

/-! ## The rail -/

structure Rail.ClosesAfter (net : Network) (r : Rail) : Prop where
  after : ClosedAfter net r.hub r.store
  calls : ∀ id p, r.calls.process id = some p → ClosesLeft r.store p

section Rail

variable {net : Network} {cfg : Config} {r r' : Rail} {id : CallId} {p : Process} {store' : Store}
  {reply : Reply} {flow : Flow Process Answer}

/-- The call `id` goes on. -/
theorem Rail.ClosesAfter.goes (h : r.ClosesAfter net)
    (hkeeps : KeepsLeft r.store.escrow store'.escrow) (hafter : ClosedAfter net r.hub store')
    (hflow : flow.Awaits (ClosesLeft store')) :
    Rail.ClosesAfter net { r with calls := r.calls.go id store' flow } := by
  refine ⟨?_, ?_⟩
  · rw [Rail.store, Calls.store_go]
    exact hafter
  · intro k q hq
    rw [Rail.store, Calls.store_go]
    rcases Calls.of_process_go hq with ⟨_, rfl⟩ | ⟨_, hbefore⟩
    · exact hflow
    · exact (h.calls k q hbefore).keeps hkeeps

/-- What happens around the calls. -/
theorem Rail.ClosesAfter.around {store : Store} {hub : World} (h : r.ClosesAfter net)
    (hafter : ClosedAfter net hub store) (hkeeps : KeepsLeft r.store.escrow store.escrow) :
    Rail.ClosesAfter net { calls := { r.calls with store }, hub, now := r.now } :=
  ⟨hafter, fun k q hq => (h.calls k q hq).keeps hkeeps⟩

theorem closedAfter_of_stages {caller : Caller} {sid : SessionId} {stage : Stage} {s : Store}
    {next : Next} {hub : World} {store : Store} (h : ClosedAfter net hub store)
    (hstages : Stages cfg store sid stage reply s next)
    (hholds : Holds net hub store (.refund caller sid stage)) :
    KeepsLeft store.escrow s.escrow ∧ ClosedAfter net hub s := by
  cases hstages with
  | @sends refund hash hnew =>
      refine ⟨.of_same rfl, h.rule (.of_same rfl) h.keyed (fun sid hsome hclosed =>
        Or.inl ⟨hsome, hclosed⟩) (fun tx htx sid hcall => Or.inl ⟨tx, htx, hcall⟩) ?_⟩
      intro tx htx
      rcases Table.mem_put htx with rfl | ⟨hmem, _⟩
      · -- a refund is executed for a session that has expired or was cancelled
        have hexecutes : store.Executes sid refund := hholds.fresh
        rcases hexecutes.session with ⟨session, ⟨hfind, hrefundable⟩, _⟩
        refine Or.inr ⟨session, by rw [hexecutes.escrowId]; exact hfind, ?_⟩
        intro hopen
        rw [hopen] at hrefundable
        cases hrefundable
      · exact Or.inl ⟨tx, hmem, rfl⟩
  | @marks refund now =>
      have hkeeps := keepsLeft_markRefunded store.escrow refund.escrowId now
      refine ⟨hkeeps, h.rule hkeeps (h.keyed.map (Escrow.Store.id_refundedRow now)) ?_
        (fun tx htx sid hcall => Or.inl ⟨tx, htx, hcall⟩) fun tx htx => Or.inl ⟨tx, htx, rfl⟩⟩
      intro k hsome hclosed
      change ((store.escrow.markRefunded refund.escrowId now).find k).isSome = true at hsome
      rw [Escrow.Store.find_markRefunded, Option.isSome_map] at hsome
      exact Or.inl ⟨hsome, hclosed⟩
  | _ => exact ⟨.of_same rfl, h.of_rows rfl rfl rfl⟩

theorem closedAfter_expireDue {hub : World} {store : Store} (h : ClosedAfter net hub store)
    (now : Escrow.Time) :
    ClosedAfter net hub (store.withEscrow (store.escrow.expireDue now)) := by
  refine h.rule (keepsLeft_expireDue store.escrow now) (h.keyed.map (Escrow.Store.id_expire now)) ?_
    (fun tx htx sid hcall => Or.inl ⟨tx, htx, hcall⟩) fun tx htx => Or.inl ⟨tx, htx, rfl⟩
  intro k hsome hclosed
  change ((store.escrow.expireDue now).find k).isSome = true at hsome
  rw [Escrow.Store.find_expireDue, Option.isSome_map] at hsome
  exact Or.inl ⟨hsome, hclosed⟩

theorem Rail.ClosesAfter.resumes {q : Option Process} (h : r.ClosesAfter net)
    (hs : Synced net r.hub r.store q) (hq : q = some p) (hp : r.calls.process id = some p)
    (hresumes : Resumes cfg id r.store p reply store' flow)
    (hnew : ∀ e, p = .escrow e → NewOnHub net r.hub r.store e reply) :
    Rail.ClosesAfter net { r with calls := r.calls.go id store' flow } := by
  have hholds := hs.process p hq
  cases hresumes with
  | @escrow e reply escrow flow hresumes =>
      have hkeeps : KeepsLeft r.store.escrow escrow := keepsLeft_of_resumes hresumes
      refine h.goes hkeeps ?_ ?_
      · refine h.after.rule hkeeps (keyed_of_resumes hresumes h.after.keyed) ?_
          (fun tx htx sid hcall => calls_of_resumes hresumes (h.calls id _ hp) htx hcall)
          fun tx htx => Or.inl ⟨tx, htx, rfl⟩
        intro sid hsome hclosed
        rcases stored_of_resumes hresumes hholds.fresh (hnew e rfl) hsome with hstored | hunused
        · exact Or.inl ⟨hstored, hclosed⟩
        · exact absurd hunused hclosed.1
      · have hcloses := closesLeft_of_resumes hresumes
        cases flow with
        | await e' => exact hcloses
        | answer a => trivial
  | @refund caller sid stage _ s _ next _ hstages hcontinues =>
      rcases closedAfter_of_stages h.after hstages hholds with ⟨hkeeps, hafter⟩
      cases hcontinues with
      | goes => exact h.goes hkeeps hafter trivial
      | answers _ => exact h.goes hkeeps hafter trivial
      | next => exact h.goes hkeeps hafter trivial
      | swept => exact h.goes hkeeps (hafter.of_rows rfl rfl rfl) trivial
  | expires => exact h.goes (keepsLeft_expireDue _ _) (closedAfter_expireDue h.after _) trivial
  | sweeps => exact h.goes (.of_same rfl) h.after trivial
  | swept => exact h.goes (.of_same rfl) (h.after.of_rows rfl rfl rfl) trivial

theorem Rail.ClosesAfter.starts (h : r.ClosesAfter net) (request : Request) :
    Rail.ClosesAfter net
      { r with calls := r.calls.go id (Refunds.start request r.store).1
                          (Refunds.start request r.store).2 } := by
  cases request with
  | escrow request =>
      have hstore : (Refunds.start (.escrow request) r.store).1 = r.store := by
        simp only [Refunds.start]
        rw [Escrow.start_store]
        rfl
      rw [hstore]
      refine h.goes (.of_same rfl) h.after ?_
      simp only [Refunds.start]
      cases hflow : (Escrow.start request r.store.escrow).2 with
      | await e =>
          cases Escrow.starts_of_start hflow with
          | _ => trivial
      | answer a => trivial
  | refund sid => exact h.goes (.of_same rfl) h.after trivial
  | sweep server =>
      simp only [Refunds.start]
      split
      · exact h.goes (.of_same rfl) h.after trivial
      · exact h.goes (.of_same rfl) (h.after.of_rows rfl rfl rfl) trivial

theorem Rail.ClosesAfter.happens {e : Event} (h : r.ClosesAfter net)
    (hhappens : Happens r.store e store') :
    Rail.ClosesAfter net { r with calls := { r.calls with store := store' } } := by
  cases hhappens with
  | escrow hmark hescrow =>
      cases hescrow with
      | expireDue now =>
          exact h.around (closedAfter_expireDue h.after now) (keepsLeft_expireDue _ now)
      | markRefunded sid refundedAt => exact absurd rfl (hmark sid refundedAt)
      | @evolve tx fate hlookup hbecome =>
          exact h.around (h.after.fated fate (Table.mem_of_lookup hlookup)) (.of_same rfl)
      | _ => exact h.around (h.after.of_rows rfl rfl rfl) (.of_same rfl)
  | settlement => exact h.around (h.after.of_rows rfl rfl rfl) (.of_same rfl)
  | @closing hash fate tx hlookup hbecomes honce =>
      exact h.around (h.after.closingFated fate (Table.mem_of_lookup hlookup)) (.of_same rfl)

theorem Rail.ClosesAfter.step (hr : r.Ok net) (h : r.ClosesAfter net) (hacts : Acts net cfg r r') :
    r'.ClosesAfter net := by
  rcases hr.synced with ⟨q, halone, hs⟩
  cases hacts with
  | rail hallows hcalls =>
      cases Service.steps_of_step (guarded_eq_some.1 hcalls).2 with
      | call id request hnew hunanswered => exact h.starts request
      | resume id p reply store flow hp hresume =>
          refine h.resumes hs (alone_eq_some halone hp).1 hp (resumes_of_resume hresume) ?_
          rintro e rfl
          exact newOnHub_of_allows hallows hp
      | external e store hexternal => exact h.happens (happens_of_external hexternal)
  | mined hlookup hpending hexecute =>
      exact h.around (h.after.mine hs.mirrors hr.faithful hr.now (Table.mem_of_lookup hlookup)
        hexecute) (.of_same rfl)
  | reverted hlookup hpending =>
      exact h.around (h.after.fated .reverted (Table.mem_of_lookup hlookup)) (.of_same rfl)
  | minedClosing hlookup hclose =>
      exact h.around (h.after.mineClosing hs.mirrors hr.faithful hr.now
        (Table.mem_of_lookup hlookup) hclose) (.of_same rfl)
  | revertedClosing hlookup hpending =>
      exact h.around (h.after.closingFated .reverted (Table.mem_of_lookup hlookup)) (.of_same rfl)
  | settled hidle hstored hunsettled hsettle =>
      exact h.around (h.after.settle hr.faithful hr.now hsettle) (.of_same rfl)
  | others hsender hcall htransact =>
      exact ⟨h.after.others hr.faithful hr.now hcall htransact, h.calls⟩
  | block hnow => exact ⟨h.after, h.calls⟩

theorem Rail.ClosesAfter.start (hub : World) (now : Nat) :
    (Rail.start hub now).ClosesAfter net := by
  refine ⟨⟨List.nodup_nil, ?_, ?_, ?_⟩, ?_⟩
  · intro sid hsome
    cases hsome
  · intro tx htx
    cases htx
  · intro tx htx
    cases htx
  · intro id p hp
    cases hp

/-- In every run of the rail and the hub, what is closed on the hub has left OPEN before. -/
theorem Rail.ClosesAfter.run {acts : List Act} {hub : World} {now : Nat}
    (hcfg : cfg.escrow.hubConfigured = true) (hfaithful : Faithful hub) (hnow : 0 < now)
    (h : run (net.step cfg) acts (.start hub now) = some r) : r.Ok net ∧ r.ClosesAfter net :=
  run_invariant (P := fun d => d.Ok net ∧ d.ClosesAfter net)
    (fun _ _ _ hd hd' => ⟨hd.1.step hcfg (acts_of_step hd'), hd.2.step hd.1 (acts_of_step hd')⟩)
    ⟨.start hfaithful hnow, .start hub now⟩ h

/-! ## What a reconciliation reports -/

/-- Between two calls the table and the hub agree on a session that is on the hub. -/
theorem Rail.ClosesAfter.agrees {ledger : Ledger} {session : EscrowSession} (hr : r.Ok net)
    (h : r.ClosesAfter net) (hidle : r.calls.processes = [])
    (hsettlements : ledger.settlements = r.store.settlements)
    (hfind : r.store.escrow.find session.id = some session) (hopen : session.status = .open)
    (hcreated : (net.escrow r.hub session.id).createdAt ≠ 0) :
    Reconciliation.Agrees ledger session (net.escrow r.hub session.id) := by
  rcases hr.synced with ⟨q, halone, hs⟩
  obtain rfl : q = none := alone_eq_none halone hidle
  refine ⟨hcreated, ?_, hs.mirrors.deposit _ session hfind hcreated, ?_⟩
  · rw [← Bool.not_eq_false]
    intro hinactive
    -- an escrow that is closed has a session that is not open
    rcases h.after.closed session.id (by rw [hfind]; rfl) ⟨hcreated, hinactive⟩ with
      ⟨stored, hstored, hstatus⟩
    rw [hfind] at hstored
    cases hstored
    exact hstatus hopen
  · have hspent := hs.mirrors.spent session.id session hfind
    rw [reservedBy, add_zero] at hspent
    rw [hspent, Ledger.spent, hsettlements]
    rfl

end Rail

/-! ## A session that was not sent -/

end Hub
end PaymentRail
