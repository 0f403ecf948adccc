import PaymentRail.Hub.Mirror

/-!
# Synced — every call keeps the ledger and the hub together

The calls come one after the other, so the state of the rail is its store together with at most one
call under way.  `Synced` is the invariant of such a state: the equation of `Mirror`, with what this
call has reserved; that nothing but its transaction is pending; and what it knows.

Every step of a call preserves it (`Synced.resumes`), and so does what happens around a call, the
hub included (`Synced.around`).
-/

namespace PaymentRail
namespace Hub

open Machine Strings Money Collections Refunds
open Escrow (SessionId TxHash Reply EscrowSession HubCall SessionsBounded)
open Settlement (Fate)
open Contracts (World transact Faithful)

/-- What the call under way holds. -/
structure Holds (net : Network) (hub : World) (store : Store) (q : Process) : Prop where
  fresh : q.Fresh store
  knows : Knows net hub store q
  reserves : Reserves store q
  bounded : ∀ p, q = .escrow p → p.HoldsBounded

/-- The rail between two steps, with the call under way. -/
structure Synced (net : Network) (hub : World) (store : Store) (p : Option Process) : Prop where
  rows : store.RowsOk
  bounded : SessionsBounded store.escrow
  mirrors : Mirrors net hub store (reservedBy store p)
  waited : Waited store p
  process : ∀ q, p = some q → Holds net hub store q

/-! ## Flows -/

/-- The process a flow waits as. -/
def waiting : Flow Process Answer → Option Process
  | .await q => some q
  | .answer _ => none

section Flows

variable {store : Store} {flow : Flow Escrow.Process Escrow.Answer}

theorem reservedBy_lift (h : flow.Awaits fun q => reservation (.escrow q) = none) (sid : SessionId) :
    reservedBy store (waiting (lift flow)) sid = 0 := by
  cases flow with
  | await p => exact reservedBy_of_none h sid
  | answer a => rfl

end Flows

/-! ## Fates -/

section Fates

variable {store : Store} {escrow : Escrow.Store}

theorem fateOf_broadcast (tx : Escrow.Transaction) (hash : TxHash) :
    (escrow.broadcast tx).fateOf hash = if tx.hash = hash then tx.fate else escrow.fateOf hash := by
  by_cases hhash : tx.hash = hash
  · subst hhash
    rw [if_pos rfl, Escrow.Store.fateOf, Escrow.Store.broadcast, Table.lookup_put_self]
  · rw [if_neg hhash, Escrow.Store.fateOf, Escrow.Store.fateOf, Escrow.Store.broadcast,
      Table.lookup_put_of_ne _ _ hhash]

theorem closingFate_broadcast (tx : ClosingTx) (hash : TxHash) :
    (store.broadcast tx).fateOf hash = if tx.hash = hash then tx.fate else store.fateOf hash := by
  by_cases hhash : tx.hash = hash
  · subst hhash
    rw [if_pos rfl, Store.fateOf, Store.broadcast, Table.lookup_put_self]
  · rw [if_neg hhash, Store.fateOf, Store.fateOf, Store.broadcast, Table.lookup_put_of_ne _ _ hhash]

theorem fateOf_of_lookup {hash : TxHash} {tx : Escrow.Transaction}
    (h : Table.lookup Escrow.Transaction.hash escrow.transactions hash = some tx) :
    escrow.fateOf hash = tx.fate := by
  rw [Escrow.Store.fateOf, h]

theorem closingFate_of_lookup {hash : TxHash} {tx : ClosingTx}
    (h : Table.lookup ClosingTx.hash store.closings hash = some tx) : store.fateOf hash = tx.fate := by
  rw [Store.fateOf, h]

end Fates

/-! ## Calls on sessions -/

section Sessions

variable {net : Network} {hub : World} {cfg : Config} {id : CallId} {store : Store}
  {escrow : Escrow.Store} {p : Escrow.Process} {reply : Reply}
  {flow : Flow Escrow.Process Escrow.Answer}

/-- The release gives back what it has reserved. -/
theorem reserve_of_reserves {release : Escrow.EscrowRelease} {message : String}
    (h : Reserves store (.escrow (.giveBack release message))) :
    store.escrow.reserve release.escrowId (-release.amount.wei) ≠ none := by
  rcases h _ _ rfl with ⟨session, hfind, hok⟩
  simp [Escrow.Store.reserve, hfind, hok]

/-- The id a step stores a session under is new. -/
def NewOnHub (net : Network) (hub : World) (store : Store) (p : Escrow.Process) (reply : Reply) :
    Prop :=
  let unused := fun sid => (net.escrow hub sid).createdAt = 0 ∧
    ∀ session ∈ store.escrow.sessions, net.escrowIdHash session.id ≠ net.escrowIdHash sid
  match p, reply with
  | .insertSession _, .inserted new => unused new
  | .commit session _ _, _ => unused session.id
  | _, _ => True

/-- A step without reservations that leaves the sessions alone. -/
theorem mirrors_quiet (hmirrors : Mirrors net hub store (reservedBy store (some (.escrow p))))
    (hp : reservation (.escrow p) = none)
    (hflow : flow.Awaits fun q => reservation (.escrow q) = none)
    (hfind : ∀ sid, escrow.find sid = store.escrow.find sid) :
    Mirrors net hub (store.withEscrow escrow)
      (reservedBy (store.withEscrow escrow) (waiting (lift flow))) := by
  refine hmirrors.moves (.of_same hfind ?_) fun _ => rfl
  intro sid
  rw [reservedBy_lift hflow, reservedBy_of_none hp]

/-- A step that saves a session and moves its reservation by as much. -/
theorem mirrors_save {session entity : EscrowSession} {q : Escrow.Process} (before after : Int)
    (hmirrors : Mirrors net hub store (reservedBy store (some (.escrow p))))
    (hfind : store.escrow.find entity.id = some session)
    (hdeposit : entity.depositAmount = session.depositAmount)
    (hreleased : entity.releasedAmount.wei - after = session.releasedAmount.wei - before)
    (hbefore : ∀ sid, reservedBy store (some (.escrow p)) sid = if entity.id = sid then before else 0)
    (hafter : ∀ sid, reservedBy (store.withEscrow (store.escrow.save entity)) (some (.escrow q)) sid =
      if entity.id = sid then after else 0) :
    Mirrors net hub (store.withEscrow (store.escrow.save entity))
      (reservedBy (store.withEscrow (store.escrow.save entity)) (some (.escrow q))) := by
  refine hmirrors.moves (.save hfind hdeposit ?_ ?_) fun _ => rfl
  · rw [hbefore, hafter, if_pos rfl, if_pos rfl]
    exact hreleased
  · intro sid hne
    rw [hbefore, hafter, if_neg (Ne.symm hne), if_neg (Ne.symm hne)]

/-- A step that stores a new session. -/
theorem mirrors_insert {session : EscrowSession} (hfaithful : Faithful hub)
    (hmirrors : Mirrors net hub store (reservedBy store (some (.escrow p))))
    (hp : reservation (.escrow p) = none) (hfree : store.escrow.find session.id = none)
    (hnew : (net.escrow hub session.id).createdAt = 0 ∧ ∀ other ∈ store.escrow.sessions,
      net.escrowIdHash other.id ≠ net.escrowIdHash session.id)
    (hreleased : session.releasedAmount.wei = 0)
    (hfind : ∀ sid, escrow.find sid = (store.escrow.save session).find sid) :
    Mirrors net hub (store.withEscrow escrow) (reservedBy (store.withEscrow escrow)
      (waiting (lift (Escrow.afterOpen cfg.escrow session)))) := by
  have hstored : Mirrors net hub (store.withEscrow escrow) (reservedBy store (some (.escrow p))) :=
    hmirrors.inserts hfaithful hfree hnew.1 hnew.2 hreleased (reservedBy_of_none hp) hfind fun _ => rfl
  refine hstored.moves (.of_same (fun _ => rfl) ?_) fun _ => rfl
  intro sid
  rw [reservedBy_lift (Escrow.afterOpen_awaits (fun _ _ _ => rfl) _ _), reservedBy_of_none hp]

theorem mirrors_of_waits {q : Escrow.Process} (h : Escrow.Waits cfg.escrow store.escrow p reply q)
    (hmirrors : Mirrors net hub store (reservedBy store (some (.escrow p))))
    (hdead : ∀ message hash, reply = .failed message → waitsFor (.escrow p) = some hash →
      (store.escrow.fateOf hash).live = false) :
    Mirrors net hub store (reservedBy store (some (.escrow q))) := by
  have hsame : (∀ sid, reservedBy store (some (.escrow q)) sid =
      reservedBy store (some (.escrow p)) sid) → Mirrors net hub store
        (reservedBy store (some (.escrow q))) :=
    fun hreserved => hmirrors.moves (.of_same (fun _ => rfl) hreserved) fun _ => rfl
  cases h with
  | @mined release hash hmined =>
      refine hsame fun sid => ?_
      rw [reservedBy_of_none rfl, reservedBy_of_some rfl, paidOut, hmined]
      simp
  | @gaveUp release hash message =>
      refine hsame fun sid => ?_
      have hlive := hdead message hash rfl rfl
      have hunmined : (store.escrow.fateOf hash).isMined = false := by
        cases hfate : store.escrow.fateOf hash with
        | mined depth =>
            rw [hfate] at hlive
            cases hlive
        | _ => rfl
      simp [reservedBy, reservation, paidOut, hunmined]
  | _ => exact hmirrors

theorem mirrors_of_resumes (hcfg : cfg.escrow.hubConfigured = true) (hfaithful : Faithful hub)
    (h : Escrow.Resumes cfg.escrow id store.escrow p reply escrow flow)
    (hholds : Holds net hub store (.escrow p))
    (hmirrors : Mirrors net hub store (reservedBy store (some (.escrow p))))
    (hnew : NewOnHub net hub store p reply)
    (hdead : ∀ message hash, reply = .failed message → waitsFor (.escrow p) = some hash →
      (store.escrow.fateOf hash).live = false) :
    Mirrors net hub (store.withEscrow escrow)
      (reservedBy (store.withEscrow escrow) (waiting (lift flow))) := by
  cases h with
  | waits h => exact mirrors_of_waits h hmirrors hdead
  | ends h =>
      cases h with
      | _ => exact hmirrors
  | inserts hfree => exact mirrors_insert hfaithful hmirrors rfl hfree hnew rfl fun _ => rfl
  | @commits session now limit hfree =>
      exact mirrors_insert hfaithful hmirrors rfl hfree hnew hholds.knows fun _ => rfl
  | locks hfree => exact mirrors_quiet hmirrors rfl rfl fun _ => rfl
  | exceeds => exact mirrors_quiet hmirrors rfl trivial fun _ => rfl
  | sendsCall hnew => exact mirrors_quiet hmirrors rfl rfl fun _ => rfl
  | @saves op loaded closedAt =>
      have hquiet := Escrow.afterSave_awaits (A := fun q => reservation (.escrow q) = none)
        (fun _ _ _ => rfl) cfg.escrow op (op.written loaded closedAt) store.escrow.date
      refine hmirrors.moves (.save hholds.fresh.1 rfl ?_ ?_) fun _ => rfl
      · rw [reservedBy_lift hquiet, reservedBy_of_none rfl]
        rfl
      · intro sid _
        rw [reservedBy_lift hquiet, reservedBy_of_none rfl]
  | @reserves sid dto amount session hfind hok =>
      have hid : session.id = sid := Escrow.Store.id_of_find hfind
      rw [← hid] at hfind
      refine mirrors_save 0 amount.wei hmirrors hfind rfl ?_ ?_ ?_
      · show session.releasedAmount.wei + amount.wei - amount.wei = session.releasedAmount.wei - 0
        omega
      · intro k
        rw [reservedBy_of_none rfl]
        split
        · rfl
        · rfl
      · intro k
        simp [reservedBy, reservation, paidOut, hid]
  | @insertsRelease sid dto amount new hnew =>
      have hpayOut : Escrow.afterInsert cfg.escrow (Escrow.newRelease new sid dto amount) =
          .payOut (Escrow.newRelease new sid dto amount) := by
        simp [Escrow.afterInsert, hcfg]
      rw [hpayOut]
      exact hmirrors.moves (.of_same (fun _ => rfl) fun _ => rfl) fun _ => rfl
  | @paysOut release hash hnew =>
      refine hmirrors.moves (.of_same (fun _ => rfl) ?_) fun _ => rfl
      intro sid
      simp [waiting, lift, reservedBy, reservation, paidOut, Store.withEscrow, fateOf_broadcast,
        Fate.isMined]
  | @givesBack release message session hfind hok =>
      have hid : session.id = release.escrowId := Escrow.Store.id_of_find hfind
      rw [← hid] at hfind
      refine mirrors_save release.amount.wei 0 hmirrors hfind rfl ?_ ?_ ?_
      · show session.releasedAmount.wei + -release.amount.wei - 0 =
          session.releasedAmount.wei - release.amount.wei
        omega
      · intro k
        simp [reservedBy, reservation, paidOut, hid]
      · intro k
        rw [reservedBy_of_none rfl]
        split
        · rfl
        · rfl
  | givesNothingBack hrefused => exact absurd hrefused (reserve_of_reserves hholds.reserves)
  | failed => exact mirrors_quiet hmirrors rfl trivial fun _ => rfl
  | paid => exact mirrors_quiet hmirrors rfl rfl fun _ => rfl
  | claims => exact mirrors_quiet hmirrors rfl trivial fun _ => rfl

theorem Waited.not_pending {q : Process} (h : Waited store (some q)) (hq : waitsFor q = none)
    (hash : TxHash) : store.escrow.fateOf hash ≠ .pending := by
  intro hpending
  have hwaits := h.transactions hash hpending
  rw [Option.bind_some, hq] at hwaits
  cases hwaits

/-- What was waited for is over, so nothing is pending. -/
theorem Waited.over {q : Process} {hash : TxHash} (h : Waited store (some q))
    (hq : waitsFor q = some hash) (hover : store.escrow.fateOf hash ≠ .pending) (other : TxHash) :
    store.escrow.fateOf other ≠ .pending := by
  intro hpending
  have hwaits := h.transactions other hpending
  rw [Option.bind_some, hq] at hwaits
  cases hwaits
  exact hover hpending

theorem not_pending_of_mined {fate : Fate} (h : fate.isMined = true) : fate ≠ .pending := by
  rintro rfl
  cases h

theorem not_pending_of_dead {fate : Fate} (h : fate.live = false) : fate ≠ .pending := by
  rintro rfl
  cases h

theorem waited_of_resumes (h : Escrow.Resumes cfg.escrow id store.escrow p reply escrow flow)
    (hwaited : Waited store (some (.escrow p)))
    (hdead : ∀ message hash, reply = .failed message → waitsFor (.escrow p) = some hash →
      (store.escrow.fateOf hash).live = false) :
    Waited (store.withEscrow escrow) (waiting (lift flow)) := by
  have hclosings : ∀ hash, store.fateOf hash = .pending →
      (waiting (lift flow)).bind waitsForClosing = some hash := by
    intro hash hpending
    cases hwaited.closings hash hpending
  have hnone : (∀ hash, store.escrow.fateOf hash ≠ .pending) →
      escrow.transactions = store.escrow.transactions →
        Waited (store.withEscrow escrow) (waiting (lift flow)) := by
    intro hover hsame
    refine ⟨?_, hclosings⟩
    intro hash hpending
    refine absurd ?_ (hover hash)
    rw [Escrow.Store.fateOf, ← hsame]
    exact hpending
  have hsent : ∀ {tx : Escrow.Transaction} {q : Escrow.Process},
      (∀ hash, store.escrow.fateOf hash ≠ .pending) → escrow = store.escrow.broadcast tx →
        flow = .await q → waitsFor (.escrow q) = some tx.hash →
          Waited (store.withEscrow escrow) (waiting (lift flow)) := by
    rintro tx q hover rfl rfl hwaits
    refine ⟨?_, hclosings⟩
    intro hash hpending
    have hfate : (store.escrow.broadcast tx).fateOf hash = .pending := hpending
    rw [fateOf_broadcast] at hfate
    split at hfate
    · rename_i hhash
      rw [← hhash]
      exact hwaits
    · exact absurd hfate (hover hash)
  cases h with
  | waits h =>
      refine hnone ?_ rfl
      cases h with
      | mined hmined => exact hwaited.over rfl (not_pending_of_mined hmined)
      | gaveUp => exact hwaited.over rfl (not_pending_of_dead (hdead _ _ rfl rfl))
      | _ => exact hwaited.not_pending rfl
  | ends h =>
      refine hnone ?_ rfl
      cases h with
      | mined hmined => exact hwaited.over rfl (not_pending_of_mined hmined)
      | gaveUp => exact hwaited.over rfl (not_pending_of_dead (hdead _ _ rfl rfl))
      | _ => exact hwaited.not_pending rfl
  | sendsCall hnew => exact hsent (hwaited.not_pending rfl) rfl rfl rfl
  | paysOut hnew => exact hsent (hwaited.not_pending rfl) rfl rfl rfl
  | _ => exact hnone (hwaited.not_pending rfl) rfl

theorem knows_of_resumes (h : Escrow.Resumes cfg.escrow id store.escrow p reply escrow flow)
    (hknows : Knows net hub store (.escrow p)) :
    flow.Awaits fun q => Knows net hub (store.withEscrow escrow) (.escrow q) := by
  have hopens : ∀ {session : EscrowSession},
      (store.withEscrow escrow).escrow.find session.id = some session →
        (Escrow.afterOpen cfg.escrow session).Awaits fun q =>
          Knows net hub (store.withEscrow escrow) (.escrow q) := by
    intro session hfind
    simp only [Escrow.afterOpen]
    split
    · exact ⟨session, hfind, rfl⟩
    · trivial
  cases h with
  | waits h =>
      cases h with
      | uncommitted => exact Eq.refl (0 : Int)
      | _ => trivial
  | inserts hnew => exact hopens Escrow.Store.find_save_self
  | @commits session now limit hnew =>
      have hfind : (store.escrow.save session).find session.id = some session :=
        Escrow.Store.find_save_self
      exact hopens hfind
  | @sendsCall session call hash hnew =>
      refine ⟨_, Table.lookup_put_self _ _, ?_⟩
      cases call with
      | _ => exact hknows
  | @saves op loaded closedAt =>
      cases op with
      | close =>
          simp only [Escrow.afterSave]
          split
          · trivial
          · trivial
      | _ => trivial
  | insertsRelease hnew =>
      exact Escrow.afterInsert_of (A := fun q => Knows net hub _ (.escrow q)) trivial trivial cfg.escrow
  | paysOut hnew => exact ⟨_, Table.lookup_put_self _ _, rfl⟩
  | _ => trivial

theorem reserves_of_resumes (hcfg : cfg.escrow.hubConfigured = true)
    (h : Escrow.Resumes cfg.escrow id store.escrow p reply escrow flow)
    (hbounded : SessionsBounded store.escrow) (hreserves : Reserves store (.escrow p)) :
    flow.Awaits fun q => Reserves (store.withEscrow escrow) (.escrow q) := by
  cases h with
  | waits h =>
      cases h with
      | unsent => exact hreserves.of_same (fun _ => rfl) rfl
      | gaveUp => exact hreserves.of_same (fun _ => rfl) rfl
      | _ => exact .of_none rfl
  | inserts hnew => exact Escrow.afterOpen_awaits (fun _ _ _ => .of_none rfl) _ _
  | commits hnew => exact Escrow.afterOpen_awaits (fun _ _ _ => .of_none rfl) _ _
  | saves => exact Escrow.afterSave_awaits (fun _ _ _ => .of_none rfl) _ _ _ _
  | @reserves sid dto amount session hfind hok =>
      intro k taken htaken
      cases htaken
      have hid : session.id = sid := Escrow.Store.id_of_find hfind
      rw [← hid]
      refine ⟨_, Escrow.Store.find_save_self, ?_⟩
      -- giving it back leads to the total before, which was within its bounds
      have hwithin := hbounded session (Escrow.Store.mem_of_find hfind)
      have hopen : session.status = .open ∧ 0 ≤ session.releasedAmount.wei + amount.wei ∧
          session.releasedAmount.wei + amount.wei ≤ session.least := of_decide_eq_true hok
      have hle : session.releasedAmount.wei ≤
          min session.depositAmount.wei session.budgetLimit.wei := hwithin.le_least
      have hback : session.releasedAmount.wei + amount.wei + -amount.wei =
          session.releasedAmount.wei := by omega
      simp only [EscrowSession.reservable, EscrowSession.least, hback]
      exact decide_eq_true ⟨hopen.1, hwithin.nonneg, hle⟩
  | @insertsRelease sid dto amount new hnew =>
      have hpayOut : Escrow.afterInsert cfg.escrow (Escrow.newRelease new sid dto amount) =
          .payOut (Escrow.newRelease new sid dto amount) := by
        simp [Escrow.afterInsert, hcfg]
      rw [hpayOut]
      exact hreserves.of_same (fun _ => rfl) rfl
  | paysOut hnew => exact hreserves.of_same (fun _ => rfl) rfl
  | ends h => trivial
  | exceeds => trivial
  | failed => trivial
  | claims => trivial
  | _ => exact .of_none rfl

end Sessions

/-! ## Around the call under way -/

/-- What happens around a call: the rows stay, transactions are mined or fail, and what is closed on
the hub stays closed. -/
structure Around (net : Network) (hub hub' : World) (store store' : Store) : Prop where
  sessions : store'.escrow.sessions = store.escrow.sessions
  claims : store'.escrow.claims = store.escrow.claims
  settlements : store'.settlements = store.settlements
  refunds : store'.refunds = store.refunds
  transactions : ∀ hash tx,
    Table.lookup Escrow.Transaction.hash store.escrow.transactions hash = some tx →
      ∃ tx', Table.lookup Escrow.Transaction.hash store'.escrow.transactions hash = some tx' ∧
        tx'.call = tx.call
  closings : ∀ hash tx, Table.lookup ClosingTx.hash store.closings hash = some tx →
    ∃ tx', Table.lookup ClosingTx.hash store'.closings hash = some tx' ∧
      tx'.escrowId = tx.escrowId ∧
        (tx'.fate.isMined = true → tx.fate.isMined = true ∨ Closed net hub' tx.escrowId)
  closed : ∀ sid, (store.escrow.find sid).isSome = true → Closed net hub sid → Closed net hub' sid

section Around

variable {net : Network} {hub hub' : World} {store store' : Store} {p : Option Process} {q : Process}

/-- Only rows that no call looks at change. -/
theorem Around.of_rows (hescrow : store'.escrow = store.escrow)
    (hsettlements : store'.settlements = store.settlements)
    (hrefunds : store'.refunds = store.refunds) (hclosings : store'.closings = store.closings) :
    Around net hub hub store store' where
  sessions := by rw [hescrow]
  claims := by rw [hescrow]
  settlements := hsettlements
  refunds := hrefunds
  transactions := by
    intro hash tx hlookup
    rw [hescrow]
    exact ⟨tx, hlookup, rfl⟩
  closings := by
    intro hash tx hlookup
    rw [hclosings]
    exact ⟨tx, hlookup, rfl, Or.inl⟩
  closed := fun _ _ hclosed => hclosed

theorem Around.find (h : Around net hub hub' store store') (sid : SessionId) :
    store'.escrow.find sid = store.escrow.find sid := by
  rw [Escrow.Store.find, h.sessions]
  rfl

theorem Around.settled (h : Around net hub hub' store store') (sid : SessionId) :
    store'.settled sid = store.settled sid := by
  rw [Store.settled, h.settlements]
  rfl

theorem Around.claimed (h : Around net hub hub' store store') (sid : SessionId) :
    store'.claimed sid = store.claimed sid := by
  rw [Store.claimed, Escrow.Store.claimsOf, h.claims]
  rfl

theorem ForSession.of_same {call : HubCall} (h : ForSession store call)
    (hfind : ∀ sid, store'.escrow.find sid = store.escrow.find sid) : ForSession store' call := by
  cases call with
  | openEscrow sid agentB budgetWei verificationRequired ttl depositWei =>
      rcases h with ⟨session, hsession, hdeposit⟩
      exact ⟨session, (hfind sid).trans hsession, hdeposit⟩
  | _ => exact h

theorem Knows.around (h : Knows net hub store q) (haround : Around net hub hub' store store')
    (hfresh : q.Fresh store) : Knows net hub' store' q := by
  cases q with
  | escrow p =>
      cases p with
      | commit session now limit => exact h
      | sendCall session call => exact ForSession.of_same h haround.find
      | waitCall session hash =>
          rcases h with ⟨tx, hlookup, hcall⟩
          rcases haround.transactions hash tx hlookup with ⟨tx', hlookup', hsame⟩
          exact ⟨tx', hlookup', by rw [hsame]; exact hcall.of_same haround.find⟩
      | waitPayOut release hash =>
          rcases h with ⟨tx, hlookup, hcall⟩
          rcases haround.transactions hash tx hlookup with ⟨tx', hlookup', hsame⟩
          exact ⟨tx', hlookup', hsame.trans hcall⟩
      | _ => trivial
  | refund caller sid stage =>
      -- a refund that executes has its session
      have hstored : ∀ refund, store.Executes sid refund → (store.escrow.find sid).isSome = true := by
        intro refund hexecutes
        rcases hexecutes.session with ⟨session, hcurrent, _⟩
        rw [hcurrent.1]
        rfl
      have hrecorded : ∀ refund, Recorded store sid refund → Recorded store' sid refund := by
        intro refund hrow
        rw [Recorded, Store.findRefund, haround.refunds]
        exact hrow
      cases stage with
      | claimed session reason settled =>
          rw [Knows, haround.settled]
          exact h
      | insert refund =>
          rcases h with ⟨session, hsession, hspent⟩
          refine ⟨session, (haround.find sid).trans hsession, ?_⟩
          rw [spent, haround.settled, haround.claimed]
          exact hspent
      | send refund => exact hrecorded refund h
      | waitFor refund hash =>
          rcases h with ⟨hrow, tx, hlookup, hid, hclosed⟩
          rcases haround.closings hash tx hlookup with ⟨tx', hlookup', hsame, hmined⟩
          refine ⟨hrecorded refund hrow, tx', hlookup', hsame.trans hid, ?_⟩
          intro hnow
          rcases hmined hnow with hold | hnew
          · exact haround.closed sid (hstored refund hfresh) (hclosed hold)
          · rw [← hid]
            exact hnew
      | save refund =>
          refine ⟨hrecorded refund h.1, ?_⟩
          intro hstatus
          exact haround.closed sid (hstored refund hfresh) (h.2 hstatus)
      | _ => trivial
  | _ => trivial

theorem Synced.around (h : Synced net hub store p) (haround : Around net hub hub' store store')
    (hmirrors : Mirrors net hub' store' (reservedBy store' p)) (hwaited : Waited store' p) :
    Synced net hub' store' p where
  rows := h.rows.keeps haround.refunds (.of_same haround.sessions)
  bounded := by
    rw [SessionsBounded, haround.sessions]
    exact h.bounded
  mirrors := hmirrors
  waited := hwaited
  process := by
    intro q hq
    have hholds := h.process q hq
    exact
      { fresh := hholds.fresh.of_same haround.find haround.claims haround.refunds
        knows := hholds.knows.around haround hholds.fresh
        reserves := hholds.reserves.of_same haround.find rfl
        bounded := hholds.bounded }

/-- A call begins without a reservation. -/
theorem Synced.begins (h : Synced net hub store none) (hreservation : reservation q = none)
    (hholds : Holds net hub store q) : Synced net hub store (some q) where
  rows := h.rows
  bounded := h.bounded
  mirrors := h.mirrors.moves (.of_same (fun _ => rfl) (reservedBy_of_none hreservation))
    fun _ => rfl
  waited := by
    refine ⟨?_, ?_⟩
    · intro hash hpending
      cases h.waited.transactions hash hpending
    · intro hash hpending
      cases h.waited.closings hash hpending
  process := by
    intro q' hq
    cases hq
    exact hholds

end Around

/-! ## Refunds -/

section Refunds

variable {net : Network} {hub : World} {cfg : Config} {id : CallId} {store store' s : Store}
  {caller : Caller} {sid : SessionId} {stage : Stage} {reply : Reply} {next : Next}
  {flow : Flow Process Answer}

/-- The process a refund goes on as. -/
def goesOn (caller : Caller) (sid : SessionId) : Next → Option Process
  | .goes stage => some (.refund caller sid stage)
  | .ends _ => none

theorem moves_of_stages (h : Stages cfg store sid stage reply s next) :
    Moves store.escrow s.escrow (reservedBy store (some (.refund caller sid stage)))
      (reservedBy s (goesOn caller sid next)) := by
  have hzero : ∀ k, reservedBy s (goesOn caller sid next) k =
      reservedBy store (some (.refund caller sid stage)) k := by
    intro k
    cases next with
    | _ => rfl
  cases h with
  | marks => exact moves_markRefunded _ _ hzero
  | _ => exact .of_same (fun _ => rfl) hzero

theorem settled_of_stages (h : Stages cfg store sid stage reply s next) (k : SessionId) :
    s.settled k = store.settled k := by
  cases h with
  | _ => rfl

theorem bounded_of_stages (h : Stages cfg store sid stage reply s next)
    (hbounded : SessionsBounded store.escrow) : SessionsBounded s.escrow := by
  cases h with
  | @marks refund now =>
      intro session hsession
      rcases List.mem_map.1 hsession with ⟨earlier, hearlier, rfl⟩
      exact (hbounded earlier hearlier).refundedRow refund.escrowId now
  | _ => exact hbounded

theorem waited_of_stages (h : Stages cfg store sid stage reply s next)
    (hwaited : Waited store (some (.refund caller sid stage)))
    (hdead : ∀ message hash, reply = .failed message →
      waitsForClosing (.refund caller sid stage) = some hash → (store.fateOf hash).live = false) :
    Waited s (goesOn caller sid next) := by
  have htransactions : s.escrow.transactions = store.escrow.transactions := by
    cases h with
    | _ => rfl
  have hnone : (∀ hash, store.fateOf hash = .pending → False) → s.closings = store.closings →
      Waited s (goesOn caller sid next) := by
    intro hover hsame
    refine ⟨?_, ?_⟩
    · intro hash hpending
      rw [Escrow.Store.fateOf, htransactions] at hpending
      cases hwaited.transactions hash hpending
    · intro hash hpending
      rw [Store.fateOf, hsame] at hpending
      exact absurd hpending (hover hash)
  have hover : (∀ hash, waitsForClosing (.refund caller sid stage) = some hash →
      store.fateOf hash ≠ .pending) → ∀ hash, store.fateOf hash = .pending → False := by
    intro hwaits hash hpending
    exact hwaits hash (hwaited.closings hash hpending) hpending
  cases h with
  | @sends refund hash hnew =>
      refine ⟨?_, ?_⟩
      · intro other hpending
        cases hwaited.transactions other hpending
      · intro other hpending
        rw [closingFate_broadcast] at hpending
        split at hpending
        · rename_i hhash
          rw [← hhash]
          rfl
        · cases hwaited.closings other hpending
  | @mined refund hash now hmined =>
      refine hnone (hover ?_) rfl
      intro other hwaits
      cases hwaits
      exact not_pending_of_mined hmined
  | @gaveUp refund hash message =>
      refine hnone (hover ?_) rfl
      intro other hwaits
      exact not_pending_of_dead (hdead message other rfl hwaits)
  | _ =>
      refine hnone (hover ?_) rfl
      intro other hwaits
      cases hwaits

theorem knows_of_stages {stage' : Stage} (hcfg : cfg.escrow.hubConfigured = true)
    (h : Stages cfg store sid stage reply s (.goes stage'))
    (hfresh : stage.Fresh store sid) (hknows : Knows net hub store (.refund caller sid stage)) :
    Knows net hub s (.refund caller sid stage') := by
  have hexecute : ∀ refund now, execute cfg refund now = .send refund := by
    intro refund now
    simp [execute, hcfg]
  cases h with
  | @retried session reason refund now hrow hstatus =>
      rw [hexecute]
      exact ⟨refund, hrow, rfl⟩
  | @inserts refund now hrow =>
      rw [hexecute]
      exact ⟨refund, findRefund_saveRefund_self hfresh.1.escrowId, rfl⟩
  | @adopts refund now hrow =>
      rw [hexecute]
      exact ⟨refund, hrow, rfl⟩
  | sumsSettled => exact Eq.refl (store.settled sid)
  | @sumsClaimed session reason settled =>
      have hid : session.id = sid := Escrow.Store.id_of_find hfresh.1.1
      have hsettled : settled = store.settled sid := hknows
      refine ⟨session, hfresh.1.1, ?_⟩
      simp only [newRefund, spent, hid, hsettled]
  | @sends refund hash hnew =>
      have hescrowId : refund.escrowId = sid := Store.Executes.escrowId hfresh
      exact ⟨hknows, _, Table.lookup_put_self _ _, hescrowId, fun hmined => by cases hmined⟩
  | @mined refund hash now hmined =>
      rcases hknows with ⟨hrow, tx, hlookup, _, hclosed⟩
      rw [closingFate_of_lookup hlookup] at hmined
      exact ⟨hrow, fun _ => hclosed hmined⟩
  | unsent =>
      refine ⟨hknows, ?_⟩
      intro hstatus
      cases hstatus
  | gaveUp =>
      refine ⟨hknows.1, ?_⟩
      intro hstatus
      cases hstatus
  | _ => trivial

theorem Synced.stages (hcfg : cfg.escrow.hubConfigured = true)
    (hs : Synced net hub store (some (.refund caller sid stage)))
    (h : Stages cfg store sid stage reply s next)
    (hdead : ∀ message hash, reply = .failed message →
      waitsForClosing (.refund caller sid stage) = some hash → (store.fateOf hash).live = false) :
    Synced net hub s (goesOn caller sid next) := by
  have hholds := hs.process _ rfl
  refine ⟨h.rowsOk hholds.fresh hs.rows, bounded_of_stages h hs.bounded,
    hs.mirrors.moves (moves_of_stages h) (settled_of_stages h), waited_of_stages h hs.waited hdead,
    ?_⟩
  intro q hq
  cases next with
  | goes stage' =>
      cases hq
      exact ⟨h.fresh hholds.fresh hs.rows, knows_of_stages hcfg h hholds.fresh hholds.knows,
        .of_none rfl, fun p hp => by cases hp⟩
  | ends a => cases hq

theorem Synced.findById (h : Synced net hub store none) (caller : Caller) (sid : SessionId) :
    Synced net hub store (some (.refund caller sid .findById)) :=
  h.begins rfl ⟨trivial, trivial, .of_none rfl, fun p hp => by cases hp⟩

/-- Instances begin and end their sweeps. -/
theorem Synced.sweeping {p : Option Process} (h : Synced net hub store p) (sweeping : List Nat) :
    Synced net hub { store with sweeping } p := by
  have haround : Around net hub hub store { store with sweeping } := .of_rows rfl rfl rfl rfl
  refine h.around haround (h.mirrors.moves (.of_same (fun _ => rfl) fun _ => ?_) fun _ => rfl)
    ⟨h.waited.transactions, h.waited.closings⟩
  cases p with
  | none => rfl
  | some q =>
      cases q with
      | _ => rfl

theorem Synced.continues (hs : Synced net hub s (goesOn caller sid next))
    (h : Continues s caller sid next store' flow) : Synced net hub store' (waiting flow) := by
  cases h with
  | goes => exact hs
  | answers hcaller => exact hs
  | next => exact Synced.findById hs _ _
  | swept => exact Synced.sweeping hs _

end Refunds

/-! ## All steps of a call -/

section Calls

variable {net : Network} {hub : World} {cfg : Config} {id : CallId} {store store' : Store}
  {p : Process} {reply : Reply} {flow : Flow Process Answer}

theorem Synced.escrow {q : Escrow.Process} {escrow : Escrow.Store}
    {flow : Flow Escrow.Process Escrow.Answer} (hcfg : cfg.escrow.hubConfigured = true)
    (hfaithful : Faithful hub) (hs : Synced net hub store (some (.escrow q)))
    (h : Escrow.Resumes cfg.escrow id store.escrow q reply escrow flow)
    (hnew : NewOnHub net hub store q reply)
    (hdead : ∀ message hash, reply = .failed message → waitsFor (.escrow q) = some hash →
      (store.escrow.fateOf hash).live = false) :
    Synced net hub (store.withEscrow escrow) (waiting (lift flow)) := by
  have hholds := hs.process _ rfl
  have hbounded := h.bounded hs.bounded (hholds.bounded q rfl)
  refine ⟨hs.rows.keeps rfl (keepsSessions_of_resumes h hholds.fresh), hbounded.1,
    mirrors_of_resumes hcfg hfaithful h hholds hs.mirrors hnew hdead,
    waited_of_resumes h hs.waited hdead, ?_⟩
  intro q' hq'
  have hfresh := fresh_of_resumes h hholds.fresh
  have hknows := knows_of_resumes h hholds.knows
  have hreserves := reserves_of_resumes hcfg h hs.bounded hholds.reserves
  cases flow with
  | await p =>
      cases hq'
      refine ⟨hfresh, hknows, hreserves, ?_⟩
      intro p' hp'
      cases hp'
      exact hbounded.2
  | answer a => cases hq'

/-- A call that waits for nothing on the chain and has reserved nothing may be forgotten. -/
theorem Synced.forget (hs : Synced net hub store (some p)) (hreservation : reservation p = none)
    (hwaits : waitsFor p = none) (hcloses : waitsForClosing p = none) :
    Synced net hub store none where
  rows := hs.rows
  bounded := hs.bounded
  mirrors := hs.mirrors.moves
    (.of_same (fun _ => rfl) fun sid => (reservedBy_of_none hreservation sid).symm) fun _ => rfl
  waited := by
    refine ⟨?_, ?_⟩
    · intro hash hpending
      have hwaited := hs.waited.transactions hash hpending
      rw [Option.bind_some, hwaits] at hwaited
      cases hwaited
    · intro hash hpending
      have hwaited := hs.waited.closings hash hpending
      rw [Option.bind_some, hcloses] at hwaited
      cases hwaited
  process := by
    intro q hq
    cases hq

theorem Synced.expireDue (hs : Synced net hub store none) (now : Escrow.Time) :
    Synced net hub (store.withEscrow (store.escrow.expireDue now)) none where
  rows := hs.rows.keeps rfl (keepsSessions_expireDue now)
  bounded := (Escrow.Happens.expireDue now).bounded hs.bounded
  mirrors := hs.mirrors.moves (moves_expireDue now fun _ => rfl) fun _ => rfl
  waited := ⟨hs.waited.transactions, hs.waited.closings⟩
  process := by
    intro q hq
    cases hq

theorem Synced.resumes (hcfg : cfg.escrow.hubConfigured = true) (hfaithful : Faithful hub)
    (hs : Synced net hub store (some p)) (h : Resumes cfg id store p reply store' flow)
    (hnew : ∀ q, p = .escrow q → NewOnHub net hub store q reply)
    (hdead : ∀ message hash, reply = .failed message → waitsFor p = some hash →
      (store.escrow.fateOf hash).live = false)
    (hdeadClosing : ∀ message hash, reply = .failed message → waitsForClosing p = some hash →
      (store.fateOf hash).live = false) : Synced net hub store' (waiting flow) := by
  cases h with
  | escrow h => exact hs.escrow hcfg hfaithful h (hnew _ rfl) hdead
  | refund h hcontinues => exact (hs.stages hcfg h hdeadClosing).continues hcontinues
  | @expires server now expired =>
      refine ((hs.forget rfl rfl rfl).expireDue now).begins rfl ?_
      exact ⟨trivial, trivial, .of_none rfl, fun p hp => by cases hp⟩
  | sweeps => exact (hs.forget rfl rfl rfl).findById _ _
  | swept => exact (hs.forget rfl rfl rfl).sweeping _

/-- The first wait of a call. -/
theorem Synced.start (hs : Synced net hub store none) (r : Request) :
    Synced net hub (start r store).1 (waiting (start r store).2) := by
  cases r with
  | escrow r =>
      have hstore : (Refunds.start (.escrow r) store).1 = store := by
        simp only [Refunds.start]
        rw [Escrow.start_store]
        rfl
      rw [hstore]
      simp only [Refunds.start]
      cases hflow : (Escrow.start r store.escrow).2 with
      | await q =>
          have hq : reservation (.escrow q) = none ∧ Holds net hub store (.escrow q) := by
            cases Escrow.starts_of_start hflow with
            | _ =>
                refine ⟨rfl, trivial, trivial, .of_none rfl, fun p hp => ?_⟩
                cases hp
                trivial
          exact hs.begins hq.1 hq.2
      | answer a => exact hs
  | refund sid => exact hs.findById _ _
  | sweep server =>
      by_cases hsweeping : server ∈ store.sweeping
      · simp only [Refunds.start, hsweeping, if_true]
        exact hs
      · simp only [Refunds.start, hsweeping, if_false]
        refine (hs.sweeping _).begins rfl ?_
        exact ⟨trivial, trivial, .of_none rfl, fun p hp => by cases hp⟩

end Calls

end Hub
end PaymentRail
