import PaymentRail.Refunds.RefundCompleted

/-!
# SweepBlocked — what the sweep does not reach

A sweep takes the first `sweepBatch` of the sessions that wait for their refund, in the order in which
they ended.  A refund that fails leaves its session where it is in this order.  So once as many sessions
as a sweep takes cannot be refunded, no sweep gets past them, however often it runs: the sessions that
ended later wait until one of these is refunded, or until somebody asks for their refund
(`sweep_blocked`).
-/

namespace PaymentRail
namespace Refunds

open Machine Collections Escrow
open Settlement (Fate)

/-! ## Who has a session in hand -/

/-- The session is among those a sweep has still to do. -/
def Caller.takes (sid : SessionId) : Caller → Bool
  | .request => false
  | .sweep _ rest _ => rest.contains sid

/-- A call is refunding the session, or will. -/
def Process.concerns (sid : SessionId) : Process → Bool
  | .refund caller escrowId _ => escrowId = sid || caller.takes sid
  | _ => false

/-- Somebody asks for the refund of the session. -/
def requests (sid : SessionId) : Move Request Reply Event → Bool
  | .call _ (.refund escrowId) => escrowId = sid
  | _ => false

/-- Runs of refunds and sweeps in which nobody asks for the refund of the session. -/
def unrequestedStep (cfg : Config) (sid : SessionId) :
    Move Request Reply Event → Calls Store Process Answer → Option (Calls Store Process Answer) :=
  guarded (fun m _ => requests sid m = false) (refundsStep cfg)

/-- The row that a refund has in memory is the one of its escrow. -/
def Stage.About (sid : SessionId) : Stage → Prop
  | .findById => True
  | .findOne session _ => session.id = sid
  | .settled session _ => session.id = sid
  | .claimed session _ _ => session.id = sid
  | .insert refund => refund.escrowId = sid
  | .adopt => True
  | .send refund => refund.escrowId = sid
  | .waitFor refund _ => refund.escrowId = sid
  | .save refund => refund.escrowId = sid
  | .markRefunded refund => refund.escrowId = sid

/-- Only refunds and sweeps are under way, each with rows of its own. -/
def Process.Own : Process → Prop
  | .escrow _ => False
  | .refund _ sid stage => stage.About sid
  | _ => True

/-! ## One step of a refund -/

section Stages

variable {cfg : Config} {store s : Store} {sid k : SessionId} {stage stage' : Stage} {reply : Reply}
  {next : Next} {session : EscrowSession}

theorem execute_about {refund : EscrowRefund} {now : Time} (h : refund.escrowId = sid) :
    (execute cfg refund now).About sid := by
  unfold execute
  split
  · exact h
  · exact h

theorem Stages.about (h : Stages cfg store sid stage reply s (.goes stage'))
    (habout : stage.About sid) : stage'.About sid := by
  cases h with
  | loaded hfind hstatus => exact Escrow.Store.id_of_find hfind
  | retried hrow hstatus => exact execute_about (escrowId_of_findRefund hrow)
  | creates hrow => exact habout
  | sumsSettled => exact habout
  | sumsClaimed => exact habout
  | inserts hrow => exact execute_about habout
  | overtaken hrow => trivial
  | adopts hrow => exact execute_about (escrowId_of_findRefund hrow)
  | sends hnew => exact habout
  | unsent => exact habout
  | mined hmined => exact habout
  | gaveUp => exact habout
  | completes hstatus => exact habout

theorem Stages.spares (h : Stages cfg store sid stage reply s next) (habout : stage.About sid)
    (hk : k ≠ sid) : Store.Untouched k store s := by
  cases h with
  | inserts hrow => exact untouched_saveRefund (by rw [habout]; exact Ne.symm hk)
  | sends hnew => exact untouched_broadcast (by rw [habout]; exact Ne.symm hk)
  | completes hstatus => exact untouched_saveRefund (by rw [habout]; exact Ne.symm hk)
  | fails hstatus => exact untouched_saveRefund (by rw [habout]; exact Ne.symm hk)
  | marks => exact untouched_markRefunded
  | _ => exact .of_same rfl rfl rfl k

/-- A refund writes to its own session only, and there `refundedAt` only. -/
theorem Stages.keepsRow (h : Stages cfg store sid stage reply s next) (habout : stage.About sid)
    (hfind : store.escrow.find k = some session) :
    s.escrow.find k = some session ∨ (k = sid ∧ s.Marked k) := by
  cases h with
  | @marks refund now =>
      have hsid : refund.escrowId = sid := habout
      by_cases hk : k = sid
      · exact Or.inr ⟨hk, marked_markRefunded hfind (Or.inl (hsid.trans hk.symm))⟩
      · refine Or.inl ?_
        rw [Store.withEscrow, Escrow.Store.find_markRefunded, hfind, Option.map_some]
        rcases Escrow.Store.refundedRow_cases refund.escrowId now session with ⟨_, hsame⟩ | ⟨hid, _⟩
        · rw [hsame]
        · exact absurd ((Escrow.Store.id_of_find hfind).symm.trans (hid.trans hsid)) hk
  | _ => exact Or.inl hfind

theorem Stages.keyed (h : Stages cfg store sid stage reply s next)
    (hkeyed : Table.Keyed EscrowSession.id store.escrow.sessions) :
    Table.Keyed EscrowSession.id s.escrow.sessions := by
  cases h with
  | marks => exact hkeyed.map (Escrow.Store.id_refundedRow _)
  | _ => exact hkeyed

end Stages

/-! ## The sessions in front -/

/-- The session and those in front of it are as they were, and nothing is new about its refund. -/
structure Store.Blocked (older : List EscrowSession) (session : EscrowSession) (store before : Store) :
    Prop where
  front : ∀ other ∈ older, store.escrow.find other.id = some other
  row : store.escrow.find session.id = some session
  untouched : Store.Untouched session.id before store

/-- Either this is so, or a session in front has been refunded. -/
def Store.Waits (older : List EscrowSession) (session : EscrowSession) (store before : Store) : Prop :=
  (∃ other ∈ older, store.Marked other.id) ∨ store.Blocked older session before

/-- The session ended at `time` and the ones in front of it, as many as a sweep takes, before. -/
structure Front (cfg : Config) (older : List EscrowSession) (session : EscrowSession) (time : Time) :
    Prop where
  closedAt : session.closedAt = some time
  awaiting : session.awaitingRefund = true
  nodup : older.Nodup
  full : cfg.sweepBatch ≤ older.length
  waiting : ∀ other ∈ older, other.awaitingRefund = true ∧
    ∃ earlier, other.closedAt = some earlier ∧ earlier < time

section Blocked

variable {cfg : Config} {older : List EscrowSession} {session : EscrowSession} {time now : Time}
  {before store store' s : Store} {sid : SessionId} {stage : Stage} {reply : Reply} {next : Next}
  {caller : Caller} {flow : Flow Process Answer}

theorem canBecome_trans {a b c : Fate} (hab : a.canBecome b = true) (hbc : b.canBecome c = true) :
    a.canBecome c = true := by
  cases a with
  | pending => rfl
  | mined depth =>
      cases b with
      | mined depth' =>
          cases c with
          | mined depth'' =>
              have hle : depth ≤ depth' := of_decide_eq_true hab
              exact decide_eq_true (hle.trans (of_decide_eq_true hbc))
          | _ => cases hbc
      | _ => cases hab
  | reverted =>
      cases b with
      | reverted => exact hbc
      | _ => cases hab
  | dropped =>
      cases b with
      | dropped => exact hbc
      | _ => cases hab

theorem Store.Untouched.trans (h : Store.Untouched sid before store)
    (h' : Store.Untouched sid store store') : Store.Untouched sid before store' := by
  refine ⟨h'.refund.trans h.refund, fun hended => h'.ended (h.ended hended),
    fun hmarked => h'.marked (h.marked hmarked), ?_⟩
  intro tx'' htx'' hid
  rcases h'.closings tx'' htx'' hid with ⟨tx', htx', hid', hhash', hbecome'⟩
  rcases h.closings tx' htx' hid' with ⟨tx, htx, htxid, hhash, hbecome⟩
  exact ⟨tx, htx, htxid, hhash.trans hhash', canBecome_trans hbecome hbecome'⟩

/-- No sweep takes a session with a full batch in front of it. -/
theorem not_mem_findAwaitingRefund (hfront : Front cfg older session time)
    (hkeyed : Table.Keyed EscrowSession.id store.escrow.sessions)
    (hblocked : store.Blocked older session before) :
    session.id ∉ (store.escrow.findAwaitingRefund cfg.sweepBatch).map (·.id) := by
  intro hmem
  rcases List.mem_map.1 hmem with ⟨row, hrow, hid⟩
  have hstored : row ∈ store.escrow.sessions :=
    (List.mem_filter.1 (Arrange.mem_orderBy.1 (List.mem_of_mem_take hrow))).1
  have hself : row = session :=
    hkeyed.eq_of_key hstored (Escrow.Store.mem_of_find hblocked.row) hid
  subst hself
  refine Arrange.not_mem_take_orderBy hfront.nodup ?_ ?_ hfront.full hrow
  · intro other hother
    exact List.mem_filter.2 ⟨Escrow.Store.mem_of_find (hblocked.front other hother),
      (hfront.waiting other hother).1⟩
  · intro other hother
    rcases (hfront.waiting other hother).2 with ⟨earlier, hearlier, hlt⟩
    rw [hearlier, hfront.closedAt]
    exact hlt

/-- A step that leaves the session alone, and keeps or marks those in front of it. -/
theorem Store.Waits.step (h : store.Waits older session before)
    (hmarked : ∀ k, store.Marked k → store'.Marked k)
    (hfront : ∀ k row, row.awaitingRefund = true → store.escrow.find k = some row →
      store'.escrow.find k = some row ∨ store'.Marked k)
    (hwaiting : ∀ other ∈ older, other.awaitingRefund = true)
    (hrow : store.Blocked older session before → store'.escrow.find session.id = some session ∧
      Store.Untouched session.id store store') : store'.Waits older session before := by
  rcases h with ⟨other, hother, hdone⟩ | hblocked
  · exact Or.inl ⟨other, hother, hmarked _ hdone⟩
  · by_cases hdone : ∃ other ∈ older, store'.Marked other.id
    · exact Or.inl hdone
    · rcases hrow hblocked with ⟨hfind, huntouched⟩
      refine Or.inr ⟨?_, hfind, hblocked.untouched.trans huntouched⟩
      intro other hother
      have hkept := hfront other.id other (hwaiting other hother) (hblocked.front other hother)
      exact hkept.resolve_right fun hmark => hdone ⟨other, hother, hmark⟩

/-- Expiry passes by the sessions that have ended. -/
theorem find_expireDue_of_awaiting {k : SessionId} {row : EscrowSession} (now : Time)
    (hawaiting : row.awaitingRefund = true) (hfind : store.escrow.find k = some row) :
    (store.escrow.expireDue now).find k = some row := by
  rw [Escrow.Store.find_expireDue, hfind, Option.map_some]
  rcases Escrow.Store.expire_cases now row with hsame | ⟨hopen, _⟩
  · rw [hsame]
  · simp [EscrowSession.awaitingRefund, hopen] at hawaiting

theorem find_happens {e : Event} {k : SessionId} {row : EscrowSession} (h : Happens store e store')
    (hawaiting : row.awaitingRefund = true) (hfind : store.escrow.find k = some row) :
    store'.escrow.find k = some row := by
  cases h with
  | escrow hmark h =>
      cases h with
      | expireDue now => exact find_expireDue_of_awaiting now hawaiting hfind
      | markRefunded sid refundedAt => exact absurd rfl (hmark sid refundedAt)
      | _ => exact hfind
  | _ => exact hfind

theorem keyed_happens {e : Event} (h : Happens store e store')
    (hkeyed : Table.Keyed EscrowSession.id store.escrow.sessions) :
    Table.Keyed EscrowSession.id store'.escrow.sessions := by
  cases h with
  | escrow hmark h =>
      cases h with
      | expireDue now => exact hkeyed.map (Escrow.Store.id_expire now)
      | markRefunded sid refundedAt => exact absurd rfl (hmark sid refundedAt)
      | _ => exact hkeyed
  | _ => exact hkeyed

theorem Continues.escrow (h : Continues s caller sid next store' flow) : store'.escrow = s.escrow := by
  cases h with
  | _ => rfl

/-- A refund concerns nothing but its own session and what its caller has still to do. -/
theorem awaits_of_refundStep {k : SessionId} {result : Store × Flow Process Answer}
    (h : refundStep cfg caller sid stage reply store = some result)
    (hcaller : caller.takes k = false) (hsid : sid ≠ k) :
    result.2.Awaits fun p => p.concerns k = false := by
  have hgoes : ∀ stage', (Process.refund caller sid stage').concerns k = false := by
    intro stage'
    simp [Process.concerns, hcaller, hsid]
  have hends : ∀ s a, (finish s a caller).2.Awaits fun p => p.concerns k = false := by
    intro s a
    cases caller with
    | request => trivial
    | sweep server rest result =>
        cases rest with
        | nil => trivial
        | cons next rest =>
            have hnot : k ≠ next ∧ k ∉ rest := by simpa [Caller.takes] using hcaller
            simp [finish, sweepNext, Flow.Awaits, Process.concerns, Caller.takes, hnot.1.symm, hnot.2]
  unfold refundStep at h
  split at h <;> (try split at h) <;> (try split at h) <;> cases h <;>
    first
    | exact hgoes _
    | exact hends _ _

/-! ## Every step -/

/-- Session ids are distinct, and whoever refunds has rows of its own session in memory. -/
structure Owned (c : State) : Prop where
  keyed : Table.Keyed EscrowSession.id c.store.escrow.sessions
  process : ∀ id p, c.process id = some p → p.Own

/-- The session waits behind the older ones, and nobody has it in hand. -/
structure Blockade (older : List EscrowSession) (session : EscrowSession) (before : Store) (c : State) :
    Prop where
  owned : Owned c
  waits : c.store.Waits older session before
  spared : c.store.Blocked older session before →
    ∀ id p, c.process id = some p → p.concerns session.id = false

variable {c c' : State} {id : CallId}

theorem Owned.go (hc : Owned c) (hkeyed : Table.Keyed EscrowSession.id store.escrow.sessions)
    (hflow : flow.Awaits Process.Own) : Owned (c.go id store flow) := by
  refine ⟨by rw [Calls.store_go]; exact hkeyed, ?_⟩
  intro k p hp
  rcases Calls.of_process_go hp with ⟨_, rfl⟩ | ⟨_, hold⟩
  · exact hflow
  · exact hc.process k p hold

/-- What a step does to the sessions that wait for their refund. -/
structure Store.Proceeds (store store' : Store) : Prop where
  keyed : Table.Keyed EscrowSession.id store.escrow.sessions →
    Table.Keyed EscrowSession.id store'.escrow.sessions
  marked : ∀ k, store.Marked k → store'.Marked k
  front : ∀ k row, row.awaitingRefund = true → store.escrow.find k = some row →
    store'.escrow.find k = some row ∨ store'.Marked k

theorem Store.Proceeds.of_escrow (h : store'.escrow = store.escrow) : store.Proceeds store' := by
  refine ⟨?_, ?_, ?_⟩
  · rw [h]
    exact fun hkeyed => hkeyed
  · intro k hmarked
    rw [Store.Marked, h]
    exact hmarked
  · intro k row _ hfind
    rw [h]
    exact Or.inl hfind

theorem Store.Proceeds.trans (h : before.Proceeds store) (h' : store.Proceeds store') :
    before.Proceeds store' := by
  refine ⟨fun hkeyed => h'.keyed (h.keyed hkeyed), fun k hmarked => h'.marked k (h.marked k hmarked), ?_⟩
  intro k row hawaiting hfind
  rcases h.front k row hawaiting hfind with hfind' | hmarked
  · exact h'.front k row hawaiting hfind'
  · exact Or.inr (h'.marked k hmarked)

theorem proceeds_expireDue (now : Time) :
    store.Proceeds (store.withEscrow (store.escrow.expireDue now)) :=
  ⟨fun hkeyed => hkeyed.map (Escrow.Store.id_expire now),
    fun k hmarked => (untouched_expireDue now k).marked hmarked,
    fun _ _ hawaiting hfind => Or.inl (find_expireDue_of_awaiting now hawaiting hfind)⟩

theorem Stages.proceeds (h : Stages cfg store sid stage reply s next) (habout : stage.About sid) :
    store.Proceeds s := by
  refine ⟨h.keyed, fun k hmarked => h.marked hmarked, ?_⟩
  intro k row _ hfind
  exact (h.keepsRow habout hfind).imp_right fun hmark => hmark.2

theorem Happens.proceeds {e : Event} (h : Happens store e store') : store.Proceeds store' :=
  ⟨keyed_happens h, fun k hmarked => (h.untouched k).marked hmarked,
    fun _ _ hawaiting hfind => Or.inl (find_happens h hawaiting hfind)⟩

/-- A request or a sweep begins. -/
theorem start_spec {r : Request} (h : ∀ request, r ≠ .escrow request) (store : Store) :
    (start r store).1.escrow = store.escrow ∧ (start r store).2.Awaits Process.Own ∧
      ∀ k, Store.Untouched k store (start r store).1 := by
  cases r with
  | escrow request => exact absurd rfl (h request)
  | refund escrowId => exact ⟨rfl, trivial, .of_same rfl rfl rfl⟩
  | sweep server =>
      by_cases hsweeping : server ∈ store.sweeping
      · rw [show start (.sweep server) store = _ from if_pos hsweeping]
        exact ⟨rfl, trivial, .of_same rfl rfl rfl⟩
      · rw [show start (.sweep server) store = _ from if_neg hsweeping]
        have hrefunds : (store.setSweeping server).refunds = store.refunds := rfl
        exact ⟨rfl, trivial, .of_same hrefunds rfl rfl⟩

theorem sweepNext_spec (store : Store) (server : Nat) (result : RefundSweepResult)
    (pending : List SessionId) :
    (sweepNext store server result pending).1.escrow = store.escrow ∧
      (sweepNext store server result pending).2.Awaits Process.Own ∧
      (∀ k, Store.Untouched k store (sweepNext store server result pending).1) ∧
      ∀ k, k ∉ pending →
        (sweepNext store server result pending).2.Awaits fun p => p.concerns k = false := by
  cases pending with
  | nil => exact ⟨rfl, trivial, untouched_endSweep server, fun _ _ => trivial⟩
  | cons next rest =>
      refine ⟨rfl, trivial, .of_same rfl rfl rfl, ?_⟩
      intro k hnot
      have hnot : k ≠ next ∧ k ∉ rest := by simpa using hnot
      simp [sweepNext, Flow.Awaits, Process.concerns, Caller.takes, hnot.1.symm, hnot.2]

theorem refundsOnly_call {r : Request} (h : refundsOnly (.call id r) = true) (request : Escrow.Request) :
    r ≠ .escrow request := by
  rintro rfl
  cases h

/-- Every step keeps the rows in memory apart, and the sessions that wait. -/
theorem Owned.step {m : Move Request Reply Event} (hc : Owned c)
    (h : refundsStep cfg m c = some c') : Owned c' ∧ c.store.Proceeds c'.store := by
  rcases guarded_eq_some.1 h with ⟨honly, h⟩
  cases Service.steps_of_step h with
  | call id r hnew hunanswered =>
      have hstart := start_spec (refundsOnly_call honly) c.store
      have hproceeds : c.store.Proceeds (start r c.store).1 := .of_escrow hstart.1
      rw [Calls.store_go]
      exact ⟨hc.go (hproceeds.keyed hc.keyed) hstart.2.1, hproceeds⟩
  | resume id p i store' flow hp hresume =>
      have hown := hc.process id p hp
      rw [Calls.store_go]
      cases p with
      | escrow p => exact absurd hown fun hfalse => hfalse
      | refund caller sid stage =>
          rcases stages_of_refundStep hresume with ⟨s, next, hstages, hcontinues⟩
          have hall : c.store.Proceeds store' :=
            (hstages.proceeds hown).trans (.of_escrow hcontinues.escrow)
          refine ⟨hc.go (hall.keyed hc.keyed) ?_, hall⟩
          cases hcontinues with
          | goes => exact hstages.about hown
          | answers _ => trivial
          | next => trivial
          | swept => trivial
      | expireDue server now =>
          cases i with
          | done =>
              cases hresume
              exact ⟨hc.go ((proceeds_expireDue now).keyed hc.keyed) trivial, proceeds_expireDue now⟩
          | _ => cases hresume
      | findAwaitingRefund server expired =>
          cases i with
          | done =>
              have hnext := sweepNext_spec c.store server ⟨expired, 0, 0⟩
                ((c.store.escrow.findAwaitingRefund cfg.sweepBatch).map (·.id))
              rw [show sweepNext c.store server ⟨expired, 0, 0⟩ _ = (store', flow) from
                Option.some.inj hresume] at hnext
              have hproceeds := Store.Proceeds.of_escrow hnext.1
              exact ⟨hc.go (hproceeds.keyed hc.keyed) hnext.2.1, hproceeds⟩
          | _ => cases hresume
  | external e store' hexternal =>
      have hproceeds := (happens_of_external hexternal).proceeds
      exact ⟨⟨hproceeds.keyed hc.keyed, hc.process⟩, hproceeds⟩

/-- A step that is no request for the refund of a blocked session does not touch it. -/
theorem Blockade.spared_step {m : Move Request Reply Event} (hfront : Front cfg older session time)
    (hc : Blockade older session before c) (hblocked : c.store.Blocked older session before)
    (h : unrequestedStep cfg session.id m c = some c') :
    c'.store.escrow.find session.id = some session ∧ Store.Untouched session.id c.store c'.store ∧
      ∀ id p, c'.process id = some p → p.concerns session.id = false := by
  rcases guarded_eq_some.1 h with ⟨hrequest, h⟩
  rcases guarded_eq_some.1 h with ⟨honly, h⟩
  have hspared := hc.spared hblocked
  -- the call that moves is spared, and so are all the others
  have hgo : ∀ id store flow, (flow : Flow Process Answer).Awaits (fun p => p.concerns session.id = false) →
      ∀ k p, (c.go id store flow).process k = some p → p.concerns session.id = false := by
    intro id store flow hflow k p hp
    rcases Calls.of_process_go hp with ⟨_, rfl⟩ | ⟨_, hold⟩
    · exact hflow
    · exact hspared k p hold
  cases Service.steps_of_step h with
  | call id r hnew hunanswered =>
      have hstart := start_spec (refundsOnly_call honly) c.store
      rw [Calls.store_go]
      refine ⟨?_, hstart.2.2 session.id, hgo id _ _ ?_⟩
      · rw [show ((service cfg).start r c.store).1.escrow = c.store.escrow from hstart.1]
        exact hblocked.row
      · cases r with
        | escrow request => cases honly
        | refund escrowId =>
            have hne : escrowId ≠ session.id := by simpa [requests] using hrequest
            simp [service, start, Flow.Awaits, Process.concerns, Caller.takes, hne]
        | sweep server =>
            by_cases hsweeping : server ∈ c.store.sweeping
            · rw [show (service cfg).start (.sweep server) c.store = _ from if_pos hsweeping]
              trivial
            · rw [show (service cfg).start (.sweep server) c.store = _ from if_neg hsweeping]
              rfl
  | resume id p i store' flow hp hresume =>
      have hown := hc.owned.process id p hp
      have hfree := hspared id p hp
      rw [Calls.store_go]
      cases p with
      | escrow p => exact absurd hown fun hfalse => hfalse
      | refund caller sid stage =>
          have hother : sid ≠ session.id ∧ caller.takes session.id = false := by
            simpa [Process.concerns] using hfree
          rcases stages_of_refundStep hresume with ⟨s, next, hstages, hcontinues⟩
          have huntouched : Store.Untouched session.id c.store store' :=
            (hstages.spares hown hother.1.symm).trans (hcontinues.untouched session.id)
          refine ⟨?_, huntouched, hgo id _ _ (awaits_of_refundStep hresume hother.2 hother.1)⟩
          rw [hcontinues.escrow]
          exact (hstages.keepsRow hown hblocked.row).resolve_right fun hmark => hother.1.symm hmark.1
      | expireDue server now =>
          cases i with
          | done =>
              cases hresume
              exact ⟨find_expireDue_of_awaiting now hfront.awaiting hblocked.row,
                untouched_expireDue now session.id, hgo id _ _ rfl⟩
          | _ => cases hresume
      | findAwaitingRefund server expired =>
          cases i with
          | done =>
              have hnext := sweepNext_spec c.store server ⟨expired, 0, 0⟩
                ((c.store.escrow.findAwaitingRefund cfg.sweepBatch).map (·.id))
              have hpassed := hnext.2.2.2 session.id
                (not_mem_findAwaitingRefund hfront hc.owned.keyed hblocked)
              rw [show sweepNext c.store server ⟨expired, 0, 0⟩ _ = (store', flow) from
                Option.some.inj hresume] at hnext hpassed
              refine ⟨?_, hnext.2.2.1 session.id, hgo id _ _ hpassed⟩
              rw [hnext.1]
              exact hblocked.row
          | _ => cases hresume
  | external e store' hexternal =>
      have hhappens := happens_of_external hexternal
      exact ⟨find_happens hhappens hfront.awaiting hblocked.row, hhappens.untouched session.id, hspared⟩

/-- As long as the sessions in front wait, none of them is marked. -/
theorem Store.Blocked.not_marked (hfront : Front cfg older session time)
    (h : store.Blocked older session before) : ¬ ∃ other ∈ older, store.Marked other.id := by
  rintro ⟨other, hother, row, hfind, hset⟩
  rw [h.front other hother] at hfind
  cases hfind
  have hawaiting := (hfront.waiting other hother).1
  simp only [EscrowSession.awaitingRefund, Bool.and_eq_true, decide_eq_true_eq] at hawaiting
  exact hset hawaiting.2

theorem Blockade.step {m : Move Request Reply Event} (hfront : Front cfg older session time)
    (hc : Blockade older session before c) (h : unrequestedStep cfg session.id m c = some c') :
    Blockade older session before c' := by
  rcases hc.owned.step (guarded_eq_some.1 h).2 with ⟨howned, hproceeds⟩
  have hwaits : c'.store.Waits older session before :=
    hc.waits.step hproceeds.marked hproceeds.front (fun other hother => (hfront.waiting other hother).1)
      fun hblocked => ⟨(hc.spared_step hfront hblocked h).1, (hc.spared_step hfront hblocked h).2.1⟩
  refine ⟨howned, hwaits, ?_⟩
  intro hblocked'
  rcases hc.waits with ⟨other, hother, hmarked⟩ | hblocked
  · exact absurd ⟨other, hother, hproceeds.marked _ hmarked⟩ (hblocked'.not_marked hfront)
  · exact (hc.spared_step hfront hblocked h).2.2

end Blocked

/-- No sweep gets past a full batch of sessions that cannot be refunded.  Take any state that refunds
and sweeps reach from whatever is stored, a session that waits for its refund with nobody having it in
hand, and as many sessions as a sweep takes that ended before it and wait as well.  However often sweeps
run then, as long as nobody asks for the refund of the session itself: one of the others has been
refunded, or the session waits as it did, its refund is as it was and no transaction was sent for it. -/
theorem sweep_blocked {cfg : Config} {store : Store}
    (hkeyed : Table.Keyed EscrowSession.id store.escrow.sessions)
    {moves later : List (Move Request Reply Event)} {c c' : State}
    (h : run (refundsStep cfg) moves (.start store) = some c) {older : List EscrowSession}
    {session : EscrowSession} {time : Time} (hfront : Front cfg older session time)
    (hstored : session ∈ c.store.escrow.sessions) (holder : older ⊆ c.store.escrow.sessions)
    (hfree : ∀ id p, c.process id = some p → p.concerns session.id = false)
    (hlater : run (unrequestedStep cfg session.id) later c = some c') :
    (∃ other ∈ older, c'.store.Marked other.id) ∨
      (c'.store.escrow.find session.id = some session ∧
        Store.Untouched session.id c.store c'.store) := by
  have hfirst : Owned (.start store) :=
    ⟨hkeyed, fun _ _ hp => absurd hp.symm (Option.some_ne_none _)⟩
  have howned : Owned c := run_invariant (fun _ _ _ hc hstep => (Owned.step hc hstep).1) hfirst h
  have hblocked : c.store.Blocked older session c.store :=
    ⟨fun other hother => Table.lookup_of_mem howned.keyed (holder hother),
      Table.lookup_of_mem howned.keyed hstored, .of_same rfl rfl rfl _⟩
  have hend : Blockade older session c.store c' :=
    run_invariant (fun _ _ _ hc hstep => Blockade.step hfront hc hstep)
      ⟨howned, Or.inr hblocked, fun _ => hfree⟩ hlater
  exact hend.waits.imp_right fun hstill => ⟨hstill.row, hstill.untouched⟩

/-- A session of 2, cancelled an hour after that of 1. -/
def laterSession : EscrowSession :=
  { cancelledSession with id := 2, closedAt := some 7200000000 }

def twoCancelled : Store :=
  .unrefunded { Escrow.Store.empty with sessions := [cancelledSession, laterSession] } []

def oneAtATime : Config :=
  { sampleConfig with sweepBatch := 1 }

/-- Both times the sweep finds the first session only, and the hub turns its refund away. -/
def twoSweeps : List (Move Request Reply Event) :=
  [.call 1 (.sweep 0), .resume 1 .done, .resume 1 .done, .resume 1 .done, .resume 1 .done,
    .resume 1 .done, .resume 1 .done, .resume 1 .done, .resume 1 (.failed "EscrowHub: not active"),
    .resume 1 .done, .call 2 (.sweep 0), .resume 2 .done, .resume 2 .done, .resume 2 .done,
    .resume 2 .done, .resume 2 (.failed "EscrowHub: not active"), .resume 2 .done]

theorem sweep_blocked_twoSweeps :
    ∃ c', run (unrequestedStep oneAtATime 2) twoSweeps (.start twoCancelled) = some c' ∧
      c'.answered 2 ≠ none ∧ c'.store.escrow.find 2 = some laterSession ∧
      Store.Untouched 2 twoCancelled c'.store := by
  have hreached : ((run (unrequestedStep oneAtATime 2) twoSweeps (.start twoCancelled)).any fun c' =>
      (c'.answered 2).isSome &&
        (c'.store.escrow.find 1).any fun session => session.refundedAt = none) = true := by
    decide +kernel
  rcases (Option.any_eq_true _ _).1 hreached with ⟨c', hc', hstate⟩
  rcases Bool.and_eq_true_iff.1 hstate with ⟨hanswered, hany⟩
  rcases (Option.any_eq_true _ _).1 hany with ⟨row, hrow, hnone⟩
  have hfront : Front oneAtATime [cancelledSession] laterSession 7200000000 :=
    { closedAt := rfl
      awaiting := rfl
      nodup := List.nodup_singleton _
      full := Nat.le_refl 1
      waiting := by
        intro other hother
        rw [List.mem_singleton.1 hother]
        exact ⟨rfl, 5, rfl, by decide⟩ }
  have hkeyed : Table.Keyed EscrowSession.id twoCancelled.escrow.sessions := by
    show ([1, 2] : List SessionId).Nodup
    decide
  have hstart : run (refundsStep oneAtATime) [] (.start twoCancelled) = some (.start twoCancelled) := rfl
  have hwaits := sweep_blocked hkeyed hstart hfront
    (List.mem_cons_of_mem _ List.mem_cons_self) (List.cons_subset_cons _ (List.nil_subset _))
    (fun _ _ hp => absurd hp.symm (Option.some_ne_none _)) hc'
  rcases hwaits with ⟨other, hother, row', hrow', hset⟩ | hwaits
  · rw [List.mem_singleton.1 hother] at hrow'
    have hsame : row = row' := Option.some.inj (hrow.symm.trans hrow')
    rw [← hsame] at hset
    exact absurd (of_decide_eq_true hnone) hset
  · exact ⟨c', hc', Option.isSome_iff_ne_none.1 hanswered, hwaits⟩

end Refunds
end PaymentRail
