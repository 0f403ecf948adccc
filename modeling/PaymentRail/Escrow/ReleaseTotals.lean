import PaymentRail.Collections.Sums
import PaymentRail.Escrow.ReleaseBounds
import PaymentRail.Escrow.ReleaseRows

/-!
# ReleaseTotals — the released total and the release rows

Between its reservation and the saved outcome a release has moved the total and the rows by different
amounts; `pending` says by how much.  In every run that keeps to `totalsKept`

  `releasedAmount = sum of the rows that are not failed + sum of pending over the waiting calls`

so with no release in flight the total is the sum of the rows.  `totalsKept` excludes the two steps
that move the total without a row: a session saved with an outdated total, and a payout that failed
after its session had left OPEN, when the amount cannot be given back any more.
-/

namespace PaymentRail
namespace Escrow

open Machine Strings Money Collections

/-! ## The two sides -/

/-- What a release row says was released from the session. -/
def counted (sid : SessionId) (row : EscrowRelease) : Int :=
  if row.escrowId = sid ∧ row.status ≠ .failed then row.amount.wei else 0

/-- The releases of the session that have not failed. -/
def Store.releasesOf (store : Store) (sid : SessionId) : List EscrowRelease :=
  store.releases.filter fun row => row.escrowId = sid ∧ row.status ≠ .failed

def Store.releasedRows (store : Store) (sid : SessionId) : Int :=
  (store.releases.map (counted sid)).sum

def Store.releasedTotal (store : Store) (sid : SessionId) : Int :=
  (store.find sid).elim 0 fun session => session.releasedAmount.wei

/-- What a call has added to the total of the session and not to its rows. -/
def Process.pending (sid : SessionId) : Process → Int
  | .insertRelease escrowId _ amount => if escrowId = sid then amount.wei else 0
  -- given back, while the row still counts
  | .saveFailed release => if release.escrowId = sid then -release.amount.wei else 0
  | _ => 0

/-- The amount of the row a call owns. -/
def Process.owed (sid : SessionId) (p : Process) : Int :=
  p.release?.elim 0 fun release => if release.escrowId = sid then release.amount.wei else 0

theorem releasedRows_eq (store : Store) (sid : SessionId) :
    store.releasedRows sid = ((store.releasesOf sid).map (·.amount.wei)).sum := by
  refine sum_map_filter ?_ ?_
  · intro row _ hcounted
    rw [counted, if_pos (of_decide_eq_true hcounted)]
  · intro row _ hskipped
    rw [counted, if_neg (of_decide_eq_false hskipped)]

theorem releasedTotal_save (store : Store) (entity : EscrowSession) (sid : SessionId) :
    (store.save entity).releasedTotal sid =
      if entity.id = sid then entity.releasedAmount.wei else store.releasedTotal sid := by
  by_cases hid : entity.id = sid
  · subst hid
    simp [Store.releasedTotal]
  · simp [Store.releasedTotal, Store.find_save_of_ne hid, hid]

theorem releasedTotal_of_find {store : Store} {sid : SessionId} {session : EscrowSession}
    (h : store.find sid = some session) : store.releasedTotal sid = session.releasedAmount.wei := by
  rw [Store.releasedTotal, h]
  rfl

/-- Saving a release moves the sum by the difference of the two rows. -/
theorem releasedRows_saveRelease {store : Store} (sid : SessionId) (entity : EscrowRelease)
    (hkeyed : Table.Keyed EscrowRelease.id store.releases) :
    (store.saveRelease entity).releasedRows sid +
        (Table.lookup EscrowRelease.id store.releases entity.id).elim 0 (counted sid) =
      store.releasedRows sid + counted sid entity :=
  Table.sum_put_add (counted sid) hkeyed entity

/-- A new release adds its amount to the sum of its session. -/
theorem releasedRows_newRelease {store : Store} (sid : SessionId) {new : ReleaseId}
    (escrowId : SessionId) (dto : ReleaseEscrowDto) (amount : Amount)
    (hkeyed : Table.Keyed EscrowRelease.id store.releases)
    (hnew : Table.lookup EscrowRelease.id store.releases new = none) :
    (store.saveRelease (newRelease new escrowId dto amount)).releasedRows sid =
      store.releasedRows sid + if escrowId = sid then amount.wei else 0 := by
  have hrows := releasedRows_saveRelease sid (newRelease new escrowId dto amount) hkeyed
  have hold : (Table.lookup EscrowRelease.id store.releases
      (newRelease new escrowId dto amount).id).elim 0 (counted sid) = 0 := by
    rw [show (newRelease new escrowId dto amount).id = new from rfl, hnew]
    rfl
  have hcount : counted sid (newRelease new escrowId dto amount) =
      if escrowId = sid then amount.wei else 0 := by
    simp [counted, newRelease]
  rw [hold, add_zero, hcount] at hrows
  exact hrows

/-! ## The condition -/

/-- A session is saved with the total that is stored, and the amount of a failed payout is given
back while the session is open. -/
def totalsKept : Process → Reply → Store → Bool
  | .saveSession _ loaded _, _, store =>
      (store.find loaded.id).any fun stored => stored.releasedAmount = loaded.releasedAmount
  | .giveBack release _, _, store =>
      (store.find release.escrowId).any fun session => session.status = .open
  | _, _, _ => true

/-! ## One step -/

section Steps

variable {cfg : Config} {id : CallId} {store store' : Store} {p q : Process} {reply : Reply}
  {flow : Flow Process Answer}

/-- A session that is committed has released nothing. -/
def Process.Unreleased : Process → Prop
  | .commit session _ _ => session.releasedAmount.wei = 0
  | _ => True

theorem Waits.pending (h : Waits cfg store p reply q) (sid : SessionId) :
    q.pending sid = p.pending sid := by
  cases h with
  | _ => rfl

theorem Ends.pending {a : Answer} (h : Ends store p reply a) (sid : SessionId) :
    p.pending sid = 0 := by
  cases h with
  | _ => rfl

/-- A session that is not stored yet has released nothing. -/
theorem releasedTotal_insert {session : EscrowSession} (hnew : store.find session.id = none)
    (hzero : session.releasedAmount.wei = 0) (sid : SessionId) :
    (store.save session).releasedTotal sid = store.releasedTotal sid := by
  rw [releasedTotal_save]
  by_cases hid : session.id = sid
  · subst hid
    rw [if_pos rfl, hzero, Store.releasedTotal, hnew]
    rfl
  · rw [if_neg hid]

/-- A save with the stored total keeps it. -/
theorem releasedTotal_same {entity stored : EscrowSession} (hfind : store.find entity.id = some stored)
    (hsame : stored.releasedAmount = entity.releasedAmount) (sid : SessionId) :
    (store.save entity).releasedTotal sid = store.releasedTotal sid := by
  rw [releasedTotal_save]
  by_cases hid : entity.id = sid
  · subst hid
    rw [if_pos rfl, releasedTotal_of_find hfind, hsame]
  · rw [if_neg hid]

/-- The conditional UPDATE moves the total of its session. -/
theorem releasedTotal_reserved {escrowId : SessionId} {session : EscrowSession}
    (hfind : store.find escrowId = some session) (delta : Int) (sid : SessionId) :
    (store.save { session with
        releasedAmount := ⟨session.releasedAmount.wei + delta⟩ }).releasedTotal sid =
      store.releasedTotal sid + if escrowId = sid then delta else 0 := by
  rw [releasedTotal_save, Store.id_of_find hfind]
  by_cases hid : escrowId = sid
  · subst hid
    rw [if_pos rfl, if_pos rfl, releasedTotal_of_find hfind]
  · rw [if_neg hid, if_neg hid, add_zero]

/-- What is given back, is given back while the session is open and covers it. -/
theorem reserve_back {release : EscrowRelease} {session : EscrowSession}
    (hfind : store.find release.escrowId = some session) (hopen : session.status = .open)
    (hbounded : session.Bounded) (hpos : 0 < release.amount.wei)
    (hcovers : release.amount.wei ≤ session.releasedAmount.wei) :
    store.reserve release.escrowId (-release.amount.wei) ≠ none := by
  have hle := hbounded.le_least
  have hok : session.reservable (-release.amount.wei) = true := by
    refine decide_eq_true ⟨hopen, ?_, ?_⟩
    · omega
    · omega
  simp [Store.reserve, hfind, hok]

/-- The stored row of an owned release counts with the amount the call knows. -/
theorem Stored.counted {release : EscrowRelease} (h : Stored store release) (sid : SessionId) :
    (Table.lookup EscrowRelease.id store.releases release.id).elim 0 (counted sid) =
      if release.escrowId = sid then release.amount.wei else 0 := by
  rcases h.row with ⟨row, hrow, hescrow, hamount, hstatus⟩
  rw [hrow, Option.elim_some, Escrow.counted, hescrow, hamount, hstatus]
  simp

/-- A step moves the total by what it moves the rows and the pending amounts. -/
theorem Resumes.releasedTotal (h : Resumes cfg id store p reply store' flow)
    (hG : totalsKept p reply store = true) (hsessions : SessionsBounded store)
    (hkeyed : Table.Keyed EscrowRelease.id store.releases) (hp : p.Owns store)
    (hfresh : p.Unreleased) (sid : SessionId)
    (hcovers : ∀ release message, p = .giveBack release message →
      release.amount.wei ≤ store.releasedTotal release.escrowId) :
    store'.releasedTotal sid + store.releasedRows sid + p.pending sid =
      store.releasedTotal sid + store'.releasedRows sid + flow.weight (Process.pending sid) := by
  cases h with
  | waits h =>
      rw [Flow.weight, h.pending]
  | ends h =>
      rw [Flow.weight, h.pending]
  | inserts hnew =>
      rw [releasedTotal_insert hnew rfl, afterOpen_weight fun _ _ => rfl]
      rfl
  | locks hfree => rfl
  | exceeds => rfl
  | @commits session now limit hnew =>
      have htotal : ((store.save session).unlock
          (cfg.hashtext (toLowerCase session.agentA))).releasedTotal sid = store.releasedTotal sid :=
        releasedTotal_insert hnew hfresh sid
      rw [afterOpen_weight fun _ _ => rfl, htotal]
      rfl
  | sendsCall hnew => rfl
  | @saves op loaded closedAt =>
      rcases (Option.any_eq_true _ _).1 hG with ⟨stored, hfind, hsame⟩
      have hwritten : store.find (op.written loaded closedAt).id = some stored := hfind
      have htotal := releasedTotal_same hwritten (of_decide_eq_true hsame) sid
      rw [afterSave_weight fun _ _ => rfl, htotal]
      rfl
  | @reserves escrowId dto amount session hfind hok =>
      rw [releasedTotal_reserved hfind, add_assoc, add_comm _ (store.releasedRows sid + _)]
      simp only [Flow.weight, Process.pending, Store.releasedRows, Store.save]
      omega
  | @insertsRelease escrowId dto amount new hnew =>
      have hrows := releasedRows_newRelease sid escrowId dto amount hkeyed hnew
      have htotal : (store.saveRelease (newRelease new escrowId dto amount)).releasedTotal sid =
          store.releasedTotal sid := rfl
      have hafter : (afterInsert cfg (newRelease new escrowId dto amount)).pending sid = 0 :=
        afterInsert_of (A := fun q => q.pending sid = 0) rfl rfl cfg
      rw [Flow.weight, hafter, Process.pending, htotal]
      omega
  | paysOut hnew => rfl
  | @givesBack release message session hfind hok =>
      have hpending : Process.pending sid (.saveFailed (markFailed release message)) =
          if release.escrowId = sid then -release.amount.wei else 0 := rfl
      rw [releasedTotal_reserved hfind, Flow.weight, hpending]
      simp only [Process.pending, Store.releasedRows, Store.save]
      omega
  | @givesNothingBack release message hrefused =>
      -- the session is open and covers the amount, so the UPDATE has found its row
      rcases (Option.any_eq_true _ _).1 hG with ⟨session, hfind, hopen⟩
      have hcover := hcovers release message rfl
      rw [releasedTotal_of_find hfind] at hcover
      exact absurd hrefused (reserve_back hfind (of_decide_eq_true hopen)
        (hsessions _ (Store.mem_of_find hfind)) hp.1.pos hcover)
  | @failed release message =>
      have hrows := releasedRows_saveRelease sid release hkeyed
      have hold := hp.1.counted sid
      have hcount : counted sid release = 0 := by
        simp [counted, hp.2]
      have hpending : Process.pending sid (.saveFailed release) =
          -(if release.escrowId = sid then release.amount.wei else 0) := by
        by_cases hid : release.escrowId = sid
        · simp [Process.pending, hid]
        · simp [Process.pending, hid]
      have htotal : (store.saveRelease release).releasedTotal sid = store.releasedTotal sid := rfl
      rw [hpending, Flow.weight, htotal]
      omega
  | @paid release =>
      have hrows := releasedRows_saveRelease sid release hkeyed
      have hold := hp.1.counted sid
      have hcount : counted sid release = if release.escrowId = sid then release.amount.wei else 0 := by
        simp [counted, hp.2]
      have htotal : (store.saveRelease release).releasedTotal sid = store.releasedTotal sid := rfl
      rw [Flow.weight, htotal]
      simp only [Process.pending]
      omega
  | claims => rfl

theorem Waits.owed (h : Waits cfg store p reply q) (sid : SessionId) : q.owed sid = p.owed sid := by
  cases h with
  | _ => rfl

theorem Ends.owed {a : Answer} (h : Ends store p reply a) (sid : SessionId) : p.owed sid = 0 := by
  cases h with
  | _ => rfl

/-- The rows go on covering the releases that the calls own. -/
theorem Resumes.owed (h : Resumes cfg id store p reply store' flow)
    (hkeyed : Table.Keyed EscrowRelease.id store.releases) (hp : p.Owns store) (sid : SessionId) :
    store.releasedRows sid + flow.weight (Process.owed sid) ≤
      store'.releasedRows sid + p.owed sid := by
  cases h with
  | waits h => rw [Flow.weight, h.owed]
  | ends h => rw [Flow.weight, h.owed]
  | inserts hnew =>
      rw [afterOpen_weight fun _ _ => rfl]
      exact le_refl _
  | locks hfree => exact le_refl _
  | exceeds => exact le_refl _
  | commits hnew =>
      rw [afterOpen_weight fun _ _ => rfl]
      exact le_refl _
  | sendsCall hnew => exact le_refl _
  | saves =>
      rw [afterSave_weight fun _ _ => rfl]
      exact le_refl _
  | reserves hfind hok => exact le_refl _
  | @insertsRelease escrowId dto amount new hnew =>
      have hrows := releasedRows_newRelease sid escrowId dto amount hkeyed hnew
      have hpos : 0 < amount.wei := hp
      refine afterInsert_of (A := fun q => store.releasedRows sid + q.owed sid ≤
        (store.saveRelease (newRelease new escrowId dto amount)).releasedRows sid + 0) ?_ ?_ cfg
      · have howed : Process.owed sid (.payOut (newRelease new escrowId dto amount)) =
            if escrowId = sid then amount.wei else 0 := rfl
        omega
      · have howed : Process.owed sid (.findBalance (newRelease new escrowId dto amount)) = 0 := rfl
        by_cases hid : escrowId = sid
        · rw [if_pos hid] at hrows
          omega
        · rw [if_neg hid] at hrows
          omega
  | paysOut hnew => exact le_refl _
  | givesBack hfind hok => exact le_refl _
  | givesNothingBack hrefused => exact le_refl _
  | @failed release message =>
      have hrows := releasedRows_saveRelease sid release hkeyed
      have hold := hp.1.counted sid
      have hcount : counted sid release = 0 := by
        simp [counted, hp.2]
      simp only [Flow.weight, Process.owed, Process.release?, Option.elim_some]
      omega
  | @paid release =>
      have hrows := releasedRows_saveRelease sid release hkeyed
      have hold := hp.1.counted sid
      have hcount : counted sid release = if release.escrowId = sid then release.amount.wei else 0 := by
        simp [counted, hp.2]
      have hpos := hp.1.pos
      simp only [Flow.weight, Process.owed, Process.release?, Option.elim_some, Option.elim_none]
      by_cases hid : release.escrowId = sid
      · rw [if_pos hid] at hold hcount ⊢
        omega
      · rw [if_neg hid] at hold hcount ⊢
        omega
  | claims => exact le_refl _

theorem Waits.unreleased (h : Waits cfg store p reply q) : q.Unreleased := by
  cases h with
  | uncommitted => rfl
  | _ => trivial

theorem Resumes.unreleased (h : Resumes cfg id store p reply store' flow) :
    flow.Awaits Process.Unreleased := by
  cases h with
  | waits h => exact h.unreleased
  | inserts hnew => exact afterOpen_awaits (fun _ _ _ => trivial) _ _
  | commits hnew => exact afterOpen_awaits (fun _ _ _ => trivial) _ _
  | saves => exact afterSave_awaits (fun _ _ _ => trivial) _ _ _ _
  | insertsRelease hnew => exact afterInsert_of (A := Process.Unreleased) trivial trivial cfg
  | _ => trivial

end Steps

/-! ## Runs -/

/-- The service in runs that meet the condition. -/
def orderlyService (cfg : Config) : Service Store Request Process Reply Answer Event :=
  (service cfg).restrict fun p reply store => totalsKept p reply store = true

theorem totals_outline (cfg : Config) :
    Outline (orderlyService cfg)
      (fun s => SessionsBounded s ∧ Table.Keyed EscrowRelease.id s.releases)
      (fun s _ p => p.HoldsBounded ∧ p.Owns s ∧ p.Unreleased) Process.Apart := by
  refine outline_of (fun _ _ h => h.symm) ?_ ?_ ?_
  · intro id r s p hI hp
    refine ⟨⟨?_, hp.owns.1, ?_⟩, fun k q _ => Process.apart_of_none hp.owns.2⟩
    · cases hp with
      | _ => trivial
    · cases hp with
      | _ => trivial
  · intro id p i s s' flow _ hI hA h
    have hbounded := h.bounded hI.1 hA.1
    have hrows := h.keepsRows hI.2 hA.2.1
    refine ⟨⟨hbounded.1, hrows.keyed⟩, ?_, ?_⟩
    · cases flow with
      | await q => exact ⟨hbounded.2, hrows.self, h.unreleased⟩
      | answer a => trivial
    · intro k q _ hq hapart
      have hothers := hrows.others q hq.2.1 hapart
      exact ⟨⟨hq.1, hothers.1, hq.2.2⟩, hothers.2⟩
  · intro e s s' hI h
    refine ⟨⟨h.bounded hI.1, ?_⟩, fun k q hq => ⟨hq.1, hq.2.1.of_releases h.releases, hq.2.2⟩⟩
    rw [h.releases]
    exact hI.2

/-- The invariant of a run that keeps its totals. -/
structure TotalsInvariant (c : Calls Store Process Answer) : Prop where
  annotated : c.Annotated (fun s => SessionsBounded s ∧ Table.Keyed EscrowRelease.id s.releases)
    (fun s _ p => p.HoldsBounded ∧ p.Owns s ∧ p.Unreleased) Process.Apart
  keyed : c.Keyed
  balance : ∀ sid, c.store.releasedTotal sid =
    c.store.releasedRows sid + c.total (Process.pending sid)
  covered : ∀ sid, c.total (Process.owed sid) ≤ c.store.releasedRows sid

/-- A call that has given back its amount still owns the row with it. -/
theorem pending_add_owed_nonneg {store : Store} {p : Process} (hp : p.Owns store)
    (sid : SessionId) : 0 ≤ p.pending sid + p.owed sid := by
  have howed : 0 ≤ p.owed sid := by
    rw [Process.owed]
    cases hr : p.release? with
    | none => exact le_refl 0
    | some release =>
        have hpos := (hp.stored release hr).pos
        rw [Option.elim_some]
        by_cases hid : release.escrowId = sid
        · rw [if_pos hid]
          omega
        · rw [if_neg hid]
  cases p with
  | insertRelease escrowId dto amount =>
      have hpos : 0 < amount.wei := hp
      simp only [Process.pending]
      by_cases hid : escrowId = sid
      · rw [if_pos hid]
        omega
      · rw [if_neg hid]
        omega
  | saveFailed release =>
      simp only [Process.pending, Process.owed, Process.release?, Option.elim_some]
      by_cases hid : release.escrowId = sid
      · rw [if_pos hid, if_pos hid]
        omega
      · rw [if_neg hid, if_neg hid]
        omega
  | _ => simpa [Process.pending] using howed

/-- The total covers what a call is about to give back. -/
theorem TotalsInvariant.covers {c : Calls Store Process Answer} (hc : TotalsInvariant c)
    {id : CallId} {release : EscrowRelease} {message : String}
    (hp : c.process id = some (.giveBack release message)) :
    release.amount.wei ≤ c.store.releasedTotal release.escrowId := by
  have hterm : Process.pending release.escrowId (.giveBack release message) +
      Process.owed release.escrowId (.giveBack release message) = release.amount.wei := by
    simp [Process.pending, Process.owed, Process.release?]
  have hle := Calls.le_total hc.keyed
    (f := fun p => p.pending release.escrowId + p.owed release.escrowId)
    (fun k q hq => pending_add_owed_nonneg (hc.annotated.process k q hq).2.1 _) hp
  rw [hterm, Calls.total_add] at hle
  have hcovered := hc.covered release.escrowId
  have hbalance := hc.balance release.escrowId
  omega

/-- A new call adds nothing to a sum that leaves out the first waits. -/
theorem total_go_start {f : Process → Int} (hf : ∀ store r p, Starts store r p → f p = 0)
    {c : Calls Store Process Answer} (hc : c.Keyed) {id : CallId} (hnew : c.process id = none)
    (r : Request) : (c.go id c.store (start r c.store).2).total f = c.total f := by
  have htotal := Calls.total_go f hc id c.store (start r c.store).2
  have hweight : (start r c.store).2.weight f = 0 := by
    cases hflow : (start r c.store).2 with
    | await p => exact hf c.store r p (starts_of_start hflow)
    | answer a => rfl
  rw [hnew, Option.elim_none, hweight] at htotal
  omega

theorem starts_pending {store : Store} {r : Request} {p : Process} (h : Starts store r p)
    (sid : SessionId) : p.pending sid = 0 ∧ p.owed sid = 0 := by
  cases h with
  | _ => exact ⟨rfl, rfl⟩

theorem Happens.releasedTotal {store store' : Store} {e : Event} (h : Happens store e store')
    (sid : SessionId) : store'.releasedTotal sid = store.releasedTotal sid := by
  cases h with
  | expireDue now =>
      rw [Store.releasedTotal, Store.find_expireDue, Option.elim_map]
      congr 1
      funext session
      rcases Store.expire_cases now session with hsame | ⟨_, hexpired⟩
      · rw [Function.comp_apply, hsame]
      · rw [Function.comp_apply, hexpired]
  | markRefunded k refundedAt =>
      rw [Store.releasedTotal, Store.find_markRefunded, Option.elim_map]
      congr 1
      funext session
      rcases Store.refundedRow_cases k refundedAt session with ⟨_, hsame⟩ | ⟨_, hmarked⟩
      · rw [Function.comp_apply, hsame]
      · rw [Function.comp_apply, hmarked]
  | _ => rfl

theorem TotalsInvariant.step {cfg : Config} (m : Move Request Reply Event)
    (c c' : Calls Store Process Answer) (hc : TotalsInvariant c)
    (h : (orderlyService cfg).step m c = some c') : TotalsInvariant c' := by
  have hannotated := (totals_outline cfg).step m c c' hc.annotated h
  have hsteps := Service.steps_of_step h
  have hkeyed := hsteps.keyed hc.keyed
  cases hsteps with
  | call id r hnew hunanswered =>
      have hstore : ((orderlyService cfg).start r c.store).1 = c.store := start_store r c.store
      rw [hstore] at hannotated hkeyed ⊢
      refine ⟨hannotated, hkeyed, ?_, ?_⟩
      · intro sid
        have htotal := total_go_start (fun _ _ _ hp => (starts_pending hp sid).1) hc.keyed hnew r
        rw [Calls.store_go, hc.balance sid]
        exact congrArg _ htotal.symm
      · intro sid
        have htotal := total_go_start (fun _ _ _ hp => (starts_pending hp sid).2) hc.keyed hnew r
        rw [Calls.store_go]
        exact le_of_eq_of_le htotal (hc.covered sid)
  | resume id p i store flow hp hresume =>
      rcases Service.restrict_resume.1 hresume with ⟨hG, hresume⟩
      have hresumes := resumes_of_resume hresume
      have hI := hc.annotated.store
      have hA := hc.annotated.process id p hp
      have hcovers : ∀ release message, p = .giveBack release message →
          release.amount.wei ≤ c.store.releasedTotal release.escrowId := by
        rintro release message rfl
        exact hc.covers hp
      refine ⟨hannotated, hkeyed, ?_, ?_⟩
      · intro sid
        have hmoves := hresumes.releasedTotal hG hI.1 hI.2 hA.2.1 hA.2.2 sid hcovers
        have htotal := Calls.total_go (Process.pending sid) hc.keyed id store flow
        rw [hp, Option.elim_some] at htotal
        rw [Calls.store_go]
        have hbalance := hc.balance sid
        omega
      · intro sid
        have hmoves := hresumes.owed hI.2 hA.2.1 sid
        have htotal := Calls.total_go (Process.owed sid) hc.keyed id store flow
        rw [hp, Option.elim_some] at htotal
        rw [Calls.store_go]
        have hcovered := hc.covered sid
        omega
  | external e store hexternal =>
      have hhappens := happens_of_external hexternal
      have hrows : ∀ sid, store.releasedRows sid = c.store.releasedRows sid := fun sid => by
        rw [Store.releasedRows, hhappens.releases]
        rfl
      refine ⟨hannotated, hkeyed, ?_, ?_⟩
      · intro sid
        rw [hhappens.releasedTotal sid, hrows sid]
        exact hc.balance sid
      · intro sid
        rw [hrows sid]
        exact hc.covered sid

theorem TotalsInvariant.initial : TotalsInvariant (.start .empty) where
  annotated := by
    refine Calls.Annotated.start ⟨?_, List.nodup_nil⟩
    intro session hsession
    cases hsession
  keyed := List.nodup_nil
  balance := fun _ => rfl
  covered := fun _ => le_refl _

/-- The call is a release of the session. -/
def Process.releasing (sid : SessionId) : Process → Bool
  | .reserve escrowId _ _ => escrowId = sid
  | .refused escrowId _ => escrowId = sid
  | .insertRelease escrowId _ _ => escrowId = sid
  | .findBalance release => release.escrowId = sid
  | p => p.release?.any fun release => release.escrowId = sid

/-- No release of the session is in flight. -/
def Quiet (sid : SessionId) (c : Calls Store Process Answer) : Prop :=
  ∀ id p, c.process id = some p → p.releasing sid = false

theorem quiet_of_isEmpty {sid : SessionId} {c : Calls Store Process Answer}
    (h : c.processes.isEmpty = true) : Quiet sid c := by
  intro id p hp
  rw [Calls.process, List.isEmpty_iff.1 h] at hp
  cases hp

theorem pending_of_not_releasing {sid : SessionId} {p : Process} (h : p.releasing sid = false) :
    p.pending sid = 0 := by
  cases p with
  | insertRelease escrowId dto amount =>
      have hid : escrowId ≠ sid := of_decide_eq_false h
      simp [Process.pending, hid]
  | saveFailed release =>
      have hid : release.escrowId ≠ sid := by
        simpa [Process.releasing, Process.release?] using h
      simp [Process.pending, hid]
  | _ => rfl

/-- In every run that keeps to `totalsKept`, once no release of a session is in flight, its released
total is the sum of its releases that have not failed. -/
theorem released_total_is_sum_of_rows {cfg : Config} {moves : List (Move Request Reply Event)}
    {c : Calls Store Process Answer} {sid : SessionId} {session : EscrowSession}
    (h : run (orderlyService cfg).step moves (.start .empty) = some c)
    (hfind : c.store.find sid = some session) (hquiet : Quiet sid c) :
    session.releasedAmount.wei = ((c.store.releasesOf sid).map (·.amount.wei)).sum := by
  have hc := run_invariant TotalsInvariant.step TotalsInvariant.initial h
  have hpending : c.total (Process.pending sid) = 0 := by
    refine List.sum_eq_zero ?_
    intro x hx
    rcases List.mem_map.1 hx with ⟨entry, hentry, rfl⟩
    exact pending_of_not_releasing (hquiet _ _ (Calls.process_of_mem hc.keyed hentry))
  have hbalance := hc.balance sid
  rw [hpending, add_zero, releasedTotal_of_find hfind] at hbalance
  rw [hbalance, releasedRows_eq]

/-- A payout of 0.25 fails and is given back, one of 0.5 is mined, then the session is closed. -/
def releasedInTurn : List (Move Request Reply Event) :=
  [.call 1 (.release 1 (releaseOf "0.25")), .resume 1 .done, .resume 1 (.inserted 1),
    .call 2 (.release 1 (releaseOf "0.5")), .resume 2 .done, .resume 2 (.inserted 2),
    .resume 1 (.failed "nonce too low"), .resume 2 (.sent 100), .external (.evolve 100 (.mined 1)),
    .resume 2 .done, .resume 1 .done, .resume 2 .done, .resume 2 .done, .resume 1 .done,
    .call 3 (.close 1), .resume 3 .done, .resume 3 .done, .resume 3 (.failed "timeout")]

theorem released_total_is_sum_of_rows_releasedInTurn :
    ∃ c session, run (orderlyService sampleConfig).step (opened ++ releasedInTurn) (.start .empty) =
        some c ∧
      c.store.find 1 = some session ∧ session.releasedAmount = ⟨scale / 2⟩ ∧ Quiet 1 c ∧
      session.releasedAmount.wei = ((c.store.releasesOf 1).map (·.amount.wei)).sum := by
  have hreached : ((run (orderlyService sampleConfig).step (opened ++ releasedInTurn)
      (.start .empty)).any fun c => c.processes.isEmpty &&
        (c.store.find 1).any fun session => session.releasedAmount = ⟨scale / 2⟩) = true := by
    decide +kernel
  rcases (Option.any_eq_true _ _).1 hreached with ⟨c, hc, hstate⟩
  rcases Bool.and_eq_true_iff.1 hstate with ⟨hempty, hsession⟩
  rcases (Option.any_eq_true _ _).1 hsession with ⟨session, hfind, hreleased⟩
  have hquiet : Quiet 1 c := quiet_of_isEmpty hempty
  exact ⟨c, session, hc, hfind, of_decide_eq_true hreleased, hquiet,
    released_total_is_sum_of_rows hc hfind hquiet⟩

/-- A close loads the session, a release of 0.5 is paid and completed, then the close is saved. -/
def closedOverRelease : List (Move Request Reply Event) :=
  [.call 1 (.close 1), .resume 1 .done, .call 2 (.release 1 (releaseOf "0.5")), .resume 2 .done,
    .resume 2 (.inserted 1), .resume 2 (.sent 100), .external (.evolve 100 (.mined 1)),
    .resume 2 .done, .resume 2 .done, .resume 2 .done, .resume 1 .done, .resume 1 (.failed "timeout")]

/-- Without the condition, the save of the close takes the total back to what it was before the
release. -/
theorem released_total_lost_by_close :
    ¬ ∀ (cfg : Config) (moves : List (Move Request Reply Event)) (c : Calls Store Process Answer),
      run (service cfg).step moves (.start .empty) = some c →
        ∀ sid session, c.store.find sid = some session → Quiet sid c →
          session.releasedAmount.wei = ((c.store.releasesOf sid).map (·.amount.wei)).sum := by
  intro hclaim
  have hreached : ((run (service sampleConfig).step (opened ++ closedOverRelease)
      (.start .empty)).any fun c => c.processes.isEmpty &&
        (c.store.find 1).any fun session =>
          session.releasedAmount.wei ≠ ((c.store.releasesOf 1).map (·.amount.wei)).sum) = true := by
    decide +kernel
  rcases (Option.any_eq_true _ _).1 hreached with ⟨c, hc, hstate⟩
  rcases Bool.and_eq_true_iff.1 hstate with ⟨hempty, hsession⟩
  rcases (Option.any_eq_true _ _).1 hsession with ⟨session, hfind, hdiffers⟩
  exact of_decide_eq_true hdiffers (hclaim _ _ c hc 1 session hfind (quiet_of_isEmpty hempty))

end Escrow
end PaymentRail
