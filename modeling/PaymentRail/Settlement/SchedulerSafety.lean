import PaymentRail.Settlement.BatchFields
import PaymentRail.Settlement.BatchScheduler

/-!
# SchedulerSafety — what holds while ticks run

The receipts a tick still has to do wait in the store, each once; a settlement the scheduler has
written has either all of its receipts attached, in order, or none of them; and its row still says
what was computed from these receipts.

The invariant has a parameter `lossless`.  Without it (`False`) it holds in every run.  With it
(`True`) it says more: a settlement without its receipts is the one the tick is working on.  This is
kept by every step except one that loses a batch (`losesBatch`).
-/

namespace PaymentRail
namespace BatchScheduler

open Machine Strings Money Collections Receipts
open Settlement (SettlementId SettlementRow SettleBatchInput Process Reply Time)

/-! ## Receipts -/

/-- The receipts of `queue` wait for a settlement, each once. -/
structure Waiting (receipts queue : List PaymentReceipt) : Prop where
  nodup : (queue.map (·.id)).Nodup
  mem : ∀ r ∈ queue, r ∈ receipts ∧ r.settlementId = none

/-- No receipt is attached to the settlement. -/
def Unattached (receipts : List PaymentReceipt) (sid : SettlementId) : Prop :=
  ∀ r ∈ receipts, r.settlementId ≠ some sid

section Receipts

variable {receipts queue chunk rest : List PaymentReceipt} {sid other : SettlementId}

theorem Waiting.sublist (h : Waiting receipts queue) {queue' : List PaymentReceipt}
    (hsub : queue'.Sublist queue) : Waiting receipts queue' where
  nodup := h.nodup.sublist (hsub.map _)
  mem := fun r hr => h.mem r (hsub.subset hr)

theorem Waiting.perm (h : Waiting receipts queue) {queue' : List PaymentReceipt}
    (hperm : queue'.Perm queue) : Waiting receipts queue' where
  nodup := (hperm.map _).nodup_iff.2 h.nodup
  mem := fun r hr => h.mem r (hperm.mem_iff.1 hr)

theorem waiting_findUnsettled (hkeyed : Table.Keyed PaymentReceipt.id receipts) (limit : Nat) :
    Waiting receipts (findUnsettled receipts limit) where
  nodup := nodup_findUnsettled hkeyed limit
  mem := fun _ hr => mem_findUnsettled hr

/-! ### Creating a receipt -/

theorem Waiting.create (h : Waiting receipts queue) (row : PaymentReceipt) :
    Waiting (row :: receipts) queue where
  nodup := h.nodup
  mem := fun r hr => ⟨List.mem_cons_of_mem _ (h.mem r hr).1, (h.mem r hr).2⟩

theorem Unattached.create (h : Unattached receipts sid) {row : PaymentReceipt}
    (hrow : row.settlementId = none) : Unattached (row :: receipts) sid := by
  intro r hr
  rcases List.mem_cons.1 hr with rfl | hmem
  · simp [hrow]
  · exact h r hmem

theorem attached_create (h : Attached receipts sid chunk) {row : PaymentReceipt}
    (hrow : row.settlementId = none) : Attached (row :: receipts) sid chunk where
  rows := fun i c hc => List.mem_cons_of_mem _ (h.rows i c hc)
  only := by
    intro r hr hsid
    rcases List.mem_cons.1 hr with rfl | hmem
    · simp [hrow] at hsid
    · exact h.only r hmem hsid

/-! ### Attaching a chunk -/

section Attach

variable (hkeyed : Table.Keyed PaymentReceipt.id receipts)
  (hwaiting : Waiting receipts (chunk ++ rest))
include hwaiting

theorem nodup_chunk : (chunk.map (·.id)).Nodup :=
  (hwaiting.sublist (List.sublist_append_left _ _)).nodup

theorem mem_markSettled_of_waiting {row : PaymentReceipt}
    (hrow : row ∈ markSettled receipts (chunk.map (·.id)) sid) :
    row ∈ receipts ∨ row.settlementId = some sid := by
  rcases (mem_markSettled (nodup_chunk hwaiting)).1 hrow with ⟨hmem, _⟩ | ⟨r, _, i, _, rfl⟩
  · exact Or.inl hmem
  · exact Or.inr rfl

/-- What stands behind the chunk keeps waiting. -/
theorem waiting_markSettled (sid : SettlementId) :
    Waiting (markSettled receipts (chunk.map (·.id)) sid) rest where
  nodup := (hwaiting.sublist (List.sublist_append_right _ _)).nodup
  mem := by
    intro r hr
    rcases hwaiting.mem r (List.mem_append_right _ hr) with ⟨hmem, hnone⟩
    -- the queue has no duplicates, so `r` is not in the chunk
    have hnodup := hwaiting.nodup
    rw [List.map_append] at hnodup
    have hnot : r.id ∉ chunk.map (·.id) := fun h =>
      List.disjoint_of_nodup_append hnodup h (List.mem_map.2 ⟨r, hr, rfl⟩)
    exact ⟨(mem_markSettled (nodup_chunk hwaiting)).2 (Or.inl ⟨hmem, hnot⟩), hnone⟩

theorem unattached_markSettled (h : Unattached receipts other) (hne : other ≠ sid) :
    Unattached (markSettled receipts (chunk.map (·.id)) sid) other := by
  intro r hr hother
  rcases mem_markSettled_of_waiting hwaiting hr with hmem | hsid
  · exact h r hmem hother
  · rw [hsid] at hother
    exact hne (Option.some.inj hother).symm

include hkeyed

/-- The chunk becomes the batch of its settlement. -/
theorem attached_markSettled (hnone : Unattached receipts sid) :
    Attached (markSettled receipts (chunk.map (·.id)) sid) sid chunk where
  rows := by
    intro i c hc
    have hmem := (hwaiting.mem c (List.mem_append_left _ (List.mem_of_getElem? hc))).1
    have hid : (chunk.map (·.id))[i]? = some c.id := by simp [hc]
    exact (mem_markSettled (nodup_chunk hwaiting)).2 (Or.inr ⟨c, hmem, i, hid, rfl⟩)
  only := by
    intro row hrow hsid
    rcases (mem_markSettled (nodup_chunk hwaiting)).1 hrow with ⟨hmem, _⟩ | ⟨r, hr, i, hi, rfl⟩
    · exact absurd hsid (hnone row hmem)
    -- the row at index `i` is the receipt of the chunk, since ids are unique
    · rw [List.getElem?_map] at hi
      rcases Option.map_eq_some_iff.1 hi with ⟨c, hc, hid⟩
      have hmem := (hwaiting.mem c (List.mem_append_left _ (List.mem_of_getElem? hc))).1
      exact ⟨i, c, hc, by rw [hkeyed.eq_of_key hmem hr hid]⟩

/-- Other batches are not touched: their receipts do not wait. -/
theorem attached_markSettled_of_ne {others : List PaymentReceipt} (h : Attached receipts other others)
    (hne : other ≠ sid) : Attached (markSettled receipts (chunk.map (·.id)) sid) other others where
  rows := by
    intro i c hc
    have hrow := h.rows i c hc
    have hnot : (c.attach other i).id ∉ chunk.map (·.id) := by
      intro hid
      rcases List.mem_map.1 hid with ⟨r, hr, hEq⟩
      -- the same row would wait and be attached
      rcases hwaiting.mem r (List.mem_append_left _ hr) with ⟨hmem, hnone⟩
      rw [hkeyed.eq_of_key hmem hrow hEq] at hnone
      cases hnone
    exact (mem_markSettled (nodup_chunk hwaiting)).2 (Or.inl ⟨hrow, hnot⟩)
  only := by
    intro r hr hother
    rcases mem_markSettled_of_waiting hwaiting hr with hmem | hsid
    · exact h.only r hmem hother
    · rw [hsid] at hother
      exact absurd (Option.some.inj hother).symm hne

end Attach

end Receipts

/-! ## Batches -/

/-- Receipts and batches fit together.  In a lossless run only the settlement in `flight` may be
without its receipts. -/
structure Ledger (lossless : Prop) (flight : Option SettlementId) (receipts : List PaymentReceipt)
    (batches : List (SettlementId × List PaymentReceipt)) : Prop where
  keyed : Table.Keyed PaymentReceipt.id receipts
  sids : Table.Keyed Prod.fst batches
  owned : ∀ r ∈ receipts, ∀ sid, r.settlementId = some sid → ∃ chunk, (sid, chunk) ∈ batches
  whole : ∀ sid chunk, (sid, chunk) ∈ batches → Attached receipts sid chunk ∨
    (Unattached receipts sid ∧ (lossless → flight = some sid))

section Ledger

variable {lossless : Prop} {flight : Option SettlementId} {receipts chunk rest : List PaymentReceipt}
  {batches : List (SettlementId × List PaymentReceipt)} {sid : SettlementId}

/-- Nothing in flight is the strongest case. -/
theorem Ledger.weaken (h : Ledger lossless none receipts batches) (flight : Option SettlementId) :
    Ledger lossless flight receipts batches where
  keyed := h.keyed
  sids := h.sids
  owned := h.owned
  whole := by
    intro sid chunk hmem
    rcases h.whole sid chunk hmem with hattached | ⟨hnone, hloss⟩
    · exact Or.inl hattached
    · exact Or.inr ⟨hnone, fun hlossless => nomatch hloss hlossless⟩

/-- A batch is given up. -/
theorem Ledger.lose (h : Ledger lossless flight receipts batches) (hloss : ¬ lossless) :
    Ledger lossless none receipts batches where
  keyed := h.keyed
  sids := h.sids
  owned := h.owned
  whole := by
    intro sid chunk hmem
    rcases h.whole sid chunk hmem with hattached | ⟨hnone, _⟩
    · exact Or.inl hattached
    · exact Or.inr ⟨hnone, fun hlossless => absurd hlossless hloss⟩

theorem Ledger.create (h : Ledger lossless flight receipts batches) {row : PaymentReceipt}
    (hfresh : Table.lookup PaymentReceipt.id receipts row.id = none)
    (hrow : row.settlementId = none) : Ledger lossless flight (row :: receipts) batches where
  keyed := by
    refine List.nodup_cons.2 ⟨?_, h.keyed⟩
    intro hmem
    rcases List.mem_map.1 hmem with ⟨r, hr, hid⟩
    exact Table.lookup_eq_none.1 hfresh r hr hid
  sids := h.sids
  owned := by
    intro r hr sid hsid
    rcases List.mem_cons.1 hr with rfl | hmem
    · simp [hrow] at hsid
    · exact h.owned r hmem sid hsid
  whole := by
    intro sid chunk hmem
    rcases h.whole sid chunk hmem with hattached | ⟨hnone, hloss⟩
    · exact Or.inl (attached_create hattached hrow)
    · exact Or.inr ⟨hnone.create hrow, hloss⟩

/-- A settlement row is written for `chunk`. -/
theorem Ledger.record (h : Ledger lossless none receipts batches)
    (hfresh : ∀ chunk, (sid, chunk) ∉ batches) (chunk : List PaymentReceipt) :
    Unattached receipts sid ∧ Ledger lossless (some sid) receipts ((sid, chunk) :: batches) := by
  -- a receipt attached to `sid` would belong to a batch written earlier
  have hnone : Unattached receipts sid := by
    intro r hr hsid
    rcases h.owned r hr sid hsid with ⟨chunk, hmem⟩
    exact hfresh chunk hmem
  refine ⟨hnone, ?_⟩
  exact
    { keyed := h.keyed
      sids := by
        refine List.nodup_cons.2 ⟨?_, h.sids⟩
        intro hmem
        rcases List.mem_map.1 hmem with ⟨entry, hentry, rfl⟩
        exact hfresh entry.2 hentry
      owned := by
        intro r hr sid' hsid
        rcases h.owned r hr sid' hsid with ⟨chunk', hmem⟩
        exact ⟨chunk', List.mem_cons_of_mem _ hmem⟩
      whole := by
        intro sid' chunk' hmem
        rcases List.mem_cons.1 hmem with hEq | hold
        · rcases Prod.mk.inj hEq with ⟨rfl, rfl⟩
          exact Or.inr ⟨hnone, fun _ => rfl⟩
        · exact (h.weaken (some sid)).whole sid' chunk' hold }

/-- The receipts of the settlement in flight are attached. -/
theorem Ledger.attach (h : Ledger lossless (some sid) receipts batches)
    (hmem : (sid, chunk) ∈ batches) (hnone : Unattached receipts sid)
    (hwaiting : Waiting receipts (chunk ++ rest)) :
    Ledger lossless none (markSettled receipts (chunk.map (·.id)) sid) batches where
  keyed := by
    have hkeyed := h.keyed
    rw [Table.Keyed] at hkeyed ⊢
    rw [map_id_markSettled]
    exact hkeyed
  sids := h.sids
  owned := by
    intro r hr sid' hsid
    rcases mem_markSettled_of_waiting hwaiting hr with hrow | hself
    · exact h.owned r hrow sid' hsid
    · rw [hself] at hsid
      exact ⟨chunk, Option.some.inj hsid ▸ hmem⟩
  whole := by
    intro sid' chunk' hmem'
    by_cases hsid : sid' = sid
    · subst hsid
      -- an id has one batch
      have hEq : chunk' = chunk := (Prod.mk.inj (h.sids.eq_of_key hmem' hmem rfl)).2
      rw [hEq]
      exact Or.inl (attached_markSettled h.keyed hwaiting hnone)
    -- in a lossless run no other settlement is without its receipts
    · rcases h.whole sid' chunk' hmem' with hattached | ⟨hfree, hloss⟩
      · exact Or.inl (attached_markSettled_of_ne h.keyed hwaiting hattached hsid)
      · refine Or.inr ⟨unattached_markSettled hwaiting hfree hsid, ?_⟩
        intro hlossless
        exact absurd (Option.some.inj (hloss hlossless)).symm hsid

end Ledger

/-! ## Settlement rows -/

/-- The batch was computed from the receipts of `chunk`. -/
def Computed (keccak : Keccak) (chunk : List PaymentReceipt) (batch : SettleBatchInput) : Prop :=
  ∃ escrowId input, batchInput keccak escrowId chunk = .ok input ∧
    batch = { input with totalAmount := Settlement.decimalColumn input.totalAmount }

/-- The row of the settlement says what was computed from `chunk`. -/
def Recorded (keccak : Keccak) (store : Settlement.Store) (sid : SettlementId)
    (chunk : List PaymentReceipt) : Prop :=
  ∃ row, store.find sid = some row ∧ Computed keccak chunk row.batch

theorem Recorded.mono {keccak : Keccak} {store store' : Settlement.Store} {sid : SettlementId}
    {chunk : List PaymentReceipt} (h : Recorded keccak store sid chunk)
    (hkept : Settlement.Kept store store') : Recorded keccak store' sid chunk := by
  rcases h with ⟨row, hrow, hcomputed⟩
  rcases hkept.rows sid row hrow with ⟨row', hrow', hbatch⟩
  exact ⟨row', hrow', by rw [hbatch]; exact hcomputed⟩

theorem newSettlement_batch {cfg : Settlement.Config} {id : SettlementId} {input : SettleBatchInput}
    {entity : SettlementRow} (h : Settlement.newSettlement cfg id input = .ok entity) :
    entity.id = id ∧ entity.batch =
      { input with totalAmount := Settlement.decimalColumn input.totalAmount } := by
  simp only [Settlement.newSettlement, bind_eq_ok, pure_eq_ok] at h
  rcases h with ⟨quoted, _, rfl⟩
  exact ⟨rfl, rfl⟩

/-! ## The invariant -/

/-- What does not depend on where the tick stands. -/
structure Base (lossless : Prop) (keccak : Keccak) (flight : Option SettlementId) (s : State) : Prop where
  consistent : Settlement.Consistent s.settlement
  ledger : Ledger lossless flight s.receipts s.batches
  rows : ∀ sid chunk, (sid, chunk) ∈ s.batches → Recorded keccak s.settlement.store sid chunk

/-- The receipts the loops have not come to yet. -/
def Work.queue (work : Work) : List PaymentReceipt :=
  work.chunks.flatten ++ Arrange.members work.groups

/-- Where the scheduler's call of `settleBatch` for `chunk` stands. -/
def CallSound (keccak : Keccak) (s : State) (chunk : List PaymentReceipt) (sid : SettlementId) :
    Process → Prop
  | .insert entity => entity.id = sid ∧ Computed keccak chunk entity.batch
  | .attempt .settleBatch _ _ _ => (sid, chunk) ∈ s.batches ∧ Unattached s.receipts sid
  | _ => False

/-- The call is saving its row, or it is attempting the settlement it has saved. -/
theorem CallSound.cases {keccak : Keccak} {s : State} {chunk : List PaymentReceipt}
    {sid : SettlementId} {p : Process} (h : CallSound keccak s chunk sid p) :
    (∃ entity, p = .insert entity) ∨
      ∃ begun entity stage, p = .attempt .settleBatch begun entity stage ∧
        (sid, chunk) ∈ s.batches ∧ Unattached s.receipts sid := by
  cases p with
  | insert entity => exact Or.inl ⟨entity, rfl⟩
  | attempt caller begun entity stage =>
      cases caller with
      | settleBatch => exact Or.inr ⟨begun, entity, stage, rfl, h⟩
      | processDue rest => exact False.elim h
      | replay => exact False.elim h
  | findById id => exact False.elim h
  | findDueRetries begun => exact False.elim h

def TickSound (keccak : Keccak) (s : State) : Tick → Prop
  | .settleBatch chunk sid work =>
      Waiting s.receipts (chunk ++ work.queue) ∧
        ∃ p, s.settlement.process schedulerPid = some p ∧ CallSound keccak s chunk sid p
  | .markSettled chunk sid work =>
      Waiting s.receipts (chunk ++ work.queue) ∧ s.settlement.process schedulerPid = none ∧
        (sid, chunk) ∈ s.batches ∧ Unattached s.receipts sid
  | _ => s.settlement.process schedulerPid = none

/-- The settlement whose row is written and whose receipts are not attached yet. -/
def State.flight (s : State) : Option SettlementId :=
  match s.tick with
  | .settleBatch _ sid _ =>
      match s.settlement.process schedulerPid with
      | some (.insert _) => none
      | _ => some sid
  | .markSettled _ sid _ => some sid
  | _ => none

structure Invariant (lossless : Prop) (keccak : Keccak) (s : State) : Prop where
  base : Base lossless keccak s.flight s
  tick : TickSound keccak s s.tick

theorem Invariant.tickAt {lossless : Prop} {keccak : Keccak} {s : State}
    (hinv : Invariant lossless keccak s) {tick : Tick} (h : s.tick = tick) : TickSound keccak s tick := by
  rw [← h]
  exact hinv.tick

theorem initial_invariant (lossless : Prop) (keccak : Keccak) : Invariant lossless keccak initial where
  base :=
    { consistent := Settlement.initial_consistent
      ledger :=
        { keyed := List.nodup_nil
          sids := List.nodup_nil
          owned := by
            intro r hr
            cases hr
          whole := by
            intro sid chunk hmem
            cases hmem }
      rows := by
        intro sid chunk hmem
        cases hmem }
  tick := rfl

/-! ## The loops -/

/-- A state between two chunks. -/
structure Between (lossless : Prop) (keccak : Keccak) (s : State) : Prop where
  base : Base lossless keccak none s
  free : s.settlement.process schedulerPid = none

section Loops

variable {lossless : Prop} {cfg : Config} {keccak : Keccak} {s : State} {id : SettlementId}

theorem Between.idle (h : Between lossless keccak s) (returned : Option BatchRunResult) :
    Invariant lossless keccak { s with tick := .idle, returned } where
  base := ⟨h.base.consistent, h.base.ledger, h.base.rows⟩
  tick := h.free

/-- What `settleChunk` has done when it comes to its first wait. -/
theorem startChunk_eq_some {escrowId : Text} {chunk : List PaymentReceipt}
    {settlement : Settlement.State}
    (h : s.startChunk cfg keccak id escrowId chunk = some settlement) :
    ∃ entity, settlement = s.settlement.spawn schedulerPid (.insert entity) ∧ entity.id = id ∧
      Computed keccak chunk entity.batch := by
  unfold State.startChunk at h
  split at h
  · rename_i input hinput
    cases Settlement.acts_of_step h with
    | @settleBatch _ _ _ entity _ _ hentity =>
        rcases newSettlement_batch hentity with ⟨hid, hbatch⟩
        exact ⟨entity, rfl, hid, escrowId, input, hinput, hbatch⟩
  · cases h

theorem Between.settleChunk (h : Between lossless keccak s) {chunk : List PaymentReceipt} {work : Work}
    (hwaiting : Waiting s.receipts (chunk ++ work.queue)) {leave : BatchRunResult → State}
    (hleave : ∀ result, Invariant lossless keccak (leave result)) :
    Invariant lossless keccak (s.settleChunk cfg keccak id chunk work leave) := by
  unfold State.settleChunk
  split
  · rename_i settlement hstart
    rcases startChunk_eq_some hstart with ⟨entity, rfl, hid, hcomputed⟩
    have hcall := Settlement.process_spawn_self s.settlement schedulerPid (.insert entity)
    have hsteps : Settlement.Steps s.settlement
        (s.settlement.spawn schedulerPid (.insert entity)) schedulerPid :=
      Settlement.spawn_steps (Settlement.Kept.refl _) (Settlement.processBacked_nil rfl)
    refine ⟨⟨hsteps.consistent h.base.consistent, ?_, h.base.rows⟩, hwaiting, _, hcall, hid, hcomputed⟩
    simpa [State.flight, hcall] using h.base.ledger
  · exact hleave _

theorem dueChunks_sublist (cfg : Config) (receipts : List PaymentReceipt) (now : Time) :
    (dueChunks cfg receipts now).flatten.Sublist receipts :=
  (Arrange.flatten_filter_sublist _ _).trans (Arrange.flatten_slices_prefix _ _).sublist

theorem Between.nextGroup (h : Between lossless keccak s) (now : Time) (result : BatchRunResult)
    {groups : List (Text × List PaymentReceipt)}
    (hwaiting : Waiting s.receipts (Arrange.members groups)) :
    Invariant lossless keccak (s.nextGroup cfg keccak id now result groups) := by
  -- the outer loop; `result` changes when a group fails
  induction groups generalizing result with
  | nil => exact h.idle _
  | cons group groups ih =>
      rcases group with ⟨escrowId, receipts⟩
      have hrest : Waiting s.receipts (Arrange.members groups) :=
        hwaiting.sublist (List.sublist_append_right _ _)
      unfold State.nextGroup
      split
      · exact ih result hrest
      · rename_i chunk chunks hdue
        -- chunks that are not due yet leave gaps, but no receipt comes twice
        have hsub : (chunk ++ chunks.flatten).Sublist receipts := by
          have hall := dueChunks_sublist cfg receipts now
          rwa [hdue, List.flatten_cons] at hall
        refine h.settleChunk (hwaiting.sublist ?_) (fun result => ih result hrest)
        have happend := hsub.append_right (Arrange.members groups)
        simpa [Work.queue, Arrange.members] using happend

theorem Between.leave (h : Between lossless keccak s) {work : Work}
    (hwaiting : Waiting s.receipts work.queue) :
    Invariant lossless keccak (s.leave cfg keccak id work) :=
  h.nextGroup _ _ (hwaiting.sublist (List.sublist_append_right _ _))

theorem Between.nextChunk (h : Between lossless keccak s) {work : Work}
    (hwaiting : Waiting s.receipts work.queue) :
    Invariant lossless keccak (s.nextChunk cfg keccak id work) := by
  have hgroups : Waiting s.receipts (Arrange.members work.groups) :=
    hwaiting.sublist (List.sublist_append_right _ _)
  unfold State.nextChunk
  split
  · exact h.nextGroup _ _ hgroups
  · rename_i chunk chunks hchunks
    refine h.settleChunk ?_ (fun result => h.nextGroup _ _ hgroups)
    simpa [Work.queue, hchunks] using hwaiting

end Loops

/-! ## Steps -/

/-- A storage operation fails behind the point where the settlement row is written: the save of the
attempt's outcome, or the transaction that attaches the receipts. -/
def losesBatch (a : Action) (s : State) : Bool :=
  match a, s.tick with
  | .resume _ (.failed _) _, .markSettled _ _ _ => true
  | .resume _ (.failed _) _, .settleBatch _ _ _ =>
      match s.settlement.process schedulerPid with
      | some (.attempt _ _ _ .saveOutcome) => true
      | _ => false
  | _, _ => false

section Steps

variable {lossless : Prop} {cfg : Config} {keccak : Keccak} {s s' : State} {now : Time} {reply : Reply}
  {id : SettlementId} {chunk : List PaymentReceipt} {sid : SettlementId} {work : Work}

/-- Other processes of the settlement machine move on. -/
theorem Base.move {flight : Option SettlementId} (h : Base lossless keccak flight s)
    {settlement : Settlement.State} (hkept : Settlement.Kept s.settlement.store settlement.store)
    (hcons : Settlement.Consistent settlement) : Base lossless keccak flight { s with settlement } where
  consistent := hcons
  ledger := h.ledger
  rows := fun sid chunk hmem => (h.rows sid chunk hmem).mono hkept

theorem Base.setTick {flight : Option SettlementId} (h : Base lossless keccak flight s) (tick : Tick) :
    Base lossless keccak flight { s with tick } :=
  ⟨h.consistent, h.ledger, h.rows⟩

/-- The settlement row is written. -/
theorem Base.record (h : Base lossless keccak none s) {entity : SettlementRow}
    (hfresh : s.settlement.store.find entity.id = none) (hcomputed : Computed keccak chunk entity.batch)
    {settlement : Settlement.State} (hstore : settlement.store = s.settlement.store.save entity)
    (hcons : Settlement.Consistent settlement) :
    Unattached s.receipts entity.id ∧ Base lossless keccak (some entity.id)
      { s with settlement, batches := (entity.id, chunk) :: s.batches } := by
  -- a recorded settlement has a row, and this id has none
  have hnew : ∀ chunk, (entity.id, chunk) ∉ s.batches := by
    intro chunk hmem
    rcases h.rows _ chunk hmem with ⟨row, hrow, _⟩
    rw [hfresh] at hrow
    cases hrow
  rcases h.ledger.record hnew chunk with ⟨hnone, hledger⟩
  refine ⟨hnone, hcons, hledger, ?_⟩
  intro sid' chunk' hmem
  rw [hstore]
  rcases List.mem_cons.1 hmem with hEq | hold
  · rcases Prod.mk.inj hEq with ⟨rfl, rfl⟩
    refine ⟨entity.stored, Settlement.find_save_self _ entity, ?_⟩
    rw [Settlement.batch_stored]
    exact hcomputed
  · exact (h.rows sid' chunk' hold).mono (Settlement.kept_insert hfresh)

/-- The tick after its call of `settleBatch` has taken a step to `settlement`. -/
def State.called (s : State) (settlement : Settlement.State) (reply : Reply) (p : Process)
    (chunk : List PaymentReceipt) (sid : SettlementId) : State :=
  { s with
    settlement
    batches := if writesRow reply p then (sid, chunk) :: s.batches else s.batches }

/-- The call goes on, it rejects and the inner loop is left, or it returns. -/
theorem resume_settleBatch_cases {p : Process} (hp : s.settlement.process schedulerPid = some p)
    (hstep : resume cfg keccak s now reply id (.settleBatch chunk sid work) = some s') :
    ∃ settlement,
      Settlement.Resumes cfg.settlement s.settlement schedulerPid now p reply settlement ∧
      ((settlement.process schedulerPid ≠ none ∧ s' = s.called settlement reply p chunk sid) ∨
        (settlement.process schedulerPid = none ∧
          rejects cfg.settlement s.settlement.store reply p = true ∧
          s' = (s.called settlement reply p chunk sid).leave cfg keccak id work) ∨
        (settlement.process schedulerPid = none ∧
          rejects cfg.settlement s.settlement.store reply p = false ∧
          s' = { s.called settlement reply p chunk sid with
                 tick := .markSettled chunk sid work })) := by
  simp only [resume, hp] at hstep
  split at hstep
  · cases hstep
  · rename_i settlement hresume
    refine ⟨settlement, Settlement.resumes_of_resume hresume, ?_⟩
    split at hstep
    · rename_i hbusy
      cases hstep
      exact Or.inl ⟨hbusy, rfl⟩
    · rename_i hfree
      have hnone : settlement.process schedulerPid = none := by simpa using hfree
      split at hstep
      · rename_i hrejects
        cases hstep
        exact Or.inr (Or.inl ⟨hnone, hrejects, rfl⟩)
      · rename_i hreturns
        cases hstep
        exact Or.inr (Or.inr ⟨hnone, by simpa using hreturns, rfl⟩)

/-- `settleBatch` is answered while it saves its new row. -/
theorem insert_invariant (hinv : Invariant lossless keccak s)
    (htick : s.tick = .settleBatch chunk sid work) {entity : SettlementRow}
    (hp : s.settlement.process schedulerPid = some (.insert entity))
    (hstep : resume cfg keccak s now reply id (.settleBatch chunk sid work) = some s') :
    Invariant lossless keccak s' := by
  rcases hinv.tickAt htick with ⟨hwaiting, p, hp', hcall⟩
  rw [hp] at hp'
  cases hp'
  rcases hcall with ⟨rfl, hcomputed⟩
  -- the row is not written yet, so nothing is in flight
  have hbase : Base lossless keccak none s := by
    have h := hinv.base
    simpa [State.flight, htick, hp] using h
  rcases resume_settleBatch_cases hp hstep with ⟨settlement, hresumes, hcases⟩
  have hcons := (Settlement.resumes_steps hbase.consistent hp hresumes).consistent hbase.consistent
  cases hresumes with
  | inserted hfresh _ =>
      rcases hbase.record hfresh hcomputed rfl hcons with ⟨hnone, hrecorded⟩
      have hattempt := Settlement.process_spawn_self
        { s.settlement with store := s.settlement.store.save entity } schedulerPid
        (.attempt .settleBatch now (Settlement.startAttempt entity).1
          (Settlement.startAttempt entity).2)
      rcases hcases with ⟨_, rfl⟩ | ⟨hfree, _⟩ | ⟨hfree, _⟩
      · refine ⟨?_, ?_⟩
        · simpa [State.flight, State.called, writesRow, htick, hattempt] using hrecorded
        · simp only [State.called, htick]
          exact ⟨hwaiting, _, hattempt, by simp [writesRow], hnone⟩
      · rw [hattempt] at hfree
        cases hfree
      · rw [hattempt] at hfree
        cases hfree
  | insertedOnly hfresh _ =>
      -- no hub is configured: `settleBatch` returns without an attempt
      rcases hbase.record hfresh hcomputed rfl hcons with ⟨hnone, hrecorded⟩
      rcases hcases with ⟨hbusy, _⟩ | ⟨_, hrejects, _⟩ | ⟨hfree, _, rfl⟩
      · exact absurd (Settlement.process_exit_self _ _) hbusy
      · simp [rejects] at hrejects
      · refine ⟨?_, hwaiting, hfree, by simp [State.called, writesRow], hnone⟩
        simpa [State.flight, State.called, writesRow] using hrecorded.setTick _
  | @notInserted _ error =>
      -- nothing was written, so the chunk is simply found again
      rcases hcases with ⟨hbusy, _⟩ | ⟨hfree, _, rfl⟩ | ⟨_, hreturns, _⟩
      · exact absurd (Settlement.process_exit_self _ _) hbusy
      · have hbetween : Between lossless keccak
            { s with settlement := s.settlement.exit schedulerPid } :=
          ⟨hbase.move (Settlement.Kept.refl _) hcons, hfree⟩
        have hcalled : s.called (s.settlement.exit schedulerPid) (.failed error) (.insert entity) chunk
            entity.id = { s with settlement := s.settlement.exit schedulerPid } := by
          simp [State.called, writesRow]
        rw [hcalled]
        exact hbetween.leave (hwaiting.sublist (List.sublist_append_right _ _))
      · simp [rejects] at hreturns

/-- `settleBatch` is answered during its attempt. -/
theorem attempt_invariant (hinv : Invariant lossless keccak s)
    (htick : s.tick = .settleBatch chunk sid work) {begun : Time} {entity : SettlementRow}
    {stage : Settlement.Stage}
    (hp : s.settlement.process schedulerPid = some (.attempt .settleBatch begun entity stage))
    (hok : lossless → losesBatch (.resume now reply id) s = false)
    (hstep : resume cfg keccak s now reply id (.settleBatch chunk sid work) = some s') :
    Invariant lossless keccak s' := by
  rcases hinv.tickAt htick with ⟨hwaiting, p, hp', hcall⟩
  rw [hp] at hp'
  cases hp'
  rcases hcall with ⟨hmem, hnone⟩
  have hbase : Base lossless keccak (some sid) s := by
    have h := hinv.base
    simpa [State.flight, htick, hp] using h
  rcases resume_settleBatch_cases hp hstep with ⟨settlement, hresumes, hcases⟩
  have hsteps := Settlement.resumes_steps hbase.consistent hp hresumes
  have hmoved := hbase.move hsteps.kept (hsteps.consistent hbase.consistent)
  -- an attempt writes no new row
  have hcalled : s.called settlement reply (.attempt .settleBatch begun entity stage) chunk sid =
      { s with settlement } := by
    simp [State.called, writesRow]
  rw [hcalled] at hcases
  cases hresumes with
  | @attempted _ _ _ _ _ store' flow hattempt =>
      rcases hcases with ⟨hbusy, rfl⟩ | ⟨hfree, hrejects, rfl⟩ | ⟨hfree, _, rfl⟩
      · cases flow with
        | await next stage' =>
            have hnext := Settlement.process_spawn_self { s.settlement with store := store' }
              schedulerPid (.attempt .settleBatch begun next stage')
            refine ⟨?_, ?_⟩
            · simpa [State.flight, htick, Settlement.State.proceed, hnext] using hmoved
            · simp only [htick]
              exact ⟨hwaiting, _, hnext, hmem, hnone⟩
        | returned => exact absurd (Settlement.process_exit_self _ _) hbusy
        | thrown error => exact absurd (Settlement.process_exit_self _ _) hbusy
      · -- only the save of the outcome throws, and that loses the batch
        have hloss : ¬ lossless := by
          intro hlossless
          have hguard := hok hlossless
          cases flow with
          | await next stage' => simp [rejects, hattempt] at hrejects
          | returned => simp [rejects, hattempt] at hrejects
          | thrown error =>
              rcases (Settlement.attemptStep_carries hattempt).thrown error rfl with ⟨rfl, rfl⟩
              simp [losesBatch, htick, hp] at hguard
        have hbetween : Between lossless keccak
            { s with settlement :=
                { s.settlement with store := store' }.proceed schedulerPid .settleBatch begun flow } :=
          ⟨⟨hmoved.consistent, hmoved.ledger.lose hloss, hmoved.rows⟩, hfree⟩
        exact hbetween.leave (hwaiting.sublist (List.sublist_append_right _ _))
      · exact ⟨hmoved.setTick _, hwaiting, hfree, hmem, hnone⟩

/-- The transaction of `markSettled` is answered. -/
theorem markSettled_invariant (hinv : Invariant lossless keccak s)
    (htick : s.tick = .markSettled chunk sid work)
    (hok : lossless → losesBatch (.resume now reply id) s = false)
    (hstep : resume cfg keccak s now reply id (.markSettled chunk sid work) = some s') :
    Invariant lossless keccak s' := by
  rcases hinv.tickAt htick with ⟨hwaiting, hfree, hmem, hnone⟩
  have hbase : Base lossless keccak (some sid) s := by
    have h := hinv.base
    simpa [State.flight, htick] using h
  cases reply with
  | done =>
      simp only [resume] at hstep
      cases hstep
      have hbetween : Between lossless keccak
          { s with receipts := markSettled s.receipts (chunk.map (·.id)) sid } :=
        ⟨⟨hbase.consistent, hbase.ledger.attach hmem hnone hwaiting, hbase.rows⟩, hfree⟩
      exact hbetween.nextChunk (waiting_markSettled hwaiting sid)
  | failed error =>
      have hloss : ¬ lossless := by
        intro hlossless
        have hguard := hok hlossless
        simp [losesBatch, htick] at hguard
      simp only [resume] at hstep
      cases hstep
      have hbetween : Between lossless keccak s :=
        ⟨⟨hbase.consistent, hbase.ledger.lose hloss, hbase.rows⟩, hfree⟩
      exact hbetween.leave (hwaiting.sublist (List.sublist_append_right _ _))
  | gas fee => simp [resume] at hstep
  | sent hash => simp [resume] at hstep

/-- The scan is answered. -/
theorem findUnsettled_invariant (hinv : Invariant lossless keccak s) {begun : Time}
    (htick : s.tick = .findUnsettled begun)
    (hstep : resume cfg keccak s now reply id (.findUnsettled begun) = some s') :
    Invariant lossless keccak s' := by
  have hfree := hinv.tickAt htick
  have hbetween : Between lossless keccak s := by
    refine ⟨?_, hfree⟩
    have h := hinv.base
    simpa [State.flight, htick] using h
  cases reply with
  | done =>
      simp only [resume] at hstep
      cases hstep
      -- grouping only rearranges what the scan has found
      have hscan := waiting_findUnsettled hbetween.base.ledger.keyed cfg.scanLimit
      exact hbetween.nextGroup _ _ (hscan.perm (Arrange.perm_members_groupBy _))
  | failed error =>
      simp only [resume] at hstep
      cases hstep
      exact hbetween.idle none
  | gas fee => simp [resume] at hstep
  | sent hash => simp [resume] at hstep

theorem resume_invariant (hinv : Invariant lossless keccak s)
    (hok : lossless → losesBatch (.resume now reply id) s = false)
    (hstep : resume cfg keccak s now reply id s.tick = some s') : Invariant lossless keccak s' := by
  cases htick : s.tick with
  | idle =>
      rw [htick] at hstep
      simp [resume] at hstep
  | findUnsettled begun =>
      rw [htick] at hstep
      exact findUnsettled_invariant hinv htick hstep
  | markSettled chunk sid work =>
      rw [htick] at hstep
      exact markSettled_invariant hinv htick hok hstep
  | settleBatch chunk sid work =>
      rw [htick] at hstep
      rcases hinv.tickAt htick with ⟨_, p, hp, hcall⟩
      rcases hcall.cases with ⟨entity, rfl⟩ | ⟨begun, entity, stage, rfl, _⟩
      · exact insert_invariant hinv htick hp hstep
      · exact attempt_invariant hinv htick hp hok hstep

/-- A tick is not disturbed by what happens beside it. -/
theorem TickSound.frame {tick : Tick} (h : TickSound keccak s tick)
    (hprocess : s'.settlement.process schedulerPid = s.settlement.process schedulerPid)
    (hbatches : s'.batches = s.batches)
    (hwaiting : ∀ queue, Waiting s.receipts queue → Waiting s'.receipts queue)
    (hnone : ∀ sid, Unattached s.receipts sid → Unattached s'.receipts sid) :
    TickSound keccak s' tick := by
  cases tick with
  | idle => exact hprocess.trans h
  | findUnsettled begun => exact hprocess.trans h
  | markSettled chunk sid work =>
      rcases h with ⟨hqueue, hfree, hmem, hsid⟩
      exact ⟨hwaiting _ hqueue, hprocess.trans hfree, by rw [hbatches]; exact hmem, hnone sid hsid⟩
  | settleBatch chunk sid work =>
      rcases h with ⟨hqueue, p, hp, hcall⟩
      refine ⟨hwaiting _ hqueue, p, hprocess.trans hp, ?_⟩
      rcases hcall.cases with ⟨entity, rfl⟩ | ⟨begun, entity, stage, rfl, hmem, hsid⟩
      · exact hcall
      · exact ⟨by rw [hbatches]; exact hmem, hnone sid hsid⟩

/-- A new receipt waits; nothing else changes. -/
theorem create_invariant (hinv : Invariant lossless keccak s) {row : PaymentReceipt}
    (hfresh : Table.lookup PaymentReceipt.id s.receipts row.id = none)
    (hrow : row.settlementId = none) :
    Invariant lossless keccak { s with receipts := row :: s.receipts } where
  base := ⟨hinv.base.consistent, hinv.base.ledger.create hfresh hrow, hinv.base.rows⟩
  tick := hinv.tick.frame rfl rfl (fun _ h => h.create row) (fun _ h => h.create hrow)

/-- A step of the settlement machine outside the scheduler's own call. -/
theorem other_invariant (hinv : Invariant lossless keccak s) {a : Settlement.Action}
    (ha : a.pid ≠ some schedulerPid) {settlement : Settlement.State}
    (hstep : Settlement.step cfg.settlement a s.settlement = some settlement) :
    Invariant lossless keccak { s with settlement } := by
  rcases Settlement.step_kept hinv.base.consistent hstep with ⟨hkept, hcons, hothers⟩
  have hprocess := hothers schedulerPid ha
  refine ⟨?_, hinv.tick.frame hprocess rfl (fun _ h => h) (fun _ h => h)⟩
  have hmoved := hinv.base.move hkept hcons
  simpa [State.flight, hprocess] using hmoved

/-- Every step keeps the invariant, the lossless one as long as no batch is lost. -/
theorem step_invariant {a : Action} (hinv : Invariant lossless keccak s)
    (hok : lossless → losesBatch a s = false) (hstep : step cfg keccak a s = some s') :
    Invariant lossless keccak s' := by
  cases a with
  | create id createdAt dto =>
      simp only [step] at hstep
      split at hstep
      · rename_i hfresh
        cases hstep
        exact create_invariant hinv hfresh rfl
      · cases hstep
  | runOnce now =>
      simp only [step] at hstep
      split at hstep
      · rename_i hidle
        cases hstep
        refine ⟨?_, hinv.tickAt hidle.1⟩
        have hbase := hinv.base.setTick (.findUnsettled now)
        simpa [State.flight, hidle.1] using hbase
      · cases hstep
        exact ⟨⟨hinv.base.consistent, hinv.base.ledger, hinv.base.rows⟩, hinv.tick⟩
  | resume now reply id =>
      simp only [step] at hstep
      exact resume_invariant hinv hok hstep
  | other a =>
      simp only [step] at hstep
      split at hstep
      · cases hstep
      · rename_i ha
        split at hstep
        · rename_i settlement hinner
          cases hstep
          exact other_invariant hinv ha hinner
        · cases hstep

end Steps

end BatchScheduler
end PaymentRail
