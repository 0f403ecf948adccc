import PaymentRail.Settlement.BatchedOnce

/-!
# FlushedChunks — what a tick of the scheduler settles

A tick cuts the receipts of every escrow into chunks and settles those that are due: all of them when
the oldest receipt has waited long enough, else the full ones.  What an escrow has in its due chunks is
therefore the beginning of its receipts (`flatten_dueChunks`).

The two loops of `runOnce` work through `formed`, the chunks of all escrows.  `Tally` is the invariant
of the loops: what is counted and what is left add up to all chunks, unless one of them has failed.
-/

namespace PaymentRail
namespace BatchScheduler

open Machine Strings Collections Receipts
open Settlement (SettlementId Reply Time)

/-! ## The chunks of one escrow -/

section Due

variable (cfg : Config) (now : Time) {receipts : List PaymentReceipt}

@[simp] theorem dueChunks_nil : dueChunks cfg [] now = [] := by
  simp [dueChunks, Arrange.slices]

theorem flatten_dueChunks (receipts : List PaymentReceipt) :
    (dueChunks cfg receipts now).flatten =
      if windowElapsed cfg receipts now = true then receipts
      else receipts.take (receipts.length / cfg.maxReceipts * cfg.maxReceipts) := by
  unfold dueChunks
  cases windowElapsed cfg receipts now with
  | true => simp [Arrange.flatten_slices cfg.maxReceipts_pos]
  | false => simp [Arrange.flatten_full_slices cfg.maxReceipts_pos]

theorem prefix_dueChunks (receipts : List PaymentReceipt) :
    (dueChunks cfg receipts now).flatten <+: receipts := by
  rw [flatten_dueChunks]
  split
  · exact List.prefix_refl receipts
  · exact List.take_prefix _ _

theorem length_of_mem_dueChunks {chunk : List PaymentReceipt}
    (h : chunk ∈ dueChunks cfg receipts now) : chunk ≠ [] ∧ chunk.length ≤ cfg.maxReceipts :=
  Arrange.length_of_mem_slices cfg.maxReceipts_pos (List.mem_filter.1 h).1

/-- Some receipt has waited for the window: among receipts in order the first one decides. -/
theorem windowElapsed_iff (h : receipts.Pairwise fun a b => a.createdAt ≤ b.createdAt) :
    windowElapsed cfg receipts now = true ↔
      ∃ oldest ∈ receipts, (∀ r ∈ receipts, oldest.createdAt ≤ r.createdAt) ∧
        oldest.createdAt + cfg.windowMs ≤ now := by
  cases receipts with
  | nil => simp [windowElapsed]
  | cons first rest =>
      have hfirst : ∀ r ∈ first :: rest, first.createdAt ≤ r.createdAt := by
        intro r hr
        rcases List.mem_cons.1 hr with rfl | hr
        · exact le_refl _
        · exact (List.pairwise_cons.1 h).1 r hr
      constructor
      · intro helapsed
        exact ⟨first, List.mem_cons_self, hfirst, by simpa [windowElapsed] using helapsed⟩
      · rintro ⟨oldest, hmem, _, hwaited⟩
        have hless := hfirst oldest hmem
        simp only [windowElapsed, decide_eq_true_eq]
        omega

end Due

/-! ## The chunks of a tick -/

/-- The chunks `runOnce` forms of the receipts it has found, in the order it takes them. -/
def formed (cfg : Config) (now : Time) (pending : List PaymentReceipt) : List (List PaymentReceipt) :=
  (groupByEscrow pending).flatMap fun group => dueChunks cfg group.2 now

/-- The receipts of one escrow, in order. -/
def ofEscrow (pending : List PaymentReceipt) (escrowId : Text) : List PaymentReceipt :=
  pending.filter fun r => decide (r.escrowId = escrowId)

/-- The chunks of one escrow among those of a tick. -/
def chunksOf (chunks : List (List PaymentReceipt)) (escrowId : Text) : List (List PaymentReceipt) :=
  chunks.filter fun chunk => chunk.all fun r => decide (r.escrowId = escrowId)

section Formed

variable (cfg : Config) (now : Time) (pending : List PaymentReceipt)

theorem escrowId_of_mem_dueChunks {group : Text × List PaymentReceipt}
    (hgroup : group ∈ groupByEscrow pending) {chunk : List PaymentReceipt}
    (hchunk : chunk ∈ dueChunks cfg group.2 now) : ∀ r ∈ chunk, r.escrowId = group.1 := by
  intro r hr
  have hmem : r ∈ group.2 :=
    (prefix_dueChunks cfg now group.2).subset (List.mem_flatten_of_mem hchunk hr)
  rw [(Arrange.grouped_groupBy pending).group group.1 group.2 hgroup] at hmem
  exact of_decide_eq_true (List.mem_filter.1 hmem).2

theorem chunksOf_formed (escrowId : Text) :
    chunksOf (formed cfg now pending) escrowId = dueChunks cfg (ofEscrow pending escrowId) now := by
  have hgrouped : Arrange.Grouped PaymentReceipt.escrowId pending (groupByEscrow pending) :=
    Arrange.grouped_groupBy pending
  rw [ofEscrow, ← hgrouped.flatMap_key (f := fun g => dueChunks cfg g now) (dueChunks_nil cfg now),
    chunksOf, formed, List.filter_flatMap]
  refine List.flatMap_congr ?_
  intro group hgroup
  -- the chunks of a group are all of one escrow, so all of them stay or none does
  have hown : ∀ chunk ∈ dueChunks cfg group.2 now, ∀ r ∈ chunk, r.escrowId = group.1 :=
    fun _ hchunk => escrowId_of_mem_dueChunks cfg now pending hgroup hchunk
  split
  · rename_i heq
    refine List.filter_eq_self.2 ?_
    intro chunk hchunk
    refine List.all_eq_true.2 ?_
    intro r hr
    exact decide_eq_true ((hown chunk hchunk r hr).trans heq)
  · -- a chunk of another escrow is not empty
    rename_i hne
    refine List.filter_eq_nil_iff.2 ?_
    intro chunk hchunk hall
    rcases List.exists_mem_of_ne_nil _ (length_of_mem_dueChunks cfg now hchunk).1 with ⟨r, hr⟩
    have hsame := of_decide_eq_true (List.all_eq_true.1 hall r hr)
    exact hne ((hown chunk hchunk r hr).symm.trans hsame)

theorem flatten_flatMap_sublist (groups : List (Text × List PaymentReceipt)) :
    (groups.flatMap fun group => dueChunks cfg group.2 now).flatten.Sublist
      (Arrange.members groups) := by
  induction groups with
  | nil => exact List.Sublist.refl _
  | cons group groups ih =>
      rw [List.flatMap_cons, List.flatten_append, Arrange.members, List.flatMap_cons]
      exact (prefix_dueChunks cfg now group.2).sublist.append ih

/-- No receipt is taken more often than it was found. -/
theorem subperm_formed : (formed cfg now pending).flatten.Subperm pending :=
  (flatten_flatMap_sublist cfg now _).subperm.trans (Arrange.perm_members_groupBy pending).subperm

end Formed

/-! ## What a tick reports -/

/-- The chunks the two loops still have to take. -/
def Work.left (cfg : Config) (work : Work) : List (List PaymentReceipt) :=
  work.chunks ++ work.groups.flatMap fun group => dueChunks cfg group.2 work.now

/-- What `result` counts of the chunks `all` while `left` are still to come. -/
structure Tally (all left : List (List PaymentReceipt)) (scanned : Nat) (result : BatchRunResult) :
    Prop where
  ran : result.ran = true
  scanned : result.scanned = scanned
  counted :
    (result.failed = 0 ∧ result.batches + left.length = all.length ∧
      result.receipts + left.flatten.length = all.flatten.length) ∨
    (0 < result.failed ∧ result.batches + left.length < all.length)

section Tally

variable {cfg : Config} {keccak : Keccak} {all : List (List PaymentReceipt)} {scanned : Nat}
  {result : BatchRunResult} {chunk : List PaymentReceipt} {left : List (List PaymentReceipt)}

/-- A chunk fails, and the chunks behind it in its group are not tried. -/
theorem Tally.fail {behind : List (List PaymentReceipt)}
    (h : Tally all (chunk :: (behind ++ left)) scanned result) : Tally all left scanned result.fail where
  ran := h.ran
  scanned := h.scanned
  counted := by
    refine Or.inr ⟨Nat.succ_pos _, ?_⟩
    show result.batches + left.length < all.length
    have hlength : (chunk :: (behind ++ left)).length = behind.length + left.length + 1 := by
      simp
    rcases h.counted with ⟨_, hbatches, _⟩ | ⟨_, hbatches⟩
    · omega
    · omega

theorem Tally.count (h : Tally all (chunk :: left) scanned result) :
    Tally all left scanned { result with
      batches := result.batches + 1
      receipts := result.receipts + chunk.length } where
  ran := h.ran
  scanned := h.scanned
  counted := by
    rcases h.counted with ⟨hfailed, hbatches, hreceipts⟩ | ⟨hfailed, hbatches⟩
    · rw [List.length_cons] at hbatches
      rw [List.flatten_cons, List.length_append] at hreceipts
      refine Or.inl ⟨hfailed, ?_, ?_⟩
      · show result.batches + 1 + left.length = all.length
        omega
      · show result.receipts + chunk.length + left.flatten.length = all.flatten.length
        omega
    · rw [List.length_cons] at hbatches
      refine Or.inr ⟨hfailed, ?_⟩
      show result.batches + 1 + left.length < all.length
      omega

/-- The invariant of a tick behind its scan. -/
def Tallied (cfg : Config) (all : List (List PaymentReceipt)) (scanned : Nat) (s : State) : Prop :=
  match s.tick with
  | .idle => ∃ result, s.returned = some result ∧ Tally all [] scanned result
  | .findUnsettled _ => False
  | .settleBatch chunk _ work => Tally all (chunk :: work.left cfg) scanned work.result
  | .markSettled chunk _ work => Tally all (chunk :: work.left cfg) scanned work.result

theorem tallied_settleChunk (s : State) (id : SettlementId) {work : Work}
    {leave : BatchRunResult → State}
    (h : Tally all (chunk :: work.left cfg) scanned work.result)
    (hleave : Tallied cfg all scanned (leave work.result.fail)) :
    Tallied cfg all scanned (s.settleChunk cfg keccak id chunk work leave) := by
  unfold State.settleChunk
  split
  · exact h
  · exact hleave

theorem tallied_nextGroup (s : State) (id : SettlementId) (now : Time)
    {groups : List (Text × List PaymentReceipt)} {result : BatchRunResult}
    (h : Tally all (groups.flatMap fun group => dueChunks cfg group.2 now) scanned result) :
    Tallied cfg all scanned (s.nextGroup cfg keccak id now result groups) := by
  induction groups generalizing result with
  | nil => exact ⟨result, rfl, h⟩
  | cons group groups ih =>
      rcases group with ⟨escrowId, receipts⟩
      rw [List.flatMap_cons] at h
      unfold State.nextGroup
      split
      · rename_i hdue
        rw [hdue] at h
        exact ih h
      · rename_i chunk chunks hdue
        rw [hdue] at h
        exact tallied_settleChunk s id h (ih h.fail)

theorem tallied_leave (s : State) (id : SettlementId) {work : Work}
    (h : Tally all (chunk :: work.left cfg) scanned work.result) :
    Tallied cfg all scanned (s.leave cfg keccak id work) :=
  tallied_nextGroup s id work.now h.fail

theorem tallied_nextChunk (s : State) (id : SettlementId) {work : Work}
    (h : Tally all (work.left cfg) scanned work.result) :
    Tallied cfg all scanned (s.nextChunk cfg keccak id work) := by
  unfold State.nextChunk
  split
  · rename_i hchunks
    rw [Work.left, hchunks] at h
    exact tallied_nextGroup s id work.now h
  · rename_i chunk chunks hchunks
    rw [Work.left, hchunks] at h
    exact tallied_settleChunk s id h (tallied_nextGroup s id work.now h.fail)

theorem tallied_resume {s s' : State} {now : Time} {reply : Reply} {id : SettlementId}
    (h : Tallied cfg all scanned s) (hstep : resume cfg keccak s now reply id s.tick = some s') :
    Tallied cfg all scanned s' := by
  unfold Tallied at h
  cases htick : s.tick with
  | idle =>
      rw [htick] at hstep
      cases hstep
  | findUnsettled begun =>
      rw [htick] at h
      exact h.elim
  | settleBatch chunk sid work =>
      rw [htick] at h hstep
      simp only [resume] at hstep
      split at hstep
      · cases hstep
      · split at hstep
        · cases hstep
        · split at hstep
          -- `settleBatch` waits on
          · cases hstep
            unfold Tallied
            simp only [htick]
            exact h
          · split at hstep
            · cases hstep
              exact tallied_leave _ id h
            · cases hstep
              exact h
  | markSettled chunk sid work =>
      rw [htick] at h hstep
      cases reply with
      | done =>
          cases hstep
          exact tallied_nextChunk _ id h.count
      | failed error =>
          cases hstep
          exact tallied_leave _ id h
      | gas fee => cases hstep
      | sent hash => cases hstep

/-- The machine while a tick is on: it stops when the tick has ended. -/
def Ticking (_ : Action) (s : State) : Prop := s.tick ≠ .idle

instance (a : Action) (s : State) : Decidable (Ticking a s) :=
  inferInstanceAs (Decidable (s.tick ≠ .idle))

/-- What happens beside the tick does not change it. -/
theorem tallied_of_tick_eq {s s' : State} (h : Tallied cfg all scanned s) (hon : s.tick ≠ .idle)
    (htick : s'.tick = s.tick) : Tallied cfg all scanned s' := by
  unfold Tallied at h ⊢
  rw [htick]
  cases hcase : s.tick with
  | idle => exact absurd hcase hon
  | findUnsettled begun =>
      rw [hcase] at h
      exact h
  | settleBatch chunk sid work =>
      rw [hcase] at h
      exact h
  | markSettled chunk sid work =>
      rw [hcase] at h
      exact h

theorem tallied_step (a : Action) (s s' : State) (h : Tallied cfg all scanned s)
    (hstep : guarded Ticking (step cfg keccak) a s = some s') : Tallied cfg all scanned s' := by
  rcases guarded_eq_some.1 hstep with ⟨hon, hstep⟩
  cases a with
  | create id createdAt dto =>
      simp only [step] at hstep
      split at hstep
      · cases hstep
        exact tallied_of_tick_eq h hon rfl
      · cases hstep
  | runOnce now =>
      simp only [step] at hstep
      split at hstep
      · rename_i hidle
        exact absurd hidle.1 hon
      · cases hstep
        exact tallied_of_tick_eq h hon rfl
  | resume now reply id => exact tallied_resume h hstep
  | other a =>
      simp only [step] at hstep
      split at hstep
      · cases hstep
      · split at hstep
        · cases hstep
          exact tallied_of_tick_eq h hon rfl
        · cases hstep

/-- The counts of a tick that has ended. -/
theorem Tally.reported (h : Tally all [] scanned result) :
    (result.failed = 0 ↔ result.batches = all.length) ∧
      (result.failed = 0 → result.receipts = all.flatten.length) := by
  rcases h.counted with ⟨hfailed, hbatches, hreceipts⟩ | ⟨hfailed, hbatches⟩
  · exact ⟨iff_of_true hfailed hbatches, fun _ => hreceipts⟩
  · have hsome : ¬ result.failed = 0 := Nat.ne_of_gt hfailed
    exact ⟨iff_of_false hsome (Nat.ne_of_lt hbatches), fun hnone => absurd hnone hsome⟩

/-- The scan is answered, and the loops begin. -/
theorem tallied_scan {s s' : State} {begun now : Time} {id : SettlementId}
    (htick : s.tick = .findUnsettled begun)
    (hstep : step cfg keccak (.resume now .done id) s = some s') :
    Tallied cfg (formed cfg begun (findUnsettled s.receipts cfg.scanLimit))
      (findUnsettled s.receipts cfg.scanLimit).length s' := by
  simp only [step, htick, resume, Option.some.injEq] at hstep
  subst hstep
  exact tallied_nextGroup s id begun ⟨rfl, rfl, Or.inl ⟨rfl, Nat.zero_add _, Nat.zero_add _⟩⟩

end Tally

/-- The receipts of an escrow that are flushed at `now`: all of them if the oldest one has waited for
the window, else as many as fill whole chunks. -/
def Flushed (cfg : Config) (now : Time) (receipts flushed : List PaymentReceipt) : Prop :=
  ((∃ oldest ∈ receipts, (∀ r ∈ receipts, oldest.createdAt ≤ r.createdAt) ∧
      oldest.createdAt + cfg.windowMs ≤ now) → flushed = receipts) ∧
  ((∀ oldest ∈ receipts, (∀ r ∈ receipts, oldest.createdAt ≤ r.createdAt) →
      ¬ oldest.createdAt + cfg.windowMs ≤ now) →
    flushed <+: receipts ∧ cfg.maxReceipts ∣ flushed.length ∧
      ∀ longer, longer <+: receipts → cfg.maxReceipts ∣ longer.length →
        longer.length ≤ flushed.length)

theorem flushed_dueChunks (cfg : Config) (now : Time) {receipts : List PaymentReceipt}
    (h : receipts.Pairwise fun a b => a.createdAt ≤ b.createdAt) :
    Flushed cfg now receipts (dueChunks cfg receipts now).flatten := by
  rw [flatten_dueChunks]
  constructor
  · intro hwaited
    rw [if_pos ((windowElapsed_iff cfg now h).2 hwaited)]
  · intro hwaiting
    have helapsed : ¬ windowElapsed cfg receipts now = true := by
      intro helapsed
      rcases (windowElapsed_iff cfg now h).1 helapsed with ⟨oldest, hmem, hfirst, hwaited⟩
      exact hwaiting oldest hmem hfirst hwaited
    have hfit : receipts.length / cfg.maxReceipts * cfg.maxReceipts ≤ receipts.length :=
      Nat.div_mul_le_self _ _
    rw [if_neg helapsed, List.length_take, Nat.min_eq_left hfit]
    refine ⟨List.take_prefix _ _, Nat.dvd_mul_left _ _, ?_⟩
    rintro longer hprefix ⟨k, hk⟩
    have hless := hprefix.length_le
    rw [hk, Nat.mul_comm] at hless ⊢
    exact Nat.mul_le_mul_right _ ((Nat.le_div_iff_mul_le cfg.maxReceipts_pos).2 hless)

/-- A tick settles chunks of one escrow each, within the cap; of every escrow they are the receipts
that are due, in order; and a tick without failures reports how many chunks and receipts that were. -/
theorem flushes_what_is_due (cfg : Config) (now : Time) {pending : List PaymentReceipt}
    (hsorted : pending.Pairwise fun a b => a.createdAt ≤ b.createdAt) :
    (∀ chunk ∈ formed cfg now pending, chunk ≠ [] ∧ chunk.length ≤ cfg.maxReceipts ∧
      ∃ escrowId, ∀ r ∈ chunk, r.escrowId = escrowId) ∧
    (∀ escrowId, (chunksOf (formed cfg now pending) escrowId).flatten <+: ofEscrow pending escrowId ∧
      Flushed cfg now (ofEscrow pending escrowId)
        (chunksOf (formed cfg now pending) escrowId).flatten) ∧
    (formed cfg now pending).flatten.Subperm pending ∧
    ∀ (keccak : Keccak) (s s' : State) (answered : Time) (id : SettlementId) (as : List Action),
      s.tick = .findUnsettled now → findUnsettled s.receipts cfg.scanLimit = pending →
      run (guarded Ticking (step cfg keccak)) (.resume answered .done id :: as) s = some s' →
      s'.tick = .idle → ∃ result, s'.returned = some result ∧ result.ran = true ∧
        result.scanned = pending.length ∧
        (result.failed = 0 ↔ result.batches = (formed cfg now pending).length) ∧
        (result.failed = 0 → result.receipts = (formed cfg now pending).flatten.length) := by
  refine ⟨?_, ?_, subperm_formed cfg now pending, ?_⟩
  · intro chunk hchunk
    rcases List.mem_flatMap.1 hchunk with ⟨group, hgroup, hdue⟩
    rcases length_of_mem_dueChunks cfg now hdue with ⟨hne, hlength⟩
    exact ⟨hne, hlength, group.1, escrowId_of_mem_dueChunks cfg now pending hgroup hdue⟩
  · intro escrowId
    rw [chunksOf_formed]
    exact ⟨prefix_dueChunks cfg now _, flushed_dueChunks cfg now (hsorted.filter _)⟩
  · intro keccak s s' answered id as htick hscan hrun hidle
    -- the tally starts with the scan and is kept until the tick is over
    rcases run_cons_eq_some.1 hrun with ⟨t, hfirst, hrest⟩
    have hstart := tallied_scan htick (guarded_eq_some.1 hfirst).2
    have hend := run_invariant tallied_step hstart hrest
    rw [hscan] at hend
    unfold Tallied at hend
    rw [hidle] at hend
    rcases hend with ⟨result, hreturned, htally⟩
    exact ⟨result, hreturned, htally.ran, htally.scanned, htally.reported⟩

/-- Batches of two at most. -/
def pairConfig : Config :=
  { sampleConfig with maxReceipts := 2, maxReceipts_pos := by decide }

/-- A receipt of `f` that has waited for a minute, and three later ones of `e`. -/
def twoEscrows : List PaymentReceipt :=
  [create 1 0 { sampleDto 'A' with escrowId := ['f'] }, create 2 10000 (sampleDto '2'),
    create 3 20000 (sampleDto '3'), create 4 30000 (sampleDto '4')]

def twoEscrowsCreated : List Action :=
  [.create 1 0 { sampleDto 'A' with escrowId := ['f'] }, .create 2 10000 (sampleDto '2'),
    .create 3 20000 (sampleDto '3'), .create 4 30000 (sampleDto '4')]

def twoBatches : List Action :=
  [.resume 60000 .done 1, .resume 60000 .done 0, .resume 60000 .done 2, .resume 60000 .done 0,
    .resume 60000 .done 0]

/-- The receipt of `f` is settled alone, the first two of `e` fill a batch, and the third one waits. -/
theorem flushes_what_is_due_twoEscrows :
    ∃ s s' result, run (step pairConfig sampleKeccak) (twoEscrowsCreated ++ [.runOnce 60000]) initial =
        some s ∧
      run (guarded Ticking (step pairConfig sampleKeccak)) twoBatches s = some s' ∧
      s'.returned = some result ∧ result.batches = 2 ∧ result.receipts = 3 ∧
      (chunksOf (formed pairConfig 60000 twoEscrows) ['e']).flatten <+: ofEscrow twoEscrows ['e'] ∧
      (chunksOf (formed pairConfig 60000 twoEscrows) ['e']).flatten.map (·.id) = [2, 3] ∧
      (ofEscrow twoEscrows ['e']).map (·.id) = [2, 3, 4] := by
  let found : State := { initial with receipts := twoEscrows.reverse, tick := .findUnsettled 60000 }
  have hend : (run (guarded Ticking (step pairConfig sampleKeccak)) twoBatches found).any
      (fun s' => decide (s'.tick = .idle) &&
        (s'.returned.map BatchRunResult.failed == some 0)) = true := by
    decide +kernel
  rcases (Option.any_eq_true _ _).1 hend with ⟨s', hs', hidle⟩
  rcases Bool.and_eq_true_iff.1 hidle with ⟨hidle, hfailed⟩
  have hsorted : twoEscrows.Pairwise fun a b => a.createdAt ≤ b.createdAt := by decide
  have hflushes := flushes_what_is_due pairConfig 60000 hsorted
  rcases hflushes.2.2.2 sampleKeccak found s' 60000 1 _ rfl (by decide) hs'
    (of_decide_eq_true hidle) with ⟨result, hreturned, _, _, hbatches, hreceipts⟩
  rw [hreturned] at hfailed
  have hfailed : result.failed = 0 := by simpa using hfailed
  have hformed : (formed pairConfig 60000 twoEscrows).length = 2 ∧
      (formed pairConfig 60000 twoEscrows).flatten.length = 3 := by decide
  exact ⟨found, s', result, rfl, hs', hreturned, (hbatches.1 hfailed).trans hformed.1,
    (hreceipts hfailed).trans hformed.2, (hflushes.2.1 ['e']).1, by decide, by decide⟩

end BatchScheduler
end PaymentRail
