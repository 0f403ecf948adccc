import PaymentRail.Collections.Arrange

/-!
# DueQueue — rows that wait for a time

A queue may be kept in the table it is about: some of the rows wait, each for a time of its own.  Whoever
reads the queue takes a limited number of the rows that are due, those that are due longest first.  So
whoever passes a row over that is due has taken as many as it may, and all of them were due no later
(`first_of_not_mem`).
-/

namespace PaymentRail
namespace Collections
namespace DueQueue

universe u

variable {ρ : Type u} (waits : ρ → Bool) (next : ρ → Option Nat)

/-- The row waits for a time that has come. -/
def due (now : Nat) (row : ρ) : Bool := waits row && (next row).any fun t => t ≤ now

/-- What is taken from the queue. -/
def first (rows : List ρ) (now limit : Nat) : List ρ :=
  (Arrange.orderBy (fun row => (next row).getD 0) (rows.filter (due waits next now))).take limit

variable {waits next} {rows : List ρ} {row : ρ} {now t limit : Nat}

theorem due_iff : due waits next now row = true ↔
    waits row = true ∧ ∃ t, next row = some t ∧ t ≤ now := by
  simp only [due, Bool.and_eq_true, decide_eq_true_eq, Option.any_eq_true]

theorem due_mono (h : due waits next t row = true) (hle : t ≤ now) :
    due waits next now row = true := by
  rcases due_iff.1 h with ⟨hwaits, time, hnext, hdue⟩
  exact due_iff.2 ⟨hwaits, time, hnext, hdue.trans hle⟩

theorem mem_first (h : row ∈ first waits next rows now limit) :
    row ∈ rows ∧ due waits next now row = true :=
  List.mem_filter.1 (Arrange.mem_orderBy.1 (List.mem_of_mem_take h))

/-- Whoever passes a due row over takes a whole batch of rows that are due no later. -/
theorem first_of_not_mem (hrow : row ∈ rows) (hwaits : waits row = true) (hnext : next row = some t)
    (hdue : t ≤ now) (hnot : row ∉ first waits next rows now limit) :
    (first waits next rows now limit).length = limit ∧
      ∀ other ∈ first waits next rows now limit, due waits next t other = true := by
  have hmem : row ∈ rows.filter (due waits next now) :=
    List.mem_filter.2 ⟨hrow, due_iff.2 ⟨hwaits, t, hnext, hdue⟩⟩
  rcases Arrange.take_orderBy_of_not_mem hmem hnot with ⟨hlength, hbefore⟩
  refine ⟨hlength, ?_⟩
  intro other hother
  rcases due_iff.1 (mem_first hother).2 with ⟨hwaiting, time, htime, _⟩
  have hle := hbefore other hother
  simp only [htime, hnext, Option.getD_some] at hle
  exact due_iff.2 ⟨hwaiting, time, htime, hle⟩

end DueQueue
end Collections
end PaymentRail
