import PaymentRail.Escrow.Transitions

/-!
# ReleaseRows — which call a release row belongs to

From the moment its row is stored until the outcome is saved, a release belongs to the call that
made it: the row stands in the table as completed, with the amount the call knows, and no other call
will touch it.
-/

namespace PaymentRail
namespace Escrow

open Machine Strings Money Collections

/-! ## Ownership -/

/-- The row of the release stands in the table, as completed. -/
structure Stored (store : Store) (release : EscrowRelease) : Prop where
  row : ∃ row, Table.lookup EscrowRelease.id store.releases release.id = some row ∧
    row.escrowId = release.escrowId ∧ row.amount = release.amount ∧ row.status = .completed
  pos : 0 < release.amount.wei

/-- The release whose outcome a call has not saved yet. -/
def Process.release? : Process → Option EscrowRelease
  | .payOut release => some release
  | .waitPayOut release _ => some release
  | .giveBack release _ => some release
  | .saveFailed release => some release
  | .savePaid release => some release
  | _ => none

/-- What a call knows of its release. -/
def Process.Owns (store : Store) : Process → Prop
  | .reserve _ _ amount => 0 < amount.wei
  | .insertRelease _ _ amount => 0 < amount.wei
  | .payOut release => Stored store release ∧ release.status = .completed
  | .waitPayOut release _ => Stored store release ∧ release.status = .completed
  | .giveBack release _ => Stored store release ∧ release.status = .completed
  | .savePaid release => Stored store release ∧ release.status = .completed
  | .saveFailed release => Stored store release ∧ release.status = .failed
  | _ => True

/-- No two calls own the same release. -/
def Process.Apart (p q : Process) : Prop :=
  ∀ r ∈ p.release?, ∀ r' ∈ q.release?, r.id ≠ r'.id

theorem Process.Apart.symm {p q : Process} (h : p.Apart q) : q.Apart p :=
  fun r hr r' hr' hEq => h r' hr' r hr hEq.symm

theorem Process.apart_of_none {p q : Process} (h : q.release? = none) : p.Apart q := by
  intro r _ r' hr'
  rw [h] at hr'
  cases hr'

/-- A call goes on with the release it owns, or without one. -/
theorem Process.Apart.of_id {p q q' : Process} (h : p.Apart q)
    (hsame : ∀ r' ∈ q'.release?, ∃ r ∈ q.release?, r.id = r'.id) : p.Apart q' := by
  intro r hr r' hr'
  rcases hsame r' hr' with ⟨r₀, hr₀, hEq⟩
  rw [← hEq]
  exact h r hr r₀ hr₀

theorem Process.Owns.stored {store : Store} {p : Process} (h : p.Owns store) :
    ∀ r ∈ p.release?, Stored store r := by
  intro r hr
  cases p with
  | payOut release =>
      cases hr
      exact h.1
  | waitPayOut release hash =>
      cases hr
      exact h.1
  | giveBack release message =>
      cases hr
      exact h.1
  | saveFailed release =>
      cases hr
      exact h.1
  | savePaid release =>
      cases hr
      exact h.1
  | _ => cases hr

/-! ## Frames -/

theorem Stored.of_releases {store store' : Store} {release : EscrowRelease}
    (h : Stored store release) (hEq : store'.releases = store.releases) : Stored store' release := by
  refine ⟨?_, h.pos⟩
  rw [hEq]
  exact h.row

/-- Saving another release does not touch the row. -/
theorem Stored.saveRelease {store : Store} {release entity : EscrowRelease}
    (h : Stored store release) (hne : entity.id ≠ release.id) :
    Stored (store.saveRelease entity) release := by
  refine ⟨?_, h.pos⟩
  rw [Store.saveRelease, Table.lookup_put_of_ne _ _ hne]
  exact h.row

theorem Process.Owns.of_stored {store store' : Store} {p : Process} (h : p.Owns store)
    (hstored : ∀ r ∈ p.release?, Stored store r → Stored store' r) : p.Owns store' := by
  cases p with
  | payOut release => exact ⟨hstored _ rfl h.1, h.2⟩
  | waitPayOut release hash => exact ⟨hstored _ rfl h.1, h.2⟩
  | giveBack release message => exact ⟨hstored _ rfl h.1, h.2⟩
  | saveFailed release => exact ⟨hstored _ rfl h.1, h.2⟩
  | savePaid release => exact ⟨hstored _ rfl h.1, h.2⟩
  | reserve sid dto amount => exact h
  | insertRelease sid dto amount => exact h
  | _ => trivial

theorem Process.Owns.of_releases {store store' : Store} {p : Process} (h : p.Owns store)
    (hEq : store'.releases = store.releases) : p.Owns store' :=
  h.of_stored fun _ _ hr => hr.of_releases hEq

/-! ## Steps -/

section Steps

variable {cfg : Config} {id : CallId} {store store' : Store} {p q : Process} {reply : Reply}
  {flow : Flow Process Answer}

theorem Waits.owns (h : Waits cfg store p reply q) (hp : p.Owns store) : q.Owns store := by
  cases h with
  | unsent => exact hp
  | mined hmined => exact ⟨⟨hp.1.row, hp.1.pos⟩, hp.2⟩
  | gaveUp => exact hp
  | _ => trivial

theorem Waits.release_id (h : Waits cfg store p reply q) :
    ∀ r' ∈ q.release?, ∃ r ∈ p.release?, r.id = r'.id := by
  intro r' hr'
  cases h with
  | unsent =>
      cases hr'
      exact ⟨_, rfl, rfl⟩
  | mined hmined =>
      cases hr'
      exact ⟨_, rfl, rfl⟩
  | gaveUp =>
      cases hr'
      exact ⟨_, rfl, rfl⟩
  | _ => cases hr'

theorem newRelease_stored {new : ReleaseId} {sid : SessionId} {dto : ReleaseEscrowDto}
    {amount : Amount} (hpos : 0 < amount.wei) :
    Stored (store.saveRelease (newRelease new sid dto amount)) (newRelease new sid dto amount) :=
  ⟨⟨_, Table.lookup_put_self _ _, rfl, rfl, rfl⟩, hpos⟩

/-- A row that is not there yet belongs to nobody. -/
theorem Process.Owns.id_ne {new : ReleaseId} (hq : q.Owns store)
    (hnew : Table.lookup EscrowRelease.id store.releases new = none) :
    ∀ r ∈ q.release?, r.id ≠ new := by
  intro r hr hEq
  rcases (hq.stored r hr).row with ⟨row, hrow, _⟩
  rw [hEq, hnew] at hrow
  cases hrow

/-- What a step keeps: each id once, and every call its own release. -/
structure KeepsRows (store store' : Store) (p : Process) (flow : Flow Process Answer) : Prop where
  keyed : Table.Keyed EscrowRelease.id store'.releases
  self : flow.Awaits (Process.Owns store')
  others : ∀ q : Process, q.Owns store → q.Apart p → q.Owns store' ∧ flow.Awaits q.Apart

/-- A step that writes no release, of a call that owns none afterwards. -/
theorem keepsRows_of_none (hkeyed : Table.Keyed EscrowRelease.id store.releases)
    (hEq : store'.releases = store.releases) (hself : flow.Awaits (Process.Owns store'))
    (hnone : flow.Awaits fun q => q.release? = none) : KeepsRows store store' p flow where
  keyed := by rw [hEq]; exact hkeyed
  self := hself
  others := by
    intro q hq _
    refine ⟨hq.of_releases hEq, ?_⟩
    cases flow with
    | await p' => exact Process.apart_of_none hnone
    | answer a => trivial

/-- A step that writes no release, of a call that keeps the one it owns. -/
theorem keepsRows_of_same {p' : Process} (hkeyed : Table.Keyed EscrowRelease.id store.releases)
    (hEq : store'.releases = store.releases) (hself : p'.Owns store')
    (hsame : ∀ r' ∈ p'.release?, ∃ r ∈ p.release?, r.id = r'.id) :
    KeepsRows store store' p (.await p') where
  keyed := by rw [hEq]; exact hkeyed
  self := hself
  others := fun _ hq hapart => ⟨hq.of_releases hEq, hapart.of_id hsame⟩

/-- A call saves the release it owns and is done with it. -/
theorem keepsRows_of_saved {entity : EscrowRelease}
    (hkeyed : Table.Keyed EscrowRelease.id store.releases) (hp : p.release? = some entity)
    (hself : flow.Awaits (Process.Owns (store.saveRelease entity)))
    (hnone : flow.Awaits fun q => q.release? = none) :
    KeepsRows store (store.saveRelease entity) p flow where
  keyed := Table.Keyed.put hkeyed
  self := hself
  others := by
    intro q hq hapart
    refine ⟨hq.of_stored fun r hr hstored => ?_, ?_⟩
    · exact hstored.saveRelease (fun hEq => hapart r hr entity hp hEq.symm)
    · cases flow with
      | await p' => exact Process.apart_of_none hnone
      | answer a => trivial

theorem Resumes.keepsRows (h : Resumes cfg id store p reply store' flow)
    (hkeyed : Table.Keyed EscrowRelease.id store.releases) (hp : p.Owns store) :
    KeepsRows store store' p flow := by
  cases h with
  | waits h => exact keepsRows_of_same hkeyed rfl (h.owns hp) h.release_id
  | ends h => exact keepsRows_of_none hkeyed rfl trivial trivial
  | inserts hnew =>
      exact keepsRows_of_none hkeyed rfl (afterOpen_awaits (fun _ _ _ => trivial) _ _)
        (afterOpen_awaits (fun _ _ _ => rfl) _ _)
  | locks hfree => exact keepsRows_of_none hkeyed rfl trivial rfl
  | exceeds => exact keepsRows_of_none hkeyed rfl trivial trivial
  | commits hnew =>
      exact keepsRows_of_none hkeyed rfl (afterOpen_awaits (fun _ _ _ => trivial) _ _)
        (afterOpen_awaits (fun _ _ _ => rfl) _ _)
  | sendsCall hnew => exact keepsRows_of_none hkeyed rfl trivial rfl
  | saves =>
      exact keepsRows_of_none hkeyed rfl (afterSave_awaits (fun _ _ _ => trivial) _ _ _ _)
        (afterSave_awaits (fun _ _ _ => rfl) _ _ _ _)
  | reserves hfind hok => exact keepsRows_of_none hkeyed rfl hp rfl
  | @insertsRelease sid dto amount new hnew =>
      -- the new row belongs to this call, since nobody could know its id before
      refine ⟨Table.Keyed.put hkeyed,
        afterInsert_of (A := Process.Owns _) ⟨newRelease_stored hp, rfl⟩ trivial cfg, ?_⟩
      intro q hq _
      have hfresh := hq.id_ne hnew
      refine ⟨hq.of_stored fun r hr hstored => hstored.saveRelease (Ne.symm (hfresh r hr)), ?_⟩
      refine afterInsert_of (A := q.Apart) ?_ (Process.apart_of_none rfl) cfg
      intro r hr r' hr'
      cases hr'
      exact hfresh r hr
  | paysOut hnew =>
      refine keepsRows_of_same hkeyed rfl ⟨hp.1.of_releases rfl, hp.2⟩ ?_
      intro r' hr'
      cases hr'
      exact ⟨_, rfl, rfl⟩
  | givesBack hfind hok =>
      refine keepsRows_of_same hkeyed rfl ⟨⟨hp.1.row, hp.1.pos⟩, rfl⟩ ?_
      intro r' hr'
      cases hr'
      exact ⟨_, rfl, rfl⟩
  | givesNothingBack hrefused =>
      refine keepsRows_of_same hkeyed rfl ⟨⟨hp.1.row, hp.1.pos⟩, rfl⟩ ?_
      intro r' hr'
      cases hr'
      exact ⟨_, rfl, rfl⟩
  | failed => exact keepsRows_of_saved hkeyed rfl trivial trivial
  | paid => exact keepsRows_of_saved hkeyed rfl trivial rfl
  | claims => exact keepsRows_of_none hkeyed rfl trivial trivial

theorem Happens.releases {e : Event} (h : Happens store e store') :
    store'.releases = store.releases := by
  cases h with
  | _ => rfl

theorem Starts.owns {r : Request} (h : Starts store r p) :
    p.Owns store ∧ p.release? = none := by
  cases h with
  | release hpaused hamount hpos => exact ⟨hpos, rfl⟩
  | _ => exact ⟨trivial, rfl⟩

end Steps

end Escrow
end PaymentRail
