import PaymentRail.Machine.Calls

/-!
# Locks — exclusive locks of transactions

A transaction takes a lock under a key and has it until the transaction ends.  Nobody else gets the
key meanwhile: `acquire` is not enabled, so the call waits.
-/

namespace PaymentRail
namespace Machine

open Collections

/-- The keys that are taken, each with the call whose transaction has it. -/
abbrev Locks (κ : Type) := List (κ × CallId)

namespace Locks

variable {κ : Type} [DecidableEq κ]

def holder (locks : Locks κ) (key : κ) : Option CallId :=
  (Table.lookup Prod.fst locks key).map Prod.snd

def acquire (locks : Locks κ) (key : κ) (id : CallId) : Option (Locks κ) :=
  if locks.holder key = none then some (Table.put Prod.fst locks (key, id)) else none

omit [DecidableEq κ] in
/-- The transaction of the call has ended. -/
def release (locks : Locks κ) (id : CallId) : Locks κ := locks.filter fun entry => entry.2 ≠ id

variable {locks locks' : Locks κ} {key other : κ} {id k : CallId}

theorem holder_acquire_self (h : locks.acquire key id = some locks') :
    locks'.holder key = some id := by
  unfold acquire at h
  split at h
  · cases h
    have hself : Table.lookup Prod.fst (Table.put Prod.fst locks (key, id)) key = some (key, id) :=
      Table.lookup_put_self locks (key, id)
    rw [holder, hself]
    rfl
  · cases h

/-- A lock that is taken stays with its holder when another one is acquired. -/
theorem holder_acquire (h : locks.acquire key id = some locks') (hk : locks.holder other = some k) :
    locks'.holder other = some k := by
  unfold acquire at h
  split at h
  · rename_i hfree
    cases h
    have hne : key ≠ other := by
      rintro rfl
      rw [hfree] at hk
      cases hk
    rw [holder, Table.lookup_put_of_ne locks (key, id) hne]
    exact hk
  · cases h

/-- A lock that is taken stays with its holder when another transaction ends. -/
theorem holder_release (hk : locks.holder key = some k) (hne : k ≠ id) :
    (locks.release id).holder key = some k := by
  induction locks with
  | nil => cases hk
  | cons entry rest ih =>
      by_cases hkey : entry.1 = key
      · have hentry : entry.2 = k := by simpa [holder, Table.lookup, hkey] using hk
        have hkeep : entry.2 ≠ id := by rwa [hentry]
        have hcons : release (entry :: rest) id = entry :: release rest id :=
          List.filter_cons_of_pos (by simpa using hkeep)
        rw [hcons]
        simp [holder, Table.lookup, hkey, hentry]
      · have hrest : Locks.holder rest key = some k := by
          simpa [holder, Table.lookup, hkey] using hk
        have hkept := ih hrest
        by_cases hdrop : entry.2 = id
        · simpa [holder, release, hdrop] using hkept
        · simpa [holder, Table.lookup, release, hdrop, hkey] using hkept

end Locks

end Machine
end PaymentRail
