import Mathlib.Algebra.Order.Ring.Nat
import Mathlib.Logic.Function.Basic
import PaymentRail.Machine.Except

/-!
# Storage — programs over words in numbered slots

A program reads and writes one slot at a time, may throw, and leaves behind which slots it touched.
Values smaller than a slot are packed in the order in which they are declared: one that does not fit
into what is left of a slot begins the next.

- `pack` : where the values of a record lie
- `run_bind`, `run_load`, … : what a run that succeeds has read, written and touched
-/

namespace PaymentRail
namespace Machine
namespace Storage

/-! ## Packing -/

/-- Where a value lies: a slot, the first of its bytes there, counted from the low end, and how many
bytes it takes. -/
structure Place where
  slot : Nat
  offset : Nat
  size : Nat
  deriving DecidableEq

/-- A slot has 32 bytes. -/
def packFrom : Nat → Nat → List Nat → List Place
  | _, _, [] => []
  | slot, used, size :: sizes =>
      if used + size ≤ 32 then ⟨slot, used, size⟩ :: packFrom slot (used + size) sizes
      else ⟨slot + 1, 0, size⟩ :: packFrom (slot + 1) size sizes

def pack (sizes : List Nat) : List Place := packFrom 0 0 sizes

/-- The value at a place, out of the word in its slot. -/
def Place.read (place : Place) (word : Nat) : Nat := word / 256 ^ place.offset % 256 ^ place.size

/-! ## Programs -/

structure State (S : Type) where
  words : S → Nat
  touched : List S

variable {S : Type} {α β : Type}

abbrev Program (S : Type) (α : Type) := StateT (State S) (Except String) α

def load (slot : S) : Program S Nat := fun s =>
  .ok (s.words slot, { s with touched := s.touched ++ [slot] })

def store [DecidableEq S] (slot : S) (word : Nat) : Program S Unit := fun s =>
  .ok ((), { words := Function.update s.words slot word, touched := s.touched ++ [slot] })

/-- A computation that needs no storage. -/
def compute (x : Except String α) : Program S α := fun s => x.map fun a => (a, s)

theorem run_bind {x : Program S α} {f : α → Program S β} {s : State S} {r : β × State S} :
    (x >>= f) s = .ok r ↔ ∃ a s', x s = .ok (a, s') ∧ f a s' = .ok r := by
  change (x s >>= fun p => f p.1 p.2) = .ok r ↔ _
  rw [bind_eq_ok]
  constructor
  · rintro ⟨⟨a, s'⟩, hx, hf⟩
    exact ⟨a, s', hx, hf⟩
  · rintro ⟨a, s', hx, hf⟩
    exact ⟨(a, s'), hx, hf⟩

theorem run_pure {a : α} {s : State S} {r : α × State S} :
    (pure a : Program S α) s = .ok r ↔ (a, s) = r := by
  change Except.ok (a, s) = .ok r ↔ _
  simp

theorem run_load {slot : S} {s s' : State S} {word : Nat} :
    load slot s = .ok (word, s') ↔
      s.words slot = word ∧ { s with touched := s.touched ++ [slot] } = s' := by
  simp [load]

theorem run_store [DecidableEq S] {slot : S} {word : Nat} {s s' : State S} {u : Unit} :
    store slot word s = .ok (u, s') ↔
      { words := Function.update s.words slot word, touched := s.touched ++ [slot] } = s' := by
  simp [store]

theorem run_compute {x : Except String α} {a : α} {s s' : State S} :
    compute x s = .ok (a, s') ↔ x = .ok a ∧ s = s' := by
  cases x with
  | error e => simp [compute, Except.map]
  | ok b => simp [compute, Except.map]

end Storage
end Machine
end PaymentRail
