import Mathlib.Algebra.Order.Ring.Int
import Mathlib.Data.List.Chain
import Mathlib.Order.Lattice
import Mathlib.Tactic.Ring
import PaymentRail.Strings.Numeral

/-!
# StreamingV2 — streams priced by time

This module embeds `streaming/streaming-v2.service.ts` and `streaming/stream-mutations.ts`.  A stream
accrues by the whole second since its checkpoint, and every claim moves the checkpoint to its own
time: backwards too, and past the part of a second that it has not paid.  Times are what `Date` can
hold, so that the arithmetic of the source on them is exact.

- `play` : calls made one after the other
- `seconds`, `remainders` : the whole seconds that claims count, and the parts they leave out
- `span_eq` : both together are the time that has passed, if the clock never steps back
-/

namespace PaymentRail
namespace StreamingV2

open Strings

/-! ## Streams -/

/-- Times are milliseconds, amounts are wei. -/
structure Stream where
  id : Text
  ratePerSecond : Int
  startedAt : Int
  lastClaimAt : Int
  claimed : Int
  deriving DecidableEq, Repr

/-- `Math.max(0, Math.floor((now - lastClaimAt) / 1000))` -/
def elapsed (lastClaimAt now : Int) : Int := max 0 ((now - lastClaimAt) / 1000)

def accrued (stream : Stream) (now : Int) : Int :=
  elapsed stream.lastClaimAt now * stream.ratePerSecond

/-- The amount that is paid, and the stream with its new checkpoint. -/
def claim (stream : Stream) (now : Int) : Int × Stream :=
  let amount := accrued stream now
  (amount, { stream with lastClaimAt := now, claimed := stream.claimed + amount })

/-- What has accrued is settled at the old rate first. -/
def changeRate (stream : Stream) (newRate now : Int) : Stream :=
  let settled := elapsed stream.lastClaimAt now * stream.ratePerSecond
  { stream with ratePerSecond := newRate, lastClaimAt := now, claimed := stream.claimed + settled }

/-- The balance lives in the escrow on chain. -/
def topUp (stream : Stream) (_amount : Int) : Stream := stream

inductive Call where
  | claim (now : Int)
  | changeRate (newRate now : Int)
  | topUp (amount : Int)
  deriving DecidableEq, Repr

/-- What a call pays, and the stream it leaves.  Only a claim pays anything out. -/
def Call.apply (stream : Stream) : Call → Int × Stream
  | .claim now => StreamingV2.claim stream now
  | .changeRate newRate now => (0, StreamingV2.changeRate stream newRate now)
  | .topUp amount => (0, StreamingV2.topUp stream amount)

/-- Calls one after the other: the total they pay, and the last stream. -/
def play (stream : Stream) : List Call → Int × Stream
  | [] => (0, stream)
  | call :: calls =>
      let (amount, next) := call.apply stream
      let (paid, last) := play next calls
      (amount + paid, last)

/-- The total paid by claims at these times. -/
def paid (stream : Stream) (times : List Int) : Int := (play stream (times.map Call.claim)).1

/-! ## Seconds that are counted and remainders that are not -/

/-- The seconds counted from checkpoint to checkpoint. -/
def seconds (lastClaimAt : Int) : List Int → Int
  | [] => 0
  | now :: later => elapsed lastClaimAt now + seconds now later

/-- The parts of a second between the checkpoints. -/
def remainders (lastClaimAt : Int) : List Int → Int
  | [] => 0
  | now :: later => (now - lastClaimAt) % 1000 + remainders now later

/-- The clock never steps back behind the checkpoint. -/
def InTurn (lastClaimAt : Int) (times : List Int) : Prop :=
  List.IsChain (· ≤ ·) (lastClaimAt :: times)

theorem inTurn_cons {lastClaimAt now : Int} {later : List Int} :
    InTurn lastClaimAt (now :: later) ↔ lastClaimAt ≤ now ∧ InTurn now later :=
  List.isChain_cons_cons

theorem elapsed_of_le {lastClaimAt now : Int} (h : lastClaimAt ≤ now) :
    elapsed lastClaimAt now = (now - lastClaimAt) / 1000 :=
  max_eq_right (Int.ediv_nonneg (Int.sub_nonneg.2 h) (by decide))

theorem remainders_nonneg (lastClaimAt : Int) (times : List Int) : 0 ≤ remainders lastClaimAt times := by
  induction times generalizing lastClaimAt with
  | nil => exact Int.le_refl 0
  | cons now later ih =>
      have hpart : 0 ≤ (now - lastClaimAt) % 1000 := Int.emod_nonneg _ (by decide)
      exact Int.add_nonneg hpart (ih now)

/-- All the time up to the last claim is counted or left over. -/
theorem span_eq {lastClaimAt : Int} {times : List Int} (h : InTurn lastClaimAt times) :
    times.getLastD lastClaimAt - lastClaimAt =
      1000 * seconds lastClaimAt times + remainders lastClaimAt times := by
  induction times generalizing lastClaimAt with
  | nil => simp [seconds, remainders]
  | cons now later ih =>
      rcases inTurn_cons.1 h with ⟨hle, hlater⟩
      have hgap : now - lastClaimAt =
          1000 * ((now - lastClaimAt) / 1000) + (now - lastClaimAt) % 1000 :=
        (Int.mul_ediv_add_emod _ _).symm
      have hrest := ih hlater
      rw [List.getLastD_cons, seconds, remainders, elapsed_of_le hle]
      omega

/-- The remainders of several claims may complete further seconds. -/
theorem seconds_eq {lastClaimAt : Int} {times : List Int} (h : InTurn lastClaimAt times) :
    seconds lastClaimAt times =
      (times.getLastD lastClaimAt - lastClaimAt) / 1000 - remainders lastClaimAt times / 1000 := by
  have hspan := span_eq h
  -- both sides are counted in thousands
  omega

/-! ## What a run of calls pays -/

theorem paid_cons (stream : Stream) (now : Int) (later : List Int) :
    paid stream (now :: later) = accrued stream now + paid (claim stream now).2 later := rfl

theorem paid_eq (stream : Stream) (times : List Int) :
    paid stream times = stream.ratePerSecond * seconds stream.lastClaimAt times := by
  induction times generalizing stream with
  | nil => exact (Int.mul_zero _).symm
  | cons now later ih =>
      have hrest : paid (claim stream now).2 later = stream.ratePerSecond * seconds now later :=
        ih (claim stream now).2
      rw [paid_cons, hrest, accrued, seconds]
      -- the rate is a common factor of all claims
      ring

/-- When a call moves the checkpoint. -/
def Call.time : Call → Option Int
  | .claim now => some now
  | .changeRate _ now => some now
  | .topUp _ => none

/-- A call after which the rate is still this one. -/
def Call.Keeps (rate : Int) : Call → Prop
  | .changeRate newRate _ => newRate = rate
  | _ => True

/-- A change to the same rate counts into `claimed` as a claim does. -/
theorem claimed_play {stream : Stream} {calls : List Call}
    (h : ∀ call ∈ calls, call.Keeps stream.ratePerSecond) :
    (play stream calls).2.claimed =
      stream.claimed +
        stream.ratePerSecond * seconds stream.lastClaimAt (calls.filterMap Call.time) := by
  induction calls generalizing stream with
  | nil => simp [play, seconds]
  | cons call calls ih =>
      rcases List.forall_mem_cons.1 h with ⟨hcall, hcalls⟩
      cases call with
      | claim now =>
          have hrest := @ih (claim stream now).2 hcalls
          show (play (claim stream now).2 calls).2.claimed = _
          rw [hrest, List.filterMap_cons_some (show Call.time (.claim now) = some now from rfl), seconds]
          simp only [claim, accrued]
          ring
      | changeRate newRate now =>
          have hrate : newRate = stream.ratePerSecond := hcall
          have hrest := @ih (changeRate stream newRate now) (by rw [hrate]; exact hcalls)
          show (play (changeRate stream newRate now) calls).2.claimed = _
          rw [hrest,
            List.filterMap_cons_some (show Call.time (.changeRate newRate now) = some now from rfl),
            seconds, hrate]
          simp only [changeRate]
          ring
      | topUp amount =>
          show (play stream calls).2.claimed = _
          rw [ih hcalls, List.filterMap_cons_none (show Call.time (.topUp amount) = none from rfl)]

theorem keeps_claims (rate : Int) (times : List Int) :
    ∀ call ∈ times.map Call.claim, call.Keeps rate := by
  intro call hcall
  rcases List.mem_map.1 hcall with ⟨now, _, rfl⟩
  trivial

@[simp] theorem time_claims (times : List Int) :
    (times.map Call.claim).filterMap Call.time = times := by
  rw [List.filterMap_map]
  exact List.filterMap_some

/-! ## No second is paid twice -/

/-- The latest of these times. -/
def latest (startedAt : Int) (times : List Int) : Int := times.foldl max startedAt

theorem getLastD_le_latest (startedAt : Int) (times : List Int) :
    times.getLastD startedAt ≤ latest startedAt times := by
  -- the maximum may have started above the first time already
  have hlast : ∀ (times : List Int) (a b : Int), a ≤ b → times.getLastD a ≤ times.foldl max b := by
    intro times
    induction times with
    | nil => exact fun a b hab => hab
    | cons now later ih =>
        intro a b _
        rw [List.getLastD_cons]
        exact ih now (max b now) (le_max_right b now)
  exact hlast times startedAt startedAt (Int.le_refl _)

/-- As long as no claim is made at a time before the checkpoint, the claims made so far have paid no
more than the seconds since the start. -/
theorem no_second_paid_twice {stream : Stream} (hstart : stream.lastClaimAt = stream.startedAt)
    (hclaimed : stream.claimed = 0) (hrate : 0 ≤ stream.ratePerSecond) {times : List Int}
    (hturn : InTurn stream.lastClaimAt times) {made : List Int} (hmade : made <+: times) :
    paid stream made ≤
        stream.ratePerSecond * ((latest stream.startedAt made - stream.startedAt) / 1000) ∧
      (play stream (made.map Call.claim)).2.claimed = paid stream made := by
  have hmadeTurn : InTurn stream.lastClaimAt made := by
    rcases hmade with ⟨rest, rfl⟩
    have hchain : List.IsChain _ ((stream.lastClaimAt :: made) ++ rest) := hturn
    exact hchain.left_of_append
  constructor
  · -- the counted seconds and the remainders make up the time since the start
    have hspan := span_eq hmadeTurn
    have hrest := remainders_nonneg stream.lastClaimAt made
    have hlatest := getLastD_le_latest stream.startedAt made
    rw [hstart] at hspan hrest
    have hseconds : seconds stream.startedAt made ≤
        (latest stream.startedAt made - stream.startedAt) / 1000 := by
      omega
    rw [paid_eq, hstart]
    exact Int.mul_le_mul_of_nonneg_left hseconds hrate
  · rw [claimed_play (keeps_claims _ made), time_claims, hclaimed, paid_eq, Int.zero_add]

def sampleStream : Stream where
  id := ['s']
  ratePerSecond := 5
  startedAt := 0
  lastClaimAt := 0
  claimed := 0

/-- Two claims, the second one a second and a half after the first. -/
theorem no_second_paid_twice_sampleStream :
    paid sampleStream [1000, 2500] = 10 ∧
      paid sampleStream [1000, 2500] ≤ 5 * ((latest 0 [1000, 2500] - 0) / 1000) := by
  have hturn : InTurn sampleStream.lastClaimAt [1000, 2500] := by
    unfold InTurn
    decide
  exact ⟨by decide,
    (@no_second_paid_twice sampleStream rfl rfl (by decide) _ hturn _ List.prefix_rfl).1⟩

/-- A claim at the start of the stream moves the checkpoint back, and the ten seconds that were paid
are paid again. -/
theorem clock_back_pays_again :
    ¬ ∀ (stream : Stream) (times : List Int), stream.lastClaimAt = stream.startedAt →
      stream.claimed = 0 →
      paid stream times ≤
        stream.ratePerSecond * ((latest stream.startedAt times - stream.startedAt) / 1000) := by
  intro h
  have hpaid := h sampleStream [10000, 0, 10000] rfl rfl
  exact absurd hpaid (by decide)

/-! ## How often a stream is claimed -/

/-- Claims at times that do not step back, the last one at `T`. -/
structure Schedule (lastClaimAt : Int) (times : List Int) (T : Int) : Prop where
  inTurn : InTurn lastClaimAt times
  last : times.getLastD lastClaimAt = T

/-- The whole seconds that the claims of a schedule leave out. -/
def lostSeconds (lastClaimAt : Int) (times : List Int) : Int := remainders lastClaimAt times / 1000

theorem Schedule.seconds_eq {lastClaimAt T : Int} {times : List Int}
    (h : Schedule lastClaimAt times T) :
    seconds lastClaimAt times = (T - lastClaimAt) / 1000 - lostSeconds lastClaimAt times := by
  rw [StreamingV2.seconds_eq h.inTurn, h.last, lostSeconds]

/-- Two schedules of one stream count the same unless they lose a different number of seconds. -/
theorem mul_seconds_eq_iff {rate lastClaimAt T : Int} {a b : List Int} (ha : Schedule lastClaimAt a T)
    (hb : Schedule lastClaimAt b T) :
    rate * seconds lastClaimAt a = rate * seconds lastClaimAt b ↔
      rate = 0 ∨ lostSeconds lastClaimAt a = lostSeconds lastClaimAt b := by
  by_cases hrate : rate = 0
  · simp [hrate]
  · rw [Int.mul_eq_mul_left_iff hrate, ha.seconds_eq, hb.seconds_eq]
    omega

/-- Claiming more often pays less only where the remainders of the claims add up to whole seconds; and
the same goes for a change to the rate the stream already has. -/
theorem paid_by_schedule (stream : Stream) {T : Int} {a b : List Int}
    (ha : Schedule stream.lastClaimAt a T) (hb : Schedule stream.lastClaimAt b T) :
    paid stream a = stream.ratePerSecond *
        ((T - stream.lastClaimAt) / 1000 - lostSeconds stream.lastClaimAt a) ∧
      (paid stream a = paid stream b ↔
        stream.ratePerSecond = 0 ∨
          lostSeconds stream.lastClaimAt a = lostSeconds stream.lastClaimAt b) ∧
      ∀ before after now, a = before ++ after →
        Schedule stream.lastClaimAt (before ++ now :: after) T →
        ((play stream (before.map Call.claim ++
              Call.changeRate stream.ratePerSecond now :: after.map Call.claim)).2.claimed =
            (play stream (a.map Call.claim)).2.claimed ↔
          stream.ratePerSecond = 0 ∨
            lostSeconds stream.lastClaimAt (before ++ now :: after) =
              lostSeconds stream.lastClaimAt a) := by
  refine ⟨?_, ?_, ?_⟩
  · rw [paid_eq, ha.seconds_eq]
  · rw [paid_eq, paid_eq]
    exact mul_seconds_eq_iff ha hb
  · intro before after now hsplit hinserted
    -- the change counts like one more claim among the others
    have hkeeps : ∀ call ∈ before.map Call.claim ++
        Call.changeRate stream.ratePerSecond now :: after.map Call.claim,
        call.Keeps stream.ratePerSecond := by
      intro call hcall
      rcases List.mem_append.1 hcall with hbefore | hrest
      · exact keeps_claims _ before call hbefore
      · rcases List.mem_cons.1 hrest with rfl | hafter
        · rfl
        · exact keeps_claims _ after call hafter
    have htimes : (before.map Call.claim ++
        Call.changeRate stream.ratePerSecond now :: after.map Call.claim).filterMap Call.time =
        before ++ now :: after := by
      rw [List.filterMap_append, time_claims, List.filterMap_cons_some
        (show Call.time (.changeRate stream.ratePerSecond now) = some now from rfl), time_claims]
    rw [claimed_play hkeeps, claimed_play (keeps_claims _ a), htimes, time_claims, Int.add_right_inj]
    exact mul_seconds_eq_iff hinserted ha

/-- Claims at 1.5 and 3 seconds lose one second against a single claim. -/
theorem paid_by_schedule_sampleStream :
    paid sampleStream [3000] = 15 ∧ paid sampleStream [1500, 3000] = 5 * (3 - 1) := by
  have hone : Schedule 0 [3000] 3000 := ⟨by unfold InTurn; decide, rfl⟩
  have htwo : Schedule 0 [1500, 3000] 3000 := ⟨by unfold InTurn; decide, rfl⟩
  exact ⟨(paid_by_schedule sampleStream hone htwo).1, (paid_by_schedule sampleStream htwo hone).1⟩

/-- Two claims half a second apart pay nothing for a second that one claim pays. -/
theorem frequent_claims_pay_less :
    ¬ ∀ (stream : Stream) (T : Int) (a b : List Int), Schedule stream.lastClaimAt a T →
      Schedule stream.lastClaimAt b T → paid stream a = paid stream b := by
  intro h
  have hone : Schedule 0 [1000] 1000 := ⟨by unfold InTurn; decide, rfl⟩
  have htwo : Schedule 0 [500, 1000] 1000 := ⟨by unfold InTurn; decide, rfl⟩
  exact absurd (h sampleStream 1000 _ _ hone htwo) (by decide)

end StreamingV2
end PaymentRail
