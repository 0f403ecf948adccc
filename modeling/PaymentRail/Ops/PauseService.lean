import Mathlib.Logic.Function.Basic
import PaymentRail.Machine.Calls

/-!
# PauseService — the emergency pause switch of one instance

This module embeds `ops/pause.service.ts` as a `Service`.  The switch is a row per scope in
`system_flags`, and a copy of it in memory that the checks read.

A wait for the database ends in two steps: the database executes the statement, and later its answer
arrives and the code goes on.  Between the two any other call may take a step, so the rows a `refresh`
is about to apply may be outdated by then.
-/

namespace PaymentRail
namespace Ops

open Machine

/-! ## Scopes and states -/

inductive PauseScope where
  | settlement
  | streaming
  deriving DecidableEq, Repr

def PauseScope.name : PauseScope → String
  | .settlement => "settlement"
  | .streaming => "streaming"

def pauseScopes : List PauseScope := [.settlement, .streaming]

inductive PauseSource where
  | api
  | env
  deriving DecidableEq, Repr

/-- Milliseconds. -/
abbrev Time := Nat

structure PauseState where
  paused : Bool
  /-- `env` when `EMERGENCY_PAUSE` forces it. -/
  source : Option PauseSource
  reason : Option String
  pausedBy : Option String
  pausedAt : Option Time
  deriving DecidableEq, Repr

/-- `NOT_PAUSED` -/
def notPaused : PauseState where
  paused := false
  source := none
  reason := none
  pausedBy := none
  pausedAt := none

/-- A value for some of the scopes: the rows of `system_flags`, or the map in memory. -/
abbrev Flags := PauseScope → Option PauseState

def Flags.paused (flags : Flags) (scope : PauseScope) : Bool := (flags scope).any (·.paused)

def Flags.set (flags : Flags) (scope : PauseScope) (value : PauseState) : Flags :=
  Function.update flags scope (some value)

structure Store where
  /-- The rows of `system_flags`. -/
  flags : Flags
  /-- `PauseService.state` -/
  state : Flags

/-- An instance that has just been started. -/
def Store.boot (flags : Flags) : Store where
  flags := flags
  state := fun _ => none

structure Config where
  /-- The scopes of `EMERGENCY_PAUSE`. -/
  forced : List PauseScope

namespace Config

def isPaused (cfg : Config) (store : Store) (scope : PauseScope) : Bool :=
  cfg.forced.contains scope || store.state.paused scope

def status (cfg : Config) (store : Store) (scope : PauseScope) : PauseState :=
  if cfg.forced.contains scope = true then
    { paused := true, source := some .env, reason := some "EMERGENCY_PAUSE", pausedBy := none
      pausedAt := none }
  else
    (store.state scope).getD notPaused

/-- The message of the 503, while the scope is paused. -/
def assertNotPaused (cfg : Config) (store : Store) (scope : PauseScope) : Except String Unit :=
  if cfg.isPaused store scope = true then
    let reason := (cfg.status store scope).reason.getD ""
    .error (scope.name ++ " is paused by the operator" ++ if reason = "" then "" else ": " ++ reason)
  else
    .ok ()

end Config

/-! ## Calls -/

inductive Request where
  | pause (scopes : List PauseScope) (reason actor : String) (now : Time)
  | resume (scopes : List PauseScope) (actor : String)
  | refresh
  deriving DecidableEq, Repr

inductive Answer where
  | status (settlement streaming : PauseState)
  | refreshed
  /-- An exception, with its HTTP status. -/
  | error (status : Nat) (message : String)
  deriving DecidableEq, Repr

inductive Reply where
  | done
  | failed (message : String)
  deriving DecidableEq, Repr

/-- What a call is waiting for. -/
inductive Process where
  /-- The loop of `pause` and `resume`: the scopes before `scope` are done, and `saved` says whether
  the database has executed the save of `scope`. -/
  | save (value : PauseState) (before : List PauseScope) (scope : PauseScope)
      (rest : List PauseScope) (saved : Bool)
  /-- `refresh`, with the rows the database has read for it. -/
  | find (rows : Option Flags)

def Config.answer (cfg : Config) (store : Store) : Answer :=
  .status (cfg.status store .settlement) (cfg.status store .streaming)

/-- The loop goes on with the scopes that are left. -/
def saveNext (cfg : Config) (store : Store) (value : PauseState) (before : List PauseScope) :
    List PauseScope → Flow Process Answer
  | [] => .answer (cfg.answer store)
  | scope :: rest => .await (.save value before scope rest false)

def start (cfg : Config) : Request → Store → Store × Flow Process Answer
  | .pause scopes reason actor now, store =>
      let value : PauseState :=
        { paused := true, source := some .api, reason := some reason, pausedBy := some actor
          pausedAt := some now }
      (store, saveNext cfg store value [] scopes)
  | .resume scopes _, store =>
      match scopes.filter cfg.forced.contains with
      | [] => (store, saveNext cfg store notPaused [] scopes)
      | forced =>
          (store, .answer (.error 409 (String.intercalate ", " (forced.map PauseScope.name) ++
            " is paused by EMERGENCY_PAUSE; remove it from the environment and restart")))
  | .refresh, store => (store, .await (.find none))

/-- What `refresh` takes from the rows it has read. -/
def refreshed (rows : Flags) : Flags := fun scope =>
  match rows scope with
  | some value => if value.paused = true then some value else some notPaused
  | none => some notPaused

def resume (cfg : Config) : Process → Reply → Store → Option (Store × Flow Process Answer)
  | .save value before scope rest false, .done, store =>
      some ({ store with flags := store.flags.set scope value },
        .await (.save value before scope rest true))
  -- effective here at once
  | .save value before scope rest true, .done, store =>
      let store := { store with state := store.state.set scope value }
      some (store, saveNext cfg store value (before ++ [scope]) rest)
  | .save _ _ _ _ _, .failed message, store => some (store, .answer (.error 500 message))
  | .find none, .done, store => some (store, .await (.find (some store.flags)))
  | .find (some rows), .done, store =>
      some ({ store with state := refreshed rows }, .answer .refreshed)
  -- on a database error the last known state is kept
  | .find _, .failed _, store => some (store, .answer .refreshed)

/-- The calls on one instance; no other instance writes the flags. -/
def service (cfg : Config) : Service Store Request Process Reply Answer Empty where
  start := start cfg
  resume := fun _ => resume cfg
  external := fun e => nomatch e

end Ops
end PaymentRail
