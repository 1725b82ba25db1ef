import GraphRecords.Hook.Basic

/-!
# Calling a hook on many records

Calls start in record order while fewer than the bound are in flight, and may settle in any
order. A failed call ends the whole. The records are given back in their first order.
-/

namespace GraphRecords

/-- How many calls were started, and the most that were in flight at once. -/
structure HookReport where
  calls : Nat := 0
  peak : Nat := 0
  deriving Repr, DecidableEq, Inhabited

def HookReport.merge (a b : HookReport) : HookReport := ⟨a.calls + b.calls, max a.peak b.peak⟩

structure Fanout where
  waiting : List (Nat × Record)
  inFlight : List (Nat × HookCall) := []
  settled : List (Nat × Record) := []
  failure : Option HookError := none
  report : HookReport := {}

namespace Fanout

/-- Before the first call; each record goes with its position. -/
def ofRecords (records : List Record) : Fanout where
  waiting := records.zipIdx.map Prod.swap

/-- What can happen next: a call starts, or the call at some place among those in flight
settles. -/
inductive Move where
  | start
  | settle (place : Nat)
  deriving Repr, DecidableEq

def start? (hook : Hook) (bound : Nat) (state : Fanout) : Option Fanout :=
  match state.failure, state.waiting with
  | none, (position, record) :: rest =>
      if state.inFlight.length < max 1 bound then
        some { state with
          waiting := rest
          inFlight := state.inFlight ++ [(position, hook record)]
          report := state.report.merge ⟨1, state.inFlight.length + 1⟩ }
      else none
  | _, _ => none

def settle? (place : Nat) (state : Fanout) : Option Fanout :=
  match state.failure, state.inFlight[place]? with
  | none, some (position, call) =>
      match call.result with
      | .ok record =>
          some { state with
            inFlight := state.inFlight.eraseIdx place
            settled := state.settled ++ [(position, record)] }
      | .error failure => some { state with inFlight := [], failure := some failure }
  | _, _ => none

/-- The state after a move, if the move is possible. -/
def move? (hook : Hook) (bound : Nat) (state : Fanout) : Move → Option Fanout
  | .start => state.start? hook bound
  | .settle place => state.settle? place

/-- A schedule: a call that does not suspend settles at once, calls start while they may, and
else the oldest call settles. -/
def next? (bound : Nat) (state : Fanout) : Option Move :=
  match state.inFlight.findIdx? (fun entry => !entry.2.suspends) with
  | some place => some (.settle place)
  | none =>
      if !state.waiting.isEmpty && state.inFlight.length < max 1 bound then some .start
      else if state.inFlight.isEmpty then none
      else some (.settle 0)

/-- Follows the schedule for at most that many moves. -/
def follow (hook : Hook) (bound : Nat) : Nat → Fanout → Fanout
  | 0, state => state
  | moves + 1, state =>
      match (state.next? bound).bind (state.move? hook bound) with
      | some state => follow hook bound moves state
      | none => state

/-- The changed records in order of position, or the failure that ended the calls. -/
def outcome (state : Fanout) : Except HookError (List Record) :=
  match state.failure with
  | some failure => .error failure
  | none => .ok ((state.settled.mergeSort (fun a b => a.1 ≤ b.1)).map Prod.snd)

/-- Each record takes two moves. -/
def run (hook : Hook) (bound : Nat) (records : List Record) : Fanout :=
  follow hook bound (2 * records.length) (ofRecords records)

end Fanout

end GraphRecords
