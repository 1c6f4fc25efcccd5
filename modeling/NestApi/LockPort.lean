import NestApi.Common
import NestApi.Transition
import Mathlib.Data.Rat.Floor

/- Clock readings and durations are rational milliseconds, without the rounding of doubles. -/
namespace NestApi.Locking

def isSafeInteger (x : ℚ) : Bool := x.den = 1 ∧ x.num.natAbs ≤ maxSafeInteger

def mathRound (x : ℚ) : ℚ := ⌊x + 1 / 2⌋

structure LockAcquireOptions where
  ttlMs : ℚ
  waitMs : Option ℚ
  retryDelayMs : Option ℚ

inductive LockError where
  | notPositiveInteger (name : String) (value : ℚ)
  | notNonNegative (name : String) (value : ℚ)
  | fenceExceeded (token : Nat)
  deriving DecidableEq

inductive Request (Service Handle : Type) where
  | acquire (service : Service) (key : String) (options : LockAcquireOptions)
  | extend (handle : Handle) (ttlMs : ℚ)
  | release (handle : Handle)

inductive Answer (Handle : Type) where
  | handle (granted : Option Handle)
  | done (held : Bool)
  | threw (error : LockError)
  deriving DecidableEq

/-- An implementation of the port as a machine. A request starts a task, which events bring to its
answer. Each step reads the clock at most once. -/
structure DistributedLock where
  /-- The objects that callers make their requests of. -/
  Service : Type
  Handle : Type
  State : Type
  Event : Type
  initial : State
  /-- How many tasks were started, which is the number of the next one. -/
  tasks : State → Nat
  call : ℚ → Request Service Handle → State → State
  act : ℚ → Event → State → Option State
  answer : State → Nat → Option (Answer Handle)
  /-- No synchronous code of the implementation is between two readings of the clock. -/
  idle : State → Bool
  remainingMs : ℚ → Handle → State → ℚ
  fencingToken : Handle → State → Nat

namespace DistributedLock

variable (lock : DistributedLock)

/-- A lock and the clock that it reads. -/
structure World where
  clock : ℚ
  state : lock.State

inductive Action where
  | tick (reading : ℚ)
  | request (request : Request lock.Service lock.Handle)
  | event (event : lock.Event)

variable {lock}

def World.act (w : lock.World) : lock.Action → Option lock.World
  | .tick reading => if w.clock ≤ reading then some { w with clock := reading } else none
  | .request request =>
    if lock.idle w.state then some { w with state := lock.call w.clock request w.state } else none
  | .event event => (lock.act w.clock event w.state).map fun state => { w with state := state }

variable (lock) in
def World.start : lock.World := ⟨0, lock.initial⟩

inductive Moved (w : lock.World) : lock.Action → lock.World → Prop where
  | tick {reading} (later : w.clock ≤ reading) : Moved w (.tick reading) { w with clock := reading }
  | request (request : Request lock.Service lock.Handle) (idle : lock.idle w.state = true) :
      Moved w (.request request) { w with state := lock.call w.clock request w.state }
  | event {event state} (taken : lock.act w.clock event w.state = some state) :
      Moved w (.event event) { w with state := state }

theorem World.moved {w w' : lock.World} {a : lock.Action} (taken : w.act a = some w') :
    Moved w a w' := by
  cases a with
  | tick =>
    simp only [World.act, Option.ite_none_right_eq_some, Option.some.injEq] at taken
    exact taken.2 ▸ .tick taken.1
  | request request =>
    simp only [World.act, Option.ite_none_right_eq_some, Option.some.injEq] at taken
    exact taken.2 ▸ .request request taken.1
  | event =>
    simp only [World.act, Option.map_eq_some_iff] at taken
    obtain ⟨state, acted, same⟩ := taken
    exact same ▸ .event acted

end DistributedLock

end NestApi.Locking
