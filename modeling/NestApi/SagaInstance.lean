import NestApi.Common
import NestApi.Utf16

namespace NestApi.Saga

/-- A JSON object, its keys in the order in which they were first written. -/
abbrev SagaState := List (String × JsonValue)

/-- A step's contribution. `none` is JavaScript's `undefined`, which is not written. -/
abbrev SagaStatePatch := List (String × Option JsonValue)

def SagaState.get (state : SagaState) (key : String) : Option JsonValue :=
  OrderedMap.getEntries key state

/-- `merged[key] = value`. -/
def SagaState.set (key : String) (value : JsonValue) (state : SagaState) : SagaState :=
  OrderedMap.setEntries key value state

theorem SagaState.get_set (state : SagaState) (key other : String) (value : JsonValue) :
    (SagaState.set key value state).get other =
      if other = key then some value else state.get other :=
  OrderedMap.getEntries_setEntries state key other value

inductive SagaStatus where
  | running
  | compensating
  | completed
  | compensated
  | stuck
  deriving DecidableEq

def isTerminal : SagaStatus → Bool
  | .completed | .compensated | .stuck => true
  | .running | .compensating => false

inductive SagaDirection where
  | forward
  | backward
  deriving DecidableEq

inductive SagaStepOutcome where
  | completed
  | failed
  | skipped
  deriving DecidableEq

structure SagaStepLogEntry where
  step : String
  direction : SagaDirection
  outcome : SagaStepOutcome
  loggedAt : Date
  attempt : Nat
  error : Option Utf16
  deriving DecidableEq

/-- One persisted instance. The cursor is the step the saga is at, and goes to `-1` when
the first step has been undone. -/
structure SagaInstanceRecord where
  id : String
  name : String
  status : SagaStatus
  cursor : Int
  attempts : Nat
  nextAttemptAt : Date
  state : SagaState
  log : List SagaStepLogEntry
  lastError : Option Utf16
  correlationId : Option String
  lockedBy : Option String
  lockedUntil : Option Date
  createdAt : Date
  updatedAt : Date

structure NewSagaInstance where
  id : String
  name : String
  state : SagaState
  correlationId : Option String

/-- One advance's worth of change, written in a single statement. -/
structure SagaProgress where
  status : SagaStatus
  cursor : Int
  attempts : Nat
  nextAttemptAt : Date
  state : SagaState
  entry : SagaStepLogEntry
  lastError : Option Utf16
  release : Bool

end NestApi.Saga
