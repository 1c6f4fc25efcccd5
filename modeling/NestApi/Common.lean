import NestApi.Utf16
import NestApi.OrderedMap
import Mathlib.Data.List.Basic
import Mathlib.Data.Rat.Defs
import Mathlib.Data.Rat.Floor

namespace NestApi

/-- What a handler throws to answer with a status. -/
structure HttpException where
  status : Nat
  message : String
  deriving DecidableEq

namespace HttpException

def badRequest (message : String) : HttpException := ⟨400, message⟩
def unauthorized (message : String) : HttpException := ⟨401, message⟩
def forbidden (message : String) : HttpException := ⟨403, message⟩
def notFound (message : String) : HttpException := ⟨404, message⟩
def conflict (message : String) : HttpException := ⟨409, message⟩
def preconditionFailed (message : String) : HttpException := ⟨412, message⟩
def preconditionRequired (message : String) : HttpException := ⟨428, message⟩

/-- What `AllExceptionsFilter` answers for anything thrown that names no status. -/
def internal : HttpException := ⟨500, "Internal server error"⟩

end HttpException

theorem bind_eq_ok {ε α β : Type} {first : Except ε α} {next : α → Except ε β} {result : β} :
    (first >>= next) = .ok result ↔ ∃ value, first = .ok value ∧ next value = .ok result := by
  cases first with
  | error =>
    constructor
    · intro returned
      cases returned
    · rintro ⟨value, returned, -⟩
      cases returned
  | ok value =>
    constructor
    · intro returned
      exact ⟨value, rfl, returned⟩
    · rintro ⟨other, same, returned⟩
      cases same
      exact returned

/-- The error classes the code tells apart with `instanceof`. -/
inductive ErrorClass where
  | outOfStock
  | unservicedDestination
  | paymentState
  | unretryable
  | other
  deriving DecidableEq

structure Thrown where
  kind : ErrorClass
  message : Utf16
  deriving DecidableEq

def Thrown.of (kind : ErrorClass) (message : String) : Thrown := ⟨kind, Utf16.ofString message⟩

/-- Thrown when code that needs a tenant runs with none in scope. -/
def missingTenantContextError (what : String) : Thrown :=
  .of .other (what ++ " ran with no tenant in scope. Every HTTP request is given one by " ++
    "tenantContextMiddleware; work that starts anywhere else — a queue job, a poller, a " ++
    "script — has to name the tenant it is acting for with runInTenant(tenantId, …).")

/-- The tenant in scope, or the error that names the caller. -/
def requireTenantId (what : String) : Option String → Except Thrown String
  | some tenantId => .ok tenantId
  | none => .error (missingTenantContextError what)

/-- What JSON can say. Numbers are the finite ones. -/
inductive JsonValue where
  | null
  | bool (value : Bool)
  | num (value : ℚ)
  | str (value : String)
  | arr (items : List JsonValue)
  | obj (fields : List (String × JsonValue))

/-- `Number.MAX_SAFE_INTEGER`. -/
def maxSafeInteger : Nat := 9007199254740991

/-- A JavaScript `Date`, as its milliseconds since the epoch. -/
abbrev Date := Int

/-- A message for a topic, over a type of texts, of bytes and of headers. -/
structure BrokerMessage (T B H : Type) where
  topic : T
  key : Option T
  value : B
  headers : H

structure BrokerRecord (T B H : Type) where
  key : Option T
  value : B
  headers : H
  timestamp : Date

namespace Json

def asRecord : JsonValue → Option (List (String × JsonValue))
  | .obj fields => some fields
  | _ => none

/-- `source?.[key]`. -/
def read (source : Option (List (String × JsonValue))) (key : String) : Option JsonValue :=
  source.bind (OrderedMap.getEntries key)

def readString (source : Option (List (String × JsonValue))) (key : String) : Option String :=
  match read source key with
  | some (.str value) => some value
  | _ => none

def readNumber (source : Option (List (String × JsonValue))) (key : String) : Option ℚ :=
  match read source key with
  | some (.num value) => some value
  | _ => none

end Json

/-- The knobs the retry ladder is built from. All milliseconds except `maxAttempts`. -/
structure BackoffPolicy where
  baseMs : Nat
  maxMs : Nat
  maxAttempts : Nat
  deriving DecidableEq

namespace Backoff

/-- Full jitter: `random` is the draw of the jitter source for this one delay. -/
def nextAttemptDelayMs (attempts : Nat) (policy : BackoffPolicy) (random : ℚ) : Option Int :=
  if policy.maxAttempts ≤ attempts then none
  else
    let exponent : Int := min ((attempts : Int) - 1) 30
    let ceiling : ℚ := min (policy.maxMs : ℚ) (policy.baseMs * 2 ^ exponent)
    some ⌊random * ceiling⌋

def nextAttemptAt (now : Date) (attempts : Nat) (policy : BackoffPolicy) (random : ℚ) :
    Option Date :=
  (nextAttemptDelayMs attempts policy random).map fun delay => now + delay

theorem nextAttemptAt_eq_none_iff (now : Date) (attempts : Nat) (policy : BackoffPolicy)
    (random : ℚ) : nextAttemptAt now attempts policy random = none ↔
      policy.maxAttempts ≤ attempts := by
  unfold nextAttemptAt nextAttemptDelayMs
  split <;> simp_all

theorem attempts_lt_of_nextAttemptAt {now retryAt : Date} {attempts : Nat}
    {policy : BackoffPolicy} {random : ℚ}
    (scheduled : nextAttemptAt now attempts policy random = some retryAt) :
    attempts < policy.maxAttempts := by
  by_contra spent
  have none := (nextAttemptAt_eq_none_iff now attempts policy random).mpr (by omega)
  rw [none] at scheduled
  cases scheduled

end Backoff

end NestApi
