import NestApi.LockOwnership
import Mathlib.Data.Fintype.Card

namespace NestApi

/-- The smallest number of `n` parties of which any two groups share a member. -/
def quorum (n : Nat) : Nat := n / 2 + 1

/-- `p` holds at a quorum of the parties. -/
def Majority {n : Nat} (p : Fin n → Prop) : Prop :=
  ∃ members : Finset (Fin n), quorum n ≤ members.card ∧ ∀ k ∈ members, p k

variable {n : Nat} {p q : Fin n → Prop}

theorem Majority.mono (weaker : ∀ k, p k → q k) (most : Majority p) : Majority q := by
  obtain ⟨members, enough, each⟩ := most
  exact ⟨members, enough, fun k mem => weaker k (each k mem)⟩

theorem Majority.meet (first : Majority p) (second : Majority q) : ∃ k, p k ∧ q k := by
  obtain ⟨left, leftEnough, eachLeft⟩ := first
  obtain ⟨right, rightEnough, eachRight⟩ := second
  have crowded : (Finset.univ : Finset (Fin n)).card < left.card + right.card := by
    rw [Finset.card_univ, Fintype.card_fin]
    simp only [quorum] at leftEnough rightEnough
    omega
  obtain ⟨k, mem⟩ := Finset.inter_nonempty_of_card_lt_card_add_card
    (Finset.subset_univ left) (Finset.subset_univ right) crowded
  have both := Finset.mem_inter.mp mem
  exact ⟨k, eachLeft k both.1, eachRight k both.2⟩

theorem majority_of_filter {test : Fin n → Bool}
    (enough : quorum n ≤ ((List.finRange n).filter test).length)
    (each : ∀ k, test k = true → p k) : Majority p := by
  refine ⟨((List.finRange n).filter test).toFinset, ?_, ?_⟩
  · rw [List.toFinset_card_of_nodup ((List.nodup_finRange n).filter _)]
    exact enough
  · intro k mem
    apply each
    exact (List.mem_filter.mp (List.mem_toFinset.mp mem)).2

end NestApi

/- `RedlockService` over `n` nodes. The random value of an attempt is its number, so no two attempts
draw the same one. -/
namespace NestApi.Locking.Redlock

def keyPrefix : String := "redlock:lock:"

def lockKey (key : String) : String := keyPrefix ++ key

structure Lease where
  value : Nat
  expiresAt : ℚ

structure Node where
  locks : String → Option Lease
  fence : Nat

inductive Script where
  | acquire (lockKey : String) (value : Nat) (ttlMs : ℚ)
  | bumpFence (token : Nat)
  | release (lockKey : String) (value : Nat)
  | extend (lockKey : String) (value : Nat) (ttlMs : ℚ)

/-- The largest number that a counter of Redis can have. -/
def maxCounter : Nat := 2 ^ 63 - 1

namespace Node

/-- `GET`, which does not see a key whose time has come. -/
def get (now : ℚ) (lockKey : String) (node : Node) : Option Nat :=
  (node.locks lockKey).bind fun lease => if now < lease.expiresAt then some lease.value else none

def put (lockKey : String) (lease : Option Lease) (node : Node) : Node :=
  { node with locks := Function.update node.locks lockKey lease }

def run (now : ℚ) (node : Node) : Script → Node × Option Int
  | .acquire lockKey value ttlMs =>
    if (node.get now lockKey).isSome then (node, some (-1))
    -- `INCR` fails at the largest counter, when the key has been set.
    else if node.fence < maxCounter then
      ({ node.put lockKey (some ⟨value, now + ttlMs⟩) with fence := node.fence + 1 },
        some (node.fence + 1))
    else (node.put lockKey (some ⟨value, now + ttlMs⟩), none)
  | .bumpFence token =>
    (if node.fence < token then { node with fence := token } else node, some 1)
  | .release lockKey value =>
    if node.get now lockKey = some value then (node.put lockKey none, some 1)
    else (node, some 0)
  | .extend lockKey value ttlMs =>
    if node.get now lockKey = some value then
      (node.put lockKey (some ⟨value, now + ttlMs⟩), some 1)
    else (node, some 0)

end Node

structure RedlockOptions where
  driftFactor : ℚ
  driftConstantMs : ℚ
  retryDelayMs : ℚ

def defaults : RedlockOptions := ⟨1 / 100, 2, 100⟩

def drift (options : RedlockOptions) (ttlMs : ℚ) : ℚ :=
  mathRound (ttlMs * options.driftFactor) + options.driftConstantMs

/-- What is left of a lease that was asked for at `start`. -/
def validity (options : RedlockOptions) (ttlMs start now : ℚ) : ℚ :=
  ttlMs - (now - start) - drift options ttlMs

/-- One script sent to every node, and what each node that has run it replied. -/
structure Round (n : Nat) where
  script : Script
  answers : Fin n → Option (Option Int)

/-- What the loop of `acquire` keeps. -/
structure Loop where
  service : RedlockOptions
  key : String
  ttlMs : ℚ
  deadline : ℚ
  retryDelayMs : ℚ

/-- Where a request stands. A place with a round waits for its replies, and one with `readAt` has
read the validity then. -/
inductive Task where
  | attempting (loop : Loop)
  | claiming (loop : Loop) (value : Nat) (start : ℚ) (round : Nat)
  | publishing (loop : Loop) (value : Nat) (start : ℚ) (token : Nat) (round : Nat)
  | granting (loop : Loop) (value : Nat) (start : ℚ) (token : Nat) (readAt : ℚ)
  | withdrawing (loop : Loop) (error : Option LockError) (round : Nat)
  | waiting (loop : Loop)
  | sleeping (loop : Loop) (wakes : ℚ)
  | extending (handle : Nat) (ttlMs start : ℚ) (round : Nat)
  | prolonging (handle : Nat) (ttlMs start readAt : ℚ)
  | abandoning (handle : Nat) (round : Nat)
  | releasing (handle : Nat) (round : Nat)
  | done (answer : Answer Nat)

structure Handle where
  service : RedlockOptions
  key : String
  value : Nat
  fencingToken : Nat
  expiry : ℚ
  live : Bool

structure State (n : Nat) where
  nodes : Fin n → Node
  rounds : List (Round n)
  tasks : List Task
  handles : List Handle
  attempts : Nat

inductive Event (n : Nat) where
  /-- A node runs the script of a round. -/
  | apply (round : Nat) (node : Fin n)
  /-- A task has waited for every node: for its reply, if it is heard, or for its timeout. -/
  | resume (task : Nat) (heard : Fin n → Bool)
  /-- A task goes on that waits for no node, with what `random()` returns. -/
  | step (task : Nat) (random : ℚ)

def isClaim (reply : Option Int) : Bool := reply.any fun value => 0 < value

def isOne (reply : Option Int) : Bool := reply == some 1

variable {n : Nat}

def Round.replies (heard : Fin n → Bool) (round : Round n) (node : Fin n) : Option Int :=
  if heard node then (round.answers node).getD none else none

def passing (test : Option Int → Bool) (replies : Fin n → Option Int) : List (Fin n) :=
  (List.finRange n).filter fun node => test (replies node)

def highest (votes : Fin n → Option Int) : Nat :=
  (((passing isClaim votes).map fun node => ((votes node).getD 0).toNat).max?).getD 0

namespace State

def send (script : Script) (s : State n) : State n :=
  { s with rounds := s.rounds ++ [⟨script, fun _ => none⟩] }

def push (task : Task) (s : State n) : State n := { s with tasks := s.tasks ++ [task] }

def setHandle (handle : Nat) (update : Handle → Handle) (s : State n) : State n :=
  { s with handles := s.handles.modify handle update }

def call (now : ℚ) (s : State n) : Request RedlockOptions Nat → State n
  | .acquire service key options =>
    if isSafeInteger options.ttlMs = false ∨ options.ttlMs ≤ 0 then
      s.push (.done (.threw (.notPositiveInteger "ttlMs" options.ttlMs)))
    else if options.waitMs.getD 0 < 0 then
      s.push (.done (.threw (.notNonNegative "waitMs" (options.waitMs.getD 0))))
    else if options.retryDelayMs.getD 0 < 0 then
      s.push (.done (.threw (.notNonNegative "retryDelayMs" (options.retryDelayMs.getD 0))))
    else
      s.push (.attempting ⟨service, key, options.ttlMs, now + options.waitMs.getD 0,
        options.retryDelayMs.getD service.retryDelayMs⟩)
  | .extend handle ttlMs =>
    if isSafeInteger ttlMs = false ∨ ttlMs ≤ 0 then
      s.push (.done (.threw (.notPositiveInteger "ttlMs" ttlMs)))
    else
      match s.handles[handle]? with
      | none => s.push (.done (.done false))
      | some h =>
        if h.live then
          (s.send (.extend (lockKey h.key) h.value ttlMs)).push
            (.extending handle ttlMs now s.rounds.length)
        else s.push (.done (.done false))
  | .release handle =>
    match s.handles[handle]? with
    | none => s.push (.done (.done false))
    | some h =>
      if h.live then
        ((s.setHandle handle fun h => { h with live := false }).send
          (.release (lockKey h.key) h.value)).push (.releasing handle s.rounds.length)
      else s.push (.done (.done false))

def resume (now : ℚ) (heard : Fin n → Bool) (s : State n) : Task → Option (State n × Task)
  | .claiming loop value start round =>
    (s.rounds[round]?).bind fun sent =>
      let votes := sent.replies heard
      if (passing isClaim votes).length < quorum n ∨
          validity loop.service loop.ttlMs start now ≤ 0 then
        some (s.send (.release (lockKey loop.key) value), .withdrawing loop none s.rounds.length)
      else if maxSafeInteger < highest votes then
        some (s.send (.release (lockKey loop.key) value),
          .withdrawing loop (some (.fenceExceeded (highest votes))) s.rounds.length)
      else
        some (s.send (.bumpFence (highest votes)),
          .publishing loop value start (highest votes) s.rounds.length)
  | .publishing loop value start token round =>
    (s.rounds[round]?).bind fun sent =>
      if (passing isOne (sent.replies heard)).length < quorum n ∨
          validity loop.service loop.ttlMs start now ≤ 0 then
        some (s.send (.release (lockKey loop.key) value), .withdrawing loop none s.rounds.length)
      else some (s, .granting loop value start token now)
  | .withdrawing loop none _ => some (s, .waiting loop)
  | .withdrawing _ (some error) _ => some (s, .done (.threw error))
  | .extending handle ttlMs start round =>
    (s.rounds[round]?).bind fun sent => (s.handles[handle]?).bind fun h =>
      if (passing isOne (sent.replies heard)).length < quorum n ∨
          validity h.service ttlMs start now ≤ 0 then
        some (s.send (.release (lockKey h.key) h.value), .abandoning handle s.rounds.length)
      else some (s, .prolonging handle ttlMs start now)
  | .abandoning handle _ =>
    some (s.setHandle handle fun h => { h with live := false, expiry := now }, .done (.done false))
  | .releasing handle round =>
    (s.rounds[round]?).bind fun sent =>
      some (s.setHandle handle fun h => { h with expiry := now },
        .done (.done (quorum n ≤ (passing isOne (sent.replies heard)).length)))
  | .attempting _ | .granting _ _ _ _ _ | .waiting _ | .sleeping _ _ | .prolonging _ _ _ _
  | .done _ => none

def step (now random : ℚ) (s : State n) : Task → Option (State n × Task)
  | .attempting loop =>
    some ({ s.send (.acquire (lockKey loop.key) s.attempts loop.ttlMs) with
      attempts := s.attempts + 1 }, .claiming loop s.attempts now s.rounds.length)
  | .granting loop value start token readAt =>
    some ({ s with
      handles := s.handles ++ [⟨loop.service, loop.key, value, token,
        now + validity loop.service loop.ttlMs start readAt, true⟩] },
      .done (.handle (some s.handles.length)))
  | .waiting loop =>
    if loop.deadline - now ≤ 0 then some (s, .done (.handle none))
    else
      some (s, .sleeping loop
        (now + min (loop.deadline - now) (mathRound (loop.retryDelayMs * random))))
  | .sleeping loop wakes => if wakes ≤ now then some (s, .attempting loop) else none
  | .prolonging handle ttlMs start readAt =>
    some (s.setHandle handle fun h =>
      { h with expiry := now + validity h.service ttlMs start readAt }, .done (.done true))
  | .claiming _ _ _ _ | .publishing _ _ _ _ _ | .withdrawing _ _ _ | .extending _ _ _ _
  | .abandoning _ _ | .releasing _ _ | .done _ => none

def applied (now : ℚ) (round : Nat) (node : Fin n) (sent : Round n) (s : State n) : State n :=
  let ran := (s.nodes node).run now sent.script
  { s with
    nodes := Function.update s.nodes node ran.1
    rounds := s.rounds.set round
      { sent with answers := Function.update sent.answers node (some ran.2) } }

def advance (task : Nat) (go : Task → Option (State n × Task)) (s : State n) : Option (State n) :=
  (s.tasks[task]?).bind fun current =>
    (go current).map fun next => { next.1 with tasks := s.tasks.set task next.2 }

def act (now : ℚ) (event : Event n) (s : State n) : Option (State n) :=
  match event with
  | .apply round node =>
    (s.rounds[round]?).bind fun sent =>
      if sent.answers node = none then some (s.applied now round node sent) else none
  | .resume task heard => s.advance task (s.resume now heard)
  | .step task random => s.advance task (s.step now random)

def answer (s : State n) (task : Nat) : Option (Answer Nat) :=
  match s.tasks[task]? with
  | some (.done answer) => some answer
  | _ => none

def remainingMs (now : ℚ) (handle : Nat) (s : State n) : ℚ :=
  match s.handles[handle]? with
  | none => 0
  | some h => max 0 (h.expiry - now)

def fencingToken (handle : Nat) (s : State n) : Nat :=
  match s.handles[handle]? with
  | none => 0
  | some h => h.fencingToken

end State

end Redlock

open Redlock in
abbrev redlock (n : Nat) : DistributedLock where
  Service := RedlockOptions
  Handle := Nat
  State := State n
  Event := Event n
  initial := ⟨fun _ => ⟨fun _ => none, 0⟩, [], [], [], 0⟩
  tasks s := s.tasks.length
  call now request s := s.call now request
  act := State.act
  answer := State.answer
  idle _ := true
  remainingMs := State.remainingMs
  fencingToken := State.fencingToken

end NestApi.Locking
