import NestApi.Transition

/- The send side of one realtime connection. What the socket flushes and when its clock moves is up
to the environment. -/
namespace NestApi.Realtime.Backpressure

structure BackpressureOptions where
  highWaterMarkBytes : Nat
  graceMs : Int

def BackpressureOptions.lowWaterMarkBytes (options : BackpressureOptions) : Nat :=
  options.highWaterMarkBytes / 2

/-- The frames of the protocol: how long each is on the wire, and the one that announces drops. -/
structure Frames (F : Type) where
  bytes : F → Nat
  laggedFrame : Nat → Int → F

/-- What happened on a connection, with the buffered amount where it happened. -/
inductive Entry (F : Type) where
  | wrote (frame : F) (buffered : Nat)
  | lagged (dropped : Nat) (since : Int) (buffered : Nat)
  | dropped (frame : F)
  | closedSlow (since now : Int) (buffered : Nat)
  | farewell (frame : F)
  deriving DecidableEq

structure BackpressuredSocket (F : Type) where
  isOpen : Bool
  bufferedAmount : Nat
  now : Int
  laggingSince : Option Int
  droppedWhileLagging : Nat
  log : List (Entry F)

inductive Action (F : Type) where
  | send (frame : F)
  | review
  | shutdown (frame : F)
  | close
  | tick (now : Int)
  | buffered (amount : Nat)

variable {F : Type} (options : BackpressureOptions) (frames : Frames F)

namespace BackpressuredSocket

def write (s : BackpressuredSocket F) (frame : F) : BackpressuredSocket F :=
  { s with
    bufferedAmount := s.bufferedAmount + frames.bytes frame
    log := s.log ++ [.wrote frame s.bufferedAmount] }

def recover (s : BackpressuredSocket F) (since : Int) : BackpressuredSocket F :=
  { s with
    laggingSince := none
    droppedWhileLagging := 0
    bufferedAmount :=
      s.bufferedAmount + frames.bytes (frames.laggedFrame s.droppedWhileLagging since)
    log := s.log ++ [.lagged s.droppedWhileLagging since s.bufferedAmount] }

def closeSlow (s : BackpressuredSocket F) (since : Int) : BackpressuredSocket F :=
  { s with
    isOpen := false
    laggingSince := none
    log := s.log ++ [.closedSlow since s.now s.bufferedAmount] }

def stayLagging (s : BackpressuredSocket F) (since : Int) (frame : F) : BackpressuredSocket F :=
  let s := { s with
    laggingSince := some since
    droppedWhileLagging := s.droppedWhileLagging + 1
    log := s.log ++ [.dropped frame] }
  if options.graceMs ≤ s.now - since then s.closeSlow since else s

def send (s : BackpressuredSocket F) (frame : F) : BackpressuredSocket F :=
  if !s.isOpen then s
  else
    match s.laggingSince with
    | some since =>
      if options.lowWaterMarkBytes < s.bufferedAmount then s.stayLagging options since frame
      else (s.recover frames since).write frames frame
    | none =>
      if options.highWaterMarkBytes < s.bufferedAmount then
        { s with droppedWhileLagging := 0 }.stayLagging options s.now frame
      else s.write frames frame

def review (s : BackpressuredSocket F) : BackpressuredSocket F :=
  match s.isOpen, s.laggingSince with
  | true, some since =>
    if options.graceMs ≤ s.now - since then s.closeSlow since
    else if s.bufferedAmount ≤ options.lowWaterMarkBytes then s.recover frames since
    else s
  | _, _ => s

/-- The farewell of a shutdown, which is sent unconditionally, and the close right behind it. -/
def shutdown (s : BackpressuredSocket F) (frame : F) : BackpressuredSocket F :=
  if s.isOpen then
    { s with
      isOpen := false
      bufferedAmount := s.bufferedAmount + frames.bytes frame
      log := s.log ++ [.farewell frame] }
  else s

def act (s : BackpressuredSocket F) : Action F → Option (BackpressuredSocket F)
  | .send frame => some (s.send options frames frame)
  | .review => some (s.review options frames)
  | .shutdown frame => some (s.shutdown frames frame)
  | .close => some { s with isOpen := false }
  | .tick now => some { s with now := now }
  | .buffered amount => some { s with bufferedAmount := amount }

def start (now : Int) : BackpressuredSocket F := ⟨true, 0, now, none, 0, []⟩

end BackpressuredSocket

variable {options frames} {s t : BackpressuredSocket F}

section Slow

variable (options) in
/-- Every close as slow came after the grace window, with the buffer above the low-water mark. -/
def Deserved (log : List (Entry F)) : Prop :=
  ∀ since now buffered, .closedSlow since now buffered ∈ log →
    options.graceMs ≤ now - since ∧ options.lowWaterMarkBytes < buffered

variable (options) in
/-- A sweep does not find a connection whose grace is over and whose buffer has drained. -/
def BackpressuredSocket.InTime (s : BackpressuredSocket F) : Action F → Prop
  | .review => ∀ since, s.isOpen = true → s.laggingSince = some since →
    options.graceMs ≤ s.now - since → options.lowWaterMarkBytes < s.bufferedAmount
  | _ => True

theorem stayLagging_deserved {since : Int} {frame : F}
    (above : options.lowWaterMarkBytes < s.bufferedAmount) :
    Deserved options (s.stayLagging options since frame).log ↔ Deserved options s.log := by
  unfold BackpressuredSocket.stayLagging BackpressuredSocket.closeSlow
  dsimp only
  split_ifs with grace
  · simp +contextual [Deserved, or_imp, forall_and, grace, above]
  · simp [Deserved]

theorem send_deserved (frame : F) :
    Deserved options (s.send options frames frame).log ↔ Deserved options s.log := by
  unfold BackpressuredSocket.send
  split
  · rfl
  · split
    · split_ifs with above
      · exact stayLagging_deserved above
      · simp [Deserved, BackpressuredSocket.write, BackpressuredSocket.recover]
    · split_ifs with above
      · exact stayLagging_deserved (Nat.lt_of_le_of_lt (Nat.div_le_self _ _) above)
      · simp [Deserved, BackpressuredSocket.write]

theorem act_deserved {action : Action F} (taken : s.act options frames action = some t) :
    Deserved options t.log ↔ Deserved options s.log ∧ s.InTime options action := by
  cases action with
  | send frame =>
    cases taken
    exact (send_deserved frame).trans (and_iff_left trivial).symm
  | review =>
    cases taken
    unfold BackpressuredSocket.review
    split
    · rename_i since opened lagging
      simp only [BackpressuredSocket.InTime, opened, lagging, Option.some.injEq, forall_eq',
        true_implies]
      split_ifs with grace drained
      · constructor
        · intro deserved
          exact ⟨fun since now buffered mem => deserved _ _ _ (List.mem_append_left _ mem),
            fun _ => (deserved _ _ _ (List.mem_append_right _ (List.mem_singleton_self _))).2⟩
        · rintro ⟨deserved, above⟩ since' now buffered mem
          rcases List.mem_append.mp mem with before | last
          · exact deserved _ _ _ before
          · cases List.mem_singleton.mp last
            exact ⟨grace, above grace⟩
      · simp [Deserved, BackpressuredSocket.recover, grace]
      · simp [grace]
    · rename_i idle
      refine (and_iff_left ?_).symm
      intro since opened lagging
      exact absurd lagging (idle since opened)
  | shutdown =>
    cases taken
    refine Iff.trans ?_ (and_iff_left trivial).symm
    unfold BackpressuredSocket.shutdown
    split_ifs
    · simp [Deserved]
    · rfl
  | _ =>
    cases taken
    exact (and_iff_left trivial).symm

/-- Only slow consumers are closed as slow exactly if no sweep comes after the grace window to a
connection that has drained. -/
theorem closed_slow_iff {now : Int} {actions : List (Action F)}
    (run : Steps (Executes (BackpressuredSocket.act options frames)) (.start now) actions t) :
    (∀ since now buffered, .closedSlow since now buffered ∈ t.log →
      options.graceMs ≤ now - since ∧ options.lowWaterMarkBytes < buffered) ↔
    Steps (Guarded (BackpressuredSocket.InTime options)
      (Executes (BackpressuredSocket.act options frames))) (.start now) actions t := by
  have exact' := run.guarded_iff (fun _ => True)
    (fun s : BackpressuredSocket F => Deserved options s.log)
    (fun _ _ _ _ _ => trivial) (fun _ _ _ _ taken => act_deserved taken) trivial
  exact exact'.trans (and_iff_right (by simp [Deserved, BackpressuredSocket.start]))

def tenSeconds : BackpressureOptions := ⟨100, 10000⟩

/-- Frames of sixty bytes, and the announcement as `JSON.stringify` prints it for one drop. -/
def sixtyBytes : Frames Bool := ⟨fun announces => if announces then 106 else 60, fun _ _ => true⟩

/-- A connection falls behind and never drains. -/
theorem closed_slow_stalled : ∃ actions t,
    Steps (Guarded (BackpressuredSocket.InTime tenSeconds)
      (Executes (BackpressuredSocket.act tenSeconds sixtyBytes))) (.start 0) actions t ∧
    .closedSlow 5 10005 120 ∈ t.log := by
  obtain ⟨t, run, log⟩ : ∃ t, Steps (Executes (BackpressuredSocket.act tenSeconds sixtyBytes))
      (.start 0) [.send false, .send false, .tick 5, .send false, .tick 10005, .review] t ∧
      t.log = [.wrote false 0, .wrote false 60, .dropped false, .closedSlow 5 10005 120] := by
    decide +kernel
  refine ⟨_, t, (closed_slow_iff run).mp ?_, by simp [log]⟩
  simp +contextual [log, tenSeconds, BackpressureOptions.lowWaterMarkBytes]

/-- A connection falls behind, drains and goes quiet; the sweep after the grace window closes it. -/
theorem drained_closed_slow : ∃ actions t,
    Steps (Executes (BackpressuredSocket.act tenSeconds sixtyBytes)) (.start 0) actions t ∧
      .closedSlow 5 10005 0 ∈ t.log :=
  ⟨[.send false, .send false, .tick 5, .send false, .buffered 0, .tick 10005, .review],
    by decide +kernel⟩

end Slow

end NestApi.Realtime.Backpressure
