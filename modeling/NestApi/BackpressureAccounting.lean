import NestApi.BackpressuredSocket
import NestApi.Indexed
import Mathlib.Algebra.GroupWithZero.Nat

namespace NestApi.Realtime.Backpressure

open BackpressuredSocket

variable {F : Type} {options : BackpressureOptions} {frames : Frames F}
  {s t : BackpressuredSocket F} {log : List (Entry F)} {entry : Entry F} {action : Action F}

def pending (log : List (Entry F)) : Nat :=
  log.foldl (fun count entry => match entry with
    | .dropped _ => count + 1
    | .lagged _ _ _ => 0
    | _ => count) 0

variable (frames) in
def Entry.sent : Entry F → Option F
  | .wrote frame _ => some frame
  | .lagged count since _ => some (frames.laggedFrame count since)
  | _ => none

def Entry.written : Entry F → Option F
  | .wrote frame _ => some frame
  | _ => none

def Action.offered : Action F → Option F
  | .send frame => some frame
  | _ => none

variable (frames) in
/-- The length of the last frames that were sent, the farewell aside. -/
def recent (count : Nat) (log : List (Entry F)) : Nat :=
  (((log.filterMap (Entry.sent frames)).reverse.take count).map frames.bytes).sum

variable (options frames) in
/-- What a frame on the wire says of what came before it. A frame of its own comes with no drop left
to announce, at or below the high-water mark or right behind an announcement from below the
low-water mark; an announcement counts the drops since the last one. -/
def Announced (before : List (Entry F)) : Entry F → Prop
  | .wrote _ buffered => pending before = 0 ∧ (buffered ≤ options.highWaterMarkBytes ∨
    ∃ dropped since start, before.getLast? = some (.lagged dropped since start) ∧
      buffered = start + frames.bytes (frames.laggedFrame dropped since))
  | .lagged dropped _ buffered =>
    dropped = pending before ∧ 0 < dropped ∧ buffered ≤ options.lowWaterMarkBytes
  | _ => True

variable (options frames) in
structure Accounted (s : BackpressuredSocket F) : Prop where
  past : ∀ before entry after, s.log = before ++ entry :: after →
    Announced options frames before entry
  present : s.isOpen = true → match s.laggingSince with
    | some _ => s.droppedWhileLagging = pending s.log ∧ 0 < pending s.log
    | none => pending s.log = 0
  bounded : (∀ frame, .farewell frame ∉ s.log) →
    s.bufferedAmount ≤ options.highWaterMarkBytes + recent frames 2 s.log

theorem pending_concat (entry : Entry F) : pending (log ++ [entry]) = match entry with
    | .dropped _ => pending log + 1
    | .lagged _ _ _ => 0
    | _ => pending log := by
  rw [pending, List.foldl_append]
  rfl

theorem recent_concat {frame : F} (sent : entry.sent frames = some frame) (count : Nat) :
    recent frames (count + 1) (log ++ [entry]) = frames.bytes frame + recent frames count log := by
  simp [recent, sent]

theorem recent_quiet (quiet : entry.sent frames = none) (count : Nat) :
    recent frames count (log ++ [entry]) = recent frames count log := by
  simp [recent, quiet]

theorem low_le_high : options.lowWaterMarkBytes ≤ options.highWaterMarkBytes :=
  Nat.div_le_self _ _

section

variable (accounted : Accounted options frames s)

include accounted

namespace Accounted

theorem write (frame : F) (idle : s.laggingSince = none) (none : pending s.log = 0)
    (room : s.bufferedAmount ≤ options.highWaterMarkBytes ∨
      ∃ dropped since start, s.log.getLast? = some (.lagged dropped since start) ∧
        start ≤ options.lowWaterMarkBytes ∧
        s.bufferedAmount = start + frames.bytes (frames.laggedFrame dropped since)) :
    Accounted options frames (s.write frames frame) where
  past := by
    refine forall_split_concat.mpr ⟨accounted.past, none, ?_⟩
    rcases room with room | ⟨dropped, since, start, last, _, amount⟩
    · exact .inl room
    · exact .inr ⟨dropped, since, start, last, amount⟩
  present := by
    intro _
    simp only [BackpressuredSocket.write, idle, pending_concat, none]
  bounded := by
    intro _
    rw [BackpressuredSocket.write, recent_concat rfl 1]
    dsimp only
    rcases room with room | ⟨dropped, since, start, last, low, amount⟩
    · omega
    · obtain ⟨log, split⟩ := List.getLast?_eq_some_iff.mp last
      have less : options.lowWaterMarkBytes ≤ options.highWaterMarkBytes := low_le_high
      rw [split, recent_concat rfl 0]
      omega

theorem recover {since : Int} (opened : s.isOpen = true) (lagging : s.laggingSince = some since)
    (drained : s.bufferedAmount ≤ options.lowWaterMarkBytes) :
    Accounted options frames (s.recover frames since) where
  past := by
    have present := accounted.present opened
    rw [lagging] at present
    refine forall_split_concat.mpr ⟨accounted.past, present.1, ?_, drained⟩
    have positive := present.2
    omega
  present := by
    intro _
    simp only [BackpressuredSocket.recover, pending_concat]
  bounded := by
    intro _
    rw [BackpressuredSocket.recover, recent_concat rfl 1]
    have less : options.lowWaterMarkBytes ≤ options.highWaterMarkBytes := low_le_high
    dsimp only
    omega

theorem quiet
    (quiet : entry.sent frames = none) {u : BackpressuredSocket F} (log : u.log = s.log ++ [entry])
    (amount : (∀ frame, entry ≠ .farewell frame) → u.bufferedAmount = s.bufferedAmount)
    (present : u.isOpen = true → match u.laggingSince with
      | some _ => u.droppedWhileLagging = pending u.log ∧ 0 < pending u.log
      | none => pending u.log = 0) : Accounted options frames u where
  past := by
    rw [log]
    refine forall_split_concat.mpr ⟨accounted.past, ?_⟩
    cases entry with
    | wrote | lagged => cases quiet
    | _ => trivial
  present := present
  bounded := by
    rw [log, recent_quiet quiet]
    intro none
    rw [amount fun frame same => none frame (by simp [same])]
    exact accounted.bounded fun frame mem => none frame (List.mem_append_left _ mem)

theorem closeSlow (since : Int) : Accounted options frames (s.closeSlow since) :=
  accounted.quiet rfl rfl (fun _ => rfl) nofun

theorem stayLagging (since : Int) (frame : F) (count : s.droppedWhileLagging = pending s.log) :
    Accounted options frames (s.stayLagging options since frame) := by
  have dropped : Accounted options frames { s with
      laggingSince := some since
      droppedWhileLagging := s.droppedWhileLagging + 1
      log := s.log ++ [.dropped frame] } := by
    refine accounted.quiet rfl rfl (fun _ => rfl) fun _ => ?_
    simp [pending_concat, count]
  unfold BackpressuredSocket.stayLagging
  dsimp only
  split_ifs
  · exact dropped.closeSlow since
  · exact dropped

theorem send (frame : F) : Accounted options frames (s.send options frames frame) := by
  unfold BackpressuredSocket.send
  split
  · exact accounted
  · rename_i opened
    have opened : s.isOpen = true := by simpa using opened
    have present := accounted.present opened
    split
    · rename_i since lagging
      rw [lagging] at present
      split_ifs with above
      · exact accounted.stayLagging since frame present.1
      · have drained := Nat.le_of_not_lt above
        refine (accounted.recover opened lagging drained).write frame rfl ?_ (.inr ?_)
        · simp only [BackpressuredSocket.recover, pending_concat]
        · exact ⟨_, _, _, List.getLast?_concat, drained, rfl⟩
    · rename_i idle
      rw [idle] at present
      split_ifs with above
      · have reset : Accounted options frames { s with droppedWhileLagging := 0 } := by
          refine ⟨accounted.past, fun _ => ?_, accounted.bounded⟩
          rwa [idle]
        exact reset.stayLagging s.now frame present.symm
      · exact accounted.write frame idle present (.inl (Nat.le_of_not_lt above))

end Accounted

end

def BackpressuredSocket.Drains (s : BackpressuredSocket F) : Action F → Prop
  | .buffered amount => amount ≤ s.bufferedAmount
  | _ => True

instance (s : BackpressuredSocket F) : DecidablePred s.Drains
  | .buffered amount => inferInstanceAs (Decidable (amount ≤ s.bufferedAmount))
  | .send _ | .review | .shutdown _ | .close | .tick _ => isTrue trivial

theorem Accounted.act (accounted : Accounted options frames s)
    (drains : s.Drains action) (taken : s.act options frames action = some t) :
    Accounted options frames t := by
  cases action with
  | send frame =>
    cases taken
    exact accounted.send frame
  | review =>
    cases taken
    unfold review
    split
    · rename_i since opened lagging
      split_ifs with grace drained
      · exact accounted.closeSlow since
      · exact accounted.recover opened lagging drained
      · exact accounted
    · exact accounted
  | shutdown frame =>
    cases taken
    unfold shutdown
    split_ifs
    · exact accounted.quiet rfl rfl (fun none => absurd rfl (none frame)) nofun
    · exact accounted
  | close =>
    cases taken
    exact ⟨accounted.past, nofun, accounted.bounded⟩
  | tick now =>
    cases taken
    exact ⟨accounted.past, accounted.present, accounted.bounded⟩
  | buffered amount =>
    cases taken
    exact ⟨accounted.past, accounted.present,
      fun none => Nat.le_trans drains (accounted.bounded none)⟩

variable (options s) in
theorem stayLagging_written (since : Int) (frame : F) : ∃ new,
    (s.stayLagging options since frame).log = s.log ++ new ∧ new.filterMap Entry.written = [] := by
  unfold stayLagging
  dsimp only
  split_ifs
  · exact ⟨_, List.append_assoc _ _ _, rfl⟩
  · exact ⟨_, rfl, rfl⟩

theorem act_written (taken : s.act options frames action = some t) :
    ∃ new, t.log = s.log ++ new ∧ (new.filterMap Entry.written).Sublist action.offered.toList := by
  cases action with
  | send frame =>
    cases taken
    unfold send
    split
    · exact ⟨[], by simp⟩
    · split
      · split_ifs
        · obtain ⟨new, log, none⟩ := stayLagging_written options s _ frame
          exact ⟨new, log, by simp [none]⟩
        · exact ⟨_, List.append_assoc _ _ _, List.Sublist.refl _⟩
      · split_ifs
        · obtain ⟨new, log, none⟩ := stayLagging_written options
            { s with droppedWhileLagging := 0 } s.now frame
          exact ⟨new, log, by simp [none]⟩
        · exact ⟨_, rfl, List.Sublist.refl _⟩
  | review =>
    cases taken
    unfold review
    split
    · split_ifs
      · exact ⟨_, rfl, List.Sublist.refl _⟩
      · exact ⟨_, rfl, List.Sublist.refl _⟩
      · exact ⟨[], by simp⟩
    · exact ⟨[], by simp⟩
  | shutdown =>
    cases taken
    unfold shutdown
    split_ifs
    · exact ⟨_, rfl, List.Sublist.refl _⟩
    · exact ⟨[], by simp⟩
  | _ =>
    cases taken
    exact ⟨[], by simp⟩

/-- Every frame on the wire is in order with what was refused before it, a refusal not announced yet
is of a connection that lags or is closed, the frames written are those of `send` in their order,
and the buffer exceeds the high-water mark by at most the last two frames. -/
theorem drops_announced {now : Int} {actions : List (Action F)}
    (run : Steps (Guarded Drains (Executes (act options frames))) (.start now) actions t) :
    (∀ before entry after, t.log = before ++ entry :: after →
      Announced options frames before entry) ∧
    (0 < pending t.log → t.isOpen = true →
      t.laggingSince ≠ none ∧ t.droppedWhileLagging = pending t.log) ∧
    (t.log.filterMap Entry.written).Sublist (actions.filterMap Action.offered) ∧
    ((∀ frame, .farewell frame ∉ t.log) →
      t.bufferedAmount ≤ options.highWaterMarkBytes + recent frames 2 t.log) := by
  have accounted : Accounted options frames t := by
    refine run.invariant (fun s => Accounted options frames s) ?_
      ⟨by simp [start], fun _ => rfl, fun _ => Nat.zero_le _⟩
    rintro u action v accounted ⟨drains, taken⟩
    exact accounted.act drains taken
  refine ⟨accounted.past, ?_, ?_, accounted.bounded⟩
  · intro some opened
    have present := accounted.present opened
    split at present
    · rename_i lagging
      exact ⟨by simp [lagging], present.1⟩
    · omega
  · refine run.of_guarded.recall (fun past (s : BackpressuredSocket F) =>
      (s.log.filterMap Entry.written).Sublist (past.filterMap Action.offered)) ?_ ?_
    · exact List.Sublist.refl _
    · intro past u action v _ order taken
      obtain ⟨new, log, own⟩ := act_written taken
      rw [log, List.filterMap_append, List.filterMap_append]
      refine order.append ?_
      cases offered : action.offered <;> simpa [offered] using own

/-- Two frames are refused and announced together; the third is refused and the connection lags. -/
theorem drops_announced_twice : ∃ (t : BackpressuredSocket Bool), pending t.log = 1 ∧
    t.log = [.wrote false 0, .wrote false 60, .dropped false, .dropped false, .lagged 2 0 50,
      .dropped false] ∧
    t.laggingSince ≠ none ∧ t.bufferedAmount ≤ 100 + recent sixtyBytes 2 t.log := by
  obtain ⟨t, run, log, opened⟩ : ∃ t, Steps (Guarded Drains
      (Executes (act tenSeconds sixtyBytes))) (.start 0)
      [.send false, .send false, .send false, .send false, .buffered 50, .review, .send false] t ∧
      t.log = [.wrote false 0, .wrote false 60, .dropped false, .dropped false, .lagged 2 0 50,
        .dropped false] ∧ t.isOpen = true := by
    decide +kernel
  obtain ⟨_, lagging, _, bound⟩ := drops_announced run
  have one : pending t.log = 1 := by rw [log]; rfl
  exact ⟨t, one, log, (lagging (by omega) opened).1, bound (by simp [log])⟩

/-- The write behind an announcement starts above the high-water mark. -/
theorem write_above_mark : ∃ actions t,
    Steps (Executes (act tenSeconds sixtyBytes)) (.start 0) actions t ∧
      t.log = [.wrote false 0, .wrote false 60, .dropped false, .lagged 1 0 0, .wrote false 106] ∧
      tenSeconds.highWaterMarkBytes < 106 :=
  ⟨[.send false, .send false, .send false, .buffered 0, .send false], by decide +kernel⟩

end NestApi.Realtime.Backpressure
