import NestApi.RedlockDiscipline

namespace NestApi.Locking.Redlock

variable {n : Nat} {now later : ℚ} {s s' : State n}

variable {task : Nat} {answer : Answer Nat} {event : Event n} {request : Request RedlockOptions Nat}

theorem answer_eq_some : s.answer task = some answer ↔ s.tasks[task]? = some (.done answer) := by
  simp only [State.answer]
  split
  · rename_i answer' found
    simp [found]
  · rename_i other
    simp only [reduceCtorEq, false_iff]
    exact fun found => other answer found

theorem tasks_call (now : ℚ) (s : State n) (request : Request RedlockOptions Nat) :
    ∃ task, (s.call now request).tasks = s.tasks ++ [task] := by
  obtain ⟨task, after, _, same⟩ := call_began now s request
  exact ⟨task, by rw [same]⟩

theorem answer_call (answered : s.answer task = some answer) :
    (s.call now request).answer task = some answer := by
  rw [answer_eq_some] at answered ⊢
  obtain ⟨started, same⟩ := tasks_call now s request
  rw [same, getElem?_concat_of_some answered]

theorem answer_act (taken : s.act now event = some s') (answered : s.answer task = some answer) :
    s'.answer task = some answer := by
  rw [answer_eq_some] at answered ⊢
  cases acted taken with
  | apply => exact answered
  | @task _ t before next after moves found went =>
    dsimp only
    rw [List.getElem?_set_ne, answered]
    rintro rfl
    cases found.symm.trans answered
    cases went

/-- Every handle given out was made, and was given out once. -/
structure Issued (s : State n) : Prop where
  made : ∀ task i, s.answer task = some (.handle (some i)) → i < s.handles.length
  once : ∀ first second i, s.answer first = some (.handle (some i)) →
    s.answer second = some (.handle (some i)) → first = second

theorem length_handles_went {task next : Task} (went : Went now s task s' next) :
    s.handles.length ≤ s'.handles.length := by
  cases went with
  | granted => simp
  | prolonged | abandoned | released => simp [State.setHandle]
  | _ => exact Nat.le_refl _

theorem answer_of_act {i : Nat} (taken : s.act now event = some s')
    (answered : s'.answer task = some (.handle (some i))) :
    s.answer task = some (.handle (some i)) ∨
      event.task? = some task ∧ i = s.handles.length ∧ i < s'.handles.length := by
  cases acted taken with
  | apply => exact .inl answered
  | @task _ t before next after moves found went =>
    rw [answer_eq_some] at answered
    rcases getElem?_set_eq_some answered with ⟨rfl, done⟩ | ⟨_, old⟩
    · right
      cases went with
      | granted =>
        cases done
        exact ⟨moves, rfl, by simp⟩
      | _ => cases done
    · exact .inl (answer_eq_some.mpr old)

theorem answer_of_call {i : Nat}
    (answered : (s.call now request).answer task = some (.handle (some i))) :
    s.answer task = some (.handle (some i)) := by
  obtain ⟨started, after, began, same⟩ := call_began now s request
  rw [answer_eq_some, same] at answered
  rcases getElem?_concat_eq_some answered with old | ⟨_, done⟩
  · exact answer_eq_some.mpr old
  · cases began with
    | refused _ answer without =>
      cases done
      exact absurd rfl (without i)
    | _ => cases done

theorem length_handles_call (request : Request RedlockOptions Nat) :
    (s.call now request).handles.length = s.handles.length := by
  obtain ⟨started, after, began, same⟩ := call_began now s request
  rw [same]
  cases began with
  | release => simp [State.setHandle, State.send]
  | _ => rfl

theorem length_handles_act (taken : s.act now event = some s') :
    s.handles.length ≤ s'.handles.length := by
  cases acted taken with
  | apply => exact Nat.le_refl _
  | task moves found went =>
    have grown := length_handles_went went
    exact grown

theorem Issued.call (issued : Issued s) (request : Request RedlockOptions Nat) :
    Issued (s.call now request) where
  made task i answered := by
    rw [length_handles_call]
    exact issued.made task i (answer_of_call answered)
  once first second i one two :=
    issued.once first second i (answer_of_call one) (answer_of_call two)

theorem Issued.act (issued : Issued s) (taken : s.act now event = some s') : Issued s' where
  made task i answered := by
    rcases answer_of_act taken answered with old | ⟨_, _, made⟩
    · exact Nat.lt_of_lt_of_le (issued.made task i old) (length_handles_act taken)
    · exact made
  once first second i one two := by
    rcases answer_of_act taken one with old | ⟨here, new, _⟩ <;>
      rcases answer_of_act taken two with older | ⟨there, newer, _⟩
    · exact issued.once first second i old older
    · have := issued.made first i old
      omega
    · have := issued.made second i older
      omega
    · exact Option.some.inj (here.symm.trans there)

end Redlock

open Redlock in
def redlockLaws (n : Nat) : (redlock n).Lawful where
  sound := Issued
  initial := by
    refine ⟨fun task i answered => ?_, fun first second i answered => ?_⟩
    · simp [State.answer] at answered
    · simp [State.answer] at answered
  sound_call _ request _ issued := issued.call request
  sound_act _ _ _ _ issued taken := issued.act taken
  tasks_call now request s := by
    obtain ⟨task, same⟩ := tasks_call now s request
    exact (congrArg List.length same).trans List.length_append
  tasks_act _ _ _ _ taken := by
    cases acted taken with
    | apply => rfl
    | task => exact List.length_set
  answer_call _ _ _ _ _ := answer_call
  answer_act _ _ _ _ _ _ := answer_act
  granted_once _ first second handle issued := issued.once first second handle

namespace Redlock

variable {n : Nat} {now later : ℚ} {s s' : State n}

/-- A handle that was given back, with nobody at work on it, has no time left. -/
def Retired (now : ℚ) (s : State n) : Prop :=
  ∀ (i : Nat) h, s.handles[i]? = some h → h.live = false → s.free i = true → h.expiry ≤ now

variable {i : Nat} {event : Event n}

theorem free_iff : s.free i = true ↔ ∀ task ∈ s.tasks, task.handle? ≠ some i := by
  simp [State.free, bne_iff_ne]

theorem Retired.went (retired : Retired now s) {task next : Task} {others tasks : List Task}
    (placed : task.Placed s) (swapped : Swapped s.tasks (some task) tasks next others)
    (went : Went now s task s' next) : Retired now { s' with tasks := tasks } := by
  intro i h' found gone free
  have quiet := free_iff.mp free
  by_cases own : task.handle? = some i
  · have left : next.handle? ≠ some i := quiet next swapped.new
    cases went with
    | prolonged =>
      cases own
      obtain ⟨h, there, live⟩ := placed
      obtain ⟨old, earlier, rfl⟩ := setHandle_eq_some found
      cases there.symm.trans earlier
      rw [if_pos rfl] at gone
      cases live.symm.trans gone
    | abandoned | released =>
      cases own
      obtain ⟨old, earlier, rfl⟩ := setHandle_eq_some found
      rw [if_pos rfl]
    | lost | reached => exact absurd own left
    | _ => cases own
  · rcases handles_turned (.went went) found with ⟨h, earlier, _⟩ | ⟨_, live⟩
    · obtain ⟨h'', found'', _, same⟩ := handle_turned (.went went) earlier
      cases found.symm.trans found''
      rw [same own] at gone ⊢
      refine retired i h earlier gone (free_iff.mpr fun other mem => ?_)
      rcases swapped.of_mem mem with same | kept
      · cases same
        exact own
      · exact quiet other (swapped.stays kept)
    · cases live.symm.trans gone

theorem Retired.act (retired : Retired now s) (disciplined : Disciplined s)
    (taken : s.act now event = some s') : Retired now s' := by
  cases acted taken with
  | apply => exact retired
  | @task _ t before next after moves found went =>
    obtain ⟨others, swapped⟩ := swapped_set next found
    exact retired.went (disciplined.placed before (List.mem_of_getElem? found)) swapped went

theorem Retired.call (retired : Retired now s) (request : Request RedlockOptions Nat) :
    Retired now (s.call now request) := by
  obtain ⟨task, after, began, same⟩ := call_began now s request
  rw [same]
  intro i h' found gone free
  have quiet := free_iff.mp free
  have before : s.free i = true :=
    free_iff.mpr fun other mem => quiet other (List.mem_append_left _ mem)
  cases began with
  | release handle =>
    obtain ⟨h, earlier, rfl⟩ := setHandle_eq_some found
    by_cases own : handle = i
    · exact absurd (congrArg some own) (quiet _ (List.mem_append_right _ List.mem_cons_self))
    · rw [if_neg own] at gone ⊢
      exact retired i h earlier gone before
  | _ => exact retired i h' found gone before

variable {R E : Type} {c c' : Session (redlock n) R E} {h : Handle}

def Early : Place Nat R E → Prop
  | .acquiring | .acquired _ | .starting _ _ => True
  | _ => False

/-- Every task at work on the session's handle is one that it waits for, and from its release on
the handle stays given back. -/
structure Attached (s : State n) (c : Session (redlock n) R E) : Prop where
  bound : ∀ (i t : Nat) task, c.Owns s i → s.tasks[t]? = some task → task.handle? = some i →
    (∃ startedAt, c.renewal = .extending i startedAt t) ∨
      ∃ acquiredAt outcome failed, c.place = .releasing i acquiredAt outcome failed t
  ended : ∀ i, c.place.handle? = some i → ¬ c.place.Unreleased →
    (∃ failed, c.renewal = .finished failed) ∧ ∃ h, s.handles[i]? = some h ∧ h.live = false
  unstarted : Early c.place → c.renewal = .notStarted
  unresolved : ∀ result, c.place ≠ .settled (.resolved result)

theorem Attached.free (attached : Attached s c) (owns : c.Owns s i)
    (sleeping : ∀ startedAt t, c.renewal ≠ .extending i startedAt t)
    (elsewhere : ∀ acquiredAt outcome failed t,
      c.place ≠ .releasing i acquiredAt outcome failed t) : s.free i = true := by
  refine free_iff.mpr fun task mem own => ?_
  obtain ⟨t, found⟩ := List.mem_iff_getElem?.mp mem
  rcases attached.bound i t task owns found own with ⟨startedAt, here⟩ | ⟨_, _, _, here⟩
  · exact sleeping startedAt t here
  · exact elsewhere _ _ _ t here

theorem Attached.act (attached : Attached s c) (disciplined : Disciplined s)
    (taken : s.act now event = some s') : Attached s' c := by
  refine ⟨?_, ?_, attached.unstarted, attached.unresolved⟩
  · intro i t task owns found own
    have earlier : ∃ old, s.tasks[t]? = some old ∧ old.handle? = some i := by
      cases acted taken with
      | apply => exact ⟨task, found, own⟩
      | @task _ moved before next after moves here went =>
        rcases getElem?_set_eq_some found with ⟨rfl, rfl⟩ | ⟨_, old⟩
        · exact ⟨before, here, about_turned (.went went) own⟩
        · exact ⟨task, old, own⟩
    obtain ⟨old, there, own⟩ := earlier
    rcases answer_of_act taken owns with already | ⟨_, new, _⟩
    · exact attached.bound i t old already there own
    · -- nobody is at work on a handle that has just been made
      have placed := disciplined.placed old (List.mem_of_getElem? there)
      obtain ⟨h, made⟩ := placed.found own
      have inside := lt_of_getElem? made
      omega
  · intro i here late
    obtain ⟨finished, h, made, gone⟩ := attached.ended i here late
    refine ⟨finished, ?_⟩
    cases acted taken with
    | apply => exact ⟨h, made, gone⟩
    | task moves found went =>
      obtain ⟨h', made', onward, _⟩ := handle_turned (.went went) made
      exact ⟨h', made', onward.gone gone⟩

/-- What is at work on a handle after a request was so before, or is its own task. -/
theorem about_call {request : Request RedlockOptions Nat} {t : Nat} {task : Task}
    (found : (s.call now request).tasks[t]? = some task) (own : task.handle? = some i) :
    s.tasks[t]? = some task ∨ t = s.tasks.length ∧ handleOf request = some i := by
  obtain ⟨started, after, began, called⟩ := call_began now s request
  rw [called] at found
  rcases getElem?_concat_eq_some found with old | ⟨rfl, rfl⟩
  · exact .inl old
  · exact .inr ⟨rfl, about_turned (.began began) own⟩

/-- The session itself makes a request about its handle, on which nobody is at work. -/
theorem Attached.ask (now : ℚ) (request : Request RedlockOptions Nat) (owns : c.Owns s i)
    (free : s.free i = true) (same : c'.acquisition = c.acquisition)
    (waits : (∃ startedAt, c'.renewal = .extending i startedAt s.tasks.length) ∨
      ∃ acquiredAt outcome failed, c'.place = .releasing i acquiredAt outcome failed s.tasks.length)
    (ended : ∀ i, c'.place.handle? = some i → ¬ c'.place.Unreleased →
      (∃ failed, c'.renewal = .finished failed) ∧
        ∃ h, (s.call now request).handles[i]? = some h ∧ h.live = false)
    (unstarted : Early c'.place → c'.renewal = .notStarted)
    (unresolved : ∀ result, c'.place ≠ .settled (.resolved result)) :
    Attached (s.call now request) c' := by
  refine ⟨?_, ended, unstarted, unresolved⟩
  intro j t task too found own
  rw [Session.Owns, same] at too
  cases owns.symm.trans (answer_of_call too)
  rcases about_call found own with old | ⟨rfl, _⟩
  · exact absurd own (free_iff.mp free task (List.mem_of_getElem? old))
  · exact waits

theorem gone_call (request : Request RedlockOptions Nat)
    (made : s.handles[i]? = some h) (gone : h.live = false) :
    ∃ h', (s.call now request).handles[i]? = some h' ∧ h'.live = false := by
  obtain ⟨started, after, began, called⟩ := call_began now s request
  obtain ⟨h', made', onward, _⟩ := handle_turned (.began began) made
  rw [called]
  exact ⟨h', made', onward.gone gone⟩

theorem gone_release (made : s.handles[i]? = some h) :
    ∃ h', (s.call now (.release i)).handles[i]? = some h' ∧ h'.live = false := by
  cases live : h.live with
  | false => exact gone_call _ made live
  | true =>
    refine ⟨{ h with live := false }, ?_, rfl⟩
    simp only [State.call, made, live, ↓reduceIte, State.push, State.send]
    rw [setHandle_found _ made, if_pos rfl]

section

variable (attached : Attached s c) {renewal : Renewal Nat} {acquiredAt : ℚ} {failed : Bool}

include attached

namespace Attached

theorem others (request : Request RedlockOptions Nat)
    (apart : ∀ i, handleOf request = some i → ¬ c.Owns s i) : Attached (s.call now request) c := by
  refine ⟨?_, ?_, attached.unstarted, attached.unresolved⟩
  · intro i t task owns found own
    rcases about_call found own with old | ⟨_, about⟩
    · exact attached.bound i t task (answer_of_call owns) old own
    · exact absurd (answer_of_call owns) (apart i about)
  · intro i here late
    obtain ⟨finished, h, made, gone⟩ := attached.ended i here late
    exact ⟨finished, gone_call request made gone⟩

/-- A session stops waiting only for a task that is finished. -/
theorem change (same : c'.acquisition = c.acquisition)
    (renewal : ∀ i startedAt t, c.renewal = .extending i startedAt t →
      c'.renewal = .extending i startedAt t ∨ ∃ answer, s.answer t = some answer)
    (place : ∀ i acquiredAt outcome failed t, c.place = .releasing i acquiredAt outcome failed t →
      c'.place = .releasing i acquiredAt outcome failed t ∨ ∃ answer, s.answer t = some answer)
    (ended : ∀ i, c'.place.handle? = some i → ¬ c'.place.Unreleased →
      (∃ failed, c'.renewal = .finished failed) ∧ ∃ h, s.handles[i]? = some h ∧ h.live = false)
    (unstarted : Early c'.place → c'.renewal = .notStarted)
    (unresolved : ∀ result, c'.place ≠ .settled (.resolved result)) : Attached s c' := by
  refine ⟨?_, ended, unstarted, unresolved⟩
  intro i t task owns found own
  rw [Session.Owns, same] at owns
  have unanswered : ¬ ∃ answer, s.answer t = some answer := by
    rintro ⟨answer, answered⟩
    cases found.symm.trans (answer_eq_some.mp answered)
    cases own
  rcases attached.bound i t task owns found own with ⟨startedAt, here⟩ | ⟨_, _, _, here⟩
  · rcases renewal i startedAt t here with kept | answered
    · exact .inl ⟨startedAt, kept⟩
    · exact absurd answered unanswered
  · rcases place i _ _ _ t here with kept | answered
    · exact .inr ⟨_, _, _, kept⟩
    · exact absurd answered unanswered

theorem proceed (same : c'.acquisition = c.acquisition) (renewal : c'.renewal = c.renewal)
    (elsewhere : ∀ i acquiredAt outcome failed t,
      c.place ≠ .releasing i acquiredAt outcome failed t)
    (unreleased : ∀ i, c'.place.handle? = some i → ¬ c'.place.Unreleased →
      c.place.handle? = some i ∧ ¬ c.place.Unreleased) (unstarted : Early c'.place → Early c.place)
    (unresolved : ∀ result, c'.place ≠ .settled (.resolved result)) : Attached s c' := by
  apply attached.change same _ _ _ _ unresolved
  · exact fun _ _ _ here => .inl (renewal.trans here)
  · exact fun i _ _ _ t here => absurd here (elsewhere i _ _ _ t)
  · intro i here late
    obtain ⟨own, earlier⟩ := unreleased i here late
    rw [renewal]
    exact attached.ended i own earlier
  · intro early
    rw [renewal]
    exact attached.unstarted (unstarted early)

theorem renew (begun : c.renewal ≠ .notStarted) (running : ∀ failed, c.renewal ≠ .finished failed)
    (waits : ∀ i startedAt t, c.renewal = .extending i startedAt t →
      ∃ answer, s.answer t = some answer) : Attached s { c with renewal := renewal } := by
  refine attached.change ?_ ?_ ?_ ?_ ?_ ?_
  · rfl
  · exact fun i startedAt t here => .inr (waits i startedAt t here)
  · exact fun _ _ _ _ _ here => .inl here
  · intro i here late
    obtain ⟨⟨failed, finished⟩, _⟩ := attached.ended i here late
    exact absurd finished (running failed)
  · exact fun early => absurd (attached.unstarted early) begun
  · exact attached.unresolved

theorem renewed {t : Nat} {startedAt : ℚ}
    {answer : Answer Nat} (here : c.renewal = .extending i startedAt t)
    (answered : s.answer t = some answer) : Attached s { c with renewal := renewal } := by
  apply attached.renew
  · rw [here]
    nofun
  · rw [here]
    nofun
  · intro _ _ _ renewing
    cases here.symm.trans renewing
    exact ⟨answer, answered⟩

theorem heard {place : Place Nat R E} {t : Nat} {outcome : Except E R}
    (here : c.place = .releasing i acquiredAt outcome failed t)
    (answered : ∃ answer, s.answer t = some answer) (own : ∀ j, place.handle? = some j → j = i)
    (late : ¬ Early place) (unresolved : ∀ result, place ≠ .settled (.resolved result)) :
    Attached s { c with place := place } := by
  have ended := attached.ended i (by rw [here]; rfl) (by rw [here]; exact id)
  refine attached.change ?_ ?_ ?_ ?_ ?_ ?_
  · rfl
  · exact fun _ _ _ renewing => .inl renewing
  · intro j _ _ _ t' there
    cases here.symm.trans there
    exact .inr answered
  · intro j there _
    cases own j there
    exact ended
  · exact fun early => absurd early late
  · exact unresolved

/-- The final check finds no time left: the release has just said so. -/
theorem lapsed (coherent : c.Coherent s) (retired : Retired now s) {result : R}
    (here : c.place = .checking i acquiredAt result failed) : s.remainingMs now i = 0 := by
  obtain ⟨⟨ended, finished⟩, h, made, gone⟩ :=
    attached.ended i (by rw [here]; rfl) (by rw [here]; exact id)
  have own := coherent.placed i (congrArg Place.handle? here)
  have owns : c.Owns s i := coherent.owns own
  have free : s.free i = true := attached.free owns (by simp [finished]) (by simp [here])
  have isOver := retired i h made gone free
  simp only [State.remainingMs, made]
  exact max_eq_left (sub_nonpos.mpr isOver)

theorem step {asks : Session.Asks (redlock n)}
    (coherent : c.Coherent s) (issued : Issued s) (retired : Retired now s)
    (stepped : @Session.Stepped (redlock n) R E now s c c' asks) :
    Attached (asks.elim s fun request => s.call now request) c' ∧
      ∀ request i, asks = some request → handleOf request = some i →
        c.Owns s i ∧ s.free i = true := by
  have silent : ∀ request i, (none : Session.Asks (redlock n)) = some request →
      handleOf request = some i → c.Owns s i ∧ s.free i = true := by
    intro request i asked
    cases asked
  cases stepped with
  | granted here | acquired here =>
    refine ⟨attached.proceed rfl rfl ?_ ?_ ?_ nofun, silent⟩
    · rw [here]
      nofun
    · exact fun _ _ late => absurd trivial late
    · rw [here]
      exact fun _ => trivial
  | turnedAway error here | rejected here | lost here =>
    refine ⟨attached.proceed rfl rfl ?_ nofun (fun early => absurd early id) nofun, silent⟩
    rw [here]
    nofun
  | starting here =>
    have before := attached.unstarted (by rw [here]; trivial)
    refine ⟨attached.change rfl ?_ ?_ ?_ (fun early => absurd early id) nofun, silent⟩
    · rw [before]
      nofun
    · rw [here]
      nofun
    · exact fun _ _ late => absurd trivial late
  | finish outcome here =>
    refine ⟨attached.proceed rfl rfl ?_ ?_ (fun early => absurd early id) nofun, silent⟩
    · rw [here]
      nofun
    · exact fun _ _ late => absurd trivial late
  | @release i acquiredAt outcome failed here ended =>
    have own := coherent.placed i (congrArg Place.handle? here)
    have owns : c.Owns s i := coherent.owns own
    have free : s.free i = true := attached.free owns (by simp [ended]) (by simp [here])
    obtain ⟨h, made⟩ : ∃ h, s.handles[i]? = some h :=
      ⟨_, List.getElem?_eq_getElem (issued.made _ i owns)⟩
    refine ⟨.ask now (.release i) owns free rfl (.inr ⟨_, _, _, rfl⟩) ?_
      (fun early => absurd early id) nofun, ?_⟩
    · rintro j ⟨⟩ _
      exact ⟨⟨failed, ended⟩, gone_release made⟩
    · rintro _ j ⟨⟩ ⟨⟩
      exact ⟨owns, free⟩
  | threw here answered =>
    exact ⟨attached.heard here ⟨_, answered⟩ nofun id nofun, silent⟩
  | released here answered =>
    refine ⟨attached.heard here ⟨_, answered⟩ ?_ id nofun, silent⟩
    rintro j ⟨⟩
    rfl
  | lapsed here =>
    refine ⟨attached.proceed rfl rfl ?_ ?_ (fun early => absurd early id) nofun, silent⟩
    · rw [here]
      nofun
    · rw [here]
      exact fun _ own late => ⟨own, late⟩
  | resolved here kept =>
    have isOver : s.remainingMs now _ = 0 := attached.lapsed coherent retired here
    exact absurd (lt_of_lt_of_eq kept isOver) (lt_irrefl _)
  | ended here | due running here =>
    refine ⟨attached.renew ?_ ?_ ?_, silent⟩ <;> rw [here] <;> nofun
  | @extend i startedAt here =>
    have own := coherent.renewed i (congrArg Renewal.handle? here)
    have owns : c.Owns s i := coherent.owns own
    have unreleased : ∀ j, c.place.handle? = some j → c.place.Unreleased := by
      intro j there
      by_contra late
      obtain ⟨⟨failed, finished⟩, _⟩ := attached.ended j there late
      cases finished.symm.trans here
    have free : s.free i = true := by
      apply attached.free owns (by simp [here])
      · intro _ _ _ _ there
        have wrong := unreleased i (by rw [there]; rfl)
        rw [there] at wrong
        exact wrong
    refine ⟨.ask now (.extend i c.options.ttlMs) owns free rfl (.inl ⟨startedAt, rfl⟩) ?_ ?_
      attached.unresolved, ?_⟩
    · exact fun j there late => absurd (unreleased j there) late
    · intro early
      cases (attached.unstarted early).symm.trans here
    · rintro _ j ⟨⟩ ⟨⟩
      exact ⟨owns, free⟩
  | extended here answered | refused here answered | failed here answered =>
    exact ⟨attached.renewed here answered, silent⟩

end Attached

end

/-- What holds in every run of calls whose operations leave their handles alone. -/
structure Tidy (s : Sessions (redlock n) R E) : Prop where
  orderly : s.Orderly (redlockLaws n)
  numbered : Numbered s.state
  disciplined : Disciplined s.state
  retired : Retired s.clock s.state
  attached : ∀ (i : Nat) c, s.calls[i]? = some c → Attached s.state c

section sessions

variable {u v : Sessions (redlock n) R E}

/-- A request that is made when nobody is at work on its handle, and what it leaves the calls. -/
theorem Tidy.request (tidy : Tidy u) (request : Request RedlockOptions Nat)
    (free : ∀ i, handleOf request = some i → u.state.free i = true) :
    Numbered (u.state.call u.clock request) ∧ Disciplined (u.state.call u.clock request) ∧
      Retired u.clock (u.state.call u.clock request) :=
  ⟨tidy.numbered.call request, tidy.disciplined.call tidy.numbered request free,
    tidy.retired.call request⟩

theorem Tidy.act (tidy : Tidy u) {a : Sessions.Action (redlock n) R E}
    (untouched : a.isTouch = false) (taken : u.act a = some v) : Tidy v := by
  have orderly := tidy.orderly.act taken
  cases Sessions.moved taken with
  | tick later =>
    refine ⟨orderly, tidy.numbered, tidy.disciplined, ?_, tidy.attached⟩
    exact fun i h found gone free => le_trans (tidy.retired i h found gone free) later
  | event acted =>
    exact ⟨orderly, tidy.numbered.act acted, tidy.disciplined.act tidy.numbered acted,
      tidy.retired.act tidy.disciplined acted,
      fun i c found => (tidy.attached i c found).act tidy.disciplined acted⟩
  | withLock service key options =>
    obtain ⟨numbered, disciplined, retired⟩ := tidy.request
      (.acquire service key options.toLockAcquireOptions) nofun
    refine ⟨orderly, numbered, disciplined, retired, ?_⟩
    intro i c found
    rcases getElem?_concat_eq_some found with old | ⟨_, rfl⟩
    · exact (tidy.attached i c old).others (.acquire service key options.toLockAcquireOptions) nofun
    · refine ⟨?_, nofun, fun _ => rfl, nofun⟩
      intro i t task owns
      have before := answer_eq_some.mp (answer_of_call owns)
      have inside := lt_of_getElem? before
      exact absurd inside (lt_irrefl _)
  | @step _ i c c' asks idle found stepped =>
    have coherent := tidy.orderly.coherent i c found
    obtain ⟨own, about⟩ := (tidy.attached i c found).step coherent tidy.orderly.sound
      tidy.retired stepped
    cases asks with
    | none =>
      refine ⟨orderly, tidy.numbered, tidy.disciplined, tidy.retired, ?_⟩
      intro j d seen
      rcases getElem?_set_eq_some seen with ⟨rfl, rfl⟩ | ⟨_, old⟩
      · exact own
      · exact tidy.attached j d old
    | some request =>
      obtain ⟨numbered, disciplined, retired⟩ := tidy.request request
        fun k named => (about request k rfl named).2
      refine ⟨orderly, numbered, disciplined, retired, ?_⟩
      intro j d seen
      rcases getElem?_set_eq_some seen with ⟨rfl, rfl⟩ | ⟨different, old⟩
      · exact own
      · apply (tidy.attached j d old).others request
        intro k named too
        exact different (tidy.orderly.owner_unique found old (about request k rfl named).1 too)
  | touch => cases untouched

theorem tidy_start : Tidy (Sessions.start (redlock n) R E) where
  orderly := Sessions.orderly_start (redlockLaws n)
  numbered := numbered_initial
  disciplined := disciplined_initial
  retired i h found := by simp [Sessions.start] at found
  attached i c found := by simp [Sessions.start] at found

/-- With a Redlock no call ever comes to a result, unless its operation uses the handle. -/
theorem never_resolved {actions : List (Sessions.Action (redlock n) R E)}
    (ran : Steps (Executes Sessions.act) (Sessions.start (redlock n) R E) actions u)
    (untouched : ∀ a ∈ actions, a.isTouch = false) {i : Nat} {c : Session (redlock n) R E}
    (called : u.calls[i]? = some c) (result : R) : c.place ≠ .settled (.resolved result) := by
  have tidy : Tidy u := by
    apply ran.recall (fun past w => (∀ a ∈ past, a.isTouch = false) → Tidy w) _ _ untouched
    · exact fun _ => tidy_start
    · intro past w a x _ before taken allowed
      refine (before fun b mem => allowed b (List.mem_append_left _ mem)).act ?_ taken
      exact allowed a (List.mem_append_right _ List.mem_cons_self)
  exact (tidy.attached i c called).unresolved result

end sessions

end NestApi.Locking.Redlock
