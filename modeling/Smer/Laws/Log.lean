import Smer.Laws.WakeUps
import Smer.Log.Log

/-!
# What becomes of a log line

In every run of the threads that put lines and of the worker that writes them, the lines are written
in the order in which they were put, each once, and each file has a beginning of its lines
(`logged_of_reaches`): where a write fails, the file ends there. The worker is the only one who waits
at the queue, so no wake-up is lost, and left to itself it writes everything that was put
(`drains_of_reaches`).

Lines that are queued when the process ends are lost with it; nothing is established about them.
-/

namespace Smer

open Lib

namespace LogRun

/-- The line that the writer has popped and not yet written. -/
def hand (s : LogRun) : List Bytes :=
  match s.writer with
  | .popping => (QueueRun.returned s.queue.threads 0).toList
  | .look | .looking => []
  | .name log | .write _ log => [log]

/-- The lines that went to a file. -/
def linesOf (s : LogRun) (path : Bytes) : List Bytes :=
  (s.written.filter fun e => MyLog.file e.1 = path).map Prod.snd

/-- Where the writer's thread is when the writer stands there. -/
def AtQueue : LogPoint → QueueThread Bytes → Prop
  | .looking, thread => (∃ value, thread = .out value) ∨ thread.call = some .waitTillNotEmpty
  | .popping, thread => (∃ log, thread = .out (some log)) ∨ thread.call = some .pop
  | .look, thread | .name _, thread | .write _ _, thread => ∃ value, thread = .out value

/-- The other threads do nothing at the queue but put lines. -/
def PutsOnly (i : Nat) (call : QueueCall Bytes) : Prop :=
  i ≠ 0 → ∃ entry : LogEntry, call = .push entry.log

structure Inv (files : Files) (s : LogRun) : Prop where
  fifo : s.queue.pushed = s.queue.popped ++ s.queue.data
  popped : s.queue.popped = s.written.map Prod.snd ++ s.hand
  writer : ∃ thread, s.queue.threads[0]? = some thread ∧ AtQueue s.writer thread
  others : QueueRun.Calls PutsOnly s.queue.threads
  served : QueueRun.Served s.queue.data s.queue.threads
  files : ∀ path, s.io.Holds s.files path (files path) (s.linesOf path)
  genuine : ∀ log ∈ s.queue.pushed, ∃ entry : LogEntry, log = entry.log

/-- What holds of the log in every run: the order of the lines from the callers to the files, and
what each file has. -/
structure Logged (files : Files) (s : LogRun) : Prop where
  /-- the lines are written in the order in which they were put, each once -/
  order : s.queue.pushed = s.written.map Prod.snd ++ s.hand ++ s.queue.data
  genuine : ∀ log ∈ s.queue.pushed, ∃ entry : LogEntry, log = entry.log
  /-- a file has what it had before, and a beginning of the lines that went to it -/
  kept : ∀ path, files path <+: s.files path
  begun : ∀ path, s.files path <+: files path ++ (s.linesOf path).flatten

section Inv

variable {files : Files} {s s' : LogRun} {q : QueueRun Bytes}

theorem inv_start (threads : Nat) (files : Files) (hthreads : 0 < threads) :
    (start threads files).Inv files where
  fifo := rfl
  popped := rfl
  writer := by
    refine ⟨.out none, ?_, none, rfl⟩
    show (List.replicate threads (QueueThread.out none))[0]? = _
    rw [List.getElem?_replicate, if_pos hthreads]
  others := by
    intro i thread hthread call hcall
    rw [List.eq_of_mem_replicate (List.mem_of_getElem? hthread)] at hcall
    cases hcall
  served := QueueRun.served_start threads
  files := FileIo.holds_start files
  genuine := by rintro log ⟨⟩

/-- An operation that waits at the queue is the writer's. -/
theorem waits_eq_zero (others : QueueRun.Calls PutsOnly s.queue.threads) {i : Nat}
    {thread : QueueThread Bytes} {call : QueueCall Bytes} {cond : QueueCond}
    (hi : s.queue.threads[i]? = some thread) (hcall : thread.call = some call)
    (hcond : call.cond = some cond) : i = 0 := by
  by_contra hne
  obtain ⟨entry, rfl⟩ := others i thread hi call hcall hne
  cases hcond

/-- Nobody sleeps at the queue while the writer does not. -/
theorem sleepers_eq_zero (others : QueueRun.Calls PutsOnly s.queue.threads)
    (awake : ∀ call, s.queue.threads[0]? ≠ some (.blocked call)) (cond : QueueCond) :
    QueueRun.sleepers cond s.queue.threads = 0 := by
  rw [QueueRun.sleepers, List.countP_eq_zero]
  intro thread hthread hsleeps
  obtain ⟨i, hi⟩ := List.mem_iff_getElem?.mp hthread
  cases thread with
  | out value => cases hsleeps
  | ready call => cases hsleeps
  | blocked call =>
    have hzero := waits_eq_zero others hi rfl (of_decide_eq_true hsleeps)
    rw [hzero] at hi
    exact awake call hi

/-- The writer's look leaves nobody asleep. -/
theorem Inv.spares (inv : s.Inv files) (a : QueueAction Bytes) : s.queue.Spares a := by
  cases a with
  | call i call => trivial
  | wake i => trivial
  | locked i woken =>
    intro hready hdata hsleepers
    have hzero := waits_eq_zero inv.others hready rfl rfl
    rw [hzero] at hready
    have awake : ∀ call, s.queue.threads[0]? ≠ some (.blocked call) := by
      intro call hblocked
      rw [hready] at hblocked
      cases hblocked
    rw [sleepers_eq_zero inv.others awake] at hsleepers
    cases hsleepers

/-- What a step at the queue keeps, of whichever thread. -/
theorem Inv.queue (inv : s.Inv files) {a : QueueAction Bytes} (h : s.queue.step a = some q)
    (called : ∀ i call, a = .call i call → PutsOnly i call)
    (writer : ∃ thread, q.threads[0]? = some thread ∧ AtQueue s.writer thread)
    (popped : q.popped = s.written.map Prod.snd ++ hand { s with queue := q })
    (genuine : ∀ log ∈ q.pushed, ∃ entry : LogEntry, log = entry.log) :
    Inv files { s with queue := q } where
  fifo := QueueRun.fifo_step inv.fifo h
  popped := popped
  writer := writer
  others := inv.others.step h called
  served := inv.served.step (inv.spares a) h
  files := inv.files
  genuine := genuine

/-- A thread that goes on with its operation is as much at the queue as before. -/
theorem AtQueue.same {point : LogPoint} {thread thread' : QueueThread Bytes}
    {call : QueueCall Bytes} (at_ : AtQueue point thread) (hcall : thread.call = some call)
    (hcall' : thread'.call = some call) : AtQueue point thread' := by
  have hout : ∀ value, thread ≠ .out value := by
    rintro value rfl
    cases hcall
  cases point with
  | look | name log | write now log =>
    obtain ⟨value, rfl⟩ := at_
    exact absurd rfl (hout value)
  | looking | popping =>
    rcases at_ with ⟨value, rfl⟩ | hsame
    · exact absurd rfl (hout _)
    · exact .inr (hcall'.trans (hcall.symm.trans hsame))

/-- A thread goes on with the operation that it is in. -/
theorem writer_set {point : LogPoint} {threads : List (QueueThread Bytes)} {i : Nat}
    {thread thread' : QueueThread Bytes} {call : QueueCall Bytes}
    (writer : ∃ thread, threads[0]? = some thread ∧ AtQueue point thread)
    (hi : threads[i]? = some thread) (hcall : thread.call = some call)
    (hcall' : thread'.call = some call) :
    ∃ thread, (threads.set i thread')[0]? = some thread ∧ AtQueue point thread := by
  obtain ⟨first, hfirst, at_⟩ := writer
  by_cases hne : i = 0
  · subst hne
    rw [hi] at hfirst
    cases hfirst
    refine ⟨thread', ?_, at_.same hcall hcall'⟩
    exact List.getElem?_set_self (List.getElem?_eq_some_iff.mp hi).1
  · exact ⟨first, by rw [List.getElem?_set_ne hne, hfirst], at_⟩

/-- A notification leaves the writer where it is. -/
theorem writer_notifyOne {point : LogPoint} {threads threads' : List (QueueThread Bytes)}
    {cond : Option QueueCond} {woken : Option Nat}
    (writer : ∃ thread, threads[0]? = some thread ∧ AtQueue point thread)
    (h : QueueRun.notifyOne threads cond woken = some threads') :
    ∃ thread, threads'[0]? = some thread ∧ AtQueue point thread := by
  rcases QueueRun.notifyOne_cases h with rfl | ⟨i, call, hblocked, rfl⟩
  · exact writer
  · exact writer_set writer hblocked rfl rfl

/-- What the writer holds depends on what its last operation has returned. -/
theorem hand_congr (hreturned : QueueRun.returned q.threads 0 =
    QueueRun.returned s.queue.threads 0) : hand { s with queue := q } = s.hand := by
  rw [hand, hand, hreturned]

/-- Some thread puts a line: it goes behind the others, and nothing is written by it. -/
theorem Inv.put (inv : s.Inv files) {i : Nat} {entry : LogEntry} (hi : i ≠ 0)
    (h : s.queue.step (.call i (.push entry.log)) = some q) : Inv files { s with queue := q } := by
  have hstep := h
  obtain ⟨⟨value, hout⟩, rfl⟩ := QueueRun.step_call hstep
  refine inv.queue h (fun j call hcall _ => ?_) ?_ ?_ inv.genuine
  · cases hcall
    exact ⟨entry, rfl⟩
  · obtain ⟨first, hfirst, at_⟩ := inv.writer
    exact ⟨first, by rw [List.getElem?_set_ne hi, hfirst], at_⟩
  · rw [hand_congr (QueueRun.returned_set_ne hi _)]
    exact inv.popped

/-- A thread wakes, notified or for no reason, and will look again. -/
theorem Inv.wake (inv : s.Inv files) {i : Nat} (h : s.queue.step (.wake i) = some q) :
    Inv files { s with queue := q } := by
  have hstep := h
  obtain ⟨call, hblocked, rfl⟩ := QueueRun.step_wake hstep
  refine inv.queue h nofun (writer_set inv.writer hblocked rfl rfl) ?_ inv.genuine
  rw [hand_congr (QueueRun.returned_set_call hblocked rfl rfl 0)]
  exact inv.popped

/-- What a line that is put under the mutex changes. -/
theorem Inv.lockedPut (inv : s.Inv files) {i : Nat} {woken : Option Nat} {call : QueueCall Bytes}
    {done : Stretch Bytes} {threads : List (QueueThread Bytes)} (hi : i ≠ 0)
    (hready : s.queue.threads[i]? = some (.ready call))
    (hdone : ConcQueue.stretch s.queue.data call = some done)
    (hnotify : QueueRun.notifyOne (s.queue.threads.set i (.out done.value)) done.notify woken =
      some threads)
    (h : s.queue.step (.locked i woken) = some ⟨done.data, threads,
      s.queue.pushed ++ call.value.toList, s.queue.popped ++ done.value.toList⟩) :
    Inv files { s with queue := ⟨done.data, threads, s.queue.pushed ++ call.value.toList,
      s.queue.popped ++ done.value.toList⟩ } := by
  obtain ⟨entry, rfl⟩ := inv.others i _ hready _ rfl hi
  cases hdone
  refine inv.queue h nofun (writer_notifyOne ?_ hnotify) ?_ fun log hlog => ?_
  · obtain ⟨first, hfirst, at_⟩ := inv.writer
    exact ⟨first, by rw [List.getElem?_set_ne hi, hfirst], at_⟩
  · have hreturned := QueueRun.returned_notifyOne hnotify 0
    rw [QueueRun.returned_set_ne hi] at hreturned
    rw [hand_congr hreturned]
    exact (List.append_nil _).trans inv.popped
  · rcases List.mem_append.mp hlog with hold | hnew
    · exact inv.genuine log hold
    · exact ⟨entry, List.mem_singleton.mp hnew⟩

/-- The writer is in an operation at two of its points. -/
theorem AtQueue.call_cases {point : LogPoint} {thread : QueueThread Bytes}
    {call : QueueCall Bytes} (at_ : AtQueue point thread) (hcall : thread.call = some call) :
    point = .looking ∧ call = .waitTillNotEmpty ∨ point = .popping ∧ call = .pop := by
  have hout : ∀ value, thread ≠ .out value := by
    rintro value rfl
    cases hcall
  cases point with
  | look | name log | write now log =>
    obtain ⟨value, rfl⟩ := at_
    exact absurd rfl (hout value)
  | looking =>
    rcases at_ with ⟨value, rfl⟩ | hsame
    · exact absurd rfl (hout _)
    · exact .inl ⟨rfl, Option.some.inj (hcall.symm.trans hsame)⟩
  | popping =>
    rcases at_ with ⟨value, rfl⟩ | hsame
    · exact absurd rfl (hout _)
    · exact .inr ⟨rfl, Option.some.inj (hcall.symm.trans hsame)⟩

/-- The writer ends its own operation under the mutex: a look leaves the queue as it is, and a `pop`
takes its first line into the hand. -/
theorem Inv.lockedWriter (inv : s.Inv files) {woken : Option Nat} {call : QueueCall Bytes}
    {done : Stretch Bytes} {threads : List (QueueThread Bytes)}
    (hready : s.queue.threads[0]? = some (.ready call))
    (hdone : ConcQueue.stretch s.queue.data call = some done)
    (hnotify : QueueRun.notifyOne (s.queue.threads.set 0 (.out done.value)) done.notify woken =
      some threads)
    (h : s.queue.step (.locked 0 woken) = some ⟨done.data, threads,
      s.queue.pushed ++ call.value.toList, s.queue.popped ++ done.value.toList⟩) :
    Inv files { s with queue := ⟨done.data, threads, s.queue.pushed ++ call.value.toList,
      s.queue.popped ++ done.value.toList⟩ } := by
  obtain ⟨first, hfirst, at_⟩ := inv.writer
  cases hready.symm.trans hfirst
  have hlt := (List.getElem?_eq_some_iff.mp hready).1
  have hself : (s.queue.threads.set 0 (.out done.value))[0]? = some (.out done.value) :=
    List.getElem?_set_self hlt
  have hreturned : QueueRun.returned threads 0 = done.value :=
    (QueueRun.returned_notifyOne hnotify 0).trans (QueueRun.returned_set_out hready _)
  have hpopped := inv.popped
  cases hdata : s.queue.data with
  | nil =>
    rw [hdata] at hdone
    obtain ⟨-, rfl⟩ | ⟨-, rfl⟩ := at_.call_cases rfl
    · cases hdone
    · cases hdone
  | cons log data =>
    rw [hdata] at hdone
    obtain ⟨hpoint, rfl⟩ | ⟨hpoint, rfl⟩ := at_.call_cases rfl
    · cases hdone
      refine inv.queue h nofun (writer_notifyOne ⟨_, hself, ?_⟩ hnotify) ?_ fun line hline => ?_
      · rw [hpoint]
        exact .inl ⟨_, rfl⟩
      · rw [hand, hpoint] at hpopped ⊢
        exact (List.append_nil _).trans hpopped
      · rw [QueueCall.value, Option.toList_none, List.append_nil] at hline
        exact inv.genuine line hline
    · cases hdone
      refine inv.queue h nofun (writer_notifyOne ⟨_, hself, ?_⟩ hnotify) ?_ fun line hline => ?_
      · rw [hpoint]
        exact .inl ⟨log, rfl⟩
      · simp only [hand, hpoint, hreturned, QueueRun.returned_call hready rfl,
          Option.toList_none, List.append_nil] at hpopped ⊢
        rw [hpopped]
      · rw [QueueCall.value, Option.toList_none, List.append_nil] at hline
        exact inv.genuine line hline

theorem Inv.locked (inv : s.Inv files) {i : Nat} {woken : Option Nat}
    (h : s.queue.step (.locked i woken) = some q) : Inv files { s with queue := q } := by
  have hstep := h
  obtain ⟨call, hready, ⟨-, rfl⟩ | ⟨done, threads, hdone, hnotify, rfl⟩⟩ :=
    QueueRun.step_locked hstep
  · refine inv.queue h nofun (writer_set inv.writer hready rfl rfl) ?_ inv.genuine
    rw [hand_congr (QueueRun.returned_set_call hready rfl rfl 0)]
    exact inv.popped
  · by_cases hi : i = 0
    · subst hi
      exact inv.lockedWriter hready hdone hnotify h
    · exact inv.lockedPut hi hready hdone hnotify h

/-- The writer calls an operation of the queue. -/
theorem Inv.writerCalls (inv : s.Inv files) {call : QueueCall Bytes} {point : LogPoint}
    (h : s.queue.step (.call 0 call) = some q)
    (at_ : ∀ thread, thread.call = some call → AtQueue point thread)
    (hempty : hand { s with writer := point, queue := q } = s.hand) :
    Inv files { s with queue := q, writer := point } := by
  have hstep := h
  obtain ⟨⟨value, hout⟩, rfl⟩ := QueueRun.step_call hstep
  have hlt := (List.getElem?_eq_some_iff.mp hout).1
  refine ⟨inv.fifo, ?_, ⟨.ready call, List.getElem?_set_self hlt, at_ _ rfl⟩,
    inv.others.step h fun i call' hcall hne => ?_, inv.served.step (inv.spares _) h, inv.files,
    inv.genuine⟩
  · rw [hempty]
    exact inv.popped
  · cases hcall
    exact absurd rfl hne

/-- The writer writes a line to the day's file. -/
theorem Inv.writes (inv : s.Inv files) {now : LocalTime} {log : Bytes}
    (hpoint : s.writer = .write now log) (outcome : FileOutcome) : Inv files { s with
      writer := .look
      io := (s.io.writeToFile s.files (MyLog.file now) log outcome).1
      files := (s.io.writeToFile s.files (MyLog.file now) log outcome).2
      written := s.written ++ [(now, log)] } := by
  obtain ⟨first, hfirst, at_⟩ := inv.writer
  rw [hpoint] at at_
  refine ⟨inv.fifo, ?_, ⟨first, hfirst, at_⟩, inv.others, inv.served, fun path => ?_, inv.genuine⟩
  · show s.queue.popped = (s.written ++ [(now, log)]).map Prod.snd ++ []
    rw [inv.popped, hand, hpoint, List.map_append, List.append_nil]
    rfl
  · show FileIo.Holds _ _ path (files path) (((s.written ++ [(now, log)]).filter _).map Prod.snd)
    rw [List.filter_append, List.map_append, List.filter_singleton]
    by_cases hfile : MyLog.file now = path
    · rw [decide_eq_true hfile]
      subst hfile
      exact (inv.files _).write outcome
    · rw [decide_eq_false hfile]
      have hold := (inv.files path).other hfile outcome log
      rw [linesOf] at hold
      simpa using hold

/-- The writer goes on outside the queue. -/
theorem Inv.moves (inv : s.Inv files) {point : LogPoint}
    (writer : ∃ thread, s.queue.threads[0]? = some thread ∧ AtQueue point thread)
    (hhand : hand { s with writer := point } = s.hand) : Inv files { s with writer := point } := by
  refine ⟨inv.fifo, ?_, writer, inv.others, inv.served, inv.files, inv.genuine⟩
  rw [hhand]
  exact inv.popped

theorem Inv.writerStep (inv : s.Inv files) {now : LocalTime} {outcome : FileOutcome}
    (h : s.writerStep now outcome = some s') : s'.Inv files := by
  unfold LogRun.writerStep at h
  split at h
  · rename_i hpoint
    obtain ⟨q, hq, rfl⟩ := Option.map_eq_some_iff.mp h
    refine inv.writerCalls hq (fun thread hcall => .inr hcall) ?_
    rw [hand, hand, hpoint]
  · rename_i hpoint _
    obtain ⟨q, hq, rfl⟩ := Option.map_eq_some_iff.mp h
    obtain ⟨⟨value, hout⟩, rfl⟩ := QueueRun.step_call hq
    have hlt := (List.getElem?_eq_some_iff.mp hout).1
    refine inv.writerCalls hq (fun thread hcall => .inr hcall) ?_
    simp only [hand, hpoint]
    rw [QueueRun.returned_call (List.getElem?_set_self hlt) rfl, Option.toList_none]
  · rename_i log hpoint hout
    cases h
    refine inv.moves ⟨_, hout, _, rfl⟩ ?_
    rw [hand, hand, hpoint, QueueRun.returned, hout]
    rfl
  · rename_i log hpoint
    cases h
    obtain ⟨first, hfirst, at_⟩ := inv.writer
    rw [hpoint] at at_
    refine inv.moves ⟨first, hfirst, at_⟩ ?_
    rw [hand, hand, hpoint]
  · rename_i now' log hpoint
    cases h
    exact inv.writes hpoint outcome
  · cases h

theorem Inv.step (inv : s.Inv files) {a : LogAction} (h : s.step a = some s') : s'.Inv files := by
  cases a with
  | put i entry =>
    rw [LogRun.step, Option.ite_none_left_eq_some] at h
    obtain ⟨q, hq, rfl⟩ := Option.map_eq_some_iff.mp h.2
    exact inv.put h.1 hq
  | locked i woken =>
    obtain ⟨q, hq, rfl⟩ := Option.map_eq_some_iff.mp h
    exact inv.locked hq
  | wake i =>
    obtain ⟨q, hq, rfl⟩ := Option.map_eq_some_iff.mp h
    exact inv.wake hq
  | writer now outcome => exact inv.writerStep h

theorem inv_of_reaches {threads : Nat} (hthreads : 0 < threads)
    (reach : Reaches step (fun _ _ => True) (start threads files) s) : s.Inv files :=
  reach.invariant (inv_start threads files hthreads) fun _ _ _ inv _ h => inv.step h

/-- **A line is written once, behind those that were put before it**, and a file has nothing but its
lines, up to where a write has failed. -/
theorem logged_of_reaches {threads : Nat} (hthreads : 0 < threads)
    (reach : Reaches step (fun _ _ => True) (start threads files) s) : s.Logged files := by
  have inv := inv_of_reaches hthreads reach
  refine ⟨?_, inv.genuine, fun path => (inv.files path).grows, fun path => (inv.files path).pre⟩
  rw [inv.fifo, inv.popped]

end Inv

/-! ## The writer alone -/

/-- The steps of the writer that nobody has to wake for no reason. -/
def WriterOnly : LogAction → Prop
  | .locked i _ => i = 0
  | .writer _ _ => True
  | .put _ _ | .wake _ => False

/-- How many steps the writer can take at most, until it sleeps on an empty queue. -/
def toDo (s : LogRun) : Nat :=
  8 * s.queue.data.length +
    match s.writer, s.queue.threads[0]? with
    | .look, _ => 5
    | .looking, some (QueueThread.ready _) => 4
    | .looking, some (QueueThread.out _) => 3
    | .popping, some (QueueThread.ready _) => 2
    | .popping, some (QueueThread.out _) => 9
    | .name _, _ => 8
    | .write _ _, _ => 7
    | _, _ => 1

/-- What comes of the writer's steps, while no other thread takes one. -/
structure Drains (s : LogRun) : Prop where
  bounded : ∀ as s', (∀ a ∈ as, WriterOnly a) → play step as s = some s' → as.length ≤ s.toDo
  finished : ∀ as s', (∀ a ∈ as, WriterOnly a) → play step as s = some s' →
    (∀ a, WriterOnly a → s'.step a = none) → s'.written.map Prod.snd = s.queue.pushed

section Alone

variable {files : Files} {s s' : LogRun} {q : QueueRun Bytes}

/-- A notification leaves those alone that are outside the queue. -/
theorem out_notifyOne {threads threads' : List (QueueThread Bytes)} {i : Nat}
    {value : Option Bytes} {cond : Option QueueCond} {woken : Option Nat}
    (hout : threads[i]? = some (.out value))
    (h : QueueRun.notifyOne threads cond woken = some threads') :
    threads'[i]? = some (.out value) := by
  rcases QueueRun.notifyOne_cases h with rfl | ⟨j, call, hblocked, rfl⟩
  · exact hout
  · have hne : j ≠ i := by
      rintro rfl
      rw [hout] at hblocked
      cases hblocked
    rw [List.getElem?_set_ne hne, hout]

/-- What the writer does under the mutex. -/
theorem Inv.locked_cases (inv : s.Inv files) {woken : Option Nat}
    (h : s.queue.step (.locked 0 woken) = some q) :
    q.pushed = s.queue.pushed ∧ toDo { s with queue := q } < s.toDo := by
  obtain ⟨first, hfirst, at_⟩ := inv.writer
  obtain ⟨call, hready, hend⟩ := QueueRun.step_locked h
  cases hready.symm.trans hfirst
  have hlt := (List.getElem?_eq_some_iff.mp hready).1
  rcases hend with ⟨-, rfl⟩ | ⟨done, threads, hdone, hnotify, rfl⟩
  · refine ⟨rfl, ?_⟩
    obtain ⟨hpoint, rfl⟩ | ⟨hpoint, rfl⟩ := at_.call_cases rfl
    · simp only [toDo, hpoint, hready, List.getElem?_set_self hlt]
      omega
    · simp only [toDo, hpoint, hready, List.getElem?_set_self hlt]
      omega
  · cases hdata : s.queue.data with
    | nil =>
      rw [hdata] at hdone
      obtain ⟨-, rfl⟩ | ⟨-, rfl⟩ := at_.call_cases rfl
      · cases hdone
      · cases hdone
    | cons log data =>
      rw [hdata] at hdone
      obtain ⟨hpoint, rfl⟩ | ⟨hpoint, rfl⟩ := at_.call_cases rfl
      · cases hdone
        refine ⟨List.append_nil _, ?_⟩
        rw [QueueRun.notifyOne_none hnotify]
        simp only [toDo, hpoint, hready, hdata, List.getElem?_set_self hlt]
        omega
      · cases hdone
        refine ⟨List.append_nil _, ?_⟩
        have hout := out_notifyOne (List.getElem?_set_self hlt) hnotify
        simp only [toDo, hpoint, hready, hdata, hout, ConcQueue.takeFront, List.length_cons]
        omega

/-- Every step of the writer leaves it less to do, and puts nothing into the queue. -/
theorem Inv.writerOnly (inv : s.Inv files) {a : LogAction} (only : WriterOnly a)
    (h : s.step a = some s') : s'.queue.pushed = s.queue.pushed ∧ s'.toDo < s.toDo := by
  cases a with
  | put i entry => exact only.elim
  | wake i => exact only.elim
  | locked i woken =>
    obtain rfl : i = 0 := only
    obtain ⟨q, hq, rfl⟩ := Option.map_eq_some_iff.mp h
    exact inv.locked_cases hq
  | writer now outcome =>
    have h : s.writerStep now outcome = some s' := h
    unfold LogRun.writerStep at h
    split at h
    · rename_i hpoint
      obtain ⟨q, hq, rfl⟩ := Option.map_eq_some_iff.mp h
      obtain ⟨⟨value, hout⟩, rfl⟩ := QueueRun.step_call hq
      have hlt := (List.getElem?_eq_some_iff.mp hout).1
      refine ⟨rfl, ?_⟩
      simp only [toDo, hpoint, List.getElem?_set_self hlt]
      omega
    · rename_i hpoint hout
      obtain ⟨q, hq, rfl⟩ := Option.map_eq_some_iff.mp h
      obtain ⟨-, rfl⟩ := QueueRun.step_call hq
      have hlt := (List.getElem?_eq_some_iff.mp hout).1
      refine ⟨rfl, ?_⟩
      simp only [toDo, hpoint, hout, List.getElem?_set_self hlt]
      omega
    · rename_i hpoint hout
      cases h
      refine ⟨rfl, ?_⟩
      simp only [toDo, hpoint, hout]
      omega
    · rename_i hpoint
      cases h
      refine ⟨rfl, ?_⟩
      simp only [toDo, hpoint]
      omega
    · rename_i hpoint
      cases h
      refine ⟨rfl, ?_⟩
      simp only [toDo, hpoint]
      omega
    · cases h

/-- Where nobody sleeps, a notification wakes nobody. -/
theorem notifyOne_nobody {threads : List (QueueThread Bytes)}
    (nobody : ∀ cond, QueueRun.sleepers cond threads = 0) (cond : Option QueueCond) :
    QueueRun.notifyOne threads cond none = some threads := by
  cases cond with
  | none => rfl
  | some cond =>
    rw [QueueRun.notifyOne, if_neg]
    intro hany
    obtain ⟨thread, hthread, hsleeps⟩ := List.any_eq_true.mp hany
    exact List.countP_eq_zero.mp (nobody cond) thread hthread hsleeps

/-- The writer can always go on in the mutex. -/
theorem Inv.locked_ne_none (inv : s.Inv files) {call : QueueCall Bytes}
    (hready : s.queue.threads[0]? = some (.ready call)) : s.step (.locked 0 none) ≠ none := by
  have awake : ∀ call, s.queue.threads[0]? ≠ some (.blocked call) := by
    intro call hblocked
    rw [hready] at hblocked
    cases hblocked
  rw [LogRun.step, QueueRun.step, hready]
  dsimp only
  split
  · exact Option.some_ne_none _
  · rename_i done hdone
    have nobody : ∀ cond,
        QueueRun.sleepers cond (s.queue.threads.set 0 (.out done.value)) = 0 := by
      intro cond
      rw [(QueueRun.counts_ended hready done.value cond).1, sleepers_eq_zero inv.others awake]
    rw [notifyOne_nobody nobody]
    exact Option.some_ne_none _

/-- While the writer sleeps, the queue is empty. -/
theorem Inv.asleep (inv : s.Inv files) {call : QueueCall Bytes}
    (hblocked : s.queue.threads[0]? = some (.blocked call)) : s.queue.data = [] := by
  obtain ⟨first, hfirst, at_⟩ := inv.writer
  cases hblocked.symm.trans hfirst
  have hcond : call.cond = some .data := by
    obtain ⟨-, rfl⟩ | ⟨-, rfl⟩ := at_.call_cases rfl
    · rfl
    · rfl
  have hsleeps : 0 < QueueRun.sleepers .data s.queue.threads :=
    List.countP_pos_iff.mpr ⟨_, List.mem_of_getElem? hblocked, decide_eq_true hcond⟩
  have hrunners : QueueRun.runners .data s.queue.threads = 0 := by
    rw [QueueRun.runners, List.countP_eq_zero]
    intro thread hthread hruns
    obtain ⟨i, hi⟩ := List.mem_iff_getElem?.mp hthread
    cases thread with
    | out value => cases hruns
    | blocked call' => cases hruns
    | ready call' =>
      have hzero := waits_eq_zero inv.others hi rfl (of_decide_eq_true hruns)
      rw [hzero, hblocked] at hi
      cases hi
  have hlen := inv.served.elements hsleeps
  rw [hrunners] at hlen
  exact List.length_eq_zero_iff.mp (Nat.le_zero.mp hlen)

/-- **A writer that can go no further has written everything.** -/
theorem Inv.finished (inv : s.Inv files) (stops : ∀ a, WriterOnly a → s.step a = none) :
    s.written.map Prod.snd = s.queue.pushed := by
  have hstop : s.writerStep ⟨0, 0, 0, 0, 0, 0⟩ ⟨true, 0⟩ = none := stops (.writer _ _) trivial
  have hready : ∀ call, s.queue.threads[0]? ≠ some (.ready call) := fun call hready =>
    inv.locked_ne_none hready (stops (.locked 0 none) rfl)
  have done : s.queue.data = [] → s.hand = [] → s.written.map Prod.snd = s.queue.pushed := by
    intro hdata hhand
    rw [inv.fifo, inv.popped, hdata, hhand, List.append_nil, List.append_nil]
  obtain ⟨first, hfirst, at_⟩ := inv.writer
  cases first with
  | ready call => exact absurd hfirst (hready call)
  | blocked call =>
    refine done (inv.asleep hfirst) ?_
    obtain ⟨hpoint, -⟩ | ⟨hpoint, -⟩ := at_.call_cases rfl
    · rw [hand, hpoint]
    · rw [hand, hpoint]
      dsimp only
      rw [QueueRun.returned_call hfirst rfl, Option.toList_none]
  | out value =>
    exfalso
    unfold LogRun.writerStep at hstop
    cases hpoint : s.writer with
    | look | looking =>
      simp only [hpoint, hfirst, QueueRun.step] at hstop
      cases hstop
    | popping =>
      rw [hpoint] at at_
      obtain ⟨log, ⟨⟩⟩ | hcall := at_
      · simp only [hpoint, hfirst] at hstop
        cases hstop
      · cases hcall
    | name log | write now log =>
      simp only [hpoint] at hstop
      cases hstop

/-- **Left to itself the writer writes everything that was put**, in as many steps at most as it has
to do. -/
theorem drains_of_reaches {threads : Nat} (hthreads : 0 < threads)
    (reach : Reaches step (fun _ _ => True) (start threads files) s) : s.Drains := by
  have inv := inv_of_reaches hthreads reach
  have ranked : ∀ as s', (∀ a ∈ as, WriterOnly a) → play step as s = some s' →
      (s'.Inv files ∧ s'.queue.pushed = s.queue.pushed) ∧ as.length + s'.toDo ≤ s.toDo := by
    intro as s' only h
    refine play_ranked WriterOnly (I := fun s₁ => s₁.Inv files ∧ s₁.queue.pushed = s.queue.pushed)
      (fun s₁ s₂ a kept honly hs => ?_) ⟨inv, rfl⟩ only h
    obtain ⟨hpushed, hless⟩ := kept.1.writerOnly honly hs
    exact ⟨⟨kept.1.step hs, hpushed.trans kept.2⟩, hless⟩
  refine ⟨fun as s' only h => ?_, fun as s' only h stops => ?_⟩
  · exact (Nat.le_add_right _ _).trans (ranked as s' only h).2
  · obtain ⟨⟨inv', hpushed⟩, -⟩ := ranked as s' only h
    rw [← hpushed]
    exact inv'.finished stops

end Alone

/-! ## Two days -/

def noFiles : Files := fun _ => []

def lastSecond : LocalTime := ⟨2024, 1, 31, 23, 59, 59⟩

def midnight : LocalTime := ⟨2024, 2, 1, 0, 0, 0⟩

def whole : FileOutcome := ⟨true, 1000⟩

/-- A line is put, and the writer writes it on that day. -/
def putAndWritten (entry : LogEntry) (day : LocalTime) : List LogAction :=
  [.put 1 entry, .locked 1 none, .writer day whole, .locked 0 none, .writer day whole,
    .locked 0 none, .writer day whole, .writer day whole, .writer day whole]

/-- Two lines are put in the last second of a day, and the second is written on the next day. -/
def overMidnight : List LogAction :=
  putAndWritten ⟨.error, lastSecond, ascii "Run error"⟩ lastSecond ++
    putAndWritten ⟨.info, lastSecond, ascii "accept"⟩ midnight

theorem logged_overMidnight : ∃ s, play step overMidnight (start 2 noFiles) = some s ∧
    s.files (ascii "../log/20240201.log") = ascii "[ 23:59:59 -INFO- : ] accept\n" ∧
    s.Logged noFiles := by
  have hplays : (play step overMidnight (start 2 noFiles)).map
      (fun s => s.files (ascii "../log/20240201.log")) =
      some (ascii "[ 23:59:59 -INFO- : ] accept\n") := by decide +kernel
  obtain ⟨s, hs, hfile⟩ := Option.map_eq_some_iff.mp hplays
  exact ⟨s, hs, hfile, logged_of_reaches (by decide) (Reaches.play .refl hs)⟩

/-- One line is in the queue, and the writer has at most thirteen steps to take. -/
theorem drains_put : ∃ s,
    play step (overMidnight.take 2) (start 2 noFiles) = some s ∧ s.toDo = 13 ∧ s.Drains := by
  have hplays : (play step (overMidnight.take 2) (start 2 noFiles)).map toDo = some 13 := by
    decide +kernel
  obtain ⟨s, hs, htodo⟩ := Option.map_eq_some_iff.mp hplays
  exact ⟨s, hs, htodo, drains_of_reaches (by decide) (Reaches.play .refl hs)⟩

end LogRun

end Smer
