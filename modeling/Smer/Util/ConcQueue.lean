import Smer.Lib.Run

/-!
# The locked queue (`Util/inc/ConcQueue.h`)

A queue behind a mutex, with one condition variable for "not empty" and one for "empty". Every
operation is one stretch under the mutex, or, where its test fails, a wait in which the mutex is
given back and after which the test is made again (`ConcQueue.stretch`). A thread that is woken
makes the test under the mutex like one that has just called.

`QueueRun` is a queue among any number of threads. `notify_one` wakes one waiter of its condition
variable, which one is open, and a waiter can also wake for no reason. The lists `pushed` and
`popped` are the history, in the order in which the mutex was held.
-/

namespace Smer

open Lib

/-- The condition variables, `data_cond` and `empty_cond`. -/
inductive QueueCond where
  | data
  | empty
  deriving DecidableEq

inductive QueueCall (T : Type) where
  | push (newValue : T)
  | pop
  | tryAndPop
  | waitTillNotEmpty
  | waitPushTillEmpty (value : T)

/-- What a stretch under the mutex leaves: the queue, the value returned, and the variable that is
notified. -/
structure Stretch (T : Type) where
  data : List T
  value : Option T
  notify : Option QueueCond

variable {T : Type}

/-- The variable that an operation waits on. -/
def QueueCall.cond : QueueCall T → Option QueueCond
  | .pop | .waitTillNotEmpty => some .data
  | .waitPushTillEmpty _ => some .empty
  | .push _ | .tryAndPop => none

/-- The value that an operation pushes. -/
def QueueCall.value : QueueCall T → Option T
  | .push value | .waitPushTillEmpty value => some value
  | .pop | .tryAndPop | .waitTillNotEmpty => none

namespace ConcQueue

/-- The front is taken off, and the last one to be taken notifies `empty_cond`. -/
def takeFront : List T → Stretch T
  | [] => ⟨[], none, none⟩
  | value :: data => ⟨data, some value, if data.isEmpty then some .empty else none⟩

/-- One stretch of an operation under the mutex, or nothing where the operation has to wait. A null
value is returned as nothing. -/
def stretch (data : List T) : QueueCall T → Option (Stretch T)
  | .push newValue => some ⟨data ++ [newValue], none, some .data⟩
  | .pop => if data.isEmpty then none else some (takeFront data)
  | .tryAndPop => some (takeFront data)
  | .waitTillNotEmpty => if data.isEmpty then none else some ⟨data, none, none⟩
  | .waitPushTillEmpty value =>
    if data.isEmpty then some ⟨data ++ [value], none, some .data⟩ else none

end ConcQueue

/-! ## Threads -/

/-- Where a thread stands. -/
inductive QueueThread (T : Type) where
  /-- outside the queue, with what its last call returned -/
  | out (value : Option T)
  /-- on the way to the mutex -/
  | ready (call : QueueCall T)
  /-- asleep on a condition variable -/
  | blocked (call : QueueCall T)

/-- The operation that a thread is in. -/
def QueueThread.call : QueueThread T → Option (QueueCall T)
  | .out _ => none
  | .ready call | .blocked call => some call

structure QueueRun (T : Type) where
  data : List T
  threads : List (QueueThread T)
  pushed : List T
  popped : List T

inductive QueueAction (T : Type) where
  /-- a thread calls an operation -/
  | call (thread : Nat) (call : QueueCall T)
  /-- a thread holds the mutex; should it notify, it wakes `woken` -/
  | locked (thread : Nat) (woken : Option Nat)
  /-- a thread wakes for no reason -/
  | wake (thread : Nat)

namespace QueueRun

/-- Any number of threads around an empty queue. -/
def start (threads : Nat) : QueueRun T := ⟨[], List.replicate threads (.out none), [], []⟩

/-- The thread sleeps on the variable. -/
def sleeps (cond : QueueCond) : QueueThread T → Bool
  | .blocked call => call.cond = some cond
  | .out _ | .ready _ => false

/-- `notify_one`: one sleeper is woken, and none only where there is none. -/
def notifyOne (threads : List (QueueThread T)) (cond : Option QueueCond) (woken : Option Nat) :
    Option (List (QueueThread T)) :=
  match cond, woken with
  | none, none => some threads
  | none, some _ => none
  | some cond, none => if threads.any (sleeps cond) then none else some threads
  | some cond, some i =>
    match threads[i]? with
    | some (.blocked call) =>
      if call.cond = some cond then some (threads.set i (.ready call)) else none
    | _ => none

def step (q : QueueRun T) : QueueAction T → Option (QueueRun T)
  | .call i call =>
    match q.threads[i]? with
    | some (.out _) => some { q with threads := q.threads.set i (.ready call) }
    | _ => none
  | .locked i woken =>
    match q.threads[i]? with
    | some (.ready call) =>
      match ConcQueue.stretch q.data call with
      | none =>
        if woken.isSome then none else some { q with threads := q.threads.set i (.blocked call) }
      | some done =>
        (notifyOne (q.threads.set i (.out done.value)) done.notify woken).map fun threads =>
          { data := done.data
            threads := threads
            pushed := q.pushed ++ call.value.toList
            popped := q.popped ++ done.value.toList }
    | _ => none
  | .wake i =>
    match q.threads[i]? with
    | some (.blocked call) => some { q with threads := q.threads.set i (.ready call) }
    | _ => none

/-! ## What one step does -/

variable {q q' : QueueRun T}

/-- A notification wakes one sleeper or nobody. -/
theorem notifyOne_cases {threads threads' : List (QueueThread T)} {cond : Option QueueCond}
    {woken : Option Nat} (h : notifyOne threads cond woken = some threads') :
    threads' = threads ∨ ∃ i call, threads[i]? = some (.blocked call) ∧
      threads' = threads.set i (.ready call) := by
  unfold notifyOne at h
  split at h
  · cases h
    exact .inl rfl
  · cases h
  · split at h
    · cases h
    · cases h
      exact .inl rfl
  · split at h
    · rename_i i _ call hblocked
      split at h
      · cases h
        exact .inr ⟨i, call, hblocked, rfl⟩
      · cases h
    · cases h

/-- What a thread does under the mutex: it falls asleep, or it ends its operation and perhaps wakes
a sleeper. -/
theorem step_locked {i : Nat} {woken : Option Nat} (h : q.step (.locked i woken) = some q') :
    ∃ call, q.threads[i]? = some (.ready call) ∧
      (ConcQueue.stretch q.data call = none ∧
          q' = { q with threads := q.threads.set i (.blocked call) } ∨
        ∃ done threads, ConcQueue.stretch q.data call = some done ∧
          notifyOne (q.threads.set i (.out done.value)) done.notify woken = some threads ∧
          q' = ⟨done.data, threads, q.pushed ++ call.value.toList,
            q.popped ++ done.value.toList⟩) := by
  unfold step at h
  dsimp only at h
  split at h
  · rename_i call hready
    refine ⟨call, hready, ?_⟩
    split at h
    · rename_i hwaits
      split at h
      · cases h
      · cases h
        exact .inl ⟨hwaits, rfl⟩
    · rename_i done hdone
      obtain ⟨threads, hnotify, rfl⟩ := Option.map_eq_some_iff.mp h
      exact .inr ⟨done, threads, hdone, hnotify, rfl⟩
  · cases h

theorem step_call {i : Nat} {call : QueueCall T} (h : q.step (.call i call) = some q') :
    (∃ value, q.threads[i]? = some (.out value)) ∧
      q' = { q with threads := q.threads.set i (.ready call) } := by
  unfold step at h
  dsimp only at h
  split at h
  · rename_i value hout
    cases h
    exact ⟨⟨value, hout⟩, rfl⟩
  · cases h

theorem step_wake {i : Nat} (h : q.step (.wake i) = some q') :
    ∃ call, q.threads[i]? = some (.blocked call) ∧
      q' = { q with threads := q.threads.set i (.ready call) } := by
  unfold step at h
  dsimp only at h
  split at h
  · rename_i call hblocked
    cases h
    exact ⟨call, hblocked, rfl⟩
  · cases h

/-- What a stretch does to the queue: the value it pushes goes behind, the value it returns was in
front. -/
theorem stretch_data {data : List T} {call : QueueCall T} {done : Stretch T}
    (h : ConcQueue.stretch data call = some done) :
    data ++ call.value.toList = done.value.toList ++ done.data := by
  cases call with
  | push newValue =>
    cases h
    rfl
  | pop =>
    cases data with
    | nil => cases h
    | cons value data =>
      cases h
      exact List.append_nil _
  | tryAndPop =>
    cases h
    cases data with
    | nil => rfl
    | cons value data => exact List.append_nil _
  | waitTillNotEmpty =>
    cases data with
    | nil => cases h
    | cons value data =>
      cases h
      exact List.append_nil _
  | waitPushTillEmpty value =>
    cases data with
    | nil =>
      cases h
      rfl
    | cons front data => cases h

/-- **First in, first out**: what was pushed is what was popped and what is in the queue, in
order. -/
theorem fifo_step {a : QueueAction T} (fifo : q.pushed = q.popped ++ q.data)
    (h : q.step a = some q') : q'.pushed = q'.popped ++ q'.data := by
  cases a with
  | call i call =>
    obtain ⟨-, rfl⟩ := step_call h
    exact fifo
  | wake i =>
    obtain ⟨call, -, rfl⟩ := step_wake h
    exact fifo
  | locked i woken =>
    obtain ⟨call, -, ⟨-, rfl⟩ | ⟨done, threads, hdone, -, rfl⟩⟩ := step_locked h
    · exact fifo
    · show q.pushed ++ call.value.toList = q.popped ++ done.value.toList ++ done.data
      rw [fifo, List.append_assoc, stretch_data hdone, List.append_assoc]

/-! ## Threads and their calls -/

/-- Every operation that a thread is in has the property. -/
def Calls (P : Nat → QueueCall T → Prop) (threads : List (QueueThread T)) : Prop :=
  ∀ i thread, threads[i]? = some thread → ∀ call ∈ thread.call, P i call

/-- The value that a thread outside the queue has last been returned. -/
def returned (threads : List (QueueThread T)) (i : Nat) : Option T :=
  match threads[i]? with
  | some (.out value) => value
  | _ => none

section Threads

variable {P P' : Nat → QueueCall T → Prop} {threads threads' : List (QueueThread T)}

theorem Calls.set (calls : Calls P threads) {i : Nat} {thread : QueueThread T}
    (hthread : ∀ call ∈ thread.call, P i call) : Calls P (threads.set i thread) := by
  intro j other hother call hcall
  rw [List.getElem?_set] at hother
  split at hother
  · rename_i heq
    split at hother
    · cases hother
      rw [← heq]
      exact hthread call hcall
    · cases hother
  · exact calls j other hother call hcall

/-- A sleeper that is woken is in the operation that it was in. -/
theorem Calls.notifyOne (calls : Calls P threads) {cond : Option QueueCond} {woken : Option Nat}
    (h : notifyOne threads cond woken = some threads') : Calls P threads' := by
  rcases notifyOne_cases h with rfl | ⟨i, call, hblocked, rfl⟩
  · exact calls
  · exact calls.set fun call' hcall' => calls i _ hblocked call' hcall'

theorem Calls.mono (calls : Calls P threads) (weaker : ∀ i call, P i call → P' i call) :
    Calls P' threads :=
  fun i thread hthread call hcall => weaker i call (calls i thread hthread call hcall)

/-- **The operations that threads are in are operations that were called.** -/
theorem Calls.step (calls : Calls P q.threads) {a : QueueAction T} (h : q.step a = some q')
    (called : ∀ i call, a = .call i call → P i call) : Calls P q'.threads := by
  cases a with
  | call i call =>
    obtain ⟨-, rfl⟩ := step_call h
    refine calls.set fun call' hcall' => ?_
    cases hcall'
    exact called i call rfl
  | wake i =>
    obtain ⟨call, hblocked, rfl⟩ := step_wake h
    exact calls.set fun call' hcall' => calls i _ hblocked call' hcall'
  | locked i woken =>
    obtain ⟨call, hready, ⟨-, rfl⟩ | ⟨done, threads, -, hnotify, rfl⟩⟩ := step_locked h
    · exact calls.set fun call' hcall' => calls i _ hready call' hcall'
    · refine Calls.notifyOne (calls.set ?_) hnotify
      rintro call' ⟨⟩

theorem returned_set_ne {i j : Nat} (hne : i ≠ j) (thread : QueueThread T) :
    returned (threads.set i thread) j = returned threads j := by
  rw [returned, returned, List.getElem?_set_ne hne]

/-- A thread in an operation has nothing returned. -/
theorem returned_call {i : Nat} {thread : QueueThread T} {call : QueueCall T}
    (hthread : threads[i]? = some thread) (hcall : thread.call = some call) :
    returned threads i = none := by
  rw [returned, hthread]
  cases thread with
  | out value => cases hcall
  | ready call' => rfl
  | blocked call' => rfl

/-- A thread goes on with an operation that it is in. -/
theorem returned_set_call {i : Nat} {thread thread' : QueueThread T} {call call' : QueueCall T}
    (hthread : threads[i]? = some thread) (hcall : thread.call = some call)
    (hcall' : thread'.call = some call') (j : Nat) :
    returned (threads.set i thread') j = returned threads j := by
  by_cases hne : i = j
  · rw [← hne, returned_call hthread hcall]
    refine returned_call ?_ hcall'
    exact List.getElem?_set_self (List.getElem?_eq_some_iff.mp hthread).1
  · exact returned_set_ne hne thread'

theorem returned_set_out {i : Nat} {thread : QueueThread T} (hthread : threads[i]? = some thread)
    (value : Option T) : returned (threads.set i (.out value)) i = value := by
  rw [returned, List.getElem?_set_self (List.getElem?_eq_some_iff.mp hthread).1]

/-- A notification returns nothing to anybody. -/
theorem returned_notifyOne {cond : Option QueueCond} {woken : Option Nat}
    (h : notifyOne threads cond woken = some threads') (j : Nat) :
    returned threads' j = returned threads j := by
  rcases notifyOne_cases h with rfl | ⟨i, call, hblocked, rfl⟩
  · rfl
  · exact returned_set_call hblocked rfl rfl j

end Threads

end QueueRun

end Smer
