import Smer.Lib.Custody
import Smer.Util.ConcQueue

/-!
# Wake-ups of the locked queue

A push notifies one thread that sleeps on `data_cond`, and the one that takes the last element
notifies one that sleeps on `empty_cond`. So while threads sleep on `data_cond`, each element has a
thread that runs for it (`Served`).

Two operations sleep on `data_cond`, and one of them only looks: `waitTillNotEmpty` ends with the
notification and leaves the element. A wake-up is never lost in the runs where that spares the other
sleepers, and a step that does not spare them ends in a lost one once the threads that run have
taken what they can (`no_lost_wakeup`).

That the threads that run go on is not established: a lost wake-up is a state, not a delay.
-/

namespace Smer

open Lib

namespace QueueRun

variable {T : Type} {q q' : QueueRun T} {threads threads' : List (QueueThread T)}
  {thread thread' : QueueThread T} {cond c : QueueCond} {call : QueueCall T} {i : Nat}

/-! ## Sleepers and runners -/

/-- The thread runs, or is notified, in an operation that waits on the variable. -/
def runs (cond : QueueCond) : QueueThread T → Bool
  | .ready call => call.cond = some cond
  | .out _ | .blocked _ => false

def sleepers (cond : QueueCond) (threads : List (QueueThread T)) : Nat :=
  threads.countP (sleeps cond)

def runners (cond : QueueCond) (threads : List (QueueThread T)) : Nat := threads.countP (runs cond)

/-- No thread is running or notified inside an operation. -/
def Quiet (q : QueueRun T) : Prop := ∀ call, .ready call ∉ q.threads

/-- A wake-up is lost: nothing runs, and a thread sleeps that would not have to. -/
def Lost (q : QueueRun T) : Prop :=
  q.Quiet ∧ (q.data ≠ [] ∧ 0 < sleepers .data q.threads ∨
    q.data = [] ∧ 0 < sleepers .empty q.threads)

/-- A `waitTillNotEmpty` that ends leaves, for the sleepers on `data_cond`, a runner for each
element. -/
def Spares (q : QueueRun T) : QueueAction T → Prop
  | .locked i _ => q.threads[i]? = some (.ready .waitTillNotEmpty) → q.data ≠ [] →
    0 < sleepers .data q.threads → q.data.length < runners .data q.threads
  | .call _ _ | .wake _ => True

/-- While threads sleep on `data_cond`, each element has a runner; while threads sleep on
`empty_cond`, an empty queue has one. -/
structure Served (data : List T) (threads : List (QueueThread T)) : Prop where
  elements : 0 < sleepers .data threads → data.length ≤ runners .data threads
  vacancy : data = [] → 0 < sleepers .empty threads → 0 < runners .empty threads

/-- A thread that calls an operation becomes a runner of its condition variable. -/
theorem counts_called {value : Option T} (h : threads[i]? = some (.out value))
    (call : QueueCall T) (cond : QueueCond) :
    sleepers cond (threads.set i (.ready call)) = sleepers cond threads ∧
      runners cond (threads.set i (.ready call)) =
        runners cond threads + (decide (call.cond = some cond)).toNat :=
  ⟨countP_set_add (sleeps cond) h (.ready call), countP_set_add (runs cond) h (.ready call)⟩

/-- A sleeper that wakes is a runner of its condition variable instead. -/
theorem counts_woken (h : threads[i]? = some (.blocked call)) (cond : QueueCond) :
    sleepers cond (threads.set i (.ready call)) + (decide (call.cond = some cond)).toNat =
        sleepers cond threads ∧
      runners cond (threads.set i (.ready call)) =
        runners cond threads + (decide (call.cond = some cond)).toNat :=
  ⟨countP_set_add (sleeps cond) h (.ready call), countP_set_add (runs cond) h (.ready call)⟩

/-- A runner that falls asleep is a sleeper of its condition variable instead. -/
theorem counts_slept (h : threads[i]? = some (.ready call)) (cond : QueueCond) :
    sleepers cond (threads.set i (.blocked call)) =
        sleepers cond threads + (decide (call.cond = some cond)).toNat ∧
      runners cond (threads.set i (.blocked call)) + (decide (call.cond = some cond)).toNat =
        runners cond threads :=
  ⟨countP_set_add (sleeps cond) h (.blocked call), countP_set_add (runs cond) h (.blocked call)⟩

/-- A runner that ends its operation is neither a runner nor a sleeper any more. -/
theorem counts_ended (h : threads[i]? = some (.ready call)) (value : Option T)
    (cond : QueueCond) :
    sleepers cond (threads.set i (.out value)) = sleepers cond threads ∧
      runners cond (threads.set i (.out value)) + (decide (call.cond = some cond)).toNat =
        runners cond threads :=
  ⟨countP_set_add (sleeps cond) h (.out value), countP_set_add (runs cond) h (.out value)⟩

/-- A runner that ends leaves one runner less for the variable that its operation waits on. -/
theorem counts_ended_own (h : threads[i]? = some (.ready call)) (value : Option T)
    (hcond : call.cond = some cond) :
    sleepers cond (threads.set i (.out value)) = sleepers cond threads ∧
      runners cond (threads.set i (.out value)) + 1 = runners cond threads := by
  have counts := counts_ended h value cond
  rwa [decide_eq_true hcond, Bool.toNat_true] at counts

/-- For a condition variable that is not its own it leaves the counts as they are. -/
theorem counts_ended_other (h : threads[i]? = some (.ready call)) (value : Option T)
    (hcond : call.cond ≠ some cond) :
    sleepers cond (threads.set i (.out value)) = sleepers cond threads ∧
      runners cond (threads.set i (.out value)) = runners cond threads := by
  have counts := counts_ended h value cond
  rwa [decide_eq_false hcond, Bool.toNat_false, Nat.add_zero] at counts

/-- A notification wakes a sleeper on its variable, if there is one. -/
theorem counts_notified {woken : Option Nat}
    (h : notifyOne threads (some cond) woken = some threads') :
    (sleepers cond threads = 0 ∧ threads' = threads) ∨
      (0 < sleepers cond threads ∧ runners cond threads' = runners cond threads + 1) := by
  cases woken with
  | none =>
    rw [notifyOne] at h
    split at h
    · cases h
    · rename_i hnobody
      cases h
      refine .inl ⟨?_, rfl⟩
      rw [sleepers, List.countP_eq_zero]
      intro thread hthread hsleeps
      exact hnobody (List.any_eq_true.mpr ⟨thread, hthread, hsleeps⟩)
  | some i =>
    simp only [notifyOne] at h
    split at h
    · rename_i call hblocked
      split at h
      · rename_i hcond
        cases h
        have hcounts := counts_woken hblocked cond
        rw [decide_eq_true hcond, Bool.toNat_true] at hcounts
        exact .inr ⟨by omega, hcounts.2⟩
      · cases h
    · cases h

theorem notifyOne_none {woken : Option Nat} (h : notifyOne threads none woken = some threads') :
    threads' = threads := by
  cases woken with
  | none =>
    cases h
    rfl
  | some i => cases h

/-! ## What the runs keep -/

theorem sleepers_start (threads : Nat) (cond : QueueCond) :
    sleepers cond (start threads : QueueRun T).threads = 0 := by
  rw [sleepers, List.countP_eq_zero]
  intro thread hthread
  rw [List.eq_of_mem_replicate hthread]
  exact Bool.false_ne_true

theorem served_start (threads : Nat) :
    Served (start threads : QueueRun T).data (start threads : QueueRun T).threads := by
  refine ⟨fun h => ?_, fun _ h => ?_⟩
  · rw [sleepers_start] at h
    cases h
  · rw [sleepers_start] at h
    cases h

variable {data : List T}

/-- A thread that comes on its way leaves as many sleepers or fewer. -/
theorem Served.ready (served : Served data threads)
    (hsleepers : ∀ cond, sleepers cond threads' ≤ sleepers cond threads)
    (hrunners : ∀ cond, runners cond threads ≤ runners cond threads') : Served data threads' where
  elements h := Nat.le_trans (served.elements (Nat.lt_of_lt_of_le h (hsleepers _))) (hrunners _)
  vacancy hdata h :=
    Nat.lt_of_lt_of_le (served.vacancy hdata (Nat.lt_of_lt_of_le h (hsleepers _))) (hrunners _)

/-- A thread that falls asleep finds the queue as it is not waiting for. -/
theorem Served.slept (served : Served data threads) (hready : threads[i]? = some (.ready call))
    (hwaits : ConcQueue.stretch data call = none) : Served data (threads.set i (.blocked call)) := by
  have onData := counts_slept hready .data
  have onEmpty := counts_slept hready .empty
  cases call with
  | push newValue => cases hwaits
  | tryAndPop => cases hwaits
  | pop | waitTillNotEmpty =>
    have hnil : data = [] := by
      cases data with
      | nil => rfl
      | cons value data => cases hwaits
    simp only [QueueCall.cond, Option.some.injEq, reduceCtorEq, decide_false, Bool.toNat_false,
      Nat.add_zero] at onEmpty
    refine ⟨fun _ => ?_, fun h => ?_⟩
    · rw [hnil]
      exact Nat.zero_le _
    · rw [onEmpty.1, onEmpty.2]
      exact served.vacancy h
  | waitPushTillEmpty value =>
    have hne : data ≠ [] := by
      rintro rfl
      cases hwaits
    simp only [QueueCall.cond, Option.some.injEq, reduceCtorEq, decide_false, Bool.toNat_false,
      Nat.add_zero] at onData
    refine ⟨?_, fun h => absurd h hne⟩
    rw [onData.1, onData.2]
    exact served.elements

/-- A push into the queue, which notifies `data_cond`. -/
theorem Served.pushed {woken : Option Nat} (value : T)
    (elements : 0 < sleepers .data threads → data.length ≤ runners .data threads)
    (hnotify : notifyOne threads (some .data) woken = some threads') :
    Served (data ++ [value]) threads' := by
  refine ⟨fun h => ?_, fun h => absurd h (by simp)⟩
  rw [List.length_append, List.length_singleton]
  rcases counts_notified hnotify with ⟨hnobody, rfl⟩ | ⟨hsleepers, hrunners⟩
  · omega
  · have := elements hsleepers
    omega

/-- The front is taken by a thread that may run for it, and an empty queue is notified. -/
theorem Served.taken {woken : Option Nat}
    (elements : 0 < sleepers .data threads → data.length ≤ runners .data threads)
    (hnotify : notifyOne threads (if data.isEmpty then some .empty else none) woken =
      some threads') : Served data threads' := by
  cases data with
  | nil =>
    refine ⟨fun _ => Nat.zero_le _, fun _ h => ?_⟩
    rcases counts_notified hnotify with ⟨hnobody, rfl⟩ | ⟨-, hrunners⟩
    · omega
    · omega
  | cons front data =>
    rw [notifyOne_none hnotify]
    exact ⟨elements, fun h => absurd h (List.cons_ne_nil _ _)⟩

/-- A thread that ends its operation under the mutex. -/
theorem Served.ended {woken : Option Nat} {done : Stretch T} (served : Served data threads)
    (hready : threads[i]? = some (.ready call)) (hdone : ConcQueue.stretch data call = some done)
    (spares : call = .waitTillNotEmpty → data ≠ [] → 0 < sleepers .data threads →
      data.length < runners .data threads)
    (hnotify : notifyOne (threads.set i (.out done.value)) done.notify woken = some threads') :
    Served done.data threads' := by
  cases call with
  | push newValue =>
    have hother : (QueueCall.push newValue).cond ≠ some .data := by simp [QueueCall.cond]
    have onData := counts_ended_other hready done.value hother
    cases hdone
    refine Served.pushed newValue ?_ hnotify
    rw [onData.1, onData.2]
    exact served.elements
  | pop =>
    have onData := counts_ended_own hready done.value rfl
    cases data with
    | nil => cases hdone
    | cons value data =>
      cases hdone
      refine Served.taken (fun h => ?_) hnotify
      rw [onData.1] at h
      have hrunners := served.elements h
      rw [← onData.2] at hrunners
      exact Nat.le_of_succ_le_succ hrunners
  | tryAndPop =>
    have hother : ∀ cond, (QueueCall.tryAndPop : QueueCall T).cond ≠ some cond := by
      simp [QueueCall.cond]
    have onData := counts_ended_other hready done.value (hother .data)
    have onEmpty := counts_ended_other hready done.value (hother .empty)
    cases data with
    | nil =>
      cases hdone
      rw [notifyOne_none hnotify]
      refine ⟨fun _ => Nat.zero_le _, fun h => ?_⟩
      rw [onEmpty.1, onEmpty.2]
      exact served.vacancy h
    | cons value data =>
      cases hdone
      refine Served.taken (fun h => ?_) hnotify
      rw [onData.1] at h
      rw [onData.2]
      exact Nat.le_of_succ_le (served.elements h)
  | waitTillNotEmpty =>
    have onData := counts_ended_own hready done.value rfl
    cases data with
    | nil => cases hdone
    | cons value data =>
      cases hdone
      rw [notifyOne_none hnotify]
      refine ⟨fun h => ?_, fun h => absurd h (List.cons_ne_nil _ _)⟩
      rw [onData.1] at h
      have hrunners := spares rfl (List.cons_ne_nil _ _) h
      show (value :: data).length ≤ runners .data (threads.set i (.out none))
      rw [← onData.2] at hrunners
      exact Nat.le_of_lt_succ hrunners
  | waitPushTillEmpty value =>
    cases data with
    | nil =>
      cases hdone
      exact Served.pushed value (fun _ => Nat.zero_le _) hnotify
    | cons front data => cases hdone

/-- **Every step that spares the sleepers keeps them served.** -/
theorem Served.step {a : QueueAction T} (served : Served q.data q.threads) (spares : q.Spares a)
    (h : q.step a = some q') : Served q'.data q'.threads := by
  cases a with
  | call i call =>
    obtain ⟨⟨value, hout⟩, rfl⟩ := step_call h
    have counts := counts_called hout call
    refine served.ready (fun cond => Nat.le_of_eq (counts cond).1) fun cond => ?_
    exact Nat.le.intro (counts cond).2.symm
  | wake i =>
    obtain ⟨call, hblocked, rfl⟩ := step_wake h
    have counts := counts_woken hblocked
    refine served.ready (fun cond => Nat.le.intro (counts cond).1) fun cond => ?_
    exact Nat.le.intro (counts cond).2.symm
  | locked i woken =>
    obtain ⟨call, hready, ⟨hwaits, rfl⟩ | ⟨done, threads, hdone, hnotify, rfl⟩⟩ := step_locked h
    · exact served.slept hready hwaits
    · refine served.ended hready hdone (fun hcall => ?_) hnotify
      rw [hcall] at hready
      exact spares hready

/-- Threads that are served lose no wake-up. -/
theorem Served.not_lost (served : Served q.data q.threads) : ¬ q.Lost := by
  rintro ⟨quiet, lost⟩
  have hrunners : ∀ cond, runners cond q.threads = 0 := by
    intro cond
    rw [runners, List.countP_eq_zero]
    intro thread hthread hruns
    cases thread with
    | ready call => exact quiet call hthread
    | out value => cases hruns
    | blocked call => cases hruns
  rcases lost with ⟨hdata, hsleepers⟩ | ⟨hdata, hsleepers⟩
  · have hlen := served.elements hsleepers
    rw [hrunners] at hlen
    exact hdata (List.length_eq_zero_iff.mp (Nat.le_zero.mp hlen))
  · have hpos := served.vacancy hdata hsleepers
    rw [hrunners] at hpos
    cases hpos

/-! ## Where a wake-up is lost -/

/-- The threads that run are all on the way to take an element or to look. -/
def OnlyTakers (q : QueueRun T) : Prop := ∀ call, .ready call ∈ q.threads → call.cond = some .data

theorem OnlyTakers.ended (takers : q.OnlyTakers) (hready : q.threads[i]? = some (.ready call))
    {value : Option T} (hthreads : q'.threads = q.threads.set i (.out value)) :
    q'.OnlyTakers ∧ sleepers .data q'.threads = sleepers .data q.threads ∧
      runners .data q'.threads + 1 = runners .data q.threads := by
  have counts := counts_ended_own hready value (takers call (List.mem_of_getElem? hready))
  rw [OnlyTakers, hthreads]
  refine ⟨fun call' hmem => ?_, counts⟩
  rcases List.mem_or_eq_of_mem_set hmem with hmem | hmem
  · exact takers call' hmem
  · cases hmem

/-- Where elements are more than runners, a runner that takes one leaves one, and notifies nobody. -/
theorem taker_step (hcond : call.cond = some .data) (hready : q.threads[i]? = some (.ready call))
    (hmore : 1 < q.data.length) :
    ∃ q' value, q.step (.locked i none) = some q' ∧ q'.threads = q.threads.set i (.out value) ∧
      q.data.length ≤ q'.data.length + 1 := by
  rcases hdata : q.data with _ | ⟨front, _ | ⟨next, data⟩⟩
  · rw [hdata] at hmore
    cases hmore
  · rw [hdata] at hmore
    exact absurd hmore (Nat.lt_irrefl 1)
  · cases call with
    | push newValue => cases hcond
    | tryAndPop => cases hcond
    | waitPushTillEmpty value => cases hcond
    | pop =>
      refine ⟨⟨next :: data, q.threads.set i (.out (some front)), q.pushed ++ [],
        q.popped ++ [front]⟩, some front, ?_, rfl, Nat.le_refl _⟩
      simp only [step, hready, hdata]
      rfl
    | waitTillNotEmpty =>
      refine ⟨⟨front :: next :: data, q.threads.set i (.out none), q.pushed ++ [],
        q.popped ++ []⟩, none, ?_, rfl, Nat.le_succ _⟩
      simp only [step, hready, hdata]
      rfl

/-- **Fewer runners than elements lose a wake-up**: the runners end their operations one by one, and
an element is left. -/
theorem reaches_lost (takers : q.OnlyTakers) (hsleepers : 0 < sleepers .data q.threads)
    (hmore : runners .data q.threads < q.data.length) :
    ∃ q', Reaches step (fun _ a => ∃ i, a = .locked i none) q q' ∧ q'.Lost := by
  induction hn : runners .data q.threads generalizing q with
  | zero =>
    refine ⟨q, .refl, fun call hcall => ?_, .inl ⟨?_, hsleepers⟩⟩
    · rw [runners, List.countP_eq_zero] at hn
      exact hn _ hcall (decide_eq_true (takers call hcall))
    · intro hdata
      rw [hdata] at hmore
      cases hmore
  | succ n ih =>
    have hpos : 0 < q.threads.countP (runs .data) := by
      rw [← runners, hn]
      exact Nat.succ_pos n
    obtain ⟨thread, hthread, hruns⟩ := List.countP_pos_iff.mp hpos
    cases thread with
    | out value => cases hruns
    | blocked call => cases hruns
    | ready call =>
      obtain ⟨i, hready⟩ := List.getElem?_of_mem hthread
      obtain ⟨q₁, value, hstep, hthreads, hlen⟩ :=
        taker_step (of_decide_eq_true hruns) hready (by omega)
      obtain ⟨takers₁, hsleepers₁, hrunners₁⟩ := takers.ended hready hthreads
      obtain ⟨q', reach, lost⟩ :=
        ih takers₁ (by rwa [hsleepers₁]) (by omega) (by omega)
      exact ⟨q', .head ⟨i, rfl⟩ hstep reach, lost⟩

/-- A step that does not spare the sleepers leaves fewer runners than elements. -/
theorem step_not_spares {a : QueueAction T} (wastes : ¬ q.Spares a) (h : q.step a = some q') :
    0 < sleepers .data q'.threads ∧ runners .data q'.threads < q'.data.length := by
  cases a with
  | call i call => exact absurd trivial wastes
  | wake i => exact absurd trivial wastes
  | locked i woken =>
    simp only [Spares, Classical.not_imp, Nat.not_lt] at wastes
    obtain ⟨hlooks, hdata, hsleepers, hmore⟩ := wastes
    obtain ⟨call, hready, hend⟩ := step_locked h
    cases hlooks.symm.trans hready
    rcases hend with ⟨hwaits, -⟩ | ⟨done, threads, hdone, hnotify, rfl⟩
    · cases hq : q.data with
      | nil => exact absurd hq hdata
      | cons front data =>
        rw [hq] at hwaits
        cases hwaits
    · obtain ⟨hsame, hdropped⟩ := counts_ended_own hready done.value rfl
      have hdone' : done = ⟨q.data, none, none⟩ := by
        cases hq : q.data with
        | nil => exact absurd hq hdata
        | cons front data =>
          rw [hq] at hdone
          exact (Option.some.inj hdone).symm
      subst hdone'
      rw [notifyOne_none hnotify]
      refine ⟨by rwa [hsame], ?_⟩
      have hleft : runners .data (q.threads.set i (.out none)) + 1 = runners .data q.threads :=
        hdropped
      show runners .data (q.threads.set i (.out none)) < q.data.length
      omega

/-- **No wake-up is lost in the runs where every `waitTillNotEmpty` that ends spares the other
sleepers on `data_cond`; one that does not, among threads that are all in `pop` or
`waitTillNotEmpty`, loses a wake-up without any further call.** -/
theorem no_lost_wakeup (T : Type) :
    (∀ (threads : Nat) (q : QueueRun T), Reaches step Spares (start threads) q → ¬ q.Lost) ∧
    ∀ (q q' : QueueRun T) (a : QueueAction T), ¬ q.Spares a → q.step a = some q' → q'.OnlyTakers →
      ∃ q'', Reaches step (fun _ a => ∃ i, a = .locked i none) q' q'' ∧ q''.Lost := by
  constructor
  · intro threads q reach
    have served : Served q.data q.threads :=
      reach.invariant (I := fun q => Served q.data q.threads) (served_start threads)
        fun _ _ _ served spares h => served.step spares h
    exact served.not_lost
  · intro q q' a wastes h takers
    obtain ⟨hsleepers, hmore⟩ := step_not_spares wastes h
    exact reaches_lost takers hsleepers hmore

/-- A thread sleeps in `pop` and one in `waitTillNotEmpty`, an element is pushed, and the one that
looks is woken. -/
def lookedAt : List (QueueAction Nat) :=
  [.call 0 .pop, .locked 0 none, .call 1 .waitTillNotEmpty, .locked 1 none, .call 2 (.push 7),
    .locked 2 (some 1), .locked 1 none]

/-- Where `push` may wake a thread that takes nothing, a wakeup is lost: the thread that looks goes
on and leaves the element, and the one that would take it sleeps. -/
theorem wakeup_lost : ¬ ∀ (threads : Nat) (q : QueueRun Nat),
    Reaches step (fun _ _ => True) (start threads) q → ¬ q.Lost := by
  intro claim
  obtain ⟨q, hq, hthreads, hdata⟩ : ∃ q, play step lookedAt (start 3) = some q ∧
      q.threads = [.blocked .pop, .out none, .out none] ∧ q.data = [7] := ⟨_, rfl, rfl, rfl⟩
  refine claim 3 q (Reaches.play .refl hq) ⟨fun call hcall => ?_, .inl ?_⟩
  · rw [hthreads] at hcall
    simp only [List.mem_cons, reduceCtorEq, List.not_mem_nil, or_false] at hcall
  · rw [hthreads, hdata]
    decide

end QueueRun

end Smer
