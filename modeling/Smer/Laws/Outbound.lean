import Smer.Util.ConcQueue
import Smer.Client.Client

/-!
# Draining the outbound queue

One thread runs `Client::run`: it pops, sends, and leaves on a `MSG_BUTTON`. Any other thread may
push objects that are neither null nor a `MSG_BUTTON`, and one of them, once, calls
`waitPushTillEmpty` with a `MSG_BUTTON` object. `Outbound` is that system over the locked queue: the
steps of the threads under the mutex interleave in every way that the queue allows.

The queue is first in, first out, so what the sender has sent is the front of what was pushed, in
the order of the mutex (`sends_in_order`). Whatever stands behind the shutdown's object is left in the
queue.

That the sender goes on is not established, and an object is sent when its `send` call is made,
whatever the network does with it.
-/

namespace Smer

open Lib

structure Outbound where
  queue : QueueRun (Option TransObj)
  /-- what `pop` has returned to `Client::run` -/
  pops : List (Option TransObj)
  /-- the object of the shutdown, when it was called -/
  shutdown : Option TransObj

inductive OutboundAction where
  /-- a producer calls `push` -/
  | produce (thread : Nat) (obj : TransObj)
  /-- `waitPushTillEmpty` is called with the `MSG_BUTTON` object -/
  | shutdown (thread : Nat) (obj : TransObj)
  /-- the sender looks at what its `pop` has returned, sends it, and calls `pop` again or leaves -/
  | send
  /-- a thread holds the mutex -/
  | locked (thread : Nat) (woken : Option Nat)
  | wake (thread : Nat)

namespace Outbound

/-- The thread that runs `Client::run`. -/
def sender : Nat := 0

/-- The objects that `Client::run` has sent. -/
def sent (s : Outbound) : List TransObj := Client.sent s.pops

/-- `Client::run` has popped a `MSG_BUTTON`. -/
def left (s : Outbound) : Bool := s.pops.any fun pop => pop.any isButton

def start (threads : Nat) : Outbound := ⟨.start threads, [], none⟩

def step (s : Outbound) : OutboundAction → Option Outbound
  | .produce i obj =>
    if i = sender ∨ isButton obj then none
    else (s.queue.step (.call i (.push (some obj)))).map fun queue => { s with queue := queue }
  | .shutdown i obj =>
    if i = sender ∨ ¬ isButton obj ∨ s.shutdown.isSome then none
    else (s.queue.step (.call i (.waitPushTillEmpty (some obj)))).map fun queue =>
      { s with queue := queue, shutdown := some obj }
  | .send =>
    match s.queue.threads[sender]? with
    | some (.out value) =>
      if s.left then none
      else
        let s := { s with pops := s.pops ++ value.toList }
        if s.left then some s
        else (s.queue.step (.call sender .pop)).map fun queue => { s with queue := queue }
    | _ => none
  | .locked i woken => (s.queue.step (.locked i woken)).map fun queue => { s with queue := queue }
  | .wake i => (s.queue.step (.wake i)).map fun queue => { s with queue := queue }

/-- What the threads may be in: the sender in `pop` while it has not left, the others in a push of an
object that is no `MSG_BUTTON`, or in the shutdown's push. -/
def Allowed (s : Outbound) (i : Nat) (call : QueueCall (Option TransObj)) : Prop :=
  if i = sender then call = .pop ∧ s.left = false
  else ∃ obj, call = .push (some obj) ∧ isButton obj = false ∨
    call = .waitPushTillEmpty (some obj) ∧ s.shutdown = some obj

/-- What `pop` has returned to the sender and the sender has not looked at. -/
def inHand (s : Outbound) : List (Option TransObj) :=
  if s.left then [] else (QueueRun.returned s.queue.threads sender).toList

/-- Where the pushed objects are: popped or in the queue, in the order in which they were pushed,
and no `MSG_BUTTON` among them but the shutdown's. -/
structure Inv (s : Outbound) : Prop where
  fifo : s.queue.pushed = s.queue.popped ++ s.queue.data
  /-- the sender alone pops -/
  taken : s.queue.popped = s.pops ++ s.inHand
  calls : QueueRun.Calls s.Allowed s.queue.threads
  /-- no null is pushed, and the shutdown's `MSG_BUTTON` only -/
  objects : ∀ value ∈ s.queue.pushed, ∃ obj, value = some obj ∧
    (isButton obj → s.shutdown = some obj)

section Inv

variable {s s' : Outbound}

theorem inv_start (threads : Nat) : Inv (start threads) := by
  have hout : ∀ (i : Nat) thread, (start threads).queue.threads[i]? = some thread →
      thread = QueueThread.out none := by
    intro i thread hthread
    exact List.eq_of_mem_replicate (List.mem_of_getElem? hthread)
  have hreturned : QueueRun.returned (start threads).queue.threads sender = none := by
    rw [QueueRun.returned]
    split
    · rename_i value hvalue
      cases hout _ _ hvalue
      rfl
    · rfl
  refine ⟨rfl, ?_, fun i thread hthread call hcall => ?_, fun value hvalue => by cases hvalue⟩
  · rw [inHand, hreturned]
    rfl
  · rw [hout i thread hthread] at hcall
    cases hcall

/-- A step of another thread that pops nothing leaves what the sender has in hand. -/
theorem Inv.of_queue (inv : s.Inv) {queue : QueueRun (Option TransObj)}
    (fifo : queue.pushed = queue.popped ++ queue.data) (hpopped : queue.popped = s.queue.popped)
    (hreturned : QueueRun.returned queue.threads sender = QueueRun.returned s.queue.threads sender)
    (calls : QueueRun.Calls s.Allowed queue.threads)
    (objects : ∀ value ∈ queue.pushed, ∃ obj, value = some obj ∧
      (isButton obj → s.shutdown = some obj)) : Inv { s with queue := queue } := by
  refine ⟨fifo, ?_, calls, objects⟩
  show queue.popped = s.pops ++ inHand { s with queue := queue }
  rw [hpopped, inv.taken, inHand, inHand]
  show _ = s.pops ++ if s.left then [] else (QueueRun.returned queue.threads sender).toList
  rw [hreturned]

theorem Inv.produce (inv : s.Inv) {i : Nat} {obj : TransObj}
    (h : s.step (.produce i obj) = some s') : s'.Inv := by
  unfold step at h
  dsimp only at h
  split at h
  · cases h
  · rename_i hallowed
    obtain ⟨hi, hobj⟩ := not_or.mp hallowed
    obtain ⟨queue, hqueue, rfl⟩ := Option.map_eq_some_iff.mp h
    have calls := inv.calls.step hqueue fun j call hcall => by
      cases hcall
      rw [Allowed, if_neg hi]
      exact ⟨obj, .inl ⟨rfl, Bool.eq_false_iff.mpr hobj⟩⟩
    obtain ⟨-, rfl⟩ := QueueRun.step_call hqueue
    exact inv.of_queue inv.fifo rfl (QueueRun.returned_set_ne hi _) calls inv.objects

theorem Inv.shutdown (inv : s.Inv) {i : Nat} {obj : TransObj}
    (h : s.step (.shutdown i obj) = some s') : s'.Inv := by
  unfold step at h
  dsimp only at h
  split at h
  · cases h
  · rename_i hallowed
    obtain ⟨hi, hrest⟩ := not_or.mp hallowed
    obtain ⟨-, hfirst⟩ := not_or.mp hrest
    obtain ⟨queue, hqueue, rfl⟩ := Option.map_eq_some_iff.mp h
    have hnone : s.shutdown = none := Option.not_isSome_iff_eq_none.mp hfirst
    have hobjects : ∀ value ∈ s.queue.pushed, ∃ o, value = some o ∧
        (isButton o → some obj = some o) := by
      intro value hvalue
      obtain ⟨o, ho, hbutton⟩ := inv.objects value hvalue
      refine ⟨o, ho, fun h => ?_⟩
      rw [hnone] at hbutton
      cases hbutton h
    have calls : QueueRun.Calls (Allowed { s with shutdown := some obj }) s.queue.threads := by
      refine inv.calls.mono fun j call hcall => ?_
      unfold Allowed at hcall ⊢
      by_cases hj : j = sender
      · rw [if_pos hj] at hcall ⊢
        exact hcall
      · rw [if_neg hj] at hcall ⊢
        obtain ⟨o, hpush | ⟨-, hshut⟩⟩ := hcall
        · exact ⟨o, .inl hpush⟩
        · rw [hnone] at hshut
          cases hshut
    have calls' := calls.step hqueue fun j call hcall => by
      cases hcall
      rw [Allowed, if_neg hi]
      exact ⟨obj, .inr ⟨rfl, rfl⟩⟩
    obtain ⟨-, rfl⟩ := QueueRun.step_call hqueue
    have inv' : Inv { s with shutdown := some obj } := ⟨inv.fifo, inv.taken, calls, hobjects⟩
    exact inv'.of_queue inv.fifo rfl (QueueRun.returned_set_ne hi _) calls' hobjects

/-- What the sender looks at leaves its hand: it is sent, or it ends the loop. -/
theorem Inv.send (inv : s.Inv) (h : s.step .send = some s') : s'.Inv := by
  unfold step at h
  dsimp only at h
  split at h
  · rename_i value hout
    split at h
    · cases h
    · rename_i hstays
      have hhand : s.inHand = value.toList := by
        rw [inHand, if_neg hstays, QueueRun.returned, hout]
      have htaken : s.queue.popped = s.pops ++ value.toList := by
        rw [inv.taken, hhand]
      -- the sender is in no operation, so whether it has left says nothing about one
      have calls : QueueRun.Calls (Allowed { s with pops := s.pops ++ value.toList })
          s.queue.threads := by
        intro j thread hthread call hcall
        have hj : j ≠ sender := by
          rintro rfl
          rw [hout] at hthread
          cases hthread
          cases hcall
        have hallowed := inv.calls j thread hthread call hcall
        unfold Allowed at hallowed ⊢
        rw [if_neg hj] at hallowed ⊢
        exact hallowed
      split at h
      · rename_i hleft
        cases h
        refine ⟨inv.fifo, ?_, calls, inv.objects⟩
        rw [inHand, if_pos hleft, List.append_nil]
        exact htaken
      · rename_i hstays'
        obtain ⟨queue, hqueue, rfl⟩ := Option.map_eq_some_iff.mp h
        have calls' := calls.step hqueue fun j call hcall => by
          cases hcall
          rw [Allowed, if_pos rfl]
          exact ⟨rfl, Bool.eq_false_iff.mpr hstays'⟩
        obtain ⟨-, rfl⟩ := QueueRun.step_call hqueue
        refine ⟨inv.fifo, ?_, calls', inv.objects⟩
        have hreturned : QueueRun.returned (s.queue.threads.set sender (.ready .pop)) sender =
            none :=
          QueueRun.returned_call
            (List.getElem?_set_self (List.getElem?_eq_some_iff.mp hout).1) rfl
        rw [inHand, hreturned, Option.toList_none, ite_self, List.append_nil]
        exact htaken
  · cases h

theorem Inv.wake (inv : s.Inv) {i : Nat} (h : s.step (.wake i) = some s') : s'.Inv := by
  obtain ⟨queue, hqueue, rfl⟩ := Option.map_eq_some_iff.mp h
  have calls := inv.calls.step hqueue fun j call hcall => by cases hcall
  obtain ⟨call, hblocked, rfl⟩ := QueueRun.step_wake hqueue
  exact inv.of_queue inv.fifo rfl (QueueRun.returned_set_call hblocked rfl rfl _) calls inv.objects

/-- What a thread other than the sender does under the mutex pops nothing. -/
theorem Allowed.pushes {i : Nat} {call : QueueCall (Option TransObj)} (allowed : s.Allowed i call)
    (hi : i ≠ sender) : ∃ obj, call.value = some (some obj) ∧
      (isButton obj → s.shutdown = some obj) ∧
      ∀ data done, ConcQueue.stretch data call = some done → done.value = none := by
  rw [Allowed, if_neg hi] at allowed
  obtain ⟨obj, ⟨rfl, hobj⟩ | ⟨rfl, hshut⟩⟩ := allowed
  · refine ⟨obj, rfl, fun h => ?_, fun data done hdone => ?_⟩
    · rw [hobj] at h
      cases h
    · cases hdone
      rfl
  · refine ⟨obj, rfl, fun _ => hshut, fun data done hdone => ?_⟩
    cases data with
    | nil =>
      cases hdone
      rfl
    | cons front data => cases hdone

/-- Under the mutex the sender takes the front into its hand, and the others put an object
behind. -/
theorem Inv.locked (inv : s.Inv) {i : Nat} {woken : Option Nat}
    (h : s.step (.locked i woken) = some s') : s'.Inv := by
  obtain ⟨queue, hqueue, rfl⟩ := Option.map_eq_some_iff.mp h
  have calls := inv.calls.step hqueue fun j call hcall => by cases hcall
  have fifo := QueueRun.fifo_step inv.fifo hqueue
  obtain ⟨call, hready, ⟨-, rfl⟩ | ⟨done, threads, hdone, hnotify, rfl⟩⟩ :=
    QueueRun.step_locked hqueue
  · exact inv.of_queue fifo rfl (QueueRun.returned_set_call hready rfl rfl _) calls inv.objects
  · have hallowed := inv.calls i _ hready call rfl
    by_cases hi : i = sender
    · subst hi
      rw [Allowed, if_pos rfl] at hallowed
      obtain ⟨rfl, hstays⟩ := hallowed
      have hstays' : ¬ s.left = true := Bool.eq_false_iff.mp hstays
      have hempty : s.inHand = [] := by
        rw [inHand, if_neg hstays', QueueRun.returned_call hready rfl]
        rfl
      have hreturned : QueueRun.returned threads sender = done.value := by
        rw [QueueRun.returned_notifyOne hnotify, QueueRun.returned_set_out hready]
      refine ⟨fifo, ?_, calls, fun value hvalue => ?_⟩
      · show s.queue.popped ++ done.value.toList = s.pops ++
          if s.left then [] else (QueueRun.returned threads sender).toList
        rw [if_neg hstays', hreturned, inv.taken, hempty, List.append_nil]
      · exact inv.objects value (by simpa [QueueCall.value] using hvalue)
    · obtain ⟨obj, hvalue, hbutton, hnone⟩ := hallowed.pushes hi
      have hreturned : QueueRun.returned threads sender =
          QueueRun.returned s.queue.threads sender := by
        rw [QueueRun.returned_notifyOne hnotify, QueueRun.returned_set_ne hi]
      refine inv.of_queue fifo ?_ hreturned calls fun value hmem => ?_
      · show s.queue.popped ++ done.value.toList = s.queue.popped
        rw [hnone _ _ hdone, Option.toList_none, List.append_nil]
      · dsimp only at hmem
        rw [hvalue, Option.toList_some, List.mem_append, List.mem_singleton] at hmem
        rcases hmem with hmem | rfl
        · exact inv.objects value hmem
        · exact ⟨obj, rfl, hbutton⟩

theorem Inv.step (inv : s.Inv) {a : OutboundAction} (h : s.step a = some s') : s'.Inv := by
  cases a with
  | produce i obj => exact inv.produce h
  | shutdown i obj => exact inv.shutdown h
  | send => exact inv.send h
  | locked i woken => exact inv.locked h
  | wake i => exact inv.wake h

theorem inv_of_reaches {threads : Nat}
    (reach : Reaches Outbound.step (fun _ _ => True) (start threads) s) : s.Inv :=
  reach.invariant (inv_start threads) fun _ _ _ inv _ h => inv.step h

end Inv

/-! ## What has been sent -/

/-- Without nulls, `Client::run` sends what it pops up to the first `MSG_BUTTON`. -/
theorem sent_pops {pops : List (Option TransObj)} (objects : ∀ pop ∈ pops, pop.isSome) :
    if pops.any fun pop => pop.any isButton then
      ∃ button rest, isButton button ∧ pops = (Client.sent pops).map some ++ some button :: rest
    else pops = (Client.sent pops).map some := by
  induction pops with
  | nil => rfl
  | cons pop pops ih =>
    obtain ⟨obj, rfl⟩ := Option.isSome_iff_exists.mp (objects pop List.mem_cons_self)
    have ih := ih fun pop hpop => objects pop (List.mem_cons_of_mem _ hpop)
    rw [Client.sent, List.any_cons, Option.any_some]
    by_cases hobj : obj.msgType = msgButton
    · have hbutton : isButton obj = true := decide_eq_true hobj
      rw [if_pos hobj, hbutton, Bool.true_or, if_pos rfl]
      exact ⟨obj, pops, hbutton, rfl⟩
    · have hbutton : isButton obj = false := decide_eq_false hobj
      rw [if_neg hobj, hbutton, Bool.false_or]
      split at ih
      · rename_i hany
        rw [if_pos hany]
        obtain ⟨button, rest, hbutton', hpops⟩ := ih
        refine ⟨button, rest, hbutton', ?_⟩
        rw [List.map_cons, List.cons_append, ← hpops]
      · rename_i hany
        rw [if_neg hany, List.map_cons, ← ih]

/-- **What the sender has sent is the front of what was pushed, in the order of the mutex; and when
it has left, it has sent exactly what was pushed before the `MSG_BUTTON` of the shutdown.** -/
theorem sends_in_order {threads : Nat} {s : Outbound}
    (reach : Reaches Outbound.step (fun _ _ => True) (start threads) s) :
    s.sent.map some <+: s.queue.pushed ∧
      (s.left → ∃ button rest, s.shutdown = some button ∧ isButton button ∧
        s.queue.pushed = s.sent.map some ++ some button :: rest) := by
  have inv := inv_of_reaches reach
  have hpushed : s.queue.pushed = s.pops ++ (s.inHand ++ s.queue.data) := by
    rw [inv.fifo, inv.taken, List.append_assoc]
  have hpops : ∀ pop ∈ s.pops, pop ∈ s.queue.pushed := by
    intro pop hpop
    rw [hpushed]
    exact List.mem_append_left _ hpop
  have hsent := sent_pops fun pop hpop => by
    obtain ⟨obj, rfl, -⟩ := inv.objects pop (hpops pop hpop)
    rfl
  split at hsent
  · obtain ⟨button, rest, hbutton, heq⟩ := hsent
    have hmem : some button ∈ s.pops := by
      rw [heq]
      exact List.mem_append_right _ List.mem_cons_self
    obtain ⟨obj, hobj, hshut⟩ := inv.objects _ (hpops _ hmem)
    cases hobj
    have hsplit : s.queue.pushed = s.sent.map some ++
        some button :: (rest ++ (s.inHand ++ s.queue.data)) := by
      rw [hpushed]
      conv_lhs => rw [heq]
      rw [List.append_assoc]
      rfl
    exact ⟨⟨_, hsplit.symm⟩, fun _ => ⟨button, _, hshut hbutton, hbutton, hsplit⟩⟩
  · rename_i hstays
    refine ⟨⟨s.inHand ++ s.queue.data, ?_⟩, fun hleft => absurd hleft hstays⟩
    rw [hpushed]
    conv_rhs => rw [hsent]
    rfl

def aTalk : TransObj := { TransObj.zero with msgType := msgTalk }

def aButton : TransObj := { TransObj.zero with msgType := msgButton }

/-- A shutdown that has to wait: the sender sleeps, an object is pushed, the shutdown finds the queue
not empty, and the sender that takes the object wakes it. -/
def waitedShutdown : List OutboundAction :=
  [.send, .locked 0 none, .produce 1 aTalk, .locked 1 (some 0), .shutdown 2 aButton,
    .locked 2 none, .locked 0 (some 2), .send, .locked 2 none, .locked 0 none, .send]

theorem sends_in_order_waitedShutdown :
    ∃ s, play Outbound.step waitedShutdown (start 3) = some s ∧ s.sent = [aTalk] ∧
      ∃ button rest, s.shutdown = some button ∧ isButton button ∧
        s.queue.pushed = s.sent.map some ++ some button :: rest := by
  obtain ⟨s, hs, hsent, hleft⟩ : ∃ s, play Outbound.step waitedShutdown (start 3) = some s ∧
      s.sent = [aTalk] ∧ s.left = true := ⟨_, rfl, rfl, rfl⟩
  exact ⟨s, hs, hsent, (sends_in_order (Reaches.play .refl hs)).2 hleft⟩

end Outbound

end Smer
