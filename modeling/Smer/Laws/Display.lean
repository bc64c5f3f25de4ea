import Smer.Laws.ClientMoves
import Smer.Lib.Run

/-!
# What arrives is shown

Between the network and the terminal a client has three queues: the received objects, the system
messages, and the texts that were put out. The receiving thread, the game thread and the IO thread
move them on, in any interleaving. Nothing is lost on the way, nothing is shown twice and nothing is
overtaken (`displays_of_reaches`): the texts on the terminal are those of the system messages that
were taken, in the order in which they were put, and every talk that was handled is among them or
still on its way.

That the threads go on is not established, so what is on its way may stay there. A handler is one
step, and the order of the queues does not depend on that.
-/

namespace Smer

open Lib ClientM

/-- The text that a `SYS_OUTPUT_MSG` has shown as it is. The other system messages are shown as
texts that their handlers make. -/
def SystemMsgObj.output (sysObj : SystemMsgObj) : Option Bytes :=
  if sysObj.msgType = sysOutputMsg then sysObj.sysMsg else none

namespace ClientRun

/-- The texts of the talks that were handled, in the order of their arrival. -/
def talks (s : ClientRun) : List Bytes :=
  (s.handled.filter fun e => e.1.msgType = msgTalk).map fun e => talkText e.1 e.2

/-- Where the texts of a client are. The terminal shows a text up to its first zero. -/
structure Displays (s : ClientRun) : Prop where
  /-- objects are handled in the order of their arrival -/
  arrived : s.received = s.handled.map Prod.fst ++ s.rcvBuff
  /-- system messages are taken in the order in which they were put -/
  queued : s.put = s.taken.map Prod.fst ++ s.client.sysBuff
  /-- what they put out is printed once and in order, or still in the pipe -/
  shown : s.printed ++ s.game.pipe.map cstr = (s.taken.filterMap Prod.snd).map cstr
  /-- and it is the text that was put -/
  faithful : ∀ e ∈ s.taken, e.1.msgType = sysOutputMsg → e.2 = e.1.sysMsg
  /-- no talk is lost or overtaken -/
  delivered : (s.talks.map cstr).Sublist
    (s.printed ++ s.game.pipe.map cstr ++ (s.client.sysBuff.filterMap SystemMsgObj.output).map cstr)

/-- `Displays` with what it takes to keep it: each handled talk has put its text, and the pipe is
between what was taken and what was printed. -/
structure DisplayInv (s : ClientRun) : Prop where
  arrived : s.received = s.handled.map Prod.fst ++ s.rcvBuff
  queued : s.put = s.taken.map Prod.fst ++ s.client.sysBuff
  shown : s.printed ++ s.game.pipe.map cstr = (s.taken.filterMap Prod.snd).map cstr
  faithful : ∀ e ∈ s.taken, e.1.msgType = sysOutputMsg → e.2 = e.1.sysMsg
  announced : s.talks.Sublist (s.put.filterMap SystemMsgObj.output)

/-- A text that is to be shown is put out as it is. -/
theorem handleSysMsg_output {sysObj : SystemMsgObj} (htype : sysObj.msgType = sysOutputMsg)
    (past : Bytes) (c : ClientState) :
    (ClientM.handleSysMsg sysObj past c).head? = sysObj.sysMsg := by
  have hfilter : (sysMsgHandleTable.filter fun entry => entry.1 = sysObj.msgType) =
      [(sysOutputMsg, fun sysObj _ _ => handleSysMsgOfShowOutputMsg sysObj)] := by
    rw [htype]
    rfl
  rw [ClientM.handleSysMsg, hfilter]
  obtain ⟨msgType, sysMsg⟩ := sysObj
  cases sysMsg <;> rfl

section Inv

variable {s s' : ClientRun}

theorem displayInv_start (settings : Termios) (client : ClientState) :
    (start settings client).DisplayInv :=
  ⟨rfl, rfl, rfl, fun e he => (by cases he), List.nil_sublist _⟩

/-- A text goes from the head of the pipe to the terminal. -/
theorem printed_pipe {s : ClientRun} {game : Game}
    (pipe : s.game.outputMsg.head?.toList ++ game.pipe = s.game.pipe) :
    s.printed ++ (s.game.outputMsg.head?.map cstr).toList ++ game.pipe.map cstr =
      s.printed ++ s.game.pipe.map cstr := by
  rw [← pipe, List.map_append, List.append_assoc]
  cases s.game.outputMsg.head? <;> rfl

/-- What a handler puts announces its object, if that is a talk. -/
theorem announced_handle {obj : TransObj} {past : Bytes} {client : ClientState}
    {new : List SystemMsgObj} (handling : Handling obj past s.client client)
    (grows : client.sysBuff = s.client.sysBuff ++ new)
    (announced : s.talks.Sublist (s.put.filterMap SystemMsgObj.output)) :
    (((s.handled ++ [(obj, past)]).filter fun e => e.1.msgType = msgTalk).map
      fun e => talkText e.1 e.2).Sublist ((s.put ++ new).filterMap SystemMsgObj.output) := by
  rw [List.filter_append, List.map_append, List.filterMap_append]
  refine announced.append ?_
  by_cases htalk : obj.msgType = msgTalk
  · have hnew : new = [⟨sysOutputMsg, some (talkText obj past)⟩] :=
      List.append_cancel_left (grows.symm.trans (handling.talk htalk))
    rw [hnew, List.filter_cons_of_pos (by rw [decide_eq_true_eq]; exact htalk)]
    exact List.Sublist.refl _
  · rw [List.filter_cons_of_neg (by rw [decide_eq_true_eq]; exact htalk)]
    exact List.nil_sublist _

theorem DisplayInv.move (inv : s.DisplayInv) (move : ClientMove s s') : s'.DisplayInv := by
  cases move with
  | receive obj =>
    refine ⟨?_, inv.queued, inv.shown, inv.faithful, inv.announced⟩
    show s.received ++ [obj] = _
    rw [inv.arrived, List.append_assoc]
  | take past hsys buff pipe keys =>
    rename_i game sysObj rest
    refine ⟨inv.arrived, ?_, ?_, fun e he htype => ?_, inv.announced⟩
    · show s.put = (s.taken ++ _).map Prod.fst ++ rest
      rw [inv.queued, hsys, List.map_append, List.append_assoc]
      rfl
    · show s.printed ++ game.pipe.map cstr = _
      rw [pipe, List.map_append, ← List.append_assoc, inv.shown, List.filterMap_append,
        List.map_append]
      cases (ClientM.handleSysMsg sysObj past s.client).head? <;> rfl
    · rcases List.mem_append.mp he with hold | hnew
      · exact inv.faithful e hold htype
      · rw [List.mem_singleton.mp hnew] at htype ⊢
        exact handleSysMsg_output htype past s.client
  | handle hrcv handling grows buff pipe keys =>
    rename_i game obj rest past client new
    refine ⟨?_, ?_, ?_, inv.faithful, announced_handle handling grows inv.announced⟩
    · show s.received = (s.handled ++ _).map Prod.fst ++ rest
      rw [inv.arrived, hrcv, List.map_append, List.append_assoc]
      rfl
    · show s.put ++ new = _
      rw [inv.queued, grows, List.append_assoc]
    · show s.printed ++ game.pipe.map cstr = _
      rw [pipe]
      exact inv.shown
  | print buff pipe =>
    exact ⟨inv.arrived, inv.queued, (printed_pipe pipe).trans inv.shown, inv.faithful,
      inv.announced⟩
  | line typed grows buff pipe keys =>
    rename_i game past made client new
    refine ⟨inv.arrived, ?_, ?_, inv.faithful, ?_⟩
    · show s.put ++ new = _
      rw [inv.queued, grows, List.append_assoc]
    · show s.printed ++ game.pipe.map cstr = _
      rw [pipe]
      exact inv.shown
    · show s.talks.Sublist ((s.put ++ new).filterMap SystemMsgObj.output)
      rw [List.filterMap_append]
      exact inv.announced.trans (List.sublist_append_left _ _)
  | goesOn buff pipe keys =>
    rename_i game
    refine ⟨inv.arrived, inv.queued, ?_, inv.faithful, inv.announced⟩
    show s.printed ++ game.pipe.map cstr = _
    rw [pipe]
    exact inv.shown

/-- The output texts that were taken have been put out. -/
theorem outputs_sublist {taken : List (SystemMsgObj × Option Bytes)}
    (faithful : ∀ e ∈ taken, e.1.msgType = sysOutputMsg → e.2 = e.1.sysMsg) :
    ((taken.map Prod.fst).filterMap SystemMsgObj.output).Sublist (taken.filterMap Prod.snd) := by
  induction taken with
  | nil => exact List.Sublist.refl _
  | cons e taken ih =>
    have hrest := ih fun e' he' => faithful e' (List.mem_cons_of_mem _ he')
    rw [List.map_cons, ← List.singleton_append, List.filterMap_append,
      ← List.singleton_append (l := taken), List.filterMap_append]
    refine List.Sublist.append ?_ hrest
    by_cases htype : e.1.msgType = sysOutputMsg
    · have hsnd := faithful e List.mem_cons_self htype
      rw [List.filterMap_cons, List.filterMap_cons, SystemMsgObj.output, if_pos htype, ← hsnd]
      exact List.Sublist.refl _
    · rw [List.filterMap_cons, SystemMsgObj.output, if_neg htype]
      exact List.nil_sublist _

theorem DisplayInv.displays (inv : s.DisplayInv) : s.Displays := by
  refine ⟨inv.arrived, inv.queued, inv.shown, inv.faithful, ?_⟩
  rw [inv.shown, ← List.map_append]
  refine List.Sublist.map _ (inv.announced.trans ?_)
  rw [inv.queued, List.filterMap_append]
  exact (outputs_sublist inv.faithful).append (List.Sublist.refl _)

/-- **Everything that arrives is shown once and in order**, in every run of the client's threads. -/
theorem displays_of_reaches {settings : Termios} {client : ClientState}
    (reach : Reaches step (fun _ _ => True) (start settings client) s) : s.Displays := by
  have inv : s.DisplayInv := reach.invariant (displayInv_start settings client)
    fun _ _ _ inv _ h => inv.move (move_of_step h)
  exact inv.displays

end Inv

/-- A talk of user 7, and one of user 8. -/
def hiObj : TransObj :=
  { TransObj.zero with msgType := msgTalk, id := 7, msg := .ofBytes _ (ascii "hi") }

def thereObj : TransObj :=
  { TransObj.zero with msgType := msgTalk, id := 8, msg := .ofBytes _ (ascii "there") }

def noSettings : Termios := ⟨0, 0, 0, 0, Vector.replicate 32 0⟩

/-- Nothing typed and no key pressed. -/
def idle : Outside := ⟨none, 1, 0, [], none⟩

/-- Two frames of the game thread, and what it has put out is shown. -/
def shows : List ClientAction :=
  List.replicate 13 (.game [] idle) ++ List.replicate 3 (.io (.fill _ 0) [] idle)

/-- Both talks arrive before the first frame. -/
def showing : List ClientAction := .receive hiObj :: .receive thereObj :: (shows ++ shows)

theorem displays_hi : ∃ s, play step showing (start noSettings Util.startedClient) = some s ∧
    s.printed = [ascii "You just got message from 7 :\nhi \n",
      ascii "You just got message from 8 :\nthere \n"] ∧ s.Displays := by
  have hprints : (play step showing (start noSettings Util.startedClient)).map printed =
      some [ascii "You just got message from 7 :\nhi \n",
        ascii "You just got message from 8 :\nthere \n"] := by decide +kernel
  obtain ⟨s, hs, hprinted⟩ := Option.map_eq_some_iff.mp hprints
  exact ⟨s, hs, hprinted, displays_of_reaches (Reaches.play .refl hs)⟩

end ClientRun

end Smer
