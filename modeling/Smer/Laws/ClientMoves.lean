import Smer.Game.ClientRun
import Smer.Laws.TypedLines

/-!
# The moves of a client

What each step of `ClientRun` does, said once (`move_of_step`): an object arrives, a system message is
taken, an object is handled, a text is printed, a line is typed, or a thread goes on without any of
these. The texts between the game thread and the terminal are the `pipe`. Beside this a step may push
the command of a key (`ReadKey.Grows`).

Handling an object and reading a line are one step each, and nothing is established about two of
them at once.
-/

namespace Smer

open Lib ClientM

/-- The text that the game thread has taken and not yet put out. -/
def GamePoint.hand : GamePoint → List Bytes
  | .putOutputMsg msg | .pushOutputMsg msg => [msg]
  | _ => []

/-- The texts that are on their way to the terminal, in order. -/
def Game.pipe (s : Game) : List Bytes := s.outputMsg ++ s.game.hand

/-! ## The keys -/

namespace ReadKey

/-- What enters the outbound queue from the keys are commands of the actor. -/
def Grows (r r' : ReadKey) : Prop := ∀ type ∈ r'.buff, type ∈ r.buff ∨ isActorCmd type = true

variable {r r' : ReadKey}

theorem Grows.of_eq (h : r'.buff = r.buff) : r.Grows r' := fun _ htype => .inl (h ▸ htype)

theorem grows_putCmd (r : ReadKey) (key : Int8) : r.Grows (r.putCmd key) := by
  intro type htype
  rw [putCmd] at htype
  split at htype
  · exact .inl htype
  · rename_i cmdType _
    by_cases hactor : isActorCmd cmdType = true
    · rw [if_pos hactor] at htype
      refine (List.mem_append.mp htype).imp_right fun hnew => ?_
      rw [List.mem_singleton.mp hnew]
      exact hactor
    · rw [if_neg hactor] at htype
      split at htype <;> exact .inl htype

end ReadKey

/-! ## The threads -/

namespace Game

variable {s s' : Game} {outside : Outside}

theorem doCommand_hand (type : Option UInt32) : (doCommand type).hand = [] := by
  cases type with
  | none => rfl
  | some type =>
    rw [doCommand]
    split <;> rfl

/-- A step of the game thread makes no message. -/
theorem gameStep_buff (h : s.gameStep outside = some s') : s'.buff = s.buff := by
  unfold gameStep at h
  split at h <;> (try split at h) <;> cases h <;> rfl

/-- Of the steps of the game thread only the end of `scanKeyBoard` pushes a command. -/
theorem gameStep_keys (h : s.gameStep outside = some s') : s.readKey.Grows s'.readKey := by
  unfold gameStep at h
  split at h
  case h_13 stored key hpoint =>
    cases h
    exact ReadKey.grows_putCmd _ _
  all_goals
    (try split at h) <;> cases h <;> exact .of_eq rfl

/-- The IO thread reads no key, so the queues of `ReadKey` are as they were. -/
theorem ioStep_keys (h : s.ioStep outside = some s') : s.readKey.Grows s'.readKey := by
  unfold ioStep at h
  split at h <;> (try split at h) <;> (try split at h) <;> cases h <;> exact .of_eq rfl

/-- What `handleSysMsg` has to show enters the pipe. -/
theorem gameStep_shown (hgame : s.game = .handleSysMsg) (h : s.gameStep outside = some s') :
    s'.pipe = s.pipe ++ outside.shown.toList := by
  have hhand : s.pipe = s.outputMsg := by
    rw [pipe, hgame]
    exact List.append_nil _
  rw [gameStep, hgame] at h
  dsimp only at h
  split at h
  · rename_i hshown
    cases h
    rw [hhand, hshown]
    rfl
  · rename_i msg hshown
    cases h
    rw [hhand, hshown]
    rfl

/-- The other steps of the game thread leave the pipe as it is. -/
theorem gameStep_pipe (hgame : s.game ≠ .handleSysMsg) (h : s.gameStep outside = some s') :
    s'.pipe = s.pipe := by
  unfold gameStep at h
  split at h
  case h_1 hpoint => exact absurd hpoint hgame
  case h_2 msg hpoint =>
    split at h
    · cases h
    · cases h
      rw [pipe, pipe, hpoint]
      rfl
  case h_3 msg hpoint =>
    cases h
    rw [pipe, pipe, hpoint]
    exact List.append_nil _
  case h_4 hpoint =>
    cases h
    rw [pipe, pipe, hpoint, doCommand_hand]
    rfl
  case h_8 hpoint =>
    cases h
    rw [pipe, pipe, hpoint]
    by_cases htalking : s.talking = true
    · rw [if_pos htalking]
      rfl
    · rw [if_neg htalking]
      rfl
  all_goals
    rename_i hpoint
    first
    | (cases h; rw [pipe, pipe, hpoint]; rfl)
    | (split at h <;> cases h; rw [pipe, pipe, hpoint]; rfl)

/-- `handleOutputMsg` takes the first text out of the pipe, and it is the text that is printed. -/
theorem ioStep_output (hio : s.io = .handleOutputMsg) (h : s.ioStep outside = some s') :
    s.outputMsg.head?.toList ++ s'.pipe = s.pipe ∧ s'.buff = s.buff := by
  rw [ioStep, hio] at h
  cases h
  refine ⟨?_, rfl⟩
  rw [pipe, pipe]
  cases s.outputMsg with
  | nil => rfl
  | cons msg rest => rfl

/-- Behind the input, the message of a line that is not too long is pushed. -/
theorem ioStep_cin {stored : Termios} (hio : s.io = .cin stored)
    (h : s.ioStep outside = some s') : s'.pipe = s.pipe ∧ s'.buff =
      if outside.line.length ≥ maxTransMsgLen then s.buff
      else s.buff ++ outside.talkObj.toList := by
  rw [ioStep, hio] at h
  cases h
  exact ⟨rfl, rfl⟩

/-- The other steps of the IO thread neither print nor push. -/
theorem ioStep_quiet (houtput : s.io ≠ .handleOutputMsg) (hcin : ∀ stored, s.io ≠ .cin stored)
    (h : s.ioStep outside = some s') : s'.pipe = s.pipe ∧ s'.buff = s.buff := by
  unfold ioStep at h
  split at h
  case h_4 hpoint => exact absurd hpoint houtput
  case h_9 stored hpoint => exact absurd hpoint (hcin stored)
  all_goals
    first
    | (cases h; exact ⟨rfl, rfl⟩)
    | (split at h <;> (try split at h) <;> cases h <;> exact ⟨rfl, rfl⟩)

end Game

/-! ## The client -/

/-- What a step of a client does to the parts that the laws speak of. Each move names what it
changes; every other part is as it was. -/
inductive ClientMove (s : ClientRun) : ClientRun → Prop where
  | receive (obj : TransObj) :
      ClientMove s { s with rcvBuff := s.rcvBuff ++ [obj], received := s.received ++ [obj] }
  /-- a system message is taken, and its text enters the pipe -/
  | take {game : Game} {sysObj : SystemMsgObj} {rest : List SystemMsgObj} (past : Bytes)
      (hsys : s.client.sysBuff = sysObj :: rest) (buff : game.buff = s.game.buff)
      (pipe : game.pipe = s.game.pipe ++ (ClientM.handleSysMsg sysObj past s.client).head?.toList)
      (keys : s.game.readKey.Grows game.readKey) :
      ClientMove s { s with
        game := game
        client := { s.client with sysBuff := rest }
        taken := s.taken ++ [(sysObj, (ClientM.handleSysMsg sysObj past s.client).head?)] }
  | handle {game : Game} {obj : TransObj} {rest : List TransObj} {past : Bytes}
      {client : ClientState} {new : List SystemMsgObj} (hrcv : s.rcvBuff = obj :: rest)
      (handling : Handling obj past s.client client) (grows : client.sysBuff = s.client.sysBuff ++ new)
      (buff : game.buff = s.game.buff) (pipe : game.pipe = s.game.pipe)
      (keys : s.game.readKey.Grows game.readKey) :
      ClientMove s { s with
        game := game
        client := client
        rcvBuff := rest
        handled := s.handled ++ [(obj, past)]
        put := s.put ++ new }
  | print {game : Game} (buff : game.buff = s.game.buff)
      (pipe : s.game.outputMsg.head?.toList ++ game.pipe = s.game.pipe)
      (keys : s.game.readKey.Grows game.readKey) :
      ClientMove s { s with
        game := game
        printed := s.printed ++ (s.game.outputMsg.head?.map cstr).toList }
  | line {game : Game} {past : Bytes} {made : Option TransObj} {client : ClientState}
      {new : List SystemMsgObj} (typed : Typed past s.client made client)
      (grows : client.sysBuff = s.client.sysBuff ++ new)
      (buff : game.buff = s.game.buff ++ made.toList) (pipe : game.pipe = s.game.pipe)
      (keys : s.game.readKey.Grows game.readKey) :
      ClientMove s { s with game := game, client := client, put := s.put ++ new }
  /-- a thread goes on -/
  | goesOn {game : Game} (buff : game.buff = s.game.buff) (pipe : game.pipe = s.game.pipe)
      (keys : s.game.readKey.Grows game.readKey) :
      ClientMove s { s with game := game }

namespace ClientRun

variable {s s' : ClientRun}

/-- What a routine has put is what `sysBuff` has grown by. -/
theorem became_grows {client : ClientState} {new : List SystemMsgObj}
    (grows : client.sysBuff = s.client.sysBuff ++ new) :
    s.became client = { s with client := client, put := s.put ++ new } := by
  rw [became, grows, List.drop_left]

theorem move_of_gameStep {past : Bytes} {outside : Outside}
    (h : s.gameStep past outside = some s') : ClientMove s s' := by
  unfold gameStep at h
  split at h
  · rename_i hpoint
    rw [handleSysMsg] at h
    cases hsys : s.client.sysBuff with
    | nil =>
      rw [hsys] at h
      obtain ⟨game, hgame, rfl⟩ := Option.map_eq_some_iff.mp h
      have hpipe := Game.gameStep_shown hpoint hgame
      rw [Option.toList_none, List.append_nil] at hpipe
      exact .goesOn (Game.gameStep_buff hgame) hpipe (Game.gameStep_keys hgame)
    | cons sysObj rest =>
      rw [hsys] at h
      obtain ⟨game, hgame, rfl⟩ := Option.map_eq_some_iff.mp h
      exact .take past hsys (Game.gameStep_buff hgame) (Game.gameStep_shown hpoint hgame)
        (Game.gameStep_keys hgame)
  · rename_i hpoint
    have hquiet : s.game.game ≠ .handleSysMsg := by
      rw [hpoint]
      rintro ⟨⟩
    obtain ⟨s₁, hrecv, h⟩ := Option.bind_eq_some_iff.mp h
    obtain ⟨game, hgame, rfl⟩ := Option.map_eq_some_iff.mp h
    rw [handleRecvMsg] at hrecv
    cases hrcv : s.rcvBuff with
    | nil =>
      rw [hrcv] at hrecv
      cases hrecv
      exact .goesOn (Game.gameStep_buff hgame) (Game.gameStep_pipe hquiet hgame)
        (Game.gameStep_keys hgame)
    | cons obj rest =>
      rw [hrcv] at hrecv
      obtain ⟨⟨u, client⟩, hrun, rfl⟩ := Option.map_eq_some_iff.mp hrecv
      have handling := handle_ensures obj past s.client u client hrun
      obtain ⟨new, grows⟩ := handling.grows
      simp only [became_grows grows]
      exact .handle hrcv handling grows (Game.gameStep_buff hgame)
        (Game.gameStep_pipe hquiet hgame) (Game.gameStep_keys hgame)
  · rename_i hquiet _
    obtain ⟨game, hgame, rfl⟩ := Option.map_eq_some_iff.mp h
    exact .goesOn (Game.gameStep_buff hgame) (Game.gameStep_pipe hquiet hgame)
      (Game.gameStep_keys hgame)

theorem move_of_ioStep {heap : CharArray maxTransMsgLen} {past : Bytes} {outside : Outside}
    (h : s.ioStep heap past outside = some s') : ClientMove s s' := by
  unfold ioStep at h
  split at h
  · rename_i hpoint
    obtain ⟨game, hgame, rfl⟩ := Option.map_eq_some_iff.mp h
    obtain ⟨hpipe, hbuff⟩ := Game.ioStep_output hpoint hgame
    exact .print hbuff hpipe (Game.ioStep_keys hgame)
  · rename_i stored hpoint
    obtain ⟨⟨made, s₁⟩, htalk, h⟩ := Option.bind_eq_some_iff.mp h
    obtain ⟨game, hgame, rfl⟩ := Option.map_eq_some_iff.mp h
    unfold handleTalk at htalk
    split at htalk
    · rename_i hlong
      cases htalk
      obtain ⟨hpipe, hbuff⟩ := Game.ioStep_cin hpoint hgame
      exact .goesOn (hbuff.trans (if_pos hlong)) hpipe (Game.ioStep_keys hgame)
    · rename_i hshort
      obtain ⟨⟨made', client⟩, hrun, hout⟩ := Option.map_eq_some_iff.mp htalk
      cases hout
      have typed := Util.getMsgFromInput_ensures outside.line made client hrun
      obtain ⟨new, grows⟩ := typed.grows
      obtain ⟨hpipe, hbuff⟩ := Game.ioStep_cin hpoint hgame
      rw [became_grows grows]
      exact .line typed grows (hbuff.trans (if_neg hshort)) hpipe (Game.ioStep_keys hgame)
  · rename_i houtput hcin
    obtain ⟨game, hgame, rfl⟩ := Option.map_eq_some_iff.mp h
    obtain ⟨hpipe, hbuff⟩ := Game.ioStep_quiet houtput hcin hgame
    exact .goesOn hbuff hpipe (Game.ioStep_keys hgame)

/-- **A step is one of the moves.** -/
theorem move_of_step {a : ClientAction} (h : s.step a = some s') : ClientMove s s' := by
  cases a with
  | receive obj =>
    cases h
    exact .receive obj
  | game past outside => exact move_of_gameStep h
  | io heap past outside => exact move_of_ioStep h

end ClientRun

end Smer
