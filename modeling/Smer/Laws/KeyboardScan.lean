import Smer.Game.Frames

/-!
# Keyboard scan fidelity

The commands that `scanKeyBoard` puts in its two queues, and the `MSG_CMD` objects that it pushes,
should be those of the bound keys that were read, in order and each once.

`scanKeyBoard` looks its variable `in` up whether or not a byte was read, so a frame puts the
command of the byte that `in` happens to hold (`update_put`). A run of frames is faithful exactly
when that byte is bound to no command wherever nothing was read (`scan_faithful_iff`).

The frames are those of `GameLoop`; that the client's threads can take them as their steps is
`GameLoop.reaches_run`.
-/

namespace Smer

open Lib

/-! ## The queues -/

/-- Where `scanKeyBoard` puts a command. -/
inductive CmdQueue where
  | cmdQue
  | sysCmdQue
  /-- the `MSG_CMD` objects of the outbound queue -/
  | buff

/-- The command that a key is bound to. -/
def boundCmd (key : Int8) : Option UInt32 := ReadKey.cmd.lookup key.toInt

namespace CmdQueue

/-- The kind of command that goes to a queue. -/
def takes : CmdQueue → UInt32 → Bool
  | cmdQue => ReadKey.isActorCmd
  | sysCmdQue => ReadKey.isSystemCmd
  | buff => ReadKey.isActorCmd

/-- The command of a key, if it goes to the queue. -/
def cmdOf (q : CmdQueue) (key : Int8) : Option UInt32 := (boundCmd key).filter q.takes

end CmdQueue

namespace ReadKey

/-- A queue with what is in it. -/
def queue (r : ReadKey) : CmdQueue → List UInt32
  | .cmdQue => r.cmdQue
  | .sysCmdQue => r.sysCmdQue
  | .buff => r.buff

/-- A command is for the actor or for the system, not for both. -/
theorem isSystemCmd_eq_false {type : UInt32} (hactor : isActorCmd type = true) :
    isSystemCmd type = false := by
  simp only [isActorCmd, isSystemCmd, cmdMoveUp, cmdJump, cmdEnter, cmdSystem, ge_iff_le,
    UInt32.le_iff_toNat_le, decide_eq_true_eq, decide_eq_false_iff_not] at hactor ⊢
  have hjump : type.toNat ≤ 5 := hactor.2
  rintro ⟨henter, -⟩
  have henter' : 6 ≤ type.toNat := henter
  omega

/-- Every bound command goes to a queue. -/
theorem exists_takes {key : Int8} {type : UInt32} (h : boundCmd key = some type) :
    ∃ q : CmdQueue, q.takes type = true := by
  have hall : ∀ entry ∈ cmd, isActorCmd entry.2 = true ∨ isSystemCmd entry.2 = true := by
    decide
  obtain ⟨before, after, hcmd, -⟩ := List.lookup_eq_some_iff.mp h
  have hmem : (key.toInt, type) ∈ cmd := by
    rw [hcmd]
    exact List.mem_append_right _ List.mem_cons_self
  rcases hall _ hmem with hactor | hsystem
  · exact ⟨.cmdQue, hactor⟩
  · exact ⟨.sysCmdQue, hsystem⟩

/-- A key puts its command at the end of the queues that it goes to. -/
theorem queue_putCmd (r : ReadKey) (key : Int8) (q : CmdQueue) :
    (r.putCmd key).queue q = r.queue q ++ (q.cmdOf key).toList := by
  unfold putCmd CmdQueue.cmdOf boundCmd
  cases cmd.lookup key.toInt with
  | none => exact (List.append_nil _).symm
  | some type =>
    cases hactor : isActorCmd type with
    | true =>
      have hsystem := isSystemCmd_eq_false hactor
      cases q <;> simp [queue, CmdQueue.takes, hactor, hsystem, Option.filter]
    | false =>
      cases hsystem : isSystemCmd type <;>
        cases q <;> simp [queue, CmdQueue.takes, hactor, hsystem, Option.filter]

end ReadKey

/-! ## Lists with elements dropped -/

section FilterMap

variable {α β : Type} {used read : α → Option β} {l : List α}

/-- Elements that are dropped leave a shorter list. -/
theorem length_filterMap_le_of_drops (drops : ∀ a ∈ l, read a = used a ∨ read a = none) :
    (l.filterMap read).length ≤ (l.filterMap used).length := by
  induction l with
  | nil => exact le_rfl
  | cons a l ih =>
    have hrest := ih fun b hb => drops b (List.mem_cons_of_mem _ hb)
    rw [List.filterMap_cons, List.filterMap_cons]
    rcases drops a List.mem_cons_self with hsame | hnone
    · rw [hsame]
      cases used a with
      | none => exact hrest
      | some b => exact Nat.succ_le_succ hrest
    · rw [hnone]
      cases used a with
      | none => exact hrest
      | some b => exact Nat.le_succ_of_le hrest

/-- Where elements are dropped, the same list comes out only if they gave nothing. -/
theorem filterMap_eq_iff_of_drops (drops : ∀ a ∈ l, read a = used a ∨ read a = none) :
    l.filterMap used = l.filterMap read ↔ ∀ a ∈ l, used a = read a := by
  refine ⟨fun h => ?_, fun h => List.filterMap_congr h⟩
  induction l with
  | nil => exact List.forall_mem_nil _
  | cons a l ih =>
    have hdrops : ∀ b ∈ l, read b = used b ∨ read b = none :=
      fun b hb => drops b (List.mem_cons_of_mem _ hb)
    rw [List.filterMap_cons, List.filterMap_cons] at h
    rw [List.forall_mem_cons]
    rcases drops a List.mem_cons_self with hsame | hnone
    · refine ⟨hsame.symm, ih hdrops ?_⟩
      rw [hsame] at h
      cases hused : used a with
      | none =>
        rw [hused] at h
        exact h
      | some b =>
        rw [hused] at h
        exact (List.cons.inj h).2
    · rw [hnone] at h
      cases hused : used a with
      | none =>
        rw [hused] at h
        exact ⟨hnone.symm, ih hdrops h⟩
      | some b =>
        -- one element more than all that are left
        rw [hused] at h
        have hlength : (b :: l.filterMap used).length = (l.filterMap read).length :=
          congrArg List.length h
        have hle := length_filterMap_le_of_drops hdrops
        rw [List.length_cons] at hlength
        omega

end FilterMap

/-! ## Frames -/

/-- The key that the frame reads: none while the player talks, and none where `read` gets no byte.
-/
def Frame.keyRead (f : Frame) : Option Int8 := if f.talking then none else f.read

/-- The key that the frame looks up: whatever `in` holds, whether or not a byte was read. -/
def Frame.keyUsed (f : Frame) : Option Int8 := if f.talking then none else some f.key

namespace GameLoop

/-- The commands that were put in a queue, those that were taken from it first. -/
def put (p : GameLoop) : CmdQueue → List UInt32
  | .cmdQue => p.acted ++ p.readKey.cmdQue
  | .sysCmdQue => p.handled ++ p.readKey.sysCmdQue
  | .buff => p.readKey.buff

/-- From one state of the loop to another, frames have put the commands of the keys that they read,
in order and each once, and a frame that read none has put nothing. -/
structure ScanFaithful (limit : Nat) (frames : List Frame) (p p' : GameLoop) : Prop where
  commands : ∀ q, p'.put q = p.put q ++ (frames.filterMap Frame.keyRead).filterMap q.cmdOf
  idle : ∀ before f after p₁ p₂, frames = before ++ f :: after → run limit before p = some p₁ →
    update limit p₁ f = some p₂ → f.keyRead = none → ∀ q, p₂.put q = p₁.put q

/-- Wherever no key was read, the variable holds a key that is bound to no command. -/
def Unbound (frames : List Frame) : Prop :=
  ∀ f ∈ frames, f.talking = false → f.read = none → boundCmd f.leftover = none

variable {limit : Nat} {p p' : GameLoop} {f : Frame} {frames : List Frame}

theorem put_handleSystem (p : GameLoop) (q : CmdQueue) : p.handleSystem.put q = p.put q := by
  cases q with
  | cmdQue => rfl
  | sysCmdQue =>
    simp only [put, handleSystem, ReadKey.getSysCmd]
    cases p.readKey.sysCmdQue <;> simp
  | buff => rfl

theorem put_actorUpdate (p : GameLoop) (q : CmdQueue) : p.actorUpdate.put q = p.put q := by
  cases q with
  | cmdQue =>
    simp only [put, actorUpdate, ReadKey.getCmd]
    cases p.readKey.cmdQue <;> simp
  | sysCmdQue => rfl
  | buff => rfl

theorem put_scanned (p : GameLoop) (keyboard : Nat) (key : Int8) (q : CmdQueue) :
    (p.scanned keyboard key).put q = p.put q ++ (q.cmdOf key).toList := by
  have hqueue := ReadKey.queue_putCmd
    { p.readKey with opened := p.readKey.opened ++ [Int32.ofNat keyboard] } key q
  cases q with
  | cmdQue => exact (congrArg (p.acted ++ ·) hqueue).trans (List.append_assoc _ _ _).symm
  | sysCmdQue => exact (congrArg (p.handled ++ ·) hqueue).trans (List.append_assoc _ _ _).symm
  | buff => exact hqueue

/-- A frame puts the command of the key that it looks up. -/
theorem update_put (h : update limit p f = some p') (q : CmdQueue) :
    p'.put q = p.put q ++ (f.keyUsed.bind q.cmdOf).toList := by
  obtain ⟨p₁, hscan, rfl⟩ := Option.map_eq_some_iff.mp h
  rw [put_actorUpdate]
  rcases scanKeyBoard_cases hscan with ⟨htalking, rfl⟩ | ⟨htalking, keyboard, -, -, -, rfl⟩
  · rw [put_handleSystem, Frame.keyUsed, if_pos htalking]
    exact (List.append_nil _).symm
  · rw [put_scanned, put_handleSystem, Frame.keyUsed, htalking]
    rfl

/-- A run puts the commands of the keys that its frames look up. -/
theorem run_put (h : run limit frames p = some p') (q : CmdQueue) :
    p'.put q = p.put q ++ frames.filterMap fun f => f.keyUsed.bind q.cmdOf := by
  induction frames generalizing p with
  | nil =>
    cases h
    exact (List.append_nil _).symm
  | cons f frames ih =>
    obtain ⟨p₁, hupdate, hrun⟩ := run_cons_eq_some.mp h
    rw [ih hrun, update_put hupdate, List.append_assoc, List.filterMap_cons]
    cases f.keyUsed.bind q.cmdOf <;> rfl

/-- What a frame reads is what it looks up, or it reads nothing. -/
theorem keyRead_bind_cases (f : Frame) (q : CmdQueue) :
    f.keyRead.bind q.cmdOf = f.keyUsed.bind q.cmdOf ∨ f.keyRead.bind q.cmdOf = none := by
  rw [Frame.keyRead, Frame.keyUsed, Frame.key]
  cases f.talking with
  | true => exact .inr rfl
  | false =>
    cases f.read with
    | none => exact .inr rfl
    | some key => exact .inl rfl

/-- A frame looks up what it read, as far as commands go, unless the variable held a bound key. -/
theorem forall_keyUsed_iff (f : Frame) :
    (∀ q : CmdQueue, f.keyUsed.bind q.cmdOf = f.keyRead.bind q.cmdOf) ↔
      (f.talking = false → f.read = none → boundCmd f.leftover = none) := by
  rw [Frame.keyRead, Frame.keyUsed, Frame.key]
  cases f.talking with
  | true => exact iff_of_true (fun q => rfl) fun h => by cases h
  | false =>
    cases f.read with
    | some key => exact iff_of_true (fun q => rfl) fun _ h => by cases h
    | none =>
      constructor
      · intro h _ _
        cases hbound : boundCmd f.leftover with
        | none => rfl
        | some type =>
          obtain ⟨q, htakes⟩ := ReadKey.exists_takes hbound
          have hcmd : (boundCmd f.leftover).filter q.takes = none := h q
          rw [hbound, Option.filter_some, if_pos htakes] at hcmd
          cases hcmd
      · intro h q
        show (boundCmd f.leftover).filter q.takes = none
        rw [h rfl rfl]
        rfl

/-- **A run is faithful to the keyboard exactly when the variable holds no bound key wherever
nothing was read.** -/
theorem scan_faithful_iff (h : run limit frames p = some p') :
    ScanFaithful limit frames p p' ↔ Unbound frames := by
  have hcommands : ∀ q, p'.put q = p.put q ++ (frames.filterMap Frame.keyRead).filterMap q.cmdOf ↔
      ∀ f ∈ frames, f.keyUsed.bind q.cmdOf = f.keyRead.bind q.cmdOf := by
    intro q
    rw [run_put h, List.filterMap_filterMap, List.append_cancel_left_eq]
    exact filterMap_eq_iff_of_drops fun f _ => keyRead_bind_cases f q
  constructor
  · intro hfaithful f hf
    rw [← forall_keyUsed_iff]
    intro q
    exact (hcommands q).mp (hfaithful.commands q) f hf
  · intro hunbound
    refine ⟨fun q => (hcommands q).mpr fun f hf => ?_, ?_⟩
    · exact (forall_keyUsed_iff f).mpr (hunbound f hf) q
    · intro before f after p₁ p₂ hframes _ hupdate hidle q
      have hf : f ∈ frames := by
        rw [hframes]
        exact List.mem_append_right _ List.mem_cons_self
      have hused := (forall_keyUsed_iff f).mpr (hunbound f hf) q
      rw [update_put hupdate, hused, hidle]
      exact List.append_nil _

theorem run_started (htalking : f.talking = false) :
    run 1024 [f] started = some (started.scanned 3 f.key).actorUpdate := by
  have hopen : openTty 1024 {0, 1, 2} = some 3 := by
    rw [openTty_eq_some_iff]
    decide
  have hscan : scanKeyBoard 1024 started.handleSystem f = some (started.scanned 3 f.key) := by
    rw [scanKeyBoard_open htalking]
    exact (congrArg (Option.bind · _) hopen).trans rfl
  refine run_cons_eq_some.mpr ⟨_, ?_, rfl⟩
  rw [update, hscan]
  rfl

/-- One frame that reads `w` is faithful. -/
theorem scan_faithful_iff_w :
    ScanFaithful 1024 [⟨false, some 119, 0⟩] started (started.scanned 3 119).actorUpdate ↔
      Unbound [⟨false, some 119, 0⟩] :=
  scan_faithful_iff (run_started rfl)

/-- A frame that reads nothing moves the player up. -/
theorem not_scan_faithful : ¬∀ (limit : Nat) (frames : List Frame) (p p' : GameLoop),
    run limit frames p = some p' → ScanFaithful limit frames p p' := by
  intro h
  have hfaithful := h 1024 [⟨false, none, 119⟩] started _ (run_started rfl)
  have hput : [cmdMoveUp] = [] := hfaithful.commands .cmdQue
  cases hput

end GameLoop

end Smer
