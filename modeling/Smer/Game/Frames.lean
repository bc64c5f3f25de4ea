import Mathlib.Data.Finset.Insert
import Smer.Game.Game

/-!
# Frames of the game loop (`Game::update`, `ReadKey::scanKeyBoard`)

The game thread alone, frame after frame, with what `Game` leaves to the outside: the descriptors
that the process has open, and the variable `in`, which is assigned only where a byte is read. What
a frame meets is its `Frame`. The commands that `handleSystem` and `actor.update` take out of their
queues are recorded.

`scanKeyBoard` stands here as one step, since no other thread uses what it changes, and the flag
`talking` is the frame's, since the IO thread resets it when it will. `reaches_run` says that the
frames are steps of the two threads of `Game` in some order. The converse is not said: there the IO
thread may hold the mutex between two steps of a frame.
-/

namespace Smer

open Lib

/-- What `scanKeyBoard` meets in one frame, since neither the flag nor the byte is its own to
decide. -/
structure Frame where
  talking : Bool
  /-- the byte that `read` stores, where it stores one -/
  read : Option Int8
  /-- what the variable `in` held before -/
  leftover : Int8

/-- The variable `in` behind the `read`. Where nothing was read it is what it was, which the source
never set. -/
def Frame.key (f : Frame) : Int8 := f.read.getD f.leftover

/-- What a step meets when there is nothing to show and no key, and a line that is no message. -/
def Outside.nothing : Outside := ⟨none, 0, 0, [], none⟩

/-- What the steps of a scan of this frame meet: the descriptor of its `open`, and its key. -/
def Frame.meets (f : Frame) (keyboard : Nat) : Outside :=
  { Outside.nothing with keyboard := .ofNat keyboard, key := f.key }

structure GameLoop where
  readKey : ReadKey
  /-- the open descriptors of the process -/
  fds : Finset Nat
  /-- the commands that `handleSystem` has taken -/
  handled : List UInt32
  /-- the commands that `actor.update` has taken -/
  acted : List UInt32

/-- `FD_SETSIZE`, behind which `FD_SET` writes outside the set. -/
def fdSetsize : Nat := 1024

namespace GameLoop

/-- `open("/dev/tty")`: the lowest free descriptor. It fails at the limit only. -/
def openTty (limit : Nat) (fds : Finset Nat) : Option Nat :=
  (List.range limit).find? fun fd => fd ∉ fds

/-- A scan that has opened the terminal on this descriptor and has found this byte in `in`. -/
def scanned (p : GameLoop) (keyboard : Nat) (key : Int8) : GameLoop :=
  { p with
    fds := insert keyboard p.fds
    readKey :=
      { p.readKey with opened := p.readKey.opened ++ [Int32.ofNat keyboard] }.putCmd key }

/-- `scanKeyBoard`. A failed `open` and the descriptor 0 do not pass the assertion, and `FD_SET`
writes behind the set from `FD_SETSIZE` on. -/
def scanKeyBoard (limit : Nat) (p : GameLoop) (f : Frame) : Option GameLoop :=
  if f.talking then some p
  else
    match openTty limit p.fds with
    | none => none
    | some keyboard =>
      if 0 < keyboard ∧ keyboard < fdSetsize then some (p.scanned keyboard f.key) else none

/-- `handleSystem` takes one command out of the queue of system commands, if there is one. -/
def handleSystem (p : GameLoop) : GameLoop :=
  { p with
    readKey := p.readKey.getSysCmd.2
    handled := p.handled ++ p.readKey.getSysCmd.1.toList }

/-- `actor.update` takes one command out of the queue of actor commands, if there is one. -/
def actorUpdate (p : GameLoop) : GameLoop :=
  { p with
    readKey := p.readKey.getCmd.2
    acted := p.acted ++ p.readKey.getCmd.1.toList }

/-- `Game::update`: a frame is the system command, the scan, and the actor, in this order. -/
def update (limit : Nat) (p : GameLoop) (f : Frame) : Option GameLoop :=
  (scanKeyBoard limit p.handleSystem f).map actorUpdate

/-- Frame after frame, until one does not come to its end. -/
def run (limit : Nat) : List Frame → GameLoop → Option GameLoop := play (update limit)

/-- A client whose standard streams are open and that has scanned nothing yet. -/
def started : GameLoop := ⟨.start, {0, 1, 2}, [], []⟩

variable {limit : Nat} {p p' : GameLoop} {f : Frame} {frames : List Frame}

/-- A run is a frame and the run after it. -/
theorem run_cons : run limit (f :: frames) p = (update limit p f).bind (run limit frames) := rfl

theorem run_cons_eq_some : run limit (f :: frames) p = some p' ↔
    ∃ p₁, update limit p f = some p₁ ∧ run limit frames p₁ = some p' := Option.bind_eq_some_iff

theorem scanKeyBoard_talking (htalking : f.talking = true) :
    scanKeyBoard limit p f = some p := if_pos htalking

/-- While nobody talks, a scan is what comes of its `open`: no descriptor and a descriptor that does
not fit both end the client. -/
theorem scanKeyBoard_open (htalking : f.talking = false) :
    scanKeyBoard limit p f = (openTty limit p.fds).bind fun keyboard =>
      if 0 < keyboard ∧ keyboard < fdSetsize then some (p.scanned keyboard f.key) else none := by
  rw [scanKeyBoard, htalking]
  cases openTty limit p.fds <;> rfl

/-- A scan that comes back has opened a descriptor. -/
theorem scanKeyBoard_cases (h : scanKeyBoard limit p f = some p') :
    (f.talking = true ∧ p' = p) ∨ f.talking = false ∧ ∃ keyboard,
      openTty limit p.fds = some keyboard ∧ 0 < keyboard ∧ keyboard < fdSetsize ∧
        p' = p.scanned keyboard f.key := by
  cases htalking : f.talking with
  | true =>
    rw [scanKeyBoard_talking htalking] at h
    exact .inl ⟨rfl, (Option.some.inj h).symm⟩
  | false =>
    rw [scanKeyBoard_open htalking] at h
    obtain ⟨keyboard, hopen, hscanned⟩ := Option.bind_eq_some_iff.mp h
    split at hscanned
    · rename_i hfits
      exact .inr ⟨rfl, keyboard, hopen, hfits.1, hfits.2, (Option.some.inj hscanned).symm⟩
    · cases hscanned

/-- The descriptor that is opened is free, and every lower one is open. -/
theorem openTty_eq_some_iff {fds : Finset Nat} {fd : Nat} :
    openTty limit fds = some fd ↔ fd ∉ fds ∧ fd < limit ∧ ∀ lower < fd, lower ∈ fds := by
  rw [openTty, List.find?_range_eq_some]
  simp only [decide_eq_true_eq, List.mem_range, Bool.not_eq_true', decide_eq_false_iff_not, not_not]

/-! ## The frames are those of the two threads -/

/-- A descriptor that fits an `fd_set` passes the assertion of `Game`. -/
theorem ofNat_keyboard_pos {keyboard : Nat} (hpos : 0 < keyboard) (hfits : keyboard < fdSetsize) :
    Int32.ofNat keyboard > 0 := by
  have hsize : fdSetsize = 1024 := rfl
  rw [gt_iff_lt, Int32.lt_iff_toInt_lt, Int32.toInt_ofNat_of_lt (by rw [hsize] at hfits; omega),
    Int32.toInt_zero]
  omega

/-- A state that the threads of `Game` reach in some order of their steps. -/
abbrev GameReaches : Game → Game → Prop := Reaches Game.step fun _ _ => True

variable {s₀ s : Game}

/-- **A scan and the frame's end are steps of the game thread**: from the test of `talking` on, when
nobody is in the mutex, the thread comes to its next frame with the keys of the frame. -/
theorem reaches_scan (reach : GameReaches s₀ s) (hgame : s.game = .isTalking)
    (hmutex : s.dataMutex = none) (htalking : s.talking = f.talking)
    (hreadKey : s.readKey = p.readKey) (hscan : scanKeyBoard limit p f = some p') :
    GameReaches s₀ { s with game := .handleSysMsg, readKey := p'.actorUpdate.readKey } := by
  obtain ⟨game, io, dataMutex, talking, outputMsg, readKey, buff, settings⟩ := s
  cases hgame
  cases hmutex
  cases htalking
  cases hreadKey
  rcases scanKeyBoard_cases hscan with ⟨h, rfl⟩ | ⟨h, keyboard, -, hpos, hfits, rfl⟩
  · refine reach.play (show play Game.step (List.replicate 3 (.game .nothing)) _ = some _ from ?_)
    simp [List.replicate, play, Game.step, Game.gameStep, h, actorUpdate]
  · have hkeyboard := ofNat_keyboard_pos hpos hfits
    refine reach.play
      (show play Game.step (List.replicate 8 (.game (f.meets keyboard))) _ = some _ from ?_)
    simp [List.replicate, play, Game.step, Game.gameStep, Frame.meets, h, hkeyboard, actorUpdate,
      scanned]

/-- The IO thread reads a line, and the talk is over. -/
theorem reaches_talked (reach : GameReaches s₀ s) (hio : s.io = .lock) (hmutex : s.dataMutex = none)
    (htalking : s.talking = true) : GameReaches s₀ { s with talking := false } := by
  obtain ⟨game, io, dataMutex, talking, outputMsg, readKey, buff, settings⟩ := s
  cases hio
  cases hmutex
  cases htalking
  refine reach.play (show play Game.step (List.replicate 8 (.io .nothing)) _ = some _ from ?_)
  simp [List.replicate, play, Game.step, Game.ioStep, Outside.nothing, maxTransMsgLen]

/-- `handleSystem` takes the command that turns to talk. -/
def TurnsToTalk (p : GameLoop) : Prop := Game.doCommand p.readKey.getSysCmd.1 = .turnToTalk

theorem doCommand_cases (cmd : Option UInt32) :
    Game.doCommand cmd = .turnToTalk ∨ Game.doCommand cmd = .isTalking := by
  cases cmd with
  | none => exact .inr rfl
  | some type =>
    rw [Game.doCommand]
    split
    · exact .inl rfl
    · exact .inr rfl

/-- From the frame's beginning the game thread comes to its test of `talking`. The flag is what the
frame finds: a talk that has begun goes on or is over. -/
theorem reaches_test (reach : GameReaches s₀ s) (hgame : s.game = .handleSysMsg)
    (hio : s.io = .lock) (hmutex : s.dataMutex = none) (hreadKey : s.readKey = p.readKey)
    (begun : f.talking = true → s.talking = true ∨ TurnsToTalk p) :
    GameReaches s₀
      { s with game := .isTalking, readKey := p.handleSystem.readKey, talking := f.talking } := by
  obtain ⟨game, io, dataMutex, talking, outputMsg, readKey, buff, settings⟩ := s
  cases hgame
  cases hio
  cases hmutex
  cases hreadKey
  have taken := reach.play
    (show play Game.step (List.replicate 2 (.game .nothing)) _ = some _ from rfl)
  -- the flag behind the command, whatever it was
  have turned : ∃ talking', (f.talking = true → talking' = true) ∧ GameReaches s₀
      ⟨.isTalking, .lock, none, talking', outputMsg, p.handleSystem.readKey, buff, settings⟩ := by
    rcases doCommand_cases p.readKey.getSysCmd.1 with hcmd | hcmd
    · refine ⟨true, fun _ => rfl, taken.play
        (show play Game.step (List.replicate 2 (.game .nothing)) _ = some _ from ?_)⟩
      simp only [List.replicate, play, Game.step, Game.gameStep, hcmd]
      rfl
    · refine ⟨talking, fun h => (begun h).resolve_right fun turns => ?_, ?_⟩
      · cases hcmd.symm.trans turns
      · rw [← hcmd]
        exact taken
  obtain ⟨talking', flag, reach⟩ := turned
  cases hf : f.talking with
  | true =>
    cases flag hf
    exact reach
  | false =>
    cases talking' with
    | true => exact reaches_talked reach rfl rfl rfl
    | false => exact reach

/-- **A frame is steps of the two threads**, from the game thread's beginning of a frame to the
next, with the IO thread outside the mutex at both. -/
theorem reaches_update (reach : GameReaches s₀ s) (hgame : s.game = .handleSysMsg)
    (hio : s.io = .lock) (hmutex : s.dataMutex = none) (hreadKey : s.readKey = p.readKey)
    (begun : f.talking = true → s.talking = true ∨ TurnsToTalk p)
    (h : update limit p f = some p') :
    GameReaches s₀ { s with readKey := p'.readKey, talking := f.talking } := by
  obtain ⟨p₁, hscan, rfl⟩ := Option.map_eq_some_iff.mp h
  obtain ⟨game, io, dataMutex, talking, outputMsg, readKey, buff, settings⟩ := s
  cases hgame
  exact reaches_scan (reaches_test reach rfl hio hmutex hreadKey begun) rfl hmutex rfl rfl hscan

/-- The frames find a talk only where one has begun: it was on in the frame before, or the frame's
command has turned to it. -/
def TalksBegun (limit : Nat) : Bool → GameLoop → List Frame → Prop
  | _, _, [] => True
  | talking, p, f :: frames =>
    (f.talking = true → talking = true ∨ TurnsToTalk p) ∧
      ∀ p', update limit p f = some p' → TalksBegun limit f.talking p' frames

/-- **The frames refine the two threads**: whatever a run of frames makes of the keys, some order of
the threads' steps makes of them. -/
theorem reaches_run : ∀ {frames : List Frame} {p : GameLoop} {s : Game},
    GameReaches s₀ s → s.game = .handleSysMsg → s.io = .lock → s.dataMutex = none →
      s.readKey = p.readKey → TalksBegun limit s.talking p frames →
        run limit frames p = some p' →
          ∃ talking, GameReaches s₀ { s with readKey := p'.readKey, talking := talking }
  | [], p, s, reach, hgame, hio, hmutex, hreadKey, begun, h => by
    cases h
    rw [← hreadKey]
    exact ⟨s.talking, reach⟩
  | f :: frames, p, s, reach, hgame, hio, hmutex, hreadKey, begun, h => by
    obtain ⟨p₁, hupdate, hrun⟩ := run_cons_eq_some.mp h
    have frame := reaches_update reach hgame hio hmutex hreadKey begun.1 hupdate
    obtain ⟨talking, reach⟩ := reaches_run frame hgame hio hmutex rfl (begun.2 p₁ hupdate) hrun
    exact ⟨talking, reach⟩

end GameLoop

end Smer
