import Smer.Game.Game

/-!
# Keyboard exclusion

`scanKeyBoard` tests the flag `talking` under the mutex and uses the terminal after it has given the
mutex back. What keeps `handleTalk` out meanwhile is that only the game thread turns the flag on, and
it is busy scanning: while it scans the flag is off, and while `handleTalk` runs the flag is on
(`Inv`). So each of the two finds the settings of the start and puts them back
(`exclusive_of_reaches`).

That either of the two ever gets its turn is not established.
-/

namespace Smer

open Lib

/-! ## Sections -/

namespace GamePoint

/-- From the `tcgetattr` to the last `tcsetattr` of `scanKeyBoard`. -/
def scans : GamePoint → Bool
  | .tcgetattr | .tcsetattrNew _ | .select _ | .tcsetattrStored _ _ => true
  | _ => false

/-- The settings that `tcgetattr` has found, from there to the point where they are put back. -/
def stored : GamePoint → Option Termios
  | .tcsetattrNew stored | .select stored | .tcsetattrStored stored _ => some stored
  | _ => none

/-- Between the two `tcsetattr` calls the settings of the scan are set. -/
def changes : GamePoint → Bool
  | .select _ | .tcsetattrStored _ _ => true
  | _ => false

theorem changes_of_not_scans {p : GamePoint} (h : p.scans = false) : p.changes = false := by
  cases p <;> first | rfl | cases h

theorem stored_of_not_scans {p : GamePoint} (h : p.scans = false) : p.stored = none := by
  cases p <;> first | rfl | cases h

end GamePoint

namespace IOPoint

/-- The IO thread is inside `handleTalk`, up to the reset of the flag. -/
def talks : IOPoint → Bool
  | .handleTalk | .tcgetattr | .tcsetattrNew _ | .tcsetattrStored _ | .cin _ | .reset _ => true
  | _ => false

def stored : IOPoint → Option Termios
  | .tcsetattrNew stored | .tcsetattrStored stored | .cin stored | .reset stored =>
    some stored
  | _ => none

def changes : IOPoint → Bool
  | .tcsetattrStored _ => true
  | _ => false

theorem changes_of_not_talks {p : IOPoint} (h : p.talks = false) : p.changes = false := by
  cases p <;> first | rfl | cases h

theorem stored_of_not_talks {p : IOPoint} (h : p.talks = false) : p.stored = none := by
  cases p <;> first | rfl | cases h

end IOPoint

namespace Game

/-! ## What a step does to the flag and the terminal -/

inductive GameMove (s s' : Game) : Prop where
  /-- outside the section: the flag can be turned on -/
  | elsewhere (before : s.game.scans = false) (after : s'.game.scans = false)
      (talking : s'.talking = s.talking ∨ s'.talking = true) (settings : s'.settings = s.settings)
  | enter (before : s.game.scans = false) (after : s'.game = .tcgetattr)
      (quiet : s.talking = false) (talking : s'.talking = s.talking)
      (settings : s'.settings = s.settings)
  | within (before : s.game.scans = true) (after : s'.game.scans = true)
      (talking : s'.talking = s.talking)
      (stored : ∀ t ∈ s'.game.stored, t ∈ s.game.stored ∨ s.game.changes = false ∧ t = s.settings)
      (settings : s'.game.changes = false → s.game.changes = false ∧ s'.settings = s.settings)
  | leave (before : s.game.scans = true) (after : s'.game.scans = false)
      (talking : s'.talking = s.talking) (settings : s.game.stored = some s'.settings)

inductive IOMove (s s' : Game) : Prop where
  | elsewhere (before : s.io.talks = false) (after : s'.io.talks = false)
      (talking : s'.talking = s.talking) (settings : s'.settings = s.settings)
  | enter (before : s.io.talks = false) (after : s'.io = .handleTalk)
      (loud : s.talking = true) (talking : s'.talking = s.talking)
      (settings : s'.settings = s.settings)
  | within (before : s.io.talks = true) (after : s'.io.talks = true)
      (talking : s'.talking = true ∨ s'.talking = s.talking)
      (stored : ∀ t ∈ s'.io.stored, t ∈ s.io.stored ∨ s.io.changes = false ∧ t = s.settings)
      (settings : s'.io.changes = false →
        s.io.changes = false ∧ s'.settings = s.settings ∨ s.io.stored = some s'.settings)
  | leave (before : s.io.talks = true) (after : s'.io.talks = false)
      (stored : ∃ stored, s.io.stored = some stored) (changes : s.io.changes = false)
      (settings : s'.settings = s.settings)

section Step

variable {s s' : Game} {outside : Outside}

theorem doCommand_scans (type : Option UInt32) : (doCommand type).scans = false := by
  cases type with
  | none => rfl
  | some type =>
    rw [doCommand]
    split <;> rfl

theorem gameStep_io (h : s.gameStep outside = some s') : s'.io = s.io := by
  unfold gameStep at h
  split at h <;> (try split at h) <;> cases h <;> rfl

theorem ioStep_game (h : s.ioStep outside = some s') : s'.game = s.game := by
  unfold ioStep at h
  split at h <;> (try split at h) <;> (try split at h) <;> cases h <;> rfl

theorem gameMove_of_step (h : s.gameStep outside = some s') : GameMove s s' := by
  unfold gameStep at h
  split at h
  case h_1 hgame =>
    split at h
    all_goals
      cases h
      exact .elsewhere (by rw [hgame]; rfl) rfl (.inl rfl) rfl
  case h_2 msg hgame =>
    split at h
    · cases h
    · cases h
      exact .elsewhere (by rw [hgame]; rfl) rfl (.inl rfl) rfl
  case h_3 msg hgame =>
    cases h
    exact .elsewhere (by rw [hgame]; rfl) rfl (.inl rfl) rfl
  case h_4 hgame =>
    cases h
    exact .elsewhere (by rw [hgame]; rfl) (doCommand_scans _) (.inl rfl) rfl
  case h_5 hgame =>
    split at h
    · cases h
    · cases h
      exact .elsewhere (by rw [hgame]; rfl) rfl (.inl rfl) rfl
  case h_6 hgame =>
    cases h
    exact .elsewhere (by rw [hgame]; rfl) rfl (.inr rfl) rfl
  case h_7 hgame =>
    split at h
    · cases h
    · cases h
      exact .elsewhere (by rw [hgame]; rfl) rfl (.inl rfl) rfl
  case h_8 hgame =>
    cases h
    by_cases htalking : s.talking = true
    · have after : (if s.talking = true then GamePoint.actorUpdate else .tcgetattr).scans =
          false := by
        rw [if_pos htalking]
        rfl
      exact .elsewhere (by rw [hgame]; rfl) after (.inl rfl) rfl
    · exact .enter (by rw [hgame]; rfl) (if_neg htalking) (Bool.eq_false_iff.mpr htalking) rfl rfl
  case h_9 hgame =>
    cases h
    refine .within (by rw [hgame]; rfl) rfl rfl (fun t ht => ?_) fun _ => ⟨by rw [hgame]; rfl, rfl⟩
    cases ht
    exact .inr ⟨by rw [hgame]; rfl, rfl⟩
  case h_10 stored hgame =>
    cases h
    refine .within (by rw [hgame]; rfl) rfl rfl (fun t ht => ?_) fun h => by cases h
    cases ht
    exact .inl (by rw [hgame]; rfl)
  case h_11 stored hgame =>
    split at h
    · cases h
      refine .within (by rw [hgame]; rfl) rfl rfl (fun t ht => ?_) fun h => by cases h
      cases ht
      exact .inl (by rw [hgame]; rfl)
    · cases h
  case h_12 stored key hgame =>
    cases h
    exact .leave (by rw [hgame]; rfl) rfl rfl (by rw [hgame]; rfl)
  case h_13 key hgame =>
    cases h
    exact .elsewhere (by rw [hgame]; rfl) rfl (.inl rfl) rfl
  case h_14 hgame =>
    cases h
    exact .elsewhere (by rw [hgame]; rfl) rfl (.inl rfl) rfl

theorem ioMove_of_step (h : s.ioStep outside = some s') : IOMove s s' := by
  unfold ioStep at h
  split at h
  case h_1 hio =>
    split at h
    · cases h
    · cases h
      exact .elsewhere (by rw [hio]; rfl) rfl rfl rfl
  case h_2 hio =>
    split at h
    · rename_i htalking
      cases h
      exact .enter (by rw [hio]; rfl) rfl htalking rfl rfl
    · split at h
      all_goals
        cases h
        exact .elsewhere (by rw [hio]; rfl) rfl rfl rfl
  case h_3 hio =>
    cases h
    exact .elsewhere (by rw [hio]; rfl) rfl rfl rfl
  case h_4 hio =>
    cases h
    exact .elsewhere (by rw [hio]; rfl) rfl rfl rfl
  case h_5 hio =>
    cases h
    exact .within (by rw [hio]; rfl) rfl (.inl rfl) (fun t ht => by cases ht)
      fun _ => .inl ⟨by rw [hio]; rfl, rfl⟩
  case h_6 hio =>
    cases h
    refine .within (by rw [hio]; rfl) rfl (.inr rfl) (fun t ht => ?_)
      fun _ => .inl ⟨by rw [hio]; rfl, rfl⟩
    cases ht
    exact .inr ⟨by rw [hio]; rfl, rfl⟩
  case h_7 stored hio =>
    cases h
    refine .within (by rw [hio]; rfl) rfl (.inr rfl) (fun t ht => ?_) fun h => by cases h
    cases ht
    exact .inl (by rw [hio]; rfl)
  case h_8 stored hio =>
    cases h
    refine .within (by rw [hio]; rfl) rfl (.inr rfl) (fun t ht => ?_)
      fun _ => .inr (by rw [hio]; rfl)
    cases ht
    exact .inl (by rw [hio]; rfl)
  case h_9 stored hio =>
    cases h
    refine .within (by rw [hio]; rfl) rfl (.inr rfl) (fun t ht => ?_)
      fun _ => .inl ⟨by rw [hio]; rfl, rfl⟩
    cases ht
    exact .inl (by rw [hio]; rfl)
  case h_10 stored hio =>
    cases h
    exact .leave (by rw [hio]; rfl) rfl ⟨stored, by rw [hio]; rfl⟩ (by rw [hio]; rfl) rfl

end Step

/-! ## Exclusion -/

/-- The flag tells which of the two sections can be entered, and nothing but the settings of the
start is ever stored. -/
structure Inv (settings : Termios) (s : Game) : Prop where
  quiet : s.game.scans = true → s.talking = false
  loud : s.io.talks = true → s.talking = true
  gameStored : ∀ stored ∈ s.game.stored, stored = settings
  ioStored : ∀ stored ∈ s.io.stored, stored = settings
  restored : s.game.changes = false → s.io.changes = false → s.settings = settings

section Inv

variable {t : Termios} {s s' : Game} {outside : Outside}

theorem inv_start (settings : Termios) : Inv settings (start settings) where
  quiet h := by cases h
  loud h := by cases h
  gameStored stored h := by cases h
  ioStored stored h := by cases h
  restored _ _ := rfl

/-- The two sections exclude each other. -/
theorem Inv.not_talks (inv : Inv t s) (h : s.game.scans = true) : s.io.talks = false := by
  rw [Bool.eq_false_iff]
  intro htalks
  have hquiet := inv.quiet h
  rw [inv.loud htalks] at hquiet
  cases hquiet

theorem Inv.not_scans (inv : Inv t s) (h : s.io.talks = true) : s.game.scans = false := by
  rw [Bool.eq_false_iff]
  intro hscans
  rw [inv.not_talks hscans] at h
  cases h

/-- While the game thread is in its section the IO thread has nothing changed, and nothing but the
settings of the start is stored next. -/
theorem Inv.gameStored_next (inv : Inv t s) (scans : s.game.scans = true) {stored : Termios}
    (h : stored ∈ s.game.stored ∨ s.game.changes = false ∧ stored = s.settings) : stored = t := by
  rcases h with h | ⟨hchanges, rfl⟩
  · exact inv.gameStored stored h
  · exact inv.restored hchanges (IOPoint.changes_of_not_talks (inv.not_talks scans))

theorem Inv.ioStored_next (inv : Inv t s) (talks : s.io.talks = true) {stored : Termios}
    (h : stored ∈ s.io.stored ∨ s.io.changes = false ∧ stored = s.settings) : stored = t := by
  rcases h with h | ⟨hchanges, rfl⟩
  · exact inv.ioStored stored h
  · exact inv.restored (GamePoint.changes_of_not_scans (inv.not_scans talks)) hchanges

theorem Inv.gameStep (inv : Inv t s) (h : s.gameStep outside = some s') : Inv t s' := by
  have hio := gameStep_io h
  have ioStored : ∀ stored ∈ s'.io.stored, stored = t := by
    rw [hio]
    exact inv.ioStored
  cases gameMove_of_step h with
  | elsewhere before after talking settings =>
    refine ⟨fun h => ?_, fun h => ?_, fun stored h => ?_, ioStored, fun _ h => ?_⟩
    · rw [after] at h
      cases h
    · rw [hio] at h
      rcases talking with talking | talking
      · rw [talking, inv.loud h]
      · exact talking
    · rw [GamePoint.stored_of_not_scans after] at h
      cases h
    · rw [hio] at h
      rw [settings, inv.restored (GamePoint.changes_of_not_scans before) h]
  | enter before after quiet talking settings =>
    refine ⟨fun _ => ?_, fun h => ?_, fun stored h => ?_, ioStored, fun _ h => ?_⟩
    · rw [talking, quiet]
    · rw [hio] at h
      rw [talking, inv.loud h]
    · rw [after] at h
      cases h
    · rw [hio] at h
      rw [settings, inv.restored (GamePoint.changes_of_not_scans before) h]
  | within before after talking stored settings =>
    refine ⟨fun _ => ?_, fun h => ?_, fun stored' h => ?_, ioStored, fun h _ => ?_⟩
    · rw [talking, inv.quiet before]
    · rw [hio, inv.not_talks before] at h
      cases h
    · exact inv.gameStored_next before (stored stored' h)
    · obtain ⟨hchanges, hsettings⟩ := settings h
      exact inv.gameStored_next before (.inr ⟨hchanges, hsettings⟩)
  | leave before after talking settings =>
    refine ⟨fun h => ?_, fun h => ?_, fun stored h => ?_, ioStored, fun _ _ => ?_⟩
    · rw [after] at h
      cases h
    · rw [hio, inv.not_talks before] at h
      cases h
    · rw [GamePoint.stored_of_not_scans after] at h
      cases h
    · exact inv.gameStored _ settings

theorem Inv.ioStep (inv : Inv t s) (h : s.ioStep outside = some s') : Inv t s' := by
  have hgame := ioStep_game h
  have gameStored : ∀ stored ∈ s'.game.stored, stored = t := by
    rw [hgame]
    exact inv.gameStored
  cases ioMove_of_step h with
  | elsewhere before after talking settings =>
    refine ⟨fun h => ?_, fun h => ?_, gameStored, fun stored h => ?_, fun h _ => ?_⟩
    · rw [hgame] at h
      rw [talking, inv.quiet h]
    · rw [after] at h
      cases h
    · rw [IOPoint.stored_of_not_talks after] at h
      cases h
    · rw [hgame] at h
      rw [settings, inv.restored h (IOPoint.changes_of_not_talks before)]
  | enter before after loud talking settings =>
    refine ⟨fun h => ?_, fun _ => ?_, gameStored, fun stored h => ?_, fun h _ => ?_⟩
    · rw [hgame] at h
      rw [talking, inv.quiet h]
    · rw [talking, loud]
    · rw [after] at h
      cases h
    · rw [hgame] at h
      rw [settings, inv.restored h (IOPoint.changes_of_not_talks before)]
  | within before after talking stored settings =>
    refine ⟨fun h => ?_, fun _ => ?_, gameStored, fun stored' h => ?_, fun _ h => ?_⟩
    · rw [hgame, inv.not_scans before] at h
      cases h
    · rcases talking with talking | talking
      · exact talking
      · rw [talking, inv.loud before]
    · exact inv.ioStored_next before (stored stored' h)
    · rcases settings h with ⟨hchanges, hsettings⟩ | hsettings
      · exact inv.ioStored_next before (.inr ⟨hchanges, hsettings⟩)
      · exact inv.ioStored _ hsettings
  | leave before after stored changes settings =>
    refine ⟨fun h => ?_, fun h => ?_, gameStored, fun stored h => ?_, fun _ _ => ?_⟩
    · rw [hgame, inv.not_scans before] at h
      cases h
    · rw [after] at h
      cases h
    · rw [IOPoint.stored_of_not_talks after] at h
      cases h
    · exact inv.ioStored_next before (.inr ⟨changes, settings⟩)

theorem Inv.step (inv : Inv t s) {a : GameAction} (h : s.step a = some s') : Inv t s' := by
  cases a with
  | game outside => exact inv.gameStep h
  | io outside => exact inv.ioStep h

end Inv

/-- What keyboard exclusion says of a state and of the steps from it. -/
structure Exclusive (settings : Termios) (s : Game) : Prop where
  /-- the game thread does not scan while the IO thread talks -/
  apart : ¬ (s.game.scans = true ∧ s.io.talks = true)
  /-- what either of them finds -/
  found : ∀ stored, s.game.stored = some stored ∨ s.io.stored = some stored → stored = settings
  /-- outside both sections -/
  atRest : s.game.scans = false → s.io.talks = false → s.settings = settings
  /-- whoever leaves has put back what it found -/
  restores : ∀ a s', s.step a = some s' →
    (s.game.scans = true → s'.game.scans = false → s.game.stored = some s'.settings) ∧
    (s.io.talks = true → s'.io.talks = false → s.io.stored = some s'.settings)

section Exclusive

variable {t : Termios} {s s' : Game} {outside : Outside}

theorem gameStep_restores (h : s.gameStep outside = some s') (scans : s.game.scans = true)
    (left : s'.game.scans = false) : s.game.stored = some s'.settings := by
  cases gameMove_of_step h with
  | elsewhere before =>
    rw [before] at scans
    cases scans
  | enter before =>
    rw [before] at scans
    cases scans
  | within before after =>
    rw [after] at left
    cases left
  | leave before after talking settings => exact settings

/-- `handleTalk` puts the settings back before it reads the line, so that they still stand when it
ends is exclusion. -/
theorem Inv.ioStep_restores (inv : Inv t s) (h : s.ioStep outside = some s')
    (talks : s.io.talks = true) (left : s'.io.talks = false) :
    s.io.stored = some s'.settings := by
  cases ioMove_of_step h with
  | elsewhere before =>
    rw [before] at talks
    cases talks
  | enter before =>
    rw [before] at talks
    cases talks
  | within before after =>
    rw [after] at left
    cases left
  | leave before after stored changes settings =>
    obtain ⟨stored, hstored⟩ := stored
    have hsettings : s'.settings = t := inv.ioStored_next talks (.inr ⟨changes, settings⟩)
    rw [hstored, hsettings, inv.ioStored stored hstored]

theorem Inv.exclusive (inv : Inv t s) : Exclusive t s where
  apart h := by
    have htalks := inv.not_talks h.1
    rw [h.2] at htalks
    cases htalks
  found stored h := h.elim (inv.gameStored stored) (inv.ioStored stored)
  atRest scans talks :=
    inv.restored (GamePoint.changes_of_not_scans scans) (IOPoint.changes_of_not_talks talks)
  restores a s' h := by
    cases a with
    | game outside =>
      refine ⟨gameStep_restores h, fun talks left => ?_⟩
      rw [gameStep_io h, talks] at left
      cases left
    | io outside =>
      refine ⟨fun scans left => ?_, inv.ioStep_restores h⟩
      rw [ioStep_game h, scans] at left
      cases left

/-- **Keyboard exclusion**: in every state of every run, for every sequence of keys, lines and texts
to show. -/
theorem exclusive_of_reaches (reach : Reaches step (fun _ _ => True) (start t) s) :
    Exclusive t s :=
  (reach.invariant (inv_start t) fun _ _ _ inv _ h => inv.step h).exclusive

/-- The terminal as it usually starts. -/
def aTerminal : Termios := ⟨0x500, 5, 0xbf, 0x8a3b, .replicate 32 0⟩

/-- The game thread scans and reads ENTER, the next frame turns the flag on, and the IO thread goes
as far as the terminal of `handleTalk`. -/
def enterPressed : List GameAction :=
  let outside : Outside := ⟨none, 3, 10, [], none⟩
  List.replicate 16 (.game outside) ++ List.replicate 5 (.io outside)

theorem exclusive_enterPressed : ∃ s, play step enterPressed (start aTerminal) = some s ∧
    s.io = .tcsetattrStored aTerminal ∧ s.settings ≠ aTerminal ∧ Exclusive aTerminal s := by
  obtain ⟨s, hs, hio, hsettings⟩ : ∃ s, play step enterPressed (start aTerminal) = some s ∧
      s.io = .tcsetattrStored aTerminal ∧ s.settings = aTerminal.forTalk := ⟨_, rfl, rfl, rfl⟩
  refine ⟨s, hs, hio, ?_, exclusive_of_reaches (Reaches.play .refl hs)⟩
  rw [hsettings]
  decide

end Exclusive

end Game

end Smer
