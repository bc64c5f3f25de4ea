import Mathlib.Data.Finset.Card
import Smer.Game.Frames

/-!
# The descriptors of the game loop

`scanKeyBoard` opens the terminal in every frame in which the player does not talk, and it asserts
that it got a descriptor. So every frame should leave the open descriptors as it found them.

Nothing closes the terminal. A frame that scans leaves one descriptor more (`update_fds`), and a
sequence of frames comes to its end exactly when the free descriptors that fit an `fd_set` are
enough for the frames that scan (`descriptors_kept_iff`).

The loop runs alone, so nothing is established about descriptors that other threads open or close
meanwhile.
-/

namespace Smer

open Lib

namespace GameLoop

/-- The free descriptors that a scan can do with. -/
def free (limit : Nat) (fds : Finset Nat) : Finset Nat :=
  Finset.range (min limit fdSetsize) \ fds

/-- How many of the frames scan. -/
def scans (frames : List Frame) : Nat := frames.countP fun f => !f.talking

/-- A call of `scanKeyBoard` from here comes back. -/
def ScanSucceeds (limit : Nat) (p : GameLoop) : Prop := ∀ f, (scanKeyBoard limit p f).isSome

/-- Every frame comes to its end and leaves the open descriptors as it found them. -/
def KeepsDescriptors (limit : Nat) (frames : List Frame) (p : GameLoop) : Prop :=
  ∀ before f after, frames = before ++ f :: after → ∃ p₁ p₂,
    run limit before p = some p₁ ∧ update limit p₁ f = some p₂ ∧ p₂.fds = p₁.fds

variable {limit : Nat} {p p' : GameLoop} {f : Frame} {frames : List Frame} {fds : Finset Nat}
  {keyboard : Nat}

/-! ## One frame -/

theorem mem_free : keyboard ∈ free limit fds ↔
    keyboard < limit ∧ keyboard < fdSetsize ∧ keyboard ∉ fds := by
  rw [free, Finset.mem_sdiff, Finset.mem_range, lt_min_iff, and_assoc]

/-- A frame in which the player talks leaves the descriptors. -/
theorem update_talking (limit : Nat) (p : GameLoop) (htalking : f.talking = true) :
    ∃ p', update limit p f = some p' ∧ p'.fds = p.fds := by
  refine ⟨p.handleSystem.actorUpdate, ?_, rfl⟩
  rw [update, scanKeyBoard_talking htalking]
  rfl

/-- A frame that scans leaves one descriptor more. -/
theorem update_fds (h : update limit p f = some p') (htalking : f.talking = false) :
    ∃ keyboard ∈ free limit p.fds, p'.fds = insert keyboard p.fds := by
  obtain ⟨p₁, hscan, rfl⟩ := Option.map_eq_some_iff.mp h
  rcases scanKeyBoard_cases hscan with ⟨h, -⟩ | ⟨-, keyboard, hopen, -, hfits, rfl⟩
  · rw [htalking] at h
    cases h
  · obtain ⟨hfree, hlimit, -⟩ := openTty_eq_some_iff.mp hopen
    exact ⟨keyboard, mem_free.mpr ⟨hlimit, hfits, hfree⟩, rfl⟩

/-- One descriptor more that is open is one less that is free. -/
theorem card_free_insert (hfree : keyboard ∈ free limit fds) :
    (free limit (insert keyboard fds)).card + 1 = (free limit fds).card := by
  rw [free, Finset.sdiff_insert, ← free]
  exact Finset.card_erase_add_one hfree

/-- A scan comes back iff its descriptor passes the assertion and fits the set. -/
theorem scanKeyBoard_isSome_iff (htalking : f.talking = false) :
    (scanKeyBoard limit p f).isSome ↔
      ∃ keyboard, openTty limit p.fds = some keyboard ∧ 0 < keyboard ∧ keyboard < fdSetsize := by
  constructor
  · intro h
    obtain ⟨p', hscan⟩ := Option.isSome_iff_exists.mp h
    rcases scanKeyBoard_cases hscan with ⟨h, -⟩ | ⟨-, keyboard, hopen, hpos, hfits, -⟩
    · rw [htalking] at h
      cases h
    · exact ⟨keyboard, hopen, hpos, hfits⟩
  · rintro ⟨keyboard, hopen, hfits⟩
    rw [scanKeyBoard_open htalking, hopen, Option.bind_some, if_pos hfits]
    rfl

/-- With the standard input open, a scan comes back iff a descriptor that will do is free. -/
theorem scanKeyBoard_isSome_iff_free (hstdin : 0 ∈ p.fds) (htalking : f.talking = false) :
    (scanKeyBoard limit p f).isSome ↔ 0 < (free limit p.fds).card := by
  rw [scanKeyBoard_isSome_iff htalking, Finset.card_pos]
  constructor
  · rintro ⟨keyboard, hopen, -, hfits⟩
    obtain ⟨hfree, hlimit, -⟩ := openTty_eq_some_iff.mp hopen
    exact ⟨keyboard, mem_free.mpr ⟨hlimit, hfits, hfree⟩⟩
  · rintro ⟨fd, hfd⟩
    obtain ⟨hlimit, hfits, hfree⟩ := mem_free.mp hfd
    have hsome : (openTty limit p.fds).isSome := by
      rw [openTty, List.find?_isSome]
      exact ⟨fd, List.mem_range.mpr hlimit, decide_eq_true hfree⟩
    obtain ⟨keyboard, hopen⟩ := Option.isSome_iff_exists.mp hsome
    obtain ⟨hkeyboard, -, hlower⟩ := openTty_eq_some_iff.mp hopen
    refine ⟨keyboard, hopen, ?_, ?_⟩
    · apply Nat.pos_of_ne_zero
      rintro rfl
      exact hkeyboard hstdin
    · apply lt_of_le_of_lt _ hfits
      by_contra hlt
      exact hfree (hlower fd (Nat.lt_of_not_le hlt))

/-- Since the other two parts of a frame always come to their end, the frame does when its scan
does. -/
theorem update_isSome_iff (hstdin : 0 ∈ p.fds) (htalking : f.talking = false) :
    (update limit p f).isSome ↔ 0 < (free limit p.fds).card := by
  rw [update, Option.isSome_map]
  exact scanKeyBoard_isSome_iff_free (p := p.handleSystem) hstdin htalking

/-- Where a scan comes back, the standard input is open. -/
theorem ScanSucceeds.stdin_mem (first : ScanSucceeds limit p) : 0 ∈ p.fds := by
  obtain ⟨keyboard, hopen, hpos, -⟩ :=
    (scanKeyBoard_isSome_iff (f := ⟨false, none, 0⟩) rfl).mp (first _)
  exact (openTty_eq_some_iff.mp hopen).2.2 0 hpos

/-! ## Frame after frame -/

/-- With the standard input open, frames come to their end iff enough descriptors are free. -/
theorem run_isSome_iff (hstdin : 0 ∈ p.fds) :
    (run limit frames p).isSome ↔ scans frames ≤ (free limit p.fds).card := by
  induction frames generalizing p with
  | nil => exact iff_of_true rfl (Nat.zero_le _)
  | cons f frames ih =>
    rw [run_cons]
    cases htalking : f.talking with
    | true =>
      obtain ⟨p₁, hupdate, hfds⟩ := update_talking limit p htalking
      have hscans : scans (f :: frames) = scans frames :=
        List.countP_cons_of_neg (by simp [htalking])
      have hstdin₁ : 0 ∈ p₁.fds := by rwa [hfds]
      rw [hupdate, Option.bind_some, ih hstdin₁, hscans, hfds]
    | false =>
      have hscans : scans (f :: frames) = scans frames + 1 :=
        List.countP_cons_of_pos (by simp [htalking])
      rw [hscans]
      cases hupdate : update limit p f with
      | none =>
        have hfree : ¬0 < (free limit p.fds).card := by
          rw [← update_isSome_iff hstdin htalking, hupdate]
          exact Bool.false_ne_true
        refine iff_of_false Bool.false_ne_true ?_
        omega
      | some p₁ =>
        obtain ⟨keyboard, hkeyboard, hfds⟩ := update_fds hupdate htalking
        have hcard := card_free_insert hkeyboard
        have hstdin₁ : 0 ∈ p₁.fds := by
          rw [hfds]
          exact Finset.mem_insert_of_mem hstdin
        rw [Option.bind_some, ih hstdin₁, hfds]
        omega

/-- Frames in which the player talks do not scan, and all of them come to their end. -/
theorem run_talking (limit : Nat) (htalking : ∀ f ∈ frames, f.talking = true) (p : GameLoop) :
    ∃ p', run limit frames p = some p' := by
  induction frames generalizing p with
  | nil => exact ⟨p, rfl⟩
  | cons f frames ih =>
    rw [List.forall_mem_cons] at htalking
    obtain ⟨p₁, hupdate, -⟩ := update_talking limit p htalking.1
    obtain ⟨p', hrun⟩ := ih htalking.2 p₁
    exact ⟨p', run_cons_eq_some.mpr ⟨p₁, hupdate, hrun⟩⟩

/-- **The open descriptors are kept exactly while no frame scans**, and frames come to their end
exactly when the free descriptors are enough for those that scan. -/
theorem descriptors_kept_iff (first : ScanSucceeds limit p) (frames : List Frame) :
    (KeepsDescriptors limit frames p ↔ ∀ f ∈ frames, f.talking = true) ∧
      ((run limit frames p).isSome ↔ scans frames ≤ (free limit p.fds).card) := by
  refine ⟨⟨?_, ?_⟩, run_isSome_iff first.stdin_mem⟩
  · intro hkeeps f hf
    obtain ⟨before, after, rfl⟩ := List.append_of_mem hf
    obtain ⟨p₁, p₂, -, hupdate, hfds⟩ := hkeeps before f after rfl
    cases htalking : f.talking with
    | true => rfl
    | false =>
      obtain ⟨keyboard, hkeyboard, hinsert⟩ := update_fds hupdate htalking
      have hopen : keyboard ∈ p₁.fds := by
        rw [← hfds, hinsert]
        exact Finset.mem_insert_self _ _
      exact absurd hopen (mem_free.mp hkeyboard).2.2
  · rintro htalking before f after rfl
    obtain ⟨p₁, hrun⟩ := run_talking limit
      (fun g hg => htalking g (List.mem_append_left _ hg)) p
    obtain ⟨p₂, hupdate, hfds⟩ := update_talking limit p₁
      (htalking f (List.mem_append_right _ List.mem_cons_self))
    exact ⟨p₁, p₂, hrun, hupdate, hfds⟩

/-- A scan comes back from the start of a client with a limit of four descriptors. -/
theorem scanSucceeds_started : ScanSucceeds 4 started := by
  intro f
  cases htalking : f.talking with
  | true =>
    rw [scanKeyBoard_talking htalking]
    rfl
  | false =>
    rw [scanKeyBoard_isSome_iff_free (by decide) htalking]
    decide

theorem descriptors_kept_iff_started :
    (KeepsDescriptors 4 [⟨true, none, 0⟩] started ↔
      ∀ f ∈ [(⟨true, none, 0⟩ : Frame)], f.talking = true) ∧
    ((run 4 [⟨true, none, 0⟩] started).isSome ↔
      scans [⟨true, none, 0⟩] ≤ (free 4 started.fds).card) :=
  descriptors_kept_iff scanSucceeds_started _

/-- A frame that scans and reads nothing. -/
def idle : Frame := ⟨false, none, 0⟩

/-- With one descriptor free for it the first scan succeeds, and the second fails the assertion:
nothing has closed the terminal. -/
theorem not_descriptors_kept : ¬∀ (limit : Nat) (p : GameLoop) (frames : List Frame),
    ScanSucceeds limit p → KeepsDescriptors limit frames p := by
  intro h
  obtain ⟨p₁, p₂, hrun, hupdate, -⟩ :=
    h 4 started [idle, idle] scanSucceeds_started [idle] idle [] rfl
  obtain ⟨p₁', hfirst, hnil⟩ := run_cons_eq_some.mp hrun
  cases hnil
  have hboth : run 4 [idle, idle] started = some p₂ :=
    run_cons_eq_some.mpr ⟨p₁, hfirst, run_cons_eq_some.mpr ⟨p₂, hupdate, rfl⟩⟩
  have hfits : scans [idle, idle] ≤ (free 4 started.fds).card := by
    rw [← run_isSome_iff (by decide), hboth]
    rfl
  exact absurd hfits (by decide)

end GameLoop

end Smer
