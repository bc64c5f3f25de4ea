import Smer.Player.Player

/-!
# Friends after a restart

A client that stops loses what is in memory; a fresh player then loads the data file. A sequence of
`addFriend` and `delFriend` calls is durable when, after each call that returns true, the load gives
back what is in memory.

A new friend is saved with everything else, and so is the player when an unknown friend is deleted.
The id of a friend that is there already and the deletion of one are reported as done and never
saved. So a sequence is durable exactly when each such call finds its outcome in the file already
(`durable_iff`).

A save is one step: nothing is established about a process that stops in the middle of one.
-/

namespace Smer

open Lib

/-! ## Calls and what a restart loads -/

/-- A call that changes the friends. -/
inductive FriendCall where
  | addFriend (name : Bytes) (id : Int32)
  | delFriend (name : Bytes)

/-- A call on a player. It has no result where it follows a null pointer. -/
def FriendCall.run (p : Player) : FriendCall → Option (Player × Bool)
  | addFriend name id => p.addFriend name id
  | delFriend name => some (p.delFriend name)

/-- A fresh player loads the id, the name, the password and the friends that are in memory. -/
def Player.Reloads (p : Player) : Prop :=
  ∀ id, ∃ q, (fresh id p.file p.canSave).loadPlayerData = (q, true) ∧
    q.data = p.data ∧ ∀ name, q.friends.lookup name = p.friends.lookup name

/-- After each call that returns true, a fresh player loads what is in memory. -/
def Durable : Player → List FriendCall → Prop
  | _, [] => True
  | p, call :: calls =>
    match call.run p with
    | none => True
    | some (q, done) => (done = true → q.Reloads) ∧ Durable q calls

/-- The data file has an entry for a name, and the player's data and other friends as they are in
memory. -/
def Player.AlreadyHolds (p : Player) (name : Bytes) (entry : Option Int32) : Prop :=
  ∃ file, p.file = some file ∧ file.data = p.data ∧ file.friends.lookup name = some entry ∧
    ∀ other, other ≠ name → file.friends.lookup other = p.friends.lookup other

/-- A call that does not save finds its outcome in the file. -/
def FriendCall.Kept (p : Player) : FriendCall → Prop
  | addFriend name id =>
    p.friends.keys.length < maxFriendsNum → (p.friendId name).isSome → p.AlreadyHolds name (some id)
  | delFriend name => (p.friends.lookup name).isSome → p.AlreadyHolds name none

/-- Each call of a sequence finds its outcome in the file, or saves. -/
def AllKept : Player → List FriendCall → Prop
  | _, [] => True
  | p, call :: calls =>
    call.Kept p ∧
      match call.run p with
      | none => True
      | some (q, _) => AllKept q calls

/-! ## Loading -/

section Loading

variable {p : Player} {name : Bytes} {entry : Option Int32}

/-- A load gives back what is in memory exactly when the file holds the same data and leads every
name to the same id. -/
theorem reloads_iff : p.Reloads ↔ ∃ file, p.file = some file ∧ file.data = p.data ∧
    ∀ name, file.friends.lookup name = p.friends.lookup name := by
  constructor
  · intro h
    obtain ⟨q, hload, hdata, hfriends⟩ := h 0
    cases hfile : p.file with
    | none =>
      rw [hfile, Player.loadPlayerData] at hload
      cases hload
    | some file =>
      rw [hfile, Player.loadPlayerData] at hload
      cases hload
      exact ⟨file, rfl, hdata, hfriends⟩
  · rintro ⟨file, hfile, hdata, hfriends⟩ id
    exact ⟨_, by rw [hfile]; rfl, hdata, hfriends⟩

/-- A player that was just saved reloads. -/
theorem reloads_savePlayerData (canSave : p.canSave = true) : p.savePlayerData.1.Reloads := by
  rw [Player.savePlayerData, if_pos canSave]
  exact reloads_iff.mpr ⟨_, rfl, rfl, fun _ => rfl⟩

theorem savePlayerData_canSave (p : Player) : p.savePlayerData.1.canSave = p.canSave := by
  unfold Player.savePlayerData
  split <;> rfl

/-- An entry that is set in memory only reloads when the file already has it. -/
theorem reloads_insert_iff {changed : Bool} :
    Player.Reloads { p with friends := p.friends.insert name entry, isFriendsChanged := changed } ↔
      p.AlreadyHolds name entry := by
  rw [reloads_iff, Player.AlreadyHolds]
  refine exists_congr fun file => and_congr_right fun _ => and_congr_right fun _ => ?_
  constructor
  · intro h
    refine ⟨(h name).trans (AList.lookup_insert p.friends), fun other hother => ?_⟩
    exact (h other).trans (AList.lookup_insert_ne hother)
  · rintro ⟨hname, hothers⟩ other
    by_cases hother : other = name
    · rw [hother, hname]
      exact (AList.lookup_insert p.friends).symm
    · rw [hothers other hother]
      exact (AList.lookup_insert_ne hother).symm

end Loading

/-! ## One call, and a sequence -/

section Calls

variable {p q : Player} {done : Bool}

/-- A call that returns true loses nothing exactly when it saves or finds its outcome in the
file. -/
theorem run_reloads_iff (canSave : p.canSave = true) (call : FriendCall)
    (h : call.run p = some (q, done)) :
    q.canSave = true ∧ ((done = true → q.Reloads) ↔ call.Kept p) := by
  cases call with
  | addFriend name id =>
    rw [FriendCall.run, Player.addFriend] at h
    unfold FriendCall.Kept Player.friendId
    dsimp only
    by_cases hfull : p.friends.keys.length ≥ maxFriendsNum
    · rw [if_pos hfull] at h
      cases h
      refine ⟨canSave, fun _ hroom => absurd hroom (Nat.not_lt.mpr hfull), fun _ hdone => ?_⟩
      cases hdone
    · rw [if_neg hfull] at h
      have hroom : p.friends.keys.length < maxFriendsNum := Nat.lt_of_not_le hfull
      cases hfriend : p.friends.lookup name with
      | none =>
        -- a new friend is saved
        rw [hfriend] at h
        have hsaved := congrArg Prod.fst (Option.some.inj h)
        simp only at hsaved
        rw [← hsaved]
        refine ⟨(savePlayerData_canSave _).trans canSave, fun _ _ hsome => ?_,
          fun _ _ => reloads_savePlayerData canSave⟩
        cases hsome
      | some friend =>
        cases friend with
        | none =>
          rw [hfriend] at h
          cases h
        | some old =>
          -- the id of a friend is set in memory only
          rw [hfriend] at h
          cases h
          refine ⟨canSave, fun hdone _ _ => reloads_insert_iff.mp (hdone rfl), fun hkept _ => ?_⟩
          exact reloads_insert_iff.mpr (hkept hroom rfl)
  | delFriend name =>
    rw [FriendCall.run, Player.delFriend] at h
    unfold FriendCall.Kept
    dsimp only
    by_cases hfriend : (p.friends.lookup name).isSome
    · -- the entry is set to null in memory only
      rw [if_pos hfriend] at h
      cases h
      refine ⟨canSave, fun hdone _ => reloads_insert_iff.mp (hdone rfl), fun hkept _ => ?_⟩
      exact reloads_insert_iff.mpr (hkept hfriend)
    · rw [if_neg hfriend] at h
      have hsaved := congrArg Prod.fst (Option.some.inj h)
      simp only at hsaved
      rw [← hsaved]
      exact ⟨(savePlayerData_canSave p).trans canSave, fun _ hsome => absurd hsome hfriend,
        fun _ _ => reloads_savePlayerData canSave⟩

/-- A call without a result adds a friend whose pointer is null. -/
theorem kept_of_run_none {call : FriendCall} (h : call.run p = none) : call.Kept p := by
  cases call with
  | addFriend name id =>
    rw [FriendCall.run, Player.addFriend] at h
    intro hroom hsome
    rw [if_neg (Nat.not_le.mpr hroom)] at h
    rw [Player.friendId] at hsome
    cases hfriend : p.friends.lookup name with
    | none =>
      rw [hfriend] at h
      cases h
    | some friend =>
      rw [hfriend] at h hsome
      cases friend with
      | none => cases hsome
      | some old => cases h
  | delFriend name => cases h

/-- A sequence of calls loses nothing across a restart exactly when each call that does not save
finds its outcome in the file. -/
theorem durable_iff (canSave : p.canSave = true) (calls : List FriendCall) :
    Durable p calls ↔ AllKept p calls := by
  induction calls generalizing p with
  | nil => exact Iff.rfl
  | cons call calls ih =>
    rw [Durable, AllKept]
    cases hrun : call.run p with
    | none => exact iff_of_true trivial ⟨kept_of_run_none hrun, trivial⟩
    | some out =>
      obtain ⟨q, done⟩ := out
      obtain ⟨hsave, hcall⟩ := run_reloads_iff canSave call hrun
      exact and_congr hcall (ih hsave)

/-- A player that talks under a name, with no friends and no file yet. -/
def zlh : Player := { Player.fresh 0 none true with data := ⟨1, ascii "zlh", ascii "123"⟩ }

/-- Two new friends, and one of them again under the same id, lose nothing. -/
theorem durable_iff_zlh :
    Durable zlh [.addFriend (ascii "lily") 2, .addFriend (ascii "l2ily") 3,
      .addFriend (ascii "lily") 2] ↔
    AllKept zlh [.addFriend (ascii "lily") 2, .addFriend (ascii "l2ily") 3,
      .addFriend (ascii "lily") 2] :=
  durable_iff rfl _

/-- A friend's new id is reported as set and lost by a restart. -/
theorem not_durable :
    ¬∀ p : Player, p.canSave = true → ∀ calls, Durable p calls := by
  intro h
  obtain ⟨-, hdone, -⟩ := h zlh rfl [.addFriend (ascii "lily") 2, .addFriend (ascii "lily") 3]
  obtain ⟨q, hload, -, hfriends⟩ := hdone rfl 0
  cases hload
  have hlily := hfriends (ascii "lily")
  revert hlily
  decide

end Calls

end Smer
