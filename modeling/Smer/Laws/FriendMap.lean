import Smer.Lib.BoundedMap
import Smer.Laws.Durability

/-!
# The friends are a finite map

`addFriend` and `delFriend` are meant as the operations of a map from names to ids that holds
`maxFriendsNum` friends at most (`FriendMap`). The container keeps a deleted name with a null
pointer, and `addFriend` looks at the container's names: it counts deleted ones, follows the null
pointer of one, and turns a friend away when the container is full.

So a sequence of calls does what the map does exactly when no `addFriend` meets a deleted name, and
none meets a full container that the map would have answered otherwise (`friends_refine_iff`).

Only what is answered and what is in memory is compared; what a restart finds is in
`Laws.Durability`.
-/

namespace Smer

open Lib

/-- Names to ids, of `maxFriendsNum` friends at most. -/
abbrev FriendMap := BoundedMap Bytes Int32 maxFriendsNum

namespace FriendCall

/-- What a call does to the map, and answers. -/
def apply (m : FriendMap) : FriendCall → FriendMap × Bool
  | addFriend name id => m.insert name id
  | delFriend name => (m.erase name, true)

end FriendCall

/-- The friends that are not null are the map's. -/
def Player.Represents (p : Player) (m : FriendMap) : Prop := ∀ name, p.friendId name = m.lookup name

/-- The number of friends that are not null. -/
def Player.liveFriends (p : Player) : Nat := (Tombstones.live p.friends).length

/-- Each call of a sequence comes back, answers what the map answers, and leaves the map's
friends. -/
def RefinesMap : Player → FriendMap → List FriendCall → Prop
  | p, m, [] => p.Represents m
  | p, m, call :: calls => p.Represents m ∧
      ∃ q done, call.run p = some (q, done) ∧ done = (call.apply m).2 ∧
        RefinesMap q (call.apply m).1 calls

/-- A call that the container takes as the map does: while there is room the name is not a deleted
one, and in a full container there are `maxFriendsNum` friends, of other names. -/
def FriendCall.TakenAsMeant (p : Player) : FriendCall → Prop
  | addFriend name _ =>
    if p.friends.keys.length < maxFriendsNum then p.friends.lookup name ≠ some none
    else p.friendId name = none ∧ maxFriendsNum ≤ p.liveFriends
  | delFriend _ => True

/-- Each call of a sequence is taken as meant. -/
def AllTakenAsMeant : Player → List FriendCall → Prop
  | _, [] => True
  | p, call :: calls =>
    call.TakenAsMeant p ∧
      match call.run p with
      | none => True
      | some (q, _) => AllTakenAsMeant q calls

/-! ## One call -/

section Calls

variable {p q : Player} {m : FriendMap} {name : Bytes} {id : Int32}

theorem represents_iff : p.Represents m ↔ Tombstones.Represents p.friends m := Iff.rfl

theorem Player.Represents.liveFriends_eq (h : p.Represents m) : p.liveFriends = m.card :=
  (Tombstones.Represents.card_eq h).symm

theorem savePlayerData_eq (canSave : p.canSave = true) :
    p.savePlayerData = ({ p with file := some ⟨p.data, p.friends⟩ }, true) := if_pos canSave

/-- A call leaves the data file as openable as it was. -/
theorem run_canSave {call : FriendCall} {done : Bool} (canSave : p.canSave = true)
    (h : call.run p = some (q, done)) : q.canSave = true := (run_reloads_iff canSave call h).1

variable (id) in
/-- With room in the container, a name that is not a deleted one is added as the map adds it. -/
theorem addFriend_room (canSave : p.canSave = true) (represents : p.Represents m)
    (room : p.friends.keys.length < maxFriendsNum) (kept : p.friends.lookup name ≠ some none) :
    m.Admits name ∧ ∃ q, p.addFriend name id = some (q, true) ∧
      q.Represents (m.insert name id).1 := by
  have hadmits : m.Admits name := by
    right
    rw [← represents.liveFriends_eq, Player.liveFriends, Tombstones.live, List.length_map]
    have hle := List.length_filter_le (fun entry => entry.2.isSome) p.friends.entries
    rw [AList.keys, List.keys, List.length_map] at room
    omega
  have hinsert := Tombstones.Represents.insert (v := id) represents hadmits
  refine ⟨hadmits, ?_⟩
  rw [Player.addFriend, if_neg (Nat.not_le.mpr room)]
  cases hfriend : p.friends.lookup name with
  | none =>
    have hsave := savePlayerData_eq (p := { p with
      friends := p.friends.insert name (some id), isFriendsChanged := true }) canSave
    exact ⟨_, congrArg some hsave, hinsert⟩
  | some friend =>
    cases friend with
    | none => exact absurd hfriend kept
    | some old => exact ⟨_, rfl, hinsert⟩

/-- A full container turns every friend away, also one that it has and one whose entry is null. -/
theorem addFriend_full (full : maxFriendsNum ≤ p.friends.keys.length) :
    p.addFriend name id = some (p, false) := if_pos full

/-- A deleted friend's entry is followed although it is null. -/
theorem addFriend_deleted (room : p.friends.keys.length < maxFriendsNum)
    (deleted : p.friends.lookup name = some none) : p.addFriend name id = none := by
  rw [Player.addFriend, if_neg (Nat.not_le.mpr room), deleted]

variable (name) in
/-- A deleted friend is one the map has not, whether the name was known or not. -/
theorem delFriend_represents (canSave : p.canSave = true) (represents : p.Represents m) :
    ∃ q, p.delFriend name = (q, true) ∧ q.Represents (m.erase name) := by
  unfold Player.delFriend
  cases hfriend : p.friends.lookup name with
  | none =>
    have hunknown := Tombstones.Represents.erase_of_notMem represents hfriend
    exact ⟨_, savePlayerData_eq canSave, hunknown⟩
  | some friend => exact ⟨_, rfl, Tombstones.Represents.erase represents⟩

/-- **One call does what the map does exactly when it is taken as meant.** -/
theorem run_refines_iff (canSave : p.canSave = true) (represents : p.Represents m)
    (call : FriendCall) :
    (∃ q, call.run p = some (q, (call.apply m).2) ∧ q.Represents (call.apply m).1) ↔
      call.TakenAsMeant p := by
  cases call with
  | addFriend name id =>
    unfold FriendCall.TakenAsMeant FriendCall.apply FriendCall.run
    dsimp only
    by_cases room : p.friends.keys.length < maxFriendsNum
    · rw [if_pos room]
      constructor
      · rintro ⟨q, hrun, -⟩ deleted
        rw [addFriend_deleted room deleted] at hrun
        cases hrun
      · intro kept
        obtain ⟨hadmits, q, hrun, hq⟩ := addFriend_room id canSave represents room kept
        exact ⟨q, by rw [hrun, BoundedMap.insert_of_admits hadmits], hq⟩
    · rw [if_neg room, addFriend_full (Nat.le_of_not_lt room), represents name,
        represents.liveFriends_eq, ← BoundedMap.not_admits_iff]
      constructor
      · rintro ⟨q, hrun, -⟩ hadmits
        rw [BoundedMap.insert_of_admits hadmits] at hrun
        cases hrun
      · intro refused
        rw [BoundedMap.insert_of_not_admits refused]
        exact ⟨p, rfl, represents⟩
  | delFriend name =>
    obtain ⟨q, hrun, hq⟩ := delFriend_represents name canSave represents
    exact iff_of_true ⟨q, congrArg some hrun, hq⟩ trivial

/-- A sequence of calls, from any player that stands for a map. -/
theorem refinesMap_iff (canSave : p.canSave = true) (represents : p.Represents m)
    (calls : List FriendCall) : RefinesMap p m calls ↔ AllTakenAsMeant p calls := by
  induction calls generalizing p m with
  | nil => exact iff_of_true represents trivial
  | cons call calls ih =>
    rw [RefinesMap, AllTakenAsMeant, ← run_refines_iff canSave represents call]
    constructor
    · rintro ⟨-, q, done, hrun, rfl, hrest⟩
      have hq : q.Represents (call.apply m).1 := by
        cases calls with
        | nil => exact hrest
        | cons => exact hrest.1
      refine ⟨⟨q, hrun, hq⟩, ?_⟩
      rw [hrun]
      exact (ih (run_canSave canSave hrun) hq).mp hrest
    · rintro ⟨⟨q, hrun, hq⟩, hrest⟩
      rw [hrun] at hrest
      exact ⟨represents, q, _, hrun, rfl, (ih (run_canSave canSave hrun) hq).mpr hrest⟩

/-- **From an empty player, a sequence of calls does what the map does exactly when each call is
taken as meant.** -/
theorem friends_refine_iff (canSave : p.canSave = true) (noFriends : p.friends = ∅)
    (calls : List FriendCall) : RefinesMap p .empty calls ↔ AllTakenAsMeant p calls := by
  refine refinesMap_iff canSave ?_ calls
  rw [represents_iff, noFriends]
  exact Tombstones.represents_empty

/-- Friends are added and deleted, and one of them gets a new id. -/
theorem friends_refine_iff_zlh :
    RefinesMap zlh .empty [.addFriend (ascii "lily") 2, .addFriend (ascii "l2ily") 3,
      .addFriend (ascii "lily") 4, .delFriend (ascii "l2ily")] ↔
    AllTakenAsMeant zlh [.addFriend (ascii "lily") 2, .addFriend (ascii "l2ily") 3,
      .addFriend (ascii "lily") 4, .delFriend (ascii "l2ily")] :=
  friends_refine_iff rfl rfl _

/-- A friend who was deleted cannot be added again: `addFriend` follows the null pointer that the
deletion has left. -/
theorem readded_friend : ¬ ∀ p : Player, p.canSave = true → p.friends = ∅ →
    ∀ calls, RefinesMap p .empty calls := by
  intro claim
  obtain ⟨-, q, done, hadd, -, -, q', done', hdel, -, -, q'', done'', hagain, -⟩ :=
    claim zlh rfl rfl [.addFriend (ascii "lily") 2, .delFriend (ascii "lily"),
      .addFriend (ascii "lily") 2]
  cases hadd
  cases hdel
  cases hagain

end Calls

end Smer
