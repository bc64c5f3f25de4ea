import Smer.Lib.CText
import Mathlib.Data.List.AList

/-!
# The client's player (`Player/inc/Player.h`, `Player/src/Player.cpp`)

Who the player is, whom the player talks to, and the friends: a map from names to pointers, any of
which may be null. Dereferencing a null pointer has no result (`none`).

The player is saved to a file and loaded from it. Whether the file can be opened for writing is part
of the state. The archive is taken to give back what was put in: the file holds the data itself.
-/

namespace Smer

open Lib

def maxFriendsNum : Nat := 3000

/-- `map<string, friendData*>`: the id a friend's pointer leads to, or null. -/
abbrev Friends := AList fun _ : Bytes => Option Int32

structure PlayerData where
  id : Int32
  name : Bytes
  password : Bytes

/-- What `savePlayerData` writes. -/
structure PlayerFile where
  data : PlayerData
  friends : Friends

structure Player where
  logined : Bool
  data : PlayerData
  isFriendsChanged : Bool
  talkerName : Bytes
  friends : Friends
  /-- the data file, and whether it opens -/
  file : Option PlayerFile
  canSave : Bool

namespace Player

def setPlayerId (p : Player) (id : Int32) : Player := { p with data := { p.data with id := id } }

def setPlayerLogin (p : Player) (id : Int32) (name passwd : Bytes) : Player :=
  { p with logined := true, data := ⟨id, name, passwd⟩ }

def setTalkerName (p : Player) (name : Bytes) : Player := { p with talkerName := name }

/-- `getTalkerId`: the id of the chosen talker. -/
def getTalkerId (p : Player) : Option Int32 := (p.friends.lookup p.talkerName).join

def savePlayerData (p : Player) : Player × Bool :=
  if p.canSave then ({ p with file := some ⟨p.data, p.friends⟩ }, true) else (p, false)

/-- `addFriend`. -/
def addFriend (p : Player) (name : Bytes) (id : Int32) : Option (Player × Bool) :=
  if p.friends.keys.length ≥ maxFriendsNum then some (p, false)
  else
    match p.friends.lookup name with
    | some (some _) =>
      some ({ p with friends := p.friends.insert name (some id), isFriendsChanged := true }, true)
    | some none => none
    | none =>
      some ({ p with friends := p.friends.insert name (some id),
                     isFriendsChanged := true }.savePlayerData)

/-- `delFriend`: the entry stays, with a null pointer. -/
def delFriend (p : Player) (name : Bytes) : Player × Bool :=
  if (p.friends.lookup name).isSome then
    ({ p with friends := p.friends.insert name none, isFriendsChanged := true }, true)
  else p.savePlayerData

/-- `Player()` beside a data file. The id is not initialised. -/
def fresh (id : Int32) (file : Option PlayerFile) (canSave : Bool) : Player :=
  { logined := false, data := ⟨id, [], []⟩, isFriendsChanged := false, talkerName := [],
    friends := ∅, file, canSave }

def loadPlayerData (p : Player) : Player × Bool :=
  match p.file with
  | some file => ({ p with data := file.data, friends := file.friends }, true)
  | none => (p, false)

/-- No friend was deleted: no entry is null. -/
def Undeleted (p : Player) : Prop := ∀ name, p.friends.lookup name ≠ some none

/-- A name's friend id, if the name is a friend. -/
def friendId (p : Player) (name : Bytes) : Option Int32 := (p.friends.lookup name).join

@[simp] theorem savePlayerData_friends (p : Player) : p.savePlayerData.1.friends = p.friends := by
  unfold savePlayerData
  split <;> rfl

/-- A friend that was added is the only one that changes. -/
theorem friends_addFriend {p q : Player} {name : Bytes} {id : Int32} {added : Bool}
    (h : p.addFriend name id = some (q, added)) :
    q.friends = p.friends ∨ q.friends = p.friends.insert name (some id) := by
  unfold addFriend at h
  split at h
  · cases h
    exact .inl rfl
  · split at h
    · cases h
      exact .inr rfl
    · cases h
    · have hfriends := congrArg (fun out => out.1.friends) (Option.some.inj h)
      simp only [savePlayerData_friends] at hfriends
      exact .inr hfriends.symm

/-- Where no friend was deleted, a friend can be added. -/
theorem Undeleted.addFriend {p : Player} (undeleted : p.Undeleted) (name : Bytes) (id : Int32) :
    ∃ added, p.addFriend name id = some added := by
  unfold Player.addFriend
  split
  · exact ⟨_, rfl⟩
  · split
    · exact ⟨_, rfl⟩
    · rename_i hnull
      exact absurd hnull (undeleted name)
    · exact ⟨_, rfl⟩

/-- A friend that is added is not deleted. -/
theorem Undeleted.insert {p q : Player} (undeleted : p.Undeleted) {name : Bytes} {id : Int32}
    (h : q.friends = p.friends.insert name (some id)) : q.Undeleted := by
  intro other hnull
  rw [h] at hnull
  by_cases hsame : other = name
  · rw [hsame, AList.lookup_insert] at hnull
    cases hnull
  · rw [AList.lookup_insert_ne hsame] at hnull
    exact undeleted other hnull

end Player

end Smer
