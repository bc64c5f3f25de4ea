import Smer.Communication.UserMap
import Smer.Communication.Commands

/-!
# The user map against Redis

After `init` the hash `userHash` is written by `ExecHset`, its fields are deleted by others who then
set the flag, and `getAllUserMap` is called: in any order. The map that is returned should be the
hash at that moment.

The flag has one bit with a sign, so it is never equal to 1 (`isUserHashChanged_ne_one`), and
`getAllUserMap` never reads the hash again. It returns what `init` read. So a sequence of calls sees
the hash exactly when at each read the hash has the names and the numbers that it had at `init`
(`eachRead_coherent_iff`).

The calls come one after the other, and Redis answers them.
-/

namespace Smer

open Lib ComManger KGRedisClient

/-! ## Calls and what they read -/

inductive UserMapCall where
  | execHset (key value : Bytes)
  | deleteField (field : Bytes)
  | getAllUserMap

/-- The world in which somebody has deleted a field of the user hash. -/
def World.deleteUser (w : World) (field : Bytes) : World :=
  { w with redis := w.redis.setHash userHashKey ((w.redis.hashes userHashKey).erase field) }

/-- The hash of the users as Redis holds it. -/
def World.users (w : World) : RedisHash := w.redis.hashes userHashKey

/-- In a sequence of successful calls, each read finds a hash and returns a map that are related. -/
def EachRead (E : Mysql) (P : RedisHash → UserMap → Prop) :
    World → RedisDataManger → List UserMapCall → Prop
  | _, _, [] => True
  | w, data, .execHset key value :: calls =>
    match (execHsetFlagged data userHashKey key value).run (World.answer E) w with
    | (.ok (true, data), w) => EachRead E P w data calls
    | _ => True
  | w, data, .deleteField field :: calls =>
    EachRead E P (w.deleteUser field) (setUserMapFlag data 1) calls
  | w, data, .getAllUserMap :: calls =>
    match (getAllUserMap data).run (World.answer E) w with
    | (.ok (userMap, data), w) => P w.users userMap ∧ EachRead E P w data calls
    | _ => True

/-- The number that is read from a stored text. -/
def number (text : Bytes) : Int32 := atoi (cstr text)

/-- The map is the hash: the same names, and for each the number of its text. -/
def Coherent (users : RedisHash) (userMap : UserMap) : Prop :=
  ∀ name, userMap.lookup name = (users.lookup name).map number

/-- What a hash says under a name when its fields are read as C strings: the last field of that name
counts. -/
def numberAt (users : RedisHash) (name : Bytes) : Option Int32 :=
  (users.entries.reverse.find? fun field => cstr field.1 = name).map fun field => number field.2

/-- A hash has the names and numbers of an earlier one. -/
def SameNumbers (before users : RedisHash) : Prop :=
  ∀ name, (users.lookup name).map number = numberAt before name

/-! ## What `init` reads -/

def hgetallCmd : Bytes := unwords [ascii "hgetAll", userHashKey]

theorem execHgetAll_eq :
    execHgetAll userHashKey = .vis (.redisCommand hgetallCmd) onAnswer := by
  apply executeCmd_eq
  decide

/-- The reply to the command is all names and texts, in turn. -/
theorem redisReply_hgetall (redis : RedisStore) :
    World.redisReply redis hgetallCmd =
      some (.array ((redis.hashes userHashKey).entries.flatMap fun e => [.string e.1, .string e.2]),
        redis) := by
  have hargv : argv hgetallCmd = some [ascii "hgetAll", userHashKey] :=
    argv_unwords (by decide) (by decide)
  have hname : RedisStore.Command.ofWord (ascii "hgetAll") = some .hgetall := by decide
  rw [redisReply_eq, hargv, Option.map_some, RedisStore.exec]
  simp only [hname]
  rfl

/-- Each text arrives as its C string. -/
theorem onAnswer_fields (fields : List (Sigma fun _ : Bytes => Bytes)) :
    onAnswer (.reply (.array (fields.flatMap fun e => [.string e.1, .string e.2]))) =
      pure (true, fields.flatMap fun e => [cstr e.1, cstr e.2]) := by
  have htexts : (fields.flatMap fun e => [RedisReply.string e.1, .string e.2]).mapM elementText =
      some (fields.flatMap fun e => [cstr e.1, cstr e.2]) := by
    induction fields with
    | nil => rfl
    | cons e fields ih =>
      rw [List.flatMap_cons, List.flatMap_cons, List.cons_append, List.cons_append,
        List.nil_append, List.mapM_cons, List.mapM_cons, ih]
      rfl
  rw [onAnswer, respond, htexts]
  rfl

/-- The loop stores each name with the number of its text, over what the map had. -/
theorem storeUsers_fields (fields : List (Sigma fun _ : Bytes => Bytes)) (userMap : UserMap) :
    ∃ stored, storeUsers userMap (fields.flatMap fun e => [cstr e.1, cstr e.2]) = some stored ∧
      ∀ name, stored.lookup name =
        ((fields.reverse.find? fun e => cstr e.1 = name).map fun e => number e.2).or
          (userMap.lookup name) := by
  induction fields generalizing userMap with
  | nil => exact ⟨userMap, rfl, fun name => rfl⟩
  | cons e fields ih =>
    obtain ⟨stored, hstored, hlookup⟩ := ih (userMap.insert (cstr e.1) (atoi (cstr (cstr e.2))))
    refine ⟨stored, hstored, fun name => ?_⟩
    have hnumber : atoi (cstr (cstr e.2)) = number e.2 := by
      rw [cstr_eq_self (zero_notMem_cstr _), number]
    rw [hlookup, List.reverse_cons, List.find?_append, List.find?_singleton, hnumber]
    by_cases hname : cstr e.1 = name
    · rw [← hname, AList.lookup_insert, if_pos (decide_eq_true rfl)]
      cases fields.reverse.find? fun e' => cstr e'.1 = cstr e.1 <;> rfl
    · rw [AList.lookup_insert_ne (Ne.symm hname), if_neg (by rwa [decide_eq_true_iff])]
      cases fields.reverse.find? fun e' => cstr e'.1 = name <;> rfl

variable {E : Mysql} {w w' : World} {data data' : RedisDataManger}

/-- A read of the whole hash that succeeds stores what the hash says. -/
theorem lookup_init (h : init.run (World.answer E) w = (.ok (true, data), w')) (name : Bytes) :
    data.userHash.lookup name = numberAt w.users name := by
  rw [init, flushAllUserHashData, execHgetAll_eq, Prog.vis_bind] at h
  cases hanswer : World.answer E (.redisCommand hgetallCmd) w with
  | none =>
    rw [Prog.run_vis_none hanswer] at h
    cases h
  | some out =>
    obtain ⟨a, w₁⟩ := out
    rw [Prog.run_vis_some hanswer] at h
    cases a with
    | noContext => cases h
    | noReply => cases h
    | reply reply =>
      rcases answer_redisCommand_reply hanswer with ⟨str, rfl⟩ | hreply
      · cases h
      · have hall := (redisReply_hgetall w.redis).symm.trans hreply
        obtain ⟨hfields, -⟩ := Prod.mk.inj (Option.some.inj hall)
        obtain ⟨stored, hstored, hlookup⟩ := storeUsers_fields w.users.entries ∅
        rw [← hfields, onAnswer_fields, Prog.ret_bind] at h
        simp only [if_true] at h
        have hstored' : storeUsers RedisDataManger.new.userHash
            ((w.redis.hashes userHashKey).entries.flatMap fun e => [cstr e.1, cstr e.2]) =
              some stored := hstored
        rw [hstored'] at h
        cases h
        refine (hlookup name).trans ?_
        exact Option.or_none

/-! ## What the other calls leave -/

/-- `getAllUserMap` hands the map out as it is: its test of the flag never succeeds. -/
theorem getAllUserMap_eq (data : RedisDataManger) :
    getAllUserMap data = pure (data.userHash, data) := by
  rw [getAllUserMap, if_neg (isUserHashChanged_ne_one data)]

/-- Setting a field of the hash leaves the map in memory as it is. -/
theorem execHsetFlagged_userHash {hashName key value : Bytes} {ok : Bool}
    (h : (execHsetFlagged data hashName key value).run (World.answer E) w = (.ok (ok, data'), w')) :
    data'.userHash = data.userHash := by
  rw [execHsetFlagged, Prog.run_bind] at h
  split at h
  · rename_i out w₁ hset
    obtain ⟨_ | _, response⟩ := out
    · cases h
      rfl
    · cases h
      rfl
  · cases h

/-- Every read returns the map of the start, so two conditions on a read that agree on this map
agree on the sequence. -/
theorem eachRead_congr {P Q : RedisHash → UserMap → Prop} {userMap : UserMap}
    (same : ∀ users, P users userMap ↔ Q users userMap) (calls : List UserMapCall) :
    ∀ w data, data.userHash = userMap → (EachRead E P w data calls ↔ EachRead E Q w data calls) := by
  induction calls with
  | nil => exact fun _ _ _ => Iff.rfl
  | cons call calls ih =>
    intro w data hdata
    cases call with
    | execHset key value =>
      unfold EachRead
      split
      · rename_i data₁ w₁ hset
        exact ih w₁ data₁ ((execHsetFlagged_userHash hset).trans hdata)
      · exact Iff.rfl
    | deleteField field => exact ih _ _ hdata
    | getAllUserMap =>
      simp only [EachRead, getAllUserMap_eq, Prog.run_ret]
      rw [hdata]
      exact and_congr (same _) (ih _ _ hdata)

/-! ## Coherence -/

/-- **The map is never read again**: every read sees the hash exactly when at every read the hash has
the names and numbers that it had at `init`. -/
theorem eachRead_coherent_iff (h : init.run (World.answer E) w = (.ok (true, data), w'))
    (calls : List UserMapCall) :
    EachRead E Coherent w' data calls ↔
      EachRead E (fun users _ => SameNumbers w.users users) w' data calls := by
  have same : ∀ users, Coherent users data.userHash ↔ SameNumbers w.users users := by
    intro users
    refine forall_congr' fun name => ?_
    rw [lookup_init h name]
    exact eq_comm
  exact eachRead_congr same calls w' data rfl

/-- Nobody is in the hash at `init`, one user is set and read. -/
theorem eachRead_coherent_iff_bob :
    EachRead .reference Coherent emptyWorld .new [.execHset (ascii "bob") (ascii "7"),
      .getAllUserMap] ↔
    EachRead .reference (fun users _ => SameNumbers emptyWorld.users users) emptyWorld .new
      [.execHset (ascii "bob") (ascii "7"), .getAllUserMap] :=
  eachRead_coherent_iff (w := emptyWorld) rfl _

/-- A user that is set after `init` is missing from the map. -/
theorem not_eachRead_coherent :
    ¬∀ (E : Mysql) (w w' : World) (data : RedisDataManger),
      init.run (World.answer E) w = (.ok (true, data), w') →
        ∀ calls, EachRead E Coherent w' data calls := by
  intro h
  have hread := h .reference emptyWorld emptyWorld .new rfl
    [.execHset (ascii "bob") (ascii "7"), .getAllUserMap]
  have hbob : (none : Option Int32) = some 7 := hread.1 (ascii "bob")
  cases hbob

end Smer
