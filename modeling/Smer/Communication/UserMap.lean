import Smer.Communication.ComManger

/-!
# The user map (`Communication/inc/ComManger.h`)

`ComManger` keeps a copy of the Redis hash `userHash` and a flag that says that the hash has changed
since. The flag is a bit-field of one bit in a `char`, which is signed where the server runs: what is
stored is the lowest bit, and it is read back with its sign.
-/

namespace Smer

open Lib

/-- `unordered_map<string, int>`. -/
abbrev UserMap := AList fun _ : Bytes => Int32

structure RedisDataManger where
  isUserHashChanged : BitVec 1
  userHash : UserMap

/-- `RedisDataManger()`. -/
def RedisDataManger.new : RedisDataManger := ⟨0, ∅⟩

namespace ComManger

open KGRedisClient

def userHashKey : Bytes := ascii "userHash"

def setUserMapFlag (data : RedisDataManger) (changed : Int32) : RedisDataManger :=
  { data with isUserHashChanged := BitVec.ofInt 1 changed.toInt }

/-- The loop over the response: its elements are names and numbers in turn. A name without a number
is a read behind the end. -/
def storeUsers (userHash : UserMap) : List Bytes → Option UserMap
  | [] => some userHash
  | [_] => none
  | name :: value :: rest => storeUsers (userHash.insert name (atoi (cstr value))) rest

def flushAllUserHashData (data : RedisDataManger) : Task (Bool × RedisDataManger) := do
  let (ok, response) ← execHgetAll userHashKey
  if ok then
    match storeUsers data.userHash response with
    | some userHash => return (true, setUserMapFlag { data with userHash } 0)
    | none => Task.abort .outOfBounds
  else return (false, data)

def init : Task (Bool × RedisDataManger) := flushAllUserHashData .new

def getAllUserMap (data : RedisDataManger) : Task (UserMap × RedisDataManger) := do
  if data.isUserHashChanged.toInt = 1 then
    let (_, data) ← flushAllUserHashData data
    return (data.userHash, setUserMapFlag data 0)
  else return (data.userHash, data)

/-- `ExecHset` with the call that follows a success. -/
def execHsetFlagged (data : RedisDataManger) (hashName key value : Bytes) :
    Task (Bool × RedisDataManger) := do
  let (ok, _) ← execHset hashName key value
  if ok then return (true, setUserMapFlag data 1) else return (false, data)

/-- One bit with a sign is never one. -/
theorem isUserHashChanged_ne_one (data : RedisDataManger) :
    data.isUserHashChanged.toInt ≠ 1 := by
  have h := BitVec.toInt_lt (x := data.isUserHashChanged)
  omega

end ComManger

end Smer
