import Smer.Redis.RedisPool

/-!
# The session operations (`Communication/src/ComManger.cpp`)

A logged-in user is a member of the Redis set `userSession` and has a hash, under the decimal text
of the user's id, with the fields `name` and `fd`. Every operation is one or two Redis commands.
-/

namespace Smer

open Lib

namespace ComManger

open KGRedisClient

def addSessionTalker (id : Int32) (name : Bytes) (fd : Int32) : Task Bool := do
  let idStr := toText id.toInt
  let fdStr := toText fd.toInt
  let (ok, _) ← execSadd (ascii "userSession") idStr
  if ok then
    let keyVals := [(ascii "name", name), (ascii "fd", fdStr)]
    let (ok, _) ← execHMset idStr keyVals
    return ok
  else return false

def isTalkerOnline (id : Int32) : Task Bool :=
  execScontain (ascii "userSession") (toText id.toInt)

def removeSessionTalker (id : Int32) : Task Bool := do
  let (ok, _) ← execSremove (ascii "userSession") (toText id.toInt)
  if ok then
    let (ok, _) ← execDel (toText id.toInt)
    return ok
  else return false

def getTalkerFd (id : Int32) : Task Int32 := do
  let (ok, response) ← execHget (toText id.toInt) (ascii "fd")
  if ok then
    match response with
    | first :: _ => return atoi (cstr first)
    | [] => Task.abort .outOfBounds
  else return -1

/-- `getTalkerName`: the result, and the name that was written to `res`, if one was. -/
def getTalkerName (id : Int32) : Task (Option Bytes) := do
  let (ok, response) ← execHget (toText id.toInt) (ascii "name")
  if ok then
    match response with
    | first :: _ => return some first
    | [] => Task.abort .outOfBounds
  else return none

end ComManger

end Smer
