import Smer.Server.Effect

/-!
# The Redis client (`Redis/src/redis_pool.cpp`)

`executeCmd_spop` formats a command into a buffer of a hundred bytes, sends it, and flattens the
reply to a list of strings. The other operations wrap it. `ExecHMset` passes its own text as the
format, so a percent sign in a value is a directive.
-/

namespace Smer

open Lib

namespace KGRedisClient

def sizeofCmdBuf : Nat := 100

/-- The string that an element of an array reply adds: the C string of its text. An element without
a text, nil or an array, raises an exception. -/
def elementText : RedisReply → Option Bytes
  | .integer value => some (toText value)
  | .string str | .status str | .error str => some (cstr str)
  | .nil | .array _ | .other => none

/-- What a reply adds to `response`, and whether it counts as a success. -/
def respond : RedisReply → Option (Bool × List Bytes)
  | .integer value => some (true, [toText value])
  | .string str => some (true, [str])
  | .status str => some (true, [str])
  | .nil => some (true, [[]])
  | .error str => some (true, [str])
  | .array elements => (elements.mapM elementText).map (true, ·)
  | .other => some (false, [ascii "Undefine Reply Type"])

/-- The loop over the elements of an array reply. -/
def pushElements (response : List Bytes) : List RedisReply → Option (List Bytes)
  | [] => some response
  | element :: elements => do
    let text ← elementText element
    pushElements (response ++ [text]) elements

/-- The conversion of a reply at the end of `ExecuteCmd_spop`, on the caller's `response`. -/
def convertReply (response : List Bytes) : RedisReply → Option (Bool × List Bytes)
  | .integer value => some (true, response ++ [toText value])
  | .string str => some (true, response ++ [str])
  | .status str => some (true, response ++ [str])
  | .nil => some (true, response ++ [[]])
  | .error str => some (true, response ++ [str])
  | .array elements => (pushElements response elements).map (true, ·)
  | .other => some (false, response ++ [ascii "Undefine Reply Type"])

/-- The loop adds the texts of the elements, in their order. -/
theorem pushElements_eq (elements : List RedisReply) (response : List Bytes) :
    pushElements response elements = (elements.mapM elementText).map (response ++ ·) := by
  induction elements generalizing response with
  | nil =>
    rw [pushElements, List.mapM_nil]
    exact congrArg some (List.append_nil response).symm
  | cons element elements ih =>
    rw [pushElements, List.mapM_cons]
    cases elementText element with
    | none => rfl
    | some text =>
      show pushElements (response ++ [text]) elements = _
      rw [ih]
      cases elements.mapM elementText with
      | none => rfl
      | some texts => exact congrArg some (List.append_assoc _ _ _)

/-- A reply adds to `response` what it adds to an empty one. -/
theorem convertReply_eq (response : List Bytes) (reply : RedisReply) :
    convertReply response reply = (respond reply).map fun out => (out.1, response ++ out.2) := by
  cases reply with
  | array elements =>
    rw [convertReply, respond, pushElements_eq, Option.map_map, Option.map_map]
    rfl
  | _ => rfl

/-- An array is converted iff each element has a text, and then to these. -/
theorem mapM_elementText_iff {elements : List RedisReply} {texts : List Bytes} :
    elements.mapM elementText = some texts ↔
      List.Forall₂ (fun element text => elementText element = some text) elements texts := by
  induction elements generalizing texts with
  | nil =>
    rw [List.mapM_nil, List.forall₂_nil_left_iff]
    exact Option.some_inj.trans eq_comm
  | cons element elements ih =>
    rw [List.mapM_cons, List.forall₂_cons_left_iff]
    simp only [← ih]
    cases elementText element <;> cases elements.mapM elementText <;> simp [eq_comm]

/-- The second half of `ExecuteCmd_spop`, on what sending the command came to. -/
def onAnswer : RedisAnswer → Task (Bool × List Bytes)
  | .noContext => pure (false, [])
  | .noReply => pure (false, [])
  | .reply reply =>
    match respond reply with
    | some result => pure result
    | none => Task.abort .raised

/-- `ExecuteCmd_spop`: the result, and what it adds to `response`. -/
def executeCmd_spop (format : Bytes) (args : List FmtArg) : Task (Bool × List Bytes) :=
  match vsnprintf sizeofCmdBuf format args with
  | none => Task.abort .undefinedFormat
  | some cmdBuf => .vis (.redisCommand cmdBuf) onAnswer

/-- A command with a defined text is sent. -/
theorem executeCmd_eq {format cmdBuf : Bytes} {args : List FmtArg}
    (hcmd : vsnprintf sizeofCmdBuf format args = some cmdBuf) :
    executeCmd_spop format args = .vis (.redisCommand cmdBuf) onAnswer := by
  rw [executeCmd_spop, hcmd]

def execDel (key : Bytes) : Task (Bool × List Bytes) :=
  executeCmd_spop (ascii "DEL %s") [.str (cstr key)]

def execHset (hashName key value : Bytes) : Task (Bool × List Bytes) :=
  executeCmd_spop (ascii "hset %s %s %s") [.str (cstr hashName), .str (cstr key), .str (cstr value)]

/-- The text that `ExecHMset` builds in its string stream. -/
def hmsetText (hashName : Bytes) (keyVals : List (Bytes × Bytes)) : Bytes :=
  ascii "HMSET" ++ ascii " " ++ hashName ++
    keyVals.flatMap fun kv => ascii " " ++ kv.1 ++ ascii " " ++ kv.2

def execHMset (hashName : Bytes) (keyVals : List (Bytes × Bytes)) : Task (Bool × List Bytes) :=
  executeCmd_spop (cstr (hmsetText hashName keyVals)) []

def execHget (hashName key : Bytes) : Task (Bool × List Bytes) :=
  executeCmd_spop (ascii "hget %s %s") [.str (cstr hashName), .str (cstr key)]

def execHgetAll (hashName : Bytes) : Task (Bool × List Bytes) :=
  executeCmd_spop (ascii "hgetAll %s") [.str (cstr hashName)]

def execSadd (setName val : Bytes) : Task (Bool × List Bytes) :=
  executeCmd_spop (ascii "SADD %s %s") [.str (cstr setName), .str (cstr val)]

def execScontain (setName val : Bytes) : Task Bool := do
  let (ok, response) ←
    executeCmd_spop (ascii "SISMEMBER %s %s") [.str (cstr setName), .str (cstr val)]
  if ok then
    match response with
    | first :: _ => return first = ascii "1"
    | [] => Task.abort .outOfBounds
  else return false

def execSremove (setName val : Bytes) : Task (Bool × List Bytes) :=
  executeCmd_spop (ascii "SREM %s %s") [.str (cstr setName), .str (cstr val)]

end KGRedisClient

end Smer
