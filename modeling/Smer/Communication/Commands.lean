import Smer.Communication.ComManger

/-!
# The commands the session operations send

Each session operation is one or two commands, and this module says which: the text of each command
(`saddCmd` and so on), that the operation sends it, and what Redis does on it.

A name goes into its command through two formats, that of `vsnprintf` (`vsnprintf_session`) and that
of the client library (`reply_hmset`). It arrives whole when it has no percent sign, and as one word
when it has no space.
-/

namespace Smer

open Lib

namespace ComManger

open KGRedisClient

/-- The set of the users that are logged in. -/
def sessionKey : Bytes := ascii "userSession"

/-- The key of a user's hash, and the user's member in the session set. -/
def idText (id : Int32) : Bytes := toText id.toInt

theorem idText_plain (id : Int32) : (32 : UInt8) ∉ idText id ∧ idText id ≠ [] :=
  ⟨notMem_toText (by decide) (by decide), toText_ne_nil _⟩

theorem notPercent_idText (id : Int32) : (37 : UInt8) ∉ idText id :=
  notMem_toText (by decide) (by decide)

@[simp] theorem cstr_idText (id : Int32) : cstr (idText id) = idText id :=
  cstr_eq_self (notMem_toText (by decide) (by decide))

theorem idText_injective {a b : Int32} (h : idText a = idText b) : a = b := toText_injective h

theorem idText_ne_sessionKey (id : Int32) : idText id ≠ sessionKey := by
  intro h
  have hu : (117 : UInt8) ∈ idText id := by
    rw [h]
    decide
  exact notMem_toText (by decide) (by decide) hu

/-! ## The texts -/

def saddCmd (id : Int32) : Bytes := unwords [ascii "SADD", sessionKey, idText id]
def sismemberCmd (id : Int32) : Bytes := unwords [ascii "SISMEMBER", sessionKey, idText id]
def sremCmd (id : Int32) : Bytes := unwords [ascii "SREM", sessionKey, idText id]
def delCmd (id : Int32) : Bytes := unwords [ascii "DEL", idText id]
def hgetFdCmd (id : Int32) : Bytes := unwords [ascii "hget", idText id, ascii "fd"]
def hgetNameCmd (id : Int32) : Bytes := unwords [ascii "hget", idText id, ascii "name"]

/-- The `HMSET` of a session, on the text that the name has become. -/
def hmsetCmd (id : Int32) (text : Bytes) (fd : Int32) : Bytes :=
  ascii "HMSET " ++ (idText id ++ (ascii " name " ++ (text ++ (ascii " fd " ++ idText fd))))

/-! ## The operations send them -/

/-- A text that leaves room for its final zero is not cut. -/
theorem vsnprintf_eq {format text : Bytes} {args : List FmtArg}
    (hexpand : expand format args = some text) (hlen : text.length ≤ sizeofCmdBuf - 1) :
    vsnprintf sizeofCmdBuf format args = some text := by
  rw [vsnprintf, hexpand, Option.map_some, List.take_of_length_le hlen]

theorem idText_length (id : Int32) : (idText id).length ≤ 11 := toText_length id

/-- A command of a verb and two short words is sent as it is. -/
theorem executeCmd_two (verb : Bytes) {a b : Bytes} (hverb : (37 : UInt8) ∉ verb)
    (hlen : verb.length ≤ 40) (ha : a.length ≤ 11) (hb : b.length ≤ 11) :
    executeCmd_spop (verb ++ ascii " %s %s") [.str a, .str b] =
      .vis (.redisCommand (verb ++ 32 :: (a ++ 32 :: b))) onAnswer := by
  have hrest : expand (ascii " %s %s") [.str a, .str b] = some (32 :: (a ++ 32 :: (b ++ []))) := rfl
  have hsize : sizeofCmdBuf = 100 := rfl
  apply executeCmd_eq
  apply vsnprintf_eq
  · rw [expand_append hverb, hrest, List.append_nil]
    rfl
  · simp only [List.length_append, List.length_cons]
    omega

theorem cstr_sessionKey : cstr sessionKey = sessionKey := by decide

theorem execSadd_eq (id : Int32) :
    execSadd sessionKey (idText id) = .vis (.redisCommand (saddCmd id)) onAnswer := by
  rw [execSadd, cstr_idText, cstr_sessionKey]
  exact executeCmd_two (ascii "SADD") (by decide) (by decide) (by decide)
    (idText_length id)

theorem execSremove_eq (id : Int32) :
    execSremove sessionKey (idText id) = .vis (.redisCommand (sremCmd id)) onAnswer := by
  rw [execSremove, cstr_idText, cstr_sessionKey]
  exact executeCmd_two (ascii "SREM") (by decide) (by decide) (by decide)
    (idText_length id)

theorem execHgetFd_eq (id : Int32) :
    execHget (idText id) (ascii "fd") = .vis (.redisCommand (hgetFdCmd id)) onAnswer := by
  rw [execHget, cstr_idText]
  exact executeCmd_two (ascii "hget") (by decide) (by decide) (idText_length id)
    (by decide)

theorem execHgetName_eq (id : Int32) :
    execHget (idText id) (ascii "name") = .vis (.redisCommand (hgetNameCmd id)) onAnswer := by
  rw [execHget, cstr_idText]
  exact executeCmd_two (ascii "hget") (by decide) (by decide) (idText_length id)
    (by decide)

theorem execDel_eq (id : Int32) :
    execDel (idText id) = .vis (.redisCommand (delCmd id)) onAnswer := by
  have hrest : expand (ascii "DEL %s") [.str (idText id)] =
      some (ascii "DEL" ++ 32 :: (idText id ++ [])) := rfl
  have hlen := idText_length id
  have hsize : sizeofCmdBuf = 100 := rfl
  rw [execDel, cstr_idText]
  apply executeCmd_eq
  apply vsnprintf_eq
  · rw [hrest, List.append_nil]
    rfl
  · simp only [delCmd, unwords, List.length_append, List.length_cons]
    have hverb : (ascii "DEL").length = 3 := by decide
    omega

/-- An operation that sends one command and goes on with its outcome. -/
theorem operation_eq {α : Type} {cmdBuf : Bytes} {send : Task (Bool × List Bytes)}
    {rest result : Bool × List Bytes → Task α}
    (hsend : send = .vis (.redisCommand cmdBuf) onAnswer)
    (hrest : ∀ ok response, rest (ok, response) = result (ok, response)) :
    send >>= rest = .vis (.redisCommand cmdBuf) fun a => onAnswer a >>= result := by
  have hsame : rest = result := by
    funext outcome
    obtain ⟨ok, response⟩ := outcome
    exact hrest ok response
  rw [hsend, Prog.vis_bind, hsame]

/-- What the test of `ExecScontain` makes of the command's outcome. -/
def scontainResult : Bool × List Bytes → Task Bool
  | (true, first :: _) => pure (first = ascii "1")
  | (true, []) => Task.abort .outOfBounds
  | (false, _) => pure false

theorem isTalkerOnline_eq (id : Int32) : isTalkerOnline id =
    .vis (.redisCommand (sismemberCmd id)) fun a => onAnswer a >>= scontainResult := by
  have hsend := executeCmd_two (ascii "SISMEMBER") (a := sessionKey) (b := idText id)
    (by decide) (by decide) (by decide) (idText_length id)
  show execScontain sessionKey (idText id) = _
  rw [execScontain, cstr_idText, cstr_sessionKey]
  refine operation_eq hsend fun ok response => ?_
  cases ok <;> cases response <;> rfl

/-- The text that `ExecHMset` formats for a session. -/
def sessionText (id : Int32) (name : Bytes) (fd : Int32) : Bytes :=
  cstr (hmsetText (idText id) [(ascii "name", name), (ascii "fd", idText fd)])

/-- The command of a session's `HMSET`, if its formats are defined. -/
def hmsetBuf (id : Int32) (name : Bytes) (fd : Int32) : Option Bytes :=
  vsnprintf sizeofCmdBuf (sessionText id name fd) []

theorem hmsetCmd_length (id : Int32) (text : Bytes) (fd : Int32) :
    (hmsetCmd id text fd).length = text.length + (16 + (idText id).length + (idText fd).length) := by
  have h1 : (ascii "HMSET ").length = 6 := by decide
  have h2 : (ascii " name ").length = 6 := by decide
  have h3 : (ascii " fd ").length = 4 := by decide
  simp only [hmsetCmd, List.length_append, h1, h2, h3]
  omega

/-- A name of sixty bytes leaves room for all else. -/
theorem hmsetCmd_length_le (id fd : Int32) {name : Bytes} (hlen : name.length ≤ 60) :
    (hmsetCmd id name fd).length ≤ 99 := by
  have hidlen := idText_length id
  have hfdlen := idText_length fd
  rw [hmsetCmd_length]
  omega

/-- The program's own part of the text has no directives. -/
theorem expand_hmsetCmd (id fd : Int32) (text : Bytes) :
    expand (hmsetCmd id text fd) [] = (expand text []).map fun sent => hmsetCmd id sent fd := by
  have hsplit : ∀ text, hmsetCmd id text fd = (ascii "HMSET " ++ (idText id ++ ascii " name ")) ++
      (text ++ 32 :: (ascii "fd " ++ idText fd)) := by
    intro text
    simp only [hmsetCmd, List.append_assoc]
    rfl
  have hfront : (37 : UInt8) ∉ ascii "HMSET " ++ (idText id ++ ascii " name ") := by
    simp only [List.mem_append, notPercent_idText, false_or, not_or]
    decide
  have hback : (37 : UInt8) ∉ (32 :: (ascii "fd " ++ idText fd) : Bytes) := by
    simp only [List.mem_append, List.mem_cons, notPercent_idText, or_false, not_or]
    decide
  rw [hsplit text, expand_append hfront, expand_append_cons text (by decide), expand_eq_self hback]
  cases expand text [] with
  | none => rfl
  | some sent =>
    rw [Option.map_some, hsplit sent]
    rfl

theorem hmsetText_session (id fd : Int32) (name : Bytes) :
    hmsetText (idText id) [(ascii "name", name), (ascii "fd", idText fd)] =
      hmsetCmd id name fd := by
  simp only [hmsetText, hmsetCmd, List.flatMap_cons, List.flatMap_nil, List.append_nil,
    List.append_assoc]
  rfl

theorem hmsetBuf_eq_append {id fd : Int32} {name cmdBuf : Bytes}
    (hbuf : hmsetBuf id name fd = some cmdBuf) : ∃ rest, cmdBuf = ascii "HMSET " ++ rest := by
  have hsplit : ∃ rest, sessionText id name fd = ascii "HMSET " ++ rest := by
    rw [sessionText, hmsetText_session, hmsetCmd]
    exact ⟨_, cstr_append (by decide) _⟩
  obtain ⟨rest, hrest⟩ := hsplit
  rw [hmsetBuf, hrest, vsnprintf, expand_append (by decide), Option.map_map] at hbuf
  obtain ⟨text, -, rfl⟩ := Option.map_eq_some_iff.mp hbuf
  exact ⟨text.take 93, rfl⟩

/-- **The name's own text is a format**: its expansion is what is sent. -/
theorem vsnprintf_session (id fd : Int32) {name : Bytes} (hzero : (0 : UInt8) ∉ name)
    (hlen : (hmsetCmd id name fd).length ≤ 99) :
    vsnprintf sizeofCmdBuf (sessionText id name fd) [] =
      (expand name []).map fun text => hmsetCmd id text fd := by
  have hcstr : cstr (hmsetCmd id name fd) = hmsetCmd id name fd := by
    have hnozero : ∀ i : Int32, (0 : UInt8) ∉ idText i := fun i =>
      notMem_toText (by decide) (by decide)
    apply cstr_eq_self
    simp only [hmsetCmd, List.mem_append, hnozero, hzero, or_false, false_or, not_or]
    decide
  rw [sessionText, hmsetText_session, hcstr, vsnprintf, expand_hmsetCmd, Option.map_map]
  cases hname : expand name [] with
  | none => rfl
  | some text =>
    have hcut : (hmsetCmd id text fd).length ≤ 99 := by
      have htextlen := expand_length_le hname
      rw [hmsetCmd_length] at hlen ⊢
      omega
    have htake : (hmsetCmd id text fd).take (sizeofCmdBuf - 1) = hmsetCmd id text fd :=
      List.take_of_length_le hcut
    simp only [Option.map_some, Function.comp_apply, htake]

/-- Without a defined expansion of the name nothing is sent. -/
theorem execHMset_eq (id fd : Int32) {name : Bytes} (hzero : (0 : UInt8) ∉ name)
    (hlen : name.length ≤ 60) :
    execHMset (idText id) [(ascii "name", name), (ascii "fd", idText fd)] =
      match expand name [] with
      | some text => .vis (.redisCommand (hmsetCmd id text fd)) onAnswer
      | none => Task.abort .undefinedFormat := by
  have htext := vsnprintf_session id fd hzero (hmsetCmd_length_le id fd hlen)
  rw [sessionText] at htext
  rw [execHMset, executeCmd_spop, htext]
  cases expand name [] <;> rfl

/-- What an operation answers that passes its last command's outcome on. -/
def passOn (result : Bool × List Bytes) : Task Bool := pure result.1

/-- What `addSessionTalker` does after its `SADD`. -/
def writeRecord (id : Int32) (name : Bytes) (fd : Int32) : Bool × List Bytes → Task Bool
  | (true, _) =>
    match expand name [] with
    | some text => .vis (.redisCommand (hmsetCmd id text fd)) fun a => onAnswer a >>= passOn
    | none => Task.abort .undefinedFormat
  | (false, _) => pure false

theorem addSessionTalker_eq (id fd : Int32) {name : Bytes} (hzero : (0 : UInt8) ∉ name)
    (hlen : name.length ≤ 60) : addSessionTalker id name fd =
      .vis (.redisCommand (saddCmd id)) fun a => onAnswer a >>= writeRecord id name fd := by
  refine operation_eq (execSadd_eq id) fun ok response => ?_
  cases ok with
  | false => rfl
  | true =>
    show execHMset (idText id) [(ascii "name", name), (ascii "fd", idText fd)] >>= passOn = _
    rw [execHMset_eq id fd hzero hlen, writeRecord]
    cases expand name [] with
    | some text => rfl
    | none => exact Task.abort_bind _ _

/-- What `removeSessionTalker` does after its `SREM`. -/
def dropRecord (id : Int32) : Bool × List Bytes → Task Bool
  | (true, _) => .vis (.redisCommand (delCmd id)) fun a => onAnswer a >>= passOn
  | (false, _) => pure false

theorem removeSessionTalker_eq (id : Int32) : removeSessionTalker id =
    .vis (.redisCommand (sremCmd id)) fun a => onAnswer a >>= dropRecord id := by
  refine operation_eq (execSremove_eq id) fun ok response => ?_
  cases ok with
  | false => rfl
  | true =>
    show execDel (idText id) >>= passOn = _
    rw [execDel_eq]
    rfl

/-- What `getTalkerFd` makes of its command's outcome. -/
def fdResult : Bool × List Bytes → Task Int32
  | (true, first :: _) => pure (atoi (cstr first))
  | (true, []) => Task.abort .outOfBounds
  | (false, _) => pure (-1)

theorem getTalkerFd_eq (id : Int32) : getTalkerFd id =
    .vis (.redisCommand (hgetFdCmd id)) fun a => onAnswer a >>= fdResult := by
  refine operation_eq (execHgetFd_eq id) fun ok response => ?_
  cases ok <;> cases response <;> rfl

/-- What `getTalkerName` makes of its command's outcome. -/
def nameResult : Bool × List Bytes → Task (Option Bytes)
  | (true, first :: _) => pure (some first)
  | (true, []) => Task.abort .outOfBounds
  | (false, _) => pure none

theorem getTalkerName_eq (id : Int32) : getTalkerName id =
    .vis (.redisCommand (hgetNameCmd id)) fun a => onAnswer a >>= nameResult := by
  refine operation_eq (execHgetName_eq id) fun ok response => ?_
  cases ok <;> cases response <;> rfl

/-! ## What Redis does on them -/

/-- The user is a member of the session set. -/
def Online (redis : RedisStore) (id : Int32) : Prop := idText id ∈ redis.sets sessionKey

instance (redis : RedisStore) (id : Int32) : Decidable (Online redis id) :=
  inferInstanceAs (Decidable (idText id ∈ redis.sets sessionKey))

/-- The user enters the session set. -/
def enter (redis : RedisStore) (id : Int32) : RedisStore :=
  redis.setSet sessionKey (redis.sets sessionKey ∪ [idText id].toFinset)

/-- The user leaves the session set. -/
def leave (redis : RedisStore) (id : Int32) : RedisStore :=
  redis.setSet sessionKey (redis.sets sessionKey \ [idText id].toFinset)

theorem online_enter {redis : RedisStore} {id other : Int32} :
    Online (enter redis id) other ↔ other = id ∨ Online redis other := by
  rw [Online, enter, RedisStore.setSet_sets_self, Finset.mem_union, List.mem_toFinset,
    List.mem_singleton, or_comm]
  exact or_congr_left ⟨idText_injective, congrArg idText⟩

theorem online_leave {redis : RedisStore} {id other : Int32} :
    Online (leave redis id) other ↔ Online redis other ∧ other ≠ id := by
  rw [Online, leave, RedisStore.setSet_sets_self, Finset.mem_sdiff, List.mem_toFinset,
    List.mem_singleton]
  exact and_congr_right' (not_congr ⟨idText_injective, congrArg idText⟩)

theorem online_setHash {redis : RedisStore} {key : Bytes} {fields : RedisHash} {id : Int32} :
    Online (redis.setHash key fields) id ↔ Online redis id := Iff.rfl

theorem online_delKey {redis : RedisStore} {id other : Int32} :
    Online (redis.delKey (idText id)) other ↔ Online redis other := by
  rw [Online, Online, RedisStore.delKey_sets_ne _ (idText_ne_sessionKey id).symm]

/-- The vector of a command of literal words and one id. -/
theorem argv_command (front back : List Bytes) (id : Int32)
    (hfront : ∀ w ∈ front, ((32 : UInt8) ∉ w ∧ w ≠ []) ∧ (37 : UInt8) ∉ w)
    (hback : ∀ w ∈ back, ((32 : UInt8) ∉ w ∧ w ≠ []) ∧ (37 : UInt8) ∉ w) :
    argv (unwords (front ++ idText id :: back)) = some (front ++ idText id :: back) := by
  apply argv_unwords (List.append_ne_nil_of_right_ne_nil _ (List.cons_ne_nil _ _))
  intro w hw
  rcases List.mem_append.mp hw with hw | hw
  · exact hfront w hw
  rcases List.mem_cons.mp hw with rfl | hw
  · exact ⟨idText_plain id, notPercent_idText id⟩
  · exact hback w hw

theorem argv_sadd (id : Int32) : argv (saddCmd id) = some [ascii "SADD", sessionKey, idText id] :=
  argv_command [ascii "SADD", sessionKey] [] id (by decide) (by decide)

theorem argv_srem (id : Int32) : argv (sremCmd id) = some [ascii "SREM", sessionKey, idText id] :=
  argv_command [ascii "SREM", sessionKey] [] id (by decide) (by decide)

theorem argv_sismember (id : Int32) :
    argv (sismemberCmd id) = some [ascii "SISMEMBER", sessionKey, idText id] :=
  argv_command [ascii "SISMEMBER", sessionKey] [] id (by decide) (by decide)

theorem argv_del (id : Int32) : argv (delCmd id) = some [ascii "DEL", idText id] :=
  argv_command [ascii "DEL"] [] id (by decide) (by decide)

theorem argv_hgetFd (id : Int32) :
    argv (hgetFdCmd id) = some [ascii "hget", idText id, ascii "fd"] :=
  argv_command [ascii "hget"] [ascii "fd"] id (by decide) (by decide)

theorem argv_hgetName (id : Int32) :
    argv (hgetNameCmd id) = some [ascii "hget", idText id, ascii "name"] :=
  argv_command [ascii "hget"] [ascii "name"] id (by decide) (by decide)

theorem reply_sadd (redis : RedisStore) (id : Int32) :
    ∃ n, World.redisReply redis (saddCmd id) = some (.integer n, enter redis id) := by
  rw [redisReply_eq, argv_sadd]
  exact ⟨([idText id].toFinset \ redis.sets sessionKey).card, rfl⟩

theorem reply_srem (redis : RedisStore) (id : Int32) :
    ∃ n, World.redisReply redis (sremCmd id) = some (.integer n, leave redis id) := by
  rw [redisReply_eq, argv_srem]
  exact ⟨(redis.sets sessionKey ∩ [idText id].toFinset).card, rfl⟩

theorem reply_sismember (redis : RedisStore) (id : Int32) :
    World.redisReply redis (sismemberCmd id) =
      some (.integer (if Online redis id then 1 else 0), redis) := by
  rw [redisReply_eq, argv_sismember]
  rfl

theorem reply_del (redis : RedisStore) (id : Int32) :
    ∃ n, World.redisReply redis (delCmd id) = some (.integer n, redis.delKey (idText id)) := by
  rw [redisReply_eq, argv_del]
  exact ⟨(([idText id] : List Bytes).dedup.filter redis.hasKey).length, rfl⟩

/-- The reply to `HGET` of a field. -/
def hgetReply (value : Option Bytes) : RedisReply :=
  match value with
  | some value => .string value
  | none => .nil

theorem exec_hget (redis : RedisStore) (key field : Bytes) :
    redis.exec [ascii "hget", key, field] =
      (hgetReply ((redis.hashes key).lookup field), redis) := by
  have hexec : redis.exec [ascii "hget", key, field] =
      match (redis.hashes key).lookup field with
      | some value => (.string value, redis)
      | none => (.nil, redis) := rfl
  rw [hexec]
  cases (redis.hashes key).lookup field <;> rfl

theorem reply_hgetFd (redis : RedisStore) (id : Int32) :
    World.redisReply redis (hgetFdCmd id) =
      some (hgetReply ((redis.hashes (idText id)).lookup (ascii "fd")), redis) := by
  rw [← exec_hget, redisReply_eq, argv_hgetFd, Option.map_some]

theorem reply_hgetName (redis : RedisStore) (id : Int32) :
    World.redisReply redis (hgetNameCmd id) =
      some (hgetReply ((redis.hashes (idText id)).lookup (ascii "name")), redis) := by
  rw [← exec_hget, redisReply_eq, argv_hgetName, Option.map_some]

/-- The two lookups ask for different fields, and each for one user. -/
theorem hgetCmd_inj {a b : Int32} {field field' : Bytes}
    (plain : (32 : UInt8) ∉ field ∧ field ≠ []) (plain' : (32 : UInt8) ∉ field' ∧ field' ≠ [])
    (h : unwords [ascii "hget", idText a, field] = unwords [ascii "hget", idText b, field']) :
    a = b ∧ field = field' := by
  have hwords : ∀ (id : Int32) {f : Bytes}, (32 : UInt8) ∉ f ∧ f ≠ [] →
      words (unwords [ascii "hget", idText id, f]) = [ascii "hget", idText id, f] := by
    intro id f hf
    apply words_unwords
    simp only [List.mem_cons, List.not_mem_nil, or_false]
    rintro v (rfl | rfl | rfl)
    · decide
    · exact idText_plain id
    · exact hf
  have hlist := congrArg words h
  rw [hwords a plain, hwords b plain'] at hlist
  simp only [List.cons.injEq, and_true, true_and] at hlist
  exact ⟨idText_injective hlist.1, hlist.2⟩

/-- The words of the `HMSET`: those of the name stand in the middle. -/
theorem words_hmsetCmd (id fd : Int32) (sent : Bytes) :
    words (hmsetCmd id sent fd) = ascii "HMSET" :: idText id :: ascii "name" ::
      (words sent ++ [ascii "fd", idText fd]) := by
  have hlast : words (ascii "fd " ++ idText fd) = [ascii "fd", idText fd] := by
    rw [show ascii "fd " ++ idText fd = ascii "fd" ++ 32 :: idText fd from rfl,
      words_append_space (by decide) (by decide),
      words_eq_singleton (idText_plain fd).1 (idText_plain fd).2]
  have hspaces : hmsetCmd id sent fd = ascii "HMSET" ++ 32 :: (idText id ++
      32 :: (ascii "name" ++ 32 :: (sent ++ 32 :: (ascii "fd " ++ idText fd)))) := rfl
  rw [hspaces, words_append_space (by decide) (by decide),
    words_append_space (idText_plain id).1 (idText_plain id).2,
    words_append_space (by decide) (by decide), words_append_cons, hlast]

theorem argv_hmset (id fd : Int32) (text : Bytes) :
    argv (hmsetCmd id text fd) = (expand text []).map fun sent =>
      ascii "HMSET" :: idText id :: ascii "name" :: (words sent ++ [ascii "fd", idText fd]) := by
  have hcmd : hmsetCmd id text fd = (ascii "HMSET " ++ (idText id ++ (ascii " name " ++
      (text ++ ascii " fd ")))) ++ idText fd := by
    simp only [hmsetCmd, List.append_assoc]
  rw [hcmd, argv_expand _ (idText_plain fd).2 (notPercent_idText fd), ← hcmd, expand_hmsetCmd,
    Option.map_map]
  simp only [Function.comp_def, words_hmsetCmd]

theorem reply_hmset (redis : RedisStore) (id fd : Int32) (text : Bytes) :
    World.redisReply redis (hmsetCmd id text fd) = (expand text []).map fun sent =>
      redis.exec (ascii "HMSET" :: idText id :: ascii "name" ::
        (words sent ++ [ascii "fd", idText fd])) := by
  rw [redisReply_eq, argv_hmset, Option.map_map]
  rfl

/-- The fields that a session's `HMSET` writes, if the name's words leave them in pairs. -/
def sessionFields (redis : RedisStore) (id : Int32) (sent : Bytes) (fd : Int32) :
    Option RedisHash :=
  RedisStore.writeFields (redis.hashes (idText id))
    (ascii "name" :: (words sent ++ [ascii "fd", idText fd]))

theorem exec_hmset (redis : RedisStore) (id fd : Int32) (sent : Bytes) :
    redis.exec (ascii "HMSET" :: idText id :: ascii "name" ::
        (words sent ++ [ascii "fd", idText fd])) =
      match sessionFields redis id sent fd with
      | some fields => (.status (ascii "OK"), redis.setHash (idText id) fields)
      | none => (RedisStore.wrongArity (ascii "hmset"), redis) := by
  show redis.perform .hmset (idText id :: ascii "name" ::
    (words sent ++ [ascii "fd", idText fd])) = _
  rw [sessionFields]
  cases words sent <;> rfl

/-- The fields are in pairs when the name has become an odd number of words. -/
theorem sessionFields_isSome (redis : RedisStore) (id fd : Int32) (sent : Bytes) :
    (sessionFields redis id sent fd).isSome ↔ (words sent).length % 2 = 1 := by
  rw [sessionFields, RedisStore.writeFields_isSome, List.length_cons, List.length_append]
  simp only [List.length_cons, List.length_nil]
  omega

/-- **A written session holds its descriptor**, whatever the name's words were. -/
theorem sessionFields_fd {redis : RedisStore} {id fd : Int32} {sent : Bytes} {fields : RedisHash}
    (hfields : sessionFields redis id sent fd = some fields) :
    fields.lookup (ascii "fd") = some (idText fd) := by
  have hodd : (words sent).length % 2 = 1 := by
    rw [← sessionFields_isSome redis id fd, hfields]
    rfl
  rw [sessionFields, ← List.cons_append] at hfields
  exact RedisStore.writeFields_append_pair _ _ _ hfields (by rw [List.length_cons]; omega)

end ComManger

end Smer
