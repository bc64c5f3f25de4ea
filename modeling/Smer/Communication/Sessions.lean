import Smer.Communication.Commands

/-!
# The session operations, run alone

What each operation of `ComManger` answers and leaves behind when it runs alone and Redis answers
normally. A missing field is answered with nil, which the client flattens to the empty string, so a
lookup of an absent descriptor answers zero and a lookup of an absent name answers the empty name.
-/

namespace Smer

open Lib

namespace ComManger

open KGRedisClient

variable {E : Mysql} {w : World}

/-- A command that Redis answers. -/
theorem run_command (normal : w.redisFaults = []) {cmdBuf : Bytes} {reply : RedisReply}
    {redis : RedisStore} {α : Type} {k : Bool × List Bytes → Task α} {result : Bool × List Bytes}
    (hreply : World.redisReply w.redis cmdBuf = some (reply, redis))
    (hresult : respond reply = some result) :
    (Prog.vis (.redisCommand cmdBuf) fun a => onAnswer a >>= k : Task α).run (World.answer E) w =
      (k result).run (World.answer E) { w with redis := redis } := by
  rw [Prog.run_vis_some (answer_redisCommand normal hreply), onAnswer, hresult, Prog.ret_bind]

/-- The membership test answers membership. -/
theorem run_isTalkerOnline (normal : w.redisFaults = []) (id : Int32) :
    (isTalkerOnline id).run (World.answer E) w = (.ok (decide (Online w.redis id)), w) := by
  rw [isTalkerOnline_eq, run_command normal (reply_sismember w.redis id) rfl]
  by_cases honline : Online w.redis id
  · rw [if_pos honline, decide_eq_true honline]
    rfl
  · rw [if_neg honline, decide_eq_false honline]
    rfl

/-- The text that a lookup finds: a missing field is the empty text. -/
def found (value : Option Bytes) : Bytes := value.getD []

theorem respond_hgetReply (value : Option Bytes) :
    respond (hgetReply value) = some (true, [found value]) := by
  cases value <;> rfl

/-- The descriptor lookup. -/
theorem run_getTalkerFd (normal : w.redisFaults = []) (id : Int32) :
    (getTalkerFd id).run (World.answer E) w =
      (.ok (atoi (cstr (found ((w.redis.hashes (idText id)).lookup (ascii "fd"))))), w) := by
  rw [getTalkerFd_eq, run_command normal (reply_hgetFd w.redis id) (respond_hgetReply _)]
  rfl

/-- The name lookup: it never answers that there is no name. -/
theorem run_getTalkerName (normal : w.redisFaults = []) (id : Int32) :
    (getTalkerName id).run (World.answer E) w =
      (.ok (some (found ((w.redis.hashes (idText id)).lookup (ascii "name")))), w) := by
  rw [getTalkerName_eq, run_command normal (reply_hgetName w.redis id) (respond_hgetReply _)]
  rfl

/-- Leaving takes the user out of the set and the hash away. -/
theorem run_removeSessionTalker (normal : w.redisFaults = []) (id : Int32) :
    (removeSessionTalker id).run (World.answer E) w =
      (.ok true, { w with redis := (leave w.redis id).delKey (idText id) }) := by
  obtain ⟨n, hsrem⟩ := reply_srem w.redis id
  obtain ⟨m, hdel⟩ := reply_del (leave w.redis id) id
  rw [removeSessionTalker_eq, run_command normal hsrem rfl, dropRecord]
  exact run_command (w := { w with redis := leave w.redis id }) normal hdel rfl

/-- What the `HMSET` of a session makes of Redis: the fields are written if the name has become an
odd number of words. -/
def recorded (redis : RedisStore) (id : Int32) (sent : Bytes) (fd : Int32) : RedisStore :=
  match sessionFields redis id sent fd with
  | some fields => redis.setHash (idText id) fields
  | none => redis

theorem online_recorded {redis : RedisStore} {id other fd : Int32} {sent : Bytes} :
    Online (recorded redis id sent fd) other ↔ Online redis other := by
  unfold recorded
  split
  · exact online_setHash
  · exact Iff.rfl

theorem reply_hmset_recorded (redis : RedisStore) (id fd : Int32) {text sent : Bytes}
    (hsent : expand text [] = some sent) :
    ∃ reply str, World.redisReply redis (hmsetCmd id text fd) =
      some (reply, recorded redis id sent fd) ∧ respond reply = some (true, [str]) := by
  have hreply := reply_hmset redis id fd text
  rw [hsent, Option.map_some, exec_hmset] at hreply
  rw [hreply, recorded]
  cases sessionFields redis id sent fd with
  | some fields => exact ⟨_, _, rfl, rfl⟩
  | none => exact ⟨_, _, rfl, rfl⟩

/-- Entering adds the user to the set and writes the user's hash. The answer is true even when
Redis has refused to write it. -/
theorem run_addSessionTalker (normal : w.redisFaults = []) (id fd : Int32) {name text sent : Bytes}
    (hzero : (0 : UInt8) ∉ name) (hlen : name.length ≤ 60) (htext : expand name [] = some text)
    (hsent : expand text [] = some sent) :
    (addSessionTalker id name fd).run (World.answer E) w =
      (.ok true, { w with redis := recorded (enter w.redis id) id sent fd }) := by
  obtain ⟨n, hsadd⟩ := reply_sadd w.redis id
  obtain ⟨reply, str, hreply, hrespond⟩ := reply_hmset_recorded (enter w.redis id) id fd hsent
  rw [addSessionTalker_eq id fd hzero hlen, run_command normal hsadd rfl, writeRecord, htext]
  exact run_command (w := { w with redis := enter w.redis id }) normal hreply hrespond

/-- A name that the two formats of a session's `HMSET` expand. -/
def Expands (name : Bytes) : Prop :=
  ∃ text sent, expand name [] = some text ∧ expand text [] = some sent

/-- `addSessionTalker` does not come back from a name that they do not expand. -/
theorem addSessionTalker_stuck (normal : w.redisFaults = []) (id fd : Int32) {name : Bytes}
    (hzero : (0 : UInt8) ∉ name) (hlen : name.length ≤ 60) (stuck : ¬ Expands name) :
    ∃ o w', (addSessionTalker id name fd).run (World.answer E) w = (.error o, w') := by
  obtain ⟨n, hsadd⟩ := reply_sadd w.redis id
  rw [addSessionTalker_eq id fd hzero hlen, run_command normal hsadd rfl, writeRecord]
  cases htext : expand name [] with
  | none => exact ⟨_, _, rfl⟩
  | some text =>
    cases hsent : expand text [] with
    | some sent => exact absurd ⟨text, sent, htext, hsent⟩ stuck
    | none =>
      have hreply : World.redisReply (enter w.redis id) (hmsetCmd id text fd) = none := by
        rw [reply_hmset, hsent, Option.map_none]
      have hanswer := answer_redisCommand_none (E := E) (w := { w with redis := enter w.redis id })
        normal hreply
      exact ⟨_, _, Prog.run_vis_none hanswer⟩

/-! ## When Redis may fail -/

/-- A command with a defined text and an ordinary reply comes back, however the sending of it may
fail, and leaves everything but Redis alone. -/
theorem run_command_returns {cmdBuf : Bytes} {reply : RedisReply} {redis : RedisStore} {α : Type}
    (k : Bool × List Bytes → Task α)
    (hreply : World.redisReply w.redis cmdBuf = some (reply, redis))
    (hresult : (respond reply).isSome) :
    ∃ result w', (Prog.vis (.redisCommand cmdBuf) fun a => onAnswer a >>= k : Task α).run
        (World.answer E) w = (k result).run (World.answer E) w' ∧
      w'.outbound = w.outbound ∧ w'.userinfo = w.userinfo := by
  obtain ⟨result, hresult⟩ := Option.isSome_iff_exists.mp hresult
  obtain ⟨userinfo, store, outbound, sqlFaults, redisFaults⟩ := w
  rcases redisFaults with _ | ⟨_ | fault, faults⟩
  · refine ⟨result, ⟨userinfo, redis, outbound, sqlFaults, []⟩, ?_, rfl, rfl⟩
    exact run_command rfl hreply hresult
  · refine ⟨result, ⟨userinfo, redis, outbound, sqlFaults, faults⟩, ?_, rfl, rfl⟩
    have hanswer : World.answer E (.redisCommand cmdBuf)
        ⟨userinfo, store, outbound, sqlFaults, none :: faults⟩ =
          some (.reply reply, ⟨userinfo, redis, outbound, sqlFaults, faults⟩) := by
      simp only [World.answer, hreply, Option.map_some, List.tail_cons]
    rw [Prog.run_vis_some hanswer, onAnswer, hresult, Prog.ret_bind]
  · cases fault with
    | noContext => exact ⟨(false, []), ⟨_, _, _, _, faults⟩, rfl, rfl, rfl⟩
    | noReply => exact ⟨(false, []), ⟨_, _, _, _, faults⟩, rfl, rfl, rfl⟩
    | errorReply str => exact ⟨(true, [str]), ⟨_, _, _, _, faults⟩, rfl, rfl, rfl⟩

/-- `addSessionTalker` comes back, whatever fails, for a name that its formats expand. -/
theorem addSessionTalker_returns (id fd : Int32) {name text sent : Bytes}
    (hzero : (0 : UInt8) ∉ name) (hlen : name.length ≤ 60) (htext : expand name [] = some text)
    (hsent : expand text [] = some sent) :
    ∃ result w', (addSessionTalker id name fd).run (World.answer E) w = (.ok result, w') ∧
      w'.outbound = w.outbound ∧ w'.userinfo = w.userinfo := by
  obtain ⟨n, hsadd⟩ := reply_sadd w.redis id
  obtain ⟨⟨ok, response⟩, w₁, hrun, hout, hinfo⟩ :=
    run_command_returns (E := E) (writeRecord id name fd) hsadd rfl
  rw [addSessionTalker_eq id fd hzero hlen, hrun]
  cases ok with
  | false => exact ⟨false, w₁, rfl, hout, hinfo⟩
  | true =>
    obtain ⟨reply, str, hreply, hrespond⟩ := reply_hmset_recorded w₁.redis id fd hsent
    obtain ⟨result, w₂, hrun₂, hout₂, hinfo₂⟩ :=
      run_command_returns (E := E) passOn hreply (by rw [hrespond]; rfl)
    refine ⟨result.1, w₂, ?_, hout₂.trans hout, hinfo₂.trans hinfo⟩
    rw [writeRecord, htext]
    exact hrun₂

end ComManger

end Smer
