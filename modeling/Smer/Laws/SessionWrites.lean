import Smer.Communication.Sessions

/-!
# Two writes without a rollback

A session begins with `SADD` and `HMSET` and ends with `SREM` and `DEL`. The second write follows a
first one that succeeded, and an error reply counts as a success. So the result is true when an
error kept a write from taking effect, and it is false when the first write stands and the second
got no answer.

`sessions_atomic_iff` says which outcomes of the two commands leave the operation atomic: the first
command gets no answer, or Redis executes both, or only the second gets no answer and the first one
changed nothing.

The operation runs alone: another task's command between the two is in `Laws.SessionWindows`.
-/

namespace Smer

open Lib KGRedisClient

namespace ComManger

variable {E : Mysql} {w : World}

/-! ## What atomic means -/

/-- A command got no answer. -/
def Unanswered (outcome : Option RedisFault) : Prop :=
  outcome = some .noContext ∨ outcome = some .noReply

/-- A command of this outcome was executed, with a reply that is no error. -/
def TookEffect (before : RedisStore) (outcome : Option RedisFault) (cmdBuf : Bytes)
    (after : RedisStore) : Prop :=
  outcome = none ∧ ∃ reply, World.redisReply before cmdBuf = some (reply, after) ∧
    ∀ str, reply ≠ .error str

/-- What an operation answers when Redis answers normally. -/
def normalResult {α : Type} (E : Mysql) (w : World) (task : Task α) : Except Effect α :=
  (task.run (World.answer E) { w with redisFaults := [] }).1

/-- The three queries answer in one state as in the other, for every id. -/
def SameAnswers (E : Mysql) (w w' : World) : Prop :=
  ∀ id, normalResult E w' (isTalkerOnline id) = normalResult E w (isTalkerOnline id) ∧
    normalResult E w' (getTalkerFd id) = normalResult E w (getTalkerFd id) ∧
    normalResult E w' (getTalkerName id) = normalResult E w (getTalkerName id)

/-- An operation of two commands comes back, with true only if both took effect, and with false only
if the queries answer as before. The second command's text may be undefined. -/
def Atomic (E : Mysql) (w : World) (o₁ o₂ : Option RedisFault) (first : Bytes)
    (second : Option Bytes) (task : Task Bool) : Prop :=
  ∃ result w', task.run (World.answer E) { w with redisFaults := [o₁, o₂] } = (.ok result, w') ∧
    (result = true → ∃ mid cmdBuf, TookEffect w.redis o₁ first mid ∧ second = some cmdBuf ∧
      TookEffect mid o₂ cmdBuf w'.redis) ∧
    (result = false → SameAnswers E w w')

/-! ## The operations -/

/-- The second command of an operation, if its text is defined. -/
def secondWrite : Option Bytes → Task Bool
  | some cmdBuf => .vis (.redisCommand cmdBuf) fun a => onAnswer a >>= passOn
  | none => Task.abort .undefinedFormat

/-- The second write follows a first command that came to a success, whatever the reply said. -/
def afterFirst (second : Option Bytes) : Bool × List Bytes → Task Bool
  | (true, _) => secondWrite second
  | (false, _) => pure false

def twoWrites (first : Bytes) (second : Option Bytes) : Task Bool :=
  .vis (.redisCommand first) fun a => onAnswer a >>= afterFirst second

theorem addSessionTalker_eq_twoWrites (id : Int32) (name : Bytes) (fd : Int32) :
    addSessionTalker id name fd = twoWrites (saddCmd id) (hmsetBuf id name fd) := by
  refine operation_eq (execSadd_eq id) fun ok response => ?_
  cases ok with
  | false => rfl
  | true =>
    show execHMset (idText id) [(ascii "name", name), (ascii "fd", idText fd)] >>= passOn = _
    rw [execHMset, executeCmd_spop, afterFirst, hmsetBuf, sessionText]
    cases vsnprintf sizeofCmdBuf
        (cstr (hmsetText (idText id) [(ascii "name", name), (ascii "fd", idText fd)])) [] with
    | none => exact Task.abort_bind _ _
    | some cmdBuf => rfl

theorem removeSessionTalker_eq_twoWrites (id : Int32) :
    removeSessionTalker id = twoWrites (sremCmd id) (some (delCmd id)) := by
  rw [removeSessionTalker_eq]
  rfl

/-! ## What the queries see -/

theorem sameAnswers_iff {w' : World} : SameAnswers E w w' ↔ ∀ id,
    (Online w'.redis id ↔ Online w.redis id) ∧
      atoi (cstr (found ((w'.redis.hashes (idText id)).lookup (ascii "fd")))) =
        atoi (cstr (found ((w.redis.hashes (idText id)).lookup (ascii "fd")))) ∧
      found ((w'.redis.hashes (idText id)).lookup (ascii "name")) =
        found ((w.redis.hashes (idText id)).lookup (ascii "name")) := by
  refine forall_congr' fun id => ?_
  simp only [normalResult]
  rw [run_isTalkerOnline rfl, run_isTalkerOnline rfl, run_getTalkerFd rfl, run_getTalkerFd rfl,
    run_getTalkerName rfl, run_getTalkerName rfl]
  simp only [Except.ok.injEq, decide_eq_decide, Option.some.injEq]

theorem sameAnswers_of_redis_eq {w' : World} (hredis : w'.redis = w.redis) :
    SameAnswers E w w' := by
  rw [sameAnswers_iff, hredis]
  exact fun id => ⟨Iff.rfl, rfl, rfl⟩

/-- Entering the set is seen unless the user was there. -/
theorem sameAnswers_enter_iff {w' : World} {id : Int32} (hredis : w'.redis = enter w.redis id) :
    SameAnswers E w w' ↔ Online w.redis id := by
  rw [sameAnswers_iff, hredis]
  constructor
  · intro same
    exact (same id).1.mp (online_enter.mpr (.inl rfl))
  · intro honline other
    refine ⟨online_enter.trans ⟨?_, .inr⟩, rfl, rfl⟩
    rintro (rfl | hother)
    · exact honline
    · exact hother

/-- Leaving the set is seen unless the user was not there. -/
theorem sameAnswers_leave_iff {w' : World} {id : Int32} (hredis : w'.redis = leave w.redis id) :
    SameAnswers E w w' ↔ ¬ Online w.redis id := by
  rw [sameAnswers_iff, hredis]
  constructor
  · intro same honline
    exact (online_leave.mp ((same id).1.mpr honline)).2 rfl
  · intro hoffline other
    refine ⟨online_leave.trans ⟨And.left, fun hother => ⟨hother, ?_⟩⟩, rfl, rfl⟩
    rintro rfl
    exact hoffline hother

/-! ## The replies to the writes -/

/-- Every reply to a command counts as a success. -/
def Counts (cmdBuf : Bytes) : Prop :=
  ∀ redis reply after, World.redisReply redis cmdBuf = some (reply, after) →
    ∃ texts, respond reply = some (true, texts)

theorem counts_del (id : Int32) : Counts (delCmd id) := by
  intro redis reply after hreply
  obtain ⟨n, hdel⟩ := reply_del redis id
  cases hdel.symm.trans hreply
  exact ⟨_, rfl⟩

/-- The reply to an `HMSET` of any arguments is a status or an error. -/
theorem respond_exec_hmset (redis : RedisStore) (args : List Bytes) :
    ∃ texts, respond (redis.exec (ascii "HMSET" :: args)).1 = some (true, texts) := by
  have hexec : redis.exec (ascii "HMSET" :: args) = redis.perform .hmset args := rfl
  rw [hexec]
  rcases args with _ | ⟨key, _ | ⟨field, _ | ⟨value, rest⟩⟩⟩
  · exact ⟨_, rfl⟩
  · exact ⟨_, rfl⟩
  · exact ⟨_, rfl⟩
  · rw [RedisStore.perform]
    cases RedisStore.writeFields (redis.hashes key) (field :: value :: rest) <;> exact ⟨_, rfl⟩

/-- A text that begins with `HMSET` is that command. -/
theorem counts_hmset (rest : Bytes) : Counts (ascii "HMSET " ++ rest) := by
  intro redis reply after hreply
  rw [redisReply_eq] at hreply
  obtain ⟨args, hargs, hexec⟩ := Option.map_eq_some_iff.mp hreply
  have hfirst : ∃ tail, args = ascii "HMSET" :: tail := by
    rw [argv, commandText_append (by decide), Option.map_map] at hargs
    obtain ⟨text, -, rfl⟩ := Option.map_eq_some_iff.mp hargs
    exact ⟨words text, words_append_space (w := ascii "HMSET") (by decide) (by decide) text⟩
  obtain ⟨tail, rfl⟩ := hfirst
  obtain ⟨texts, hrespond⟩ := respond_exec_hmset redis tail
  rw [hexec] at hrespond
  exact ⟨texts, hrespond⟩

/-! ## The two writes -/

/-- The second command's text is defined, and Redis executes it without an error. -/
def Accepted (redis : RedisStore) (second : Option Bytes) : Prop :=
  ∃ cmdBuf after, second = some cmdBuf ∧ TookEffect redis none cmdBuf after

/-- The outcomes that leave two writes atomic: `mid` is what the first one makes of Redis, and
`unseen` says that no query sees it. -/
def Allowed (o₁ o₂ : Option RedisFault) (mid : RedisStore) (second : Option Bytes)
    (unseen : Prop) : Prop :=
  Unanswered o₁ ∨ (o₁ = none ∧ o₂ = none ∧ Accepted mid second) ∨
    (second.isSome ∧ Unanswered o₂ ∧ (o₁ = none → unseen))

/-- The second write alone, on the last outcome: it does not come back, it answers false and changes
nothing, or it answers true. -/
theorem run_secondWrite {second : Option Bytes} (counts : ∀ cmdBuf ∈ second, Counts cmdBuf)
    {v : World} {o₂ : Option RedisFault} (hfaults : v.redisFaults = [o₂]) :
    (∃ o v', (secondWrite second).run (World.answer E) v = (.error o, v') ∧
        ¬ (second.isSome ∧ Unanswered o₂) ∧ ¬ (o₂ = none ∧ Accepted v.redis second)) ∨
      (∃ v', (secondWrite second).run (World.answer E) v = (.ok false, v') ∧
        v'.redis = v.redis ∧ second.isSome ∧ Unanswered o₂) ∨
      ∃ v', (secondWrite second).run (World.answer E) v = (.ok true, v') ∧ ¬ Unanswered o₂ ∧
        ((∃ cmdBuf, second = some cmdBuf ∧ TookEffect v.redis o₂ cmdBuf v'.redis) ↔
          o₂ = none ∧ Accepted v.redis second) := by
  obtain ⟨userinfo, redis, outbound, sqlFaults, redisFaults⟩ := v
  cases hfaults
  cases second with
  | none =>
    refine .inl ⟨_, _, rfl, ?_, ?_⟩
    · rintro ⟨⟨⟩, -⟩
    · rintro ⟨-, cmdBuf, after, ⟨⟩, -⟩
  | some cmdBuf =>
    rcases o₂ with _ | _ | _ | str
    · have answered : ¬ Unanswered none := by
        rintro (⟨⟨⟩⟩ | ⟨⟨⟩⟩)
      cases hreply : World.redisReply redis cmdBuf with
      | none =>
        have hanswer : World.answer E (.redisCommand cmdBuf)
            ⟨userinfo, redis, outbound, sqlFaults, [none]⟩ = none := by
          simp only [World.answer, hreply, Option.map_none]
        refine .inl ⟨_, _, Prog.run_vis_none hanswer, fun h => answered h.2, ?_⟩
        rintro ⟨-, cmdBuf', after, hsame, -, reply, hsome, -⟩
        cases hsame
        cases hreply.symm.trans hsome
      | some out =>
        obtain ⟨reply, after⟩ := out
        obtain ⟨texts, hrespond⟩ := counts cmdBuf rfl redis reply after hreply
        have hanswer : World.answer E (.redisCommand cmdBuf)
            ⟨userinfo, redis, outbound, sqlFaults, [none]⟩ =
              some (.reply reply, ⟨userinfo, after, outbound, sqlFaults, []⟩) := by
          simp only [World.answer, hreply, Option.map_some, List.tail_cons]
        refine .inr (.inr ⟨⟨userinfo, after, outbound, sqlFaults, []⟩, ?_, answered, ?_⟩)
        · rw [secondWrite, Prog.run_vis_some hanswer, onAnswer, hrespond]
          rfl
        · constructor
          · rintro ⟨cmdBuf', hsame, heffect⟩
            exact ⟨rfl, cmdBuf', after, hsame, heffect⟩
          · rintro ⟨-, cmdBuf', after', hsame, heffect⟩
            cases hsame
            obtain ⟨-, reply', hreply', hnoerror⟩ := heffect
            cases hreply.symm.trans hreply'
            exact ⟨cmdBuf, rfl, rfl, reply, hreply, hnoerror⟩
    · exact .inr (.inl ⟨_, rfl, rfl, rfl, .inl rfl⟩)
    · exact .inr (.inl ⟨_, rfl, rfl, rfl, .inr rfl⟩)
    · refine .inr (.inr ⟨_, rfl, ?_, iff_of_false ?_ ?_⟩)
      · rintro (⟨⟨⟩⟩ | ⟨⟨⟩⟩)
      · rintro ⟨cmdBuf', -, ⟨⟩, -⟩
      · rintro ⟨⟨⟩, -⟩

section Atomic

variable {first : Bytes} {second : Option Bytes} {mid : RedisStore} {n : Int} {unseen : Prop}
  {o₁ o₂ : Option RedisFault}

/-- The first write took effect when its outcome is normal. -/
theorem first_tookEffect_iff (hfirst : World.redisReply w.redis first = some (.integer n, mid))
    (mid' : RedisStore) : TookEffect w.redis o₁ first mid' ↔ o₁ = none ∧ mid' = mid := by
  constructor
  · rintro ⟨ho, reply, hreply, -⟩
    cases hfirst.symm.trans hreply
    exact ⟨ho, rfl⟩
  · rintro ⟨ho, rfl⟩
    exact ⟨ho, _, hfirst, by rintro str ⟨⟩⟩

/-- The second write is sent on the store `v` that an answered first one left. -/
theorem followed_atomic_iff (hfirst : World.redisReply w.redis first = some (.integer n, mid))
    (hunseen : ∀ w' : World, w'.redis = mid → (SameAnswers E w w' ↔ unseen))
    (counts : ∀ cmdBuf ∈ second, Counts cmdBuf) {v : World} (hfaults : v.redisFaults = [o₂])
    (hrun : (twoWrites first second).run (World.answer E) { w with redisFaults := [o₁, o₂] } =
      (secondWrite second).run (World.answer E) v)
    (answered : ¬ Unanswered o₁) (hmid : o₁ = none → v.redis = mid)
    (hsame : o₁ ≠ none → v.redis = w.redis) :
    Atomic E w o₁ o₂ first second (twoWrites first second) ↔ Allowed o₁ o₂ mid second unseen := by
  rw [Atomic, hrun, Allowed, or_iff_right answered]
  rcases run_secondWrite (E := E) counts hfaults with
    ⟨o, v', hstuck, hdefined, haccepted⟩ | ⟨v', hfalse, hredis, hdefined, hlast⟩ |
      ⟨v', htrue, hlast, heffect⟩
  · refine iff_of_false ?_ ?_
    · rintro ⟨result, w', hresult, -⟩
      rw [hstuck] at hresult
      cases hresult
    · rintro (⟨ho, hnormal, hacc⟩ | ⟨hdef, hun, -⟩)
      · rw [← hmid ho] at hacc
        exact haccepted ⟨hnormal, hacc⟩
      · exact hdefined ⟨hdef, hun⟩
  · constructor
    · rintro ⟨result, w', hresult, -, hanswers⟩
      rw [hfalse] at hresult
      cases hresult
      refine .inr ⟨hdefined, hlast, fun ho => ?_⟩
      exact (hunseen _ (hredis.trans (hmid ho))).mp (hanswers rfl)
    · intro allowed
      refine ⟨false, v', hfalse, by rintro ⟨⟩, fun _ => ?_⟩
      by_cases ho : o₁ = none
      · rcases allowed with ⟨-, hnormal, -⟩ | ⟨-, -, hu⟩
        · rw [hnormal] at hlast
          rcases hlast with ⟨⟨⟩⟩ | ⟨⟨⟩⟩
        · exact (hunseen _ (hredis.trans (hmid ho))).mpr (hu ho)
      · exact sameAnswers_of_redis_eq (hredis.trans (hsame ho))
  · constructor
    · rintro ⟨result, w', hresult, hboth, -⟩
      rw [htrue] at hresult
      cases hresult
      obtain ⟨mid', cmdBuf, hone, htext, htwo⟩ := hboth rfl
      obtain ⟨ho, rfl⟩ := (first_tookEffect_iff hfirst mid').mp hone
      rw [← hmid ho] at htwo ⊢
      exact .inl ⟨ho, heffect.mp ⟨cmdBuf, htext, htwo⟩⟩
    · rintro (⟨ho, hnormal, hacc⟩ | ⟨-, hun, -⟩)
      · rw [← hmid ho] at hacc
        obtain ⟨cmdBuf, htext, htwo⟩ := heffect.mpr ⟨hnormal, hacc⟩
        refine ⟨true, v', htrue, fun _ => ⟨v.redis, cmdBuf, ?_, htext, htwo⟩, by rintro ⟨⟩⟩
        exact (first_tookEffect_iff hfirst _).mpr ⟨ho, hmid ho⟩
      · exact absurd hun hlast

/-- **Two writes are atomic under the allowed outcomes and no others.** -/
theorem twoWrites_atomic_iff (hfirst : World.redisReply w.redis first = some (.integer n, mid))
    (hunseen : ∀ w' : World, w'.redis = mid → (SameAnswers E w w' ↔ unseen))
    (counts : ∀ cmdBuf ∈ second, Counts cmdBuf) (o₁ o₂ : Option RedisFault) :
    Atomic E w o₁ o₂ first second (twoWrites first second) ↔ Allowed o₁ o₂ mid second unseen := by
  rcases o₁ with _ | _ | _ | str
  · refine followed_atomic_iff (v := { w with redis := mid, redisFaults := [o₂] }) hfirst hunseen
      counts rfl ?_ ?_ (fun _ => rfl) fun h => absurd rfl h
    · have hanswer : World.answer E (.redisCommand first) { w with redisFaults := [none, o₂] } =
          some (.reply (.integer n), { w with redis := mid, redisFaults := [o₂] }) := by
        simp only [World.answer, hfirst, Option.map_some, List.tail_cons]
      rw [twoWrites, Prog.run_vis_some hanswer]
      rfl
    · rintro (⟨⟨⟩⟩ | ⟨⟨⟩⟩)
  · refine iff_of_true ⟨false, { w with redisFaults := [o₂] }, rfl, by rintro ⟨⟩, fun _ => ?_⟩
      (.inl (.inl rfl))
    exact sameAnswers_of_redis_eq rfl
  · refine iff_of_true ⟨false, { w with redisFaults := [o₂] }, rfl, by rintro ⟨⟩, fun _ => ?_⟩
      (.inl (.inr rfl))
    exact sameAnswers_of_redis_eq rfl
  · refine followed_atomic_iff (v := { w with redisFaults := [o₂] }) hfirst hunseen counts rfl rfl
      ?_ (by rintro ⟨⟩) fun _ => rfl
    rintro (⟨⟨⟩⟩ | ⟨⟨⟩⟩)

end Atomic

theorem addSessionTalker_atomic_iff (E : Mysql) (w : World) (id : Int32) (name : Bytes)
    (fd : Int32) (o₁ o₂ : Option RedisFault) :
    Atomic E w o₁ o₂ (saddCmd id) (hmsetBuf id name fd) (addSessionTalker id name fd) ↔
      Allowed o₁ o₂ (enter w.redis id) (hmsetBuf id name fd) (Online w.redis id) := by
  obtain ⟨n, hsadd⟩ := reply_sadd w.redis id
  rw [addSessionTalker_eq_twoWrites]
  refine twoWrites_atomic_iff hsadd (fun w' => sameAnswers_enter_iff) ?_ o₁ o₂
  intro cmdBuf hbuf
  obtain ⟨rest, rfl⟩ := hmsetBuf_eq_append hbuf
  exact counts_hmset rest

theorem removeSessionTalker_atomic_iff (E : Mysql) (w : World) (id : Int32)
    (o₁ o₂ : Option RedisFault) :
    Atomic E w o₁ o₂ (sremCmd id) (some (delCmd id)) (removeSessionTalker id) ↔
      Allowed o₁ o₂ (leave w.redis id) (some (delCmd id)) (¬ Online w.redis id) := by
  obtain ⟨n, hsrem⟩ := reply_srem w.redis id
  rw [removeSessionTalker_eq_twoWrites]
  refine twoWrites_atomic_iff hsrem (fun w' => sameAnswers_leave_iff) ?_ o₁ o₂
  intro cmdBuf hbuf
  cases hbuf
  exact counts_del id

/-- Redis executes every `DEL`, also of a key that it does not have. -/
theorem accepted_del (redis : RedisStore) (id : Int32) : Accepted redis (some (delCmd id)) := by
  obtain ⟨n, hdel⟩ := reply_del redis id
  exact ⟨_, _, rfl, rfl, _, hdel, by rintro str ⟨⟩⟩

/-- **A session update is atomic under exactly these outcomes**: its first command gets no answer,
or Redis executes both, or the second alone gets no answer, where the first was refused or changed
nothing: the user was online before entering, or offline before leaving. -/
theorem sessions_atomic_iff (E : Mysql) (w : World) (id : Int32) (name : Bytes) (fd : Int32)
    (o₁ o₂ : Option RedisFault) :
    (Atomic E w o₁ o₂ (saddCmd id) (hmsetBuf id name fd) (addSessionTalker id name fd) ↔
      Allowed o₁ o₂ (enter w.redis id) (hmsetBuf id name fd) (Online w.redis id)) ∧
    (Atomic E w o₁ o₂ (sremCmd id) (some (delCmd id)) (removeSessionTalker id) ↔
      Unanswered o₁ ∨ (o₁ = none ∧ o₂ = none) ∨
        (Unanswered o₂ ∧ (o₁ = none → ¬ Online w.redis id))) := by
  refine ⟨addSessionTalker_atomic_iff E w id name fd o₁ o₂,
    (removeSessionTalker_atomic_iff E w id o₁ o₂).trans ?_⟩
  have hdefined : (some (delCmd id)).isSome = true := rfl
  rw [Allowed, and_iff_left (accepted_del (leave w.redis id) id), and_iff_right hdefined]

/-- A user of whom only the first write was made is online. -/
theorem session_half_made : ¬ ∀ E w id name fd o₁ o₂,
    Atomic E w o₁ o₂ (saddCmd id) (hmsetBuf id name fd) (addSessionTalker id name fd) ∧
      Atomic E w o₁ o₂ (sremCmd id) (some (delCmd id)) (removeSessionTalker id) := by
  intro claim
  obtain ⟨hadd, -⟩ := claim .reference emptyWorld 7 (ascii "ann") 5 none (some .noReply)
  rw [addSessionTalker_atomic_iff] at hadd
  rcases hadd with (⟨⟨⟩⟩ | ⟨⟨⟩⟩) | ⟨-, ⟨⟩, -⟩ | ⟨-, -, honline⟩
  exact Finset.notMem_empty _ (honline rfl)

end ComManger

end Smer
