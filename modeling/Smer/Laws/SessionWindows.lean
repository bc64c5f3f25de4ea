import Smer.Laws.SessionReads

/-!
# The windows of a session

A login is a `SADD` and then an `HMSET`, a logout is a `SREM` and then a `DEL`, and a friend request
is a `SISMEMBER` and then an `HGET`. A request is pushed on no recorded descriptor when another
task's command falls between the two commands of one of these pairs:

* the test falls between a login's two: the user is a member and has no descriptor yet, Redis
  answers the lookup with nil, the client makes that the empty string, and the request is pushed on
  the descriptor 0 (`pushed_nowhere`);
* a logout's `DEL` falls between the test and the lookup;
* a login's `SADD` falls between a logout's two, and the `DEL` takes the new session's descriptor.

In a run outside these windows (`OutsideWindows`) every member has a descriptor or is about to get
one, and a user who was found a member keeps it until the lookup (`Windows`). So each lookup meets
the condition of the reads (`Windows.meets`), and the messages go out on recorded descriptors
(`reads_recorded`). In any run at all, a task that finds its receiver offline forwards nothing
(`offline_silent`).

The windows are between whole commands: nothing is said of a Redis that answers a command of the
run with a fault, nor of a session whose `HMSET` is cut or refused.
-/

namespace Smer

open Lib ComManger HandleMsg MysqlPool KGRedisClient

/-! ## A receiver who is offline -/

/-- A task has tested its receiver's membership and found none. -/
def FindsOffline (c : ReadPool) (i : Nat) : Prop :=
  ∃ id, (i, ⟨.redisCommand (sismemberCmd id), .reply (.integer 0)⟩) ∈ c.trace

/-- The events that end a task: the receiver is offline, or the message is pushed. -/
def EndsTask (e : Event Effect Effect.Ans) : Prop :=
  (∃ id, e = ⟨.redisCommand (sismemberCmd id), .reply (.integer 0)⟩) ∨ ∃ obj, e = ⟨.push obj, ()⟩

theorem sismemberCmd_second (id : Int32) : (sismemberCmd id)[1]? = some 73 := rfl

/-- A command that is no membership test ends no task. The second byte tells the commands apart. -/
theorem not_endsTask {cmdBuf : Bytes} {a : RedisAnswer} (b : UInt8) (hcmd : cmdBuf[1]? = some b)
    (hb : b ≠ 73) : ¬ EndsTask ⟨.redisCommand cmdBuf, a⟩ := by
  rintro (⟨id, he⟩ | ⟨obj, he⟩)
  · rw [Effect.redisCommand.inj (Event.mk.inj he).1, sismemberCmd_second] at hcmd
    exact hb (Option.some.inj hcmd).symm
  · cases he

/-- The stage behind the membership test: the lookup where the answer is 1, and the end of the task
where it is 0. -/
theorem ReadStage.after_tested (kind : Request.Kind) (obj : TransObj) (p : Prop) [Decidable p] :
    after (afterTest kind obj) (.reply (.integer (if p then 1 else 0))) =
      if p then .lookup kind obj else .finished := by
  have hone : toText 1 = ascii "1" := by decide
  have hzero : toText 0 ≠ ascii "1" := by decide
  by_cases hp : p
  · rw [if_pos hp, if_pos hp]
    show (if toText 1 = ascii "1" then ReadStage.lookup kind obj else .finished) = _
    exact if_pos hone
  · rw [if_neg hp, if_neg hp]
    show (if toText 0 = ascii "1" then ReadStage.lookup kind obj else .finished) = _
    exact if_neg hzero

/-- Events of commands that are equal have equal answers. -/
theorem answer_of_event_eq {cmdBuf cmdBuf' : Bytes} {a a' : RedisAnswer}
    (h : (⟨.redisCommand cmdBuf, a⟩ : Event Effect Effect.Ans) = ⟨.redisCommand cmdBuf', a'⟩) :
    a = a' := by
  cases h
  rfl

theorem finished_of_ends {s : ReadStage} {o : Effect} {next : o.Ans → ReadStage} {a : o.Ans}
    (hview : ReadStage.view s = some ⟨o, next⟩) (ends : EndsTask ⟨o, a⟩) : next a = .finished := by
  cases s with
  | enter id name fd =>
    cases hview
    exact absurd ends (not_endsTask 65 rfl (by decide))
  | write id name fd =>
    cases hbuf : hmsetBuf id name fd with
    | none =>
      cases (ReadStage.view_write_none hbuf).symm.trans hview
      exact a.elim
    | some cmdBuf =>
      cases (ReadStage.view_write hbuf).symm.trans hview
      obtain ⟨rest, rfl⟩ := hmsetBuf_eq_append hbuf
      exact absurd ends (not_endsTask 77 rfl (by decide))
  | leave id =>
    cases hview
    exact absurd ends (not_endsTask 82 rfl (by decide))
  | drop id =>
    cases hview
    exact absurd ends (not_endsTask 69 rfl (by decide))
  | find obj fd past =>
    cases hview
    rcases ends with ⟨id, he⟩ | ⟨obj', he⟩
    · cases he
    · cases he
  | test kind obj =>
    cases hview
    rcases ends with ⟨id, he⟩ | ⟨obj', he⟩
    · rw [answer_of_event_eq he]
      exact ReadStage.after_tested kind obj False
    · cases he
  | lookup kind obj =>
    cases hview
    exact absurd ends (not_endsTask 103 rfl (by decide))
  | readName obj =>
    cases hview
    exact absurd ends (not_endsTask 103 rfl (by decide))
  | answer obj =>
    cases hview
    rfl
  | stop why =>
    cases hview
    exact a.elim
  | finished => cases hview

/-- A task at work has neither found its receiver offline nor forwarded anything, and no task has
done both. -/
structure OfflineInv (c : ReadPool) : Prop where
  working : ∃ ss, ReadStage.staged.At c ss ∧ ∀ i s, ss[i]? = some s → s ≠ .finished →
    ¬ FindsOffline c i ∧ ∀ obj, ¬ Forwards c i obj
  silent : ∀ i, FindsOffline c i → ∀ obj, ¬ Forwards c i obj

theorem offlineInv_start (w : World) (ts : List SessionTask) :
    OfflineInv (Pool.start w (ts.map SessionTask.task)) where
  working := by
    refine ⟨_, SessionTask.start_at w ts, fun i s _ _ => ⟨?_, ?_⟩⟩
    · rintro ⟨id, hmem⟩
      cases hmem
    · rintro obj ⟨-, hmem⟩
      cases hmem
  silent := by
    rintro i ⟨id, hmem⟩
    cases hmem

/-- What the trace says of a task after one more event, it said before or the event says it. -/
theorem mem_trace_cases {c c' : ReadPool} {i j : Nat} {e e' : Event Effect Effect.Ans}
    (htrace : c'.trace = c.trace ++ [(i, e)]) (hmem : (j, e') ∈ c'.trace) :
    (j, e') ∈ c.trace ∨ (j = i ∧ e' = e) := by
  rw [htrace] at hmem
  rcases List.mem_append.mp hmem with hold | hnew
  · exact .inl hold
  · exact .inr (Prod.mk.inj (List.mem_singleton.mp hnew))

theorem offlineInv_step {E : Mysql} {c c' : ReadPool} {i : Nat} (inv : OfflineInv c)
    (hstep : Pool.step (World.answer E) c i = some c') : OfflineInv c' := by
  obtain ⟨ss, hat, working⟩ := inv.working
  obtain ⟨s, o, next, a, w', hs, hview, hanswer, hshared, hat', htrace⟩ := Staged.step hat hstep
  have hworks : s ≠ .finished := by
    rintro rfl
    cases hview
  have hbefore := working i s hs hworks
  have tests : ∀ j, FindsOffline c' j → FindsOffline c j ∨
      (j = i ∧ ∃ id, (⟨o, a⟩ : Event Effect Effect.Ans) =
        ⟨.redisCommand (sismemberCmd id), .reply (.integer 0)⟩) := by
    rintro j ⟨id, hmem⟩
    rcases mem_trace_cases htrace hmem with hold | ⟨hj, he⟩
    · exact .inl ⟨id, hold⟩
    · exact .inr ⟨hj, id, he.symm⟩
  have forwards : ∀ j obj, Forwards c' j obj → Forwards c j obj ∨
      (j = i ∧ (⟨o, a⟩ : Event Effect Effect.Ans) = ⟨.push obj, ()⟩) := by
    rintro j obj ⟨htype, hmem⟩
    rcases mem_trace_cases htrace hmem with hold | ⟨hj, he⟩
    · exact .inl ⟨htype, hold⟩
    · exact .inr ⟨hj, he.symm⟩
  refine ⟨⟨_, hat', fun j t ht hne => ?_⟩, fun j hoffline obj hforwards => ?_⟩
  · -- a task that goes on has had no event that ends it
    rcases Staged.stage_of_set ht with ⟨rfl, rfl⟩ | ⟨hji, ht⟩
    · refine ⟨fun h => ?_, fun obj h => ?_⟩
      · rcases tests j h with hold | ⟨-, hlast⟩
        · exact hbefore.1 hold
        · exact hne (finished_of_ends hview (.inl hlast))
      · rcases forwards j obj h with hold | ⟨-, hlast⟩
        · exact hbefore.2 obj hold
        · exact hne (finished_of_ends hview (.inr ⟨obj, hlast⟩))
    · obtain ⟨notTested, notForwarded⟩ := working j t ht hne
      exact ⟨fun h => (tests j h).elim notTested fun hnew => hji hnew.1,
        fun obj h => (forwards j obj h).elim (notForwarded obj) fun hnew => hji hnew.1⟩
  · rcases tests j hoffline with hold | ⟨rfl, id, htest⟩
    · rcases forwards j obj hforwards with hold' | ⟨rfl, -⟩
      · exact inv.silent j hold obj hold'
      · exact hbefore.1 hold
    · rcases forwards j obj hforwards with hold' | ⟨-, hpush⟩
      · exact hbefore.2 obj hold'
      · cases htest.symm.trans hpush

/-- **A task that finds its receiver offline forwards nothing**, whatever the others do. -/
theorem offline_silent (E : Mysql) {guard : ReadPool → Nat → Prop} {w : World}
    {ts : List SessionTask} {c : ReadPool} (reach : Reaches (Pool.step (World.answer E)) guard
      (Pool.start w (ts.map SessionTask.task)) c) {i : Nat} (hoffline : FindsOffline c i)
    (obj : TransObj) : ¬ Forwards c i obj := by
  have inv : OfflineInv c := reach.invariant (offlineInv_start w ts)
    fun _ _ _ inv _ hstep => offlineInv_step inv hstep
  exact inv.silent i hoffline obj

/-! ## The windows -/

/-- The command that a task sends next. -/
def Next (c : ReadPool) (i : Nat) (cmdBuf : Bytes) : Prop :=
  ∃ k, c.threads[i]? = some (.vis (.redisCommand cmdBuf) k)

/-- Redis accepts the `HMSET` of the session: both formats expand the name, and to an odd number of
words. -/
def SessionTask.Accepted : SessionTask → Prop
  | login _ name _ => ∃ text sent, expand name [] = some text ∧ expand text [] = some sent ∧
      (words sent).length % 2 = 1
  | _ => True

/-- A step outside the windows. Redis answers it, and the session that its task writes is written;
no membership is tested while a login of the user is between its two commands, no user is entered
while a logout is between its two, and none is dropped while a lookup of the user is next. -/
structure OutsideWindows (ts : List SessionTask) (c : ReadPool) (i : Nat) : Prop where
  written : ∀ t, ts[i]? = some t → t.SentWhole ∧ t.Accepted
  answered : ∀ cmdBuf, Next c i cmdBuf → ∀ fault, c.shared.redisFaults.head? ≠ some (some fault)
  test : ∀ id, Next c i (sismemberCmd id) →
    ∀ j name fd cmdBuf, hmsetBuf id name fd = some cmdBuf → ¬ Next c j cmdBuf
  enter : ∀ id, Next c i (saddCmd id) → ∀ j, ¬ Next c j (delCmd id)
  drop : ∀ id, Next c i (delCmd id) → ∀ j, ¬ Next c j (hgetFdCmd id)

/-- A login has entered the user, and its `HMSET` is still to come. -/
def Pending (ss : List ReadStage) (id : Int32) : Prop :=
  ∃ (j : Nat) (name : Bytes) (fd : Int32) (cmdBuf : Bytes), hmsetBuf id name fd = some cmdBuf ∧
    ss[j]? = some (.write id name fd)

/-- Every member has a descriptor or is about to get one, a user who is being dropped is no member,
and a user whose lookup is next has a descriptor. -/
structure Windows (ts : List SessionTask) (redis : RedisStore) (ss : List ReadStage) : Prop where
  logins : ∀ (j : Nat) (id : Int32) (name : Bytes) (fd : Int32),
    ss[j]? = some (.enter id name fd) ∨ ss[j]? = some (.write id name fd) →
      ts[j]? = some (.login id name fd)
  named : ∀ id, Online redis id → fdField redis id ≠ none ∨ Pending ss id
  left : ∀ (j : Nat) (id : Int32), ss[j]? = some (.drop id) → ¬ Online redis id
  tested : ∀ (j : Nat) (kind : Request.Kind) (obj : TransObj), ss[j]? = some (.lookup kind obj) →
    fdField redis obj.recverId ≠ none

/-- A stage that a request may go on to: it comes to its lookup when the user has a descriptor. -/
def ReadStage.GoesOn (redis : RedisStore) : ReadStage → Prop
  | .enter .. => False
  | .write .. => False
  | .leave _ => False
  | .drop _ => False
  | .lookup _ obj => fdField redis obj.recverId ≠ none
  | _ => True

section Windows

variable {E : Mysql} {ts : List SessionTask} {redis redis' : RedisStore} {ss : List ReadStage}
  {i : Nat} {s s' : ReadStage}

/-- Another task's step leaves a login where it is. -/
theorem Pending.set {id : Int32} (pending : Pending ss id) (hs : ss[i]? = some s)
    (hother : ∀ name fd, s ≠ .write id name fd) : Pending (ss.set i s') id := by
  obtain ⟨j, name, fd, cmdBuf, hbuf, hj⟩ := pending
  refine ⟨j, name, fd, cmdBuf, hbuf, ?_⟩
  rw [List.getElem?_set_ne, hj]
  rintro rfl
  rw [hs] at hj
  exact hother name fd (Option.some.inj hj)

/-- A login goes from its first command to its second. -/
theorem Windows.logins_set (inv : Windows ts redis ss)
    (hlogin : ∀ id name fd, s' = .enter id name fd ∨ s' = .write id name fd →
      ts[i]? = some (.login id name fd)) (j : Nat) (id : Int32) (name : Bytes) (fd : Int32)
    (hj : (ss.set i s')[j]? = some (.enter id name fd) ∨
      (ss.set i s')[j]? = some (.write id name fd)) : ts[j]? = some (.login id name fd) := by
  rcases hj with hj | hj
  · rcases Staged.stage_of_set hj with ⟨rfl, hs'⟩ | ⟨-, hj⟩
    · exact hlogin id name fd (.inl hs'.symm)
    · exact inv.logins j id name fd (.inl hj)
  · rcases Staged.stage_of_set hj with ⟨rfl, hs'⟩ | ⟨-, hj⟩
    · exact hlogin id name fd (.inr hs'.symm)
    · exact inv.logins j id name fd (.inr hj)

/-- A request goes on: no login and no logout has moved, so only its own stage has something to
show. -/
theorem Windows.read (inv : Windows ts redis ss) (hs : ss[i]? = some s)
    (hread : ∀ id name fd, s ≠ .write id name fd) (goesOn : s'.GoesOn redis) :
    Windows ts redis (ss.set i s') where
  logins := inv.logins_set fun id name fd h => by
    rcases h with rfl | rfl
    · exact goesOn.elim
    · exact goesOn.elim
  named id online := (inv.named id online).imp_right fun pending => pending.set hs (hread id)
  left j id hj := by
    rcases Staged.stage_of_set hj with ⟨rfl, rfl⟩ | ⟨-, hj⟩
    · exact goesOn.elim
    · exact inv.left j id hj
  tested j kind obj hj := by
    rcases Staged.stage_of_set hj with ⟨rfl, rfl⟩ | ⟨-, hj⟩
    · exact goesOn
    · exact inv.tested j kind obj hj

/-- The user is entered, and the session is about to be written. -/
theorem Windows.enter {id fd : Int32} {name cmdBuf : Bytes} (inv : Windows ts redis ss)
    (hs : ss[i]? = some (.enter id name fd)) (hbuf : hmsetBuf id name fd = some cmdBuf)
    (free : ∀ j : Nat, ss[j]? ≠ some (.drop id)) :
    Windows ts (ComManger.enter redis id) (ss.set i (.write id name fd)) where
  logins := inv.logins_set fun _ _ _ h => by
    rcases h with h | h
    · cases h
    · cases h
      exact inv.logins i id name fd (.inl hs)
  named other online := by
    have hlen := (List.getElem?_eq_some_iff.mp hs).1
    rcases online_enter.mp online with rfl | before
    · exact .inr ⟨i, name, fd, cmdBuf, hbuf, List.getElem?_set_self hlen⟩
    · exact (inv.named other before).imp_right fun pending => pending.set hs nofun
  left j other hj := by
    rcases Staged.stage_of_set hj with ⟨-, hs'⟩ | ⟨-, hold⟩
    · cases hs'
    · intro online
      rcases online_enter.mp online with rfl | before
      · exact free j hold
      · exact inv.left j other hold before
  tested j kind obj hj := by
    rcases Staged.stage_of_set hj with ⟨-, hs'⟩ | ⟨-, hj⟩
    · cases hs'
    · exact inv.tested j kind obj hj

/-- Writing a session's hash gives its user a descriptor and leaves the others theirs. -/
theorem fdField_setHash {id fd other : Int32} {fields : RedisHash}
    (hfields : fields.lookup (ascii "fd") = some (idText fd))
    (h : other = id ∨ fdField redis other ≠ none) :
    fdField (redis.setHash (idText id) fields) other ≠ none := by
  by_cases hother : other = id
  · rw [hother, fdField, RedisStore.setHash_hashes_self, hfields]
    exact Option.some_ne_none _
  · have hkey : idText other ≠ idText id := fun heq => hother (idText_injective heq)
    rw [fdField, RedisStore.setHash_hashes_ne _ hkey]
    exact h.resolve_left hother

/-- The session is written: its user has a descriptor, which is what the login was pending for. -/
theorem Windows.write {id fd : Int32} {name : Bytes} {fields : RedisHash}
    (inv : Windows ts redis ss) (hs : ss[i]? = some (.write id name fd))
    (hfields : fields.lookup (ascii "fd") = some (idText fd)) :
    Windows ts (redis.setHash (idText id) fields) (ss.set i .finished) where
  logins := inv.logins_set fun _ _ _ h => by
    rcases h with h | h
    · cases h
    · cases h
  named other online := by
    by_cases hother : other = id
    · exact .inl (fdField_setHash hfields (.inl hother))
    · rcases inv.named other online with held | pending
      · exact .inl (fdField_setHash hfields (.inr held))
      · exact .inr (pending.set hs fun name fd h => hother (ReadStage.write.inj h).1.symm)
  left j other hj := by
    rcases Staged.stage_of_set hj with ⟨-, hs'⟩ | ⟨-, hj⟩
    · cases hs'
    · exact inv.left j other hj
  tested j kind obj hj := by
    rcases Staged.stage_of_set hj with ⟨-, hs'⟩ | ⟨-, hj⟩
    · cases hs'
    · exact fdField_setHash hfields (.inr (inv.tested j kind obj hj))

/-- The user leaves, and the session is about to be dropped. -/
theorem Windows.leave {id : Int32} (inv : Windows ts redis ss) (hs : ss[i]? = some (.leave id)) :
    Windows ts (ComManger.leave redis id) (ss.set i (.drop id)) where
  logins := inv.logins_set fun _ _ _ h => by
    rcases h with h | h
    · cases h
    · cases h
  named other online := (inv.named other (online_leave.mp online).1).imp_right fun pending =>
    pending.set hs nofun
  left j other hj := by
    rcases Staged.stage_of_set hj with ⟨-, hs'⟩ | ⟨-, hj⟩
    · cases hs'
      exact fun online => (online_leave.mp online).2 rfl
    · exact fun online => inv.left j other hj (online_leave.mp online).1
  tested j kind obj hj := by
    rcases Staged.stage_of_set hj with ⟨-, hs'⟩ | ⟨-, hj⟩
    · cases hs'
    · exact inv.tested j kind obj hj

/-- The session is dropped, and only the dropped user's descriptor goes. -/
theorem Windows.drop {id : Int32} (inv : Windows ts redis ss) (hs : ss[i]? = some (.drop id))
    (unread : ∀ (j : Nat) kind obj, ss[j]? = some (.lookup kind obj) → obj.recverId ≠ id) :
    Windows ts (redis.delKey (idText id)) (ss.set i .finished) where
  logins := inv.logins_set fun _ _ _ h => by
    rcases h with h | h
    · cases h
    · cases h
  named other online := by
    have before := online_delKey.mp online
    have hother : other ≠ id := by
      rintro rfl
      exact inv.left i other hs before
    refine (inv.named other before).imp (fun held => ?_) fun pending => pending.set hs nofun
    rw [fdField, RedisStore.delKey_hashes_ne _ fun heq => hother (idText_injective heq)]
    exact held
  left j other hj := by
    rcases Staged.stage_of_set hj with ⟨-, hs'⟩ | ⟨-, hj⟩
    · cases hs'
    · exact fun online => inv.left j other hj (online_delKey.mp online)
  tested j kind obj hj := by
    rcases Staged.stage_of_set hj with ⟨-, hs'⟩ | ⟨-, hj⟩
    · cases hs'
    · rw [fdField, RedisStore.delKey_hashes_ne _
        fun heq => unread j kind obj hj (idText_injective heq)]
      exact inv.tested j kind obj hj

end Windows

/-! ## Runs outside the windows -/

/-- Behind a command a request goes on if it goes on for every outcome. -/
theorem goesOn_after {redis : RedisStore} {k : Bool × List Bytes → ReadStage}
    (h : ∀ r, (k r).GoesOn redis) (a : RedisAnswer) : (ReadStage.after k a).GoesOn redis := by
  rw [ReadStage.after]
  cases ReadStage.outcome a with
  | none => trivial
  | some result => exact h result

theorem goesOn_afterFind (redis : RedisStore) (obj : TransObj) (fd : Int32)
    (r : Except SqlFault ResultSet) : (ReadStage.afterFind obj fd r).GoesOn redis := by
  rcases r with (_ | _ | _) | (_ | ⟨row, rows⟩)
  · trivial
  · trivial
  · trivial
  · trivial
  · rw [ReadStage.afterFind]
    cases row.getInt .userid with
    | none => trivial
    | some id => trivial

theorem goesOn_afterLookup (redis : RedisStore) (kind : Request.Kind) (obj : TransObj)
    (result : Bool × List Bytes) : (ReadStage.afterLookup kind obj result).GoesOn redis := by
  obtain ⟨_ | _, _ | ⟨first, response⟩⟩ := result
  · cases kind <;> trivial
  · cases kind <;> trivial
  · trivial
  · cases kind <;> trivial

theorem goesOn_afterName (redis : RedisStore) (obj : TransObj) (result : Bool × List Bytes) :
    (ReadStage.afterName obj result).GoesOn redis := by
  obtain ⟨_ | _, _ | ⟨name, response⟩⟩ := result
  · trivial
  · trivial
  · trivial
  · rw [ReadStage.afterName]
    split
    · trivial
    · trivial

/-- A session that is sent whole and accepted is written. -/
theorem session_written {id fd : Int32} {name : Bytes}
    (whole : (SessionTask.login id name fd).SentWhole)
    (accepted : (SessionTask.login id name fd).Accepted) (redis : RedisStore) :
    ∃ cmdBuf fields, hmsetBuf id name fd = some cmdBuf ∧
      World.redisReply redis cmdBuf =
        some (.status (ascii "OK"), redis.setHash (idText id) fields) ∧
      fields.lookup (ascii "fd") = some (idText fd) := by
  obtain ⟨text, sent, htext, hsent, hodd⟩ := accepted
  have hbuf : hmsetBuf id name fd = some (hmsetCmd id text fd) := by
    rw [hmsetBuf, vsnprintf_session id fd whole.1 whole.2, htext, Option.map_some]
  obtain ⟨fields, hfields⟩ := Option.isSome_iff_exists.mp
    ((sessionFields_isSome redis id fd sent).mpr hodd)
  have hreply := reply_hmset redis id fd text
  rw [hsent, Option.map_some, exec_hmset, hfields] at hreply
  exact ⟨_, fields, hbuf, hreply, sessionFields_fd hfields⟩

section Steps

variable {E : Mysql} {ts : List SessionTask} {c c' : ReadPool} {ss : List ReadStage} {i : Nat}

/-- Outside the windows a command gets the reply that Redis has for it. -/
theorem OutsideWindows.reply (outside : OutsideWindows ts c i) {cmdBuf : Bytes}
    {k : RedisAnswer → Task Unit} {a : RedisAnswer} {w' : World} {reply : RedisReply}
    {redis : RedisStore} (hthread : c.threads[i]? = some (.vis (.redisCommand cmdBuf) k))
    (hanswer : World.answer E (.redisCommand cmdBuf) c.shared = some (a, w'))
    (hreply : World.redisReply c.shared.redis cmdBuf = some (reply, redis)) :
    a = .reply reply ∧ w'.redis = redis := by
  rcases answer_redisCommand_cases hanswer with ⟨-, fault, hfault⟩ | ⟨reply', rfl, hreply'⟩
  · exact absurd hfault (outside.answered cmdBuf ⟨k, hthread⟩ fault)
  · rw [hreply] at hreply'
    obtain ⟨rfl, rfl⟩ := Prod.mk.inj (Option.some.inj hreply')
    exact ⟨rfl, rfl⟩

/-- **A step outside the windows keeps them closed.** -/
theorem windows_step (hat : ReadStage.staged.At c ss) (inv : Windows ts c.shared.redis ss)
    (outside : OutsideWindows ts c i) (hstep : Pool.step (World.answer E) c i = some c') :
    ∃ ss', ReadStage.staged.At c' ss' ∧ Windows ts c'.shared.redis ss' := by
  obtain ⟨s, o, next, a, w', hs, hview, hanswer, hshared, hat', -⟩ := Staged.step hat hstep
  have hthread := Staged.thread_of_view hat hs hview
  have next_of : ∀ {j : Nat} {s : ReadStage} {cmdBuf : Bytes} {next : RedisAnswer → ReadStage},
      ss[j]? = some s → ReadStage.view s = some ⟨.redisCommand cmdBuf, next⟩ → Next c j cmdBuf :=
    fun hj hview => ⟨_, Staged.thread_of_view hat hj hview⟩
  refine ⟨_, hat', ?_⟩
  rw [hshared]
  cases s with
  | enter id name fd =>
    cases hview
    obtain ⟨whole, accepted⟩ := outside.written _ (inv.logins i id name fd (.inl hs))
    obtain ⟨cmdBuf, -, hbuf, -⟩ := session_written whole accepted c.shared.redis
    obtain ⟨n, hreply⟩ := reply_sadd c.shared.redis id
    obtain ⟨rfl, hredis⟩ := outside.reply hthread hanswer hreply
    rw [hredis]
    exact inv.enter hs hbuf fun j hj => outside.enter id ⟨_, hthread⟩ j (next_of hj rfl)
  | write id name fd =>
    obtain ⟨whole, accepted⟩ := outside.written _ (inv.logins i id name fd (.inr hs))
    obtain ⟨cmdBuf, fields, hbuf, hreply, hfields⟩ :=
      session_written whole accepted c.shared.redis
    cases (ReadStage.view_write hbuf).symm.trans hview
    obtain ⟨rfl, hredis⟩ := outside.reply hthread hanswer hreply
    rw [hredis]
    exact inv.write hs hfields
  | leave id =>
    cases hview
    obtain ⟨n, hreply⟩ := reply_srem c.shared.redis id
    obtain ⟨rfl, hredis⟩ := outside.reply hthread hanswer hreply
    rw [hredis]
    exact inv.leave hs
  | drop id =>
    cases hview
    obtain ⟨n, hreply⟩ := reply_del c.shared.redis id
    obtain ⟨rfl, hredis⟩ := outside.reply hthread hanswer hreply
    rw [hredis]
    refine inv.drop hs fun j kind obj hj => ?_
    rintro rfl
    exact outside.drop _ ⟨_, hthread⟩ j (next_of hj rfl)
  | find obj fd past =>
    cases hview
    obtain ⟨faults, hworld⟩ := answer_query_world hanswer
    rw [hworld]
    exact inv.read hs nofun (goesOn_afterFind _ obj fd a)
  | test kind obj =>
    cases hview
    obtain ⟨rfl, hredis⟩ :=
      outside.reply hthread hanswer (reply_sismember c.shared.redis obj.recverId)
    rw [hredis, ReadStage.after_tested]
    refine inv.read hs nofun ?_
    by_cases online : Online c.shared.redis obj.recverId
    · rw [if_pos online]
      -- a member without a descriptor would have a login between its two commands
      refine (inv.named obj.recverId online).resolve_right ?_
      rintro ⟨j, name, fd, cmdBuf, hbuf, hj⟩
      exact outside.test obj.recverId ⟨_, hthread⟩ j name fd cmdBuf hbuf
        (next_of hj (ReadStage.view_write hbuf))
    · rw [if_neg online]
      trivial
  | lookup kind obj =>
    cases hview
    rw [redis_of_read (reply_hgetFd c.shared.redis obj.recverId) hanswer]
    exact inv.read hs nofun (goesOn_after (goesOn_afterLookup _ kind obj) a)
  | readName obj =>
    cases hview
    rw [redis_of_read (reply_hgetName c.shared.redis obj.id) hanswer]
    exact inv.read hs nofun (goesOn_after (goesOn_afterName _ obj) a)
  | answer obj =>
    cases hview
    rw [← (Prod.mk.inj (Option.some.inj hanswer)).2]
    exact inv.read hs nofun trivial
  | stop why =>
    cases hview
    exact a.elim
  | finished => cases hview

/-- A task that looks a descriptor up is a request at its lookup. -/
theorem lookup_of_next (hat : ReadStage.staged.At c ss) {id : Int32}
    (hnext : Next c i (hgetFdCmd id)) :
    ∃ kind obj, ss[i]? = some (.lookup kind obj) ∧ obj.recverId = id := by
  obtain ⟨k, hthread⟩ := hnext
  obtain ⟨s, next, hs, hview⟩ := Staged.view_of_thread hat hthread
  have hop : ∀ {cmdBuf : Bytes} {next' : RedisAnswer → ReadStage},
      ReadStage.view s = some ⟨.redisCommand cmdBuf, next'⟩ → hgetFdCmd id = cmdBuf :=
    fun hview' => Effect.redisCommand.inj (Staged.op_of_view hat hs hview' hthread)
  cases s with
  | enter id' name fd => cases congrArg List.head? (hop rfl)
  | write id' name fd =>
    cases hbuf : hmsetBuf id' name fd with
    | none => cases (ReadStage.view_write_none hbuf).symm.trans hview
    | some cmdBuf =>
      obtain ⟨rest, rfl⟩ := hmsetBuf_eq_append hbuf
      cases congrArg List.head? (hop (ReadStage.view_write hbuf))
  | leave id' => cases congrArg List.head? (hop rfl)
  | drop id' => cases congrArg List.head? (hop rfl)
  | find obj fd past => cases Staged.op_of_view hat hs rfl hthread
  | test kind obj => cases congrArg List.head? (hop rfl)
  | lookup kind obj =>
    exact ⟨kind, obj, hs, (hgetCmd_inj (by decide) (by decide) (hop rfl)).1.symm⟩
  | readName obj => exact absurd (hgetCmd_inj (by decide) (by decide) (hop rfl)).2 (by decide)
  | answer obj => cases Staged.op_of_view hat hs rfl hthread
  | stop why => cases Staged.op_of_view hat hs rfl hthread
  | finished => cases hview

/-- **Outside the windows every lookup is made while the descriptor is recorded.** -/
theorem Windows.meets (hat : ReadStage.staged.At c ss) (inv : Windows ts c.shared.redis ss)
    (outside : OutsideWindows ts c i) : ReadMeets ts c i where
  whole t ht := (outside.written t ht).1
  lookup id k hthread := by
    obtain ⟨kind, obj, hs, rfl⟩ := lookup_of_next hat ⟨k, hthread⟩
    exact ⟨inv.tested i kind obj hs, outside.answered _ ⟨k, hthread⟩⟩

end Steps

theorem windows_start {w : World} (members : ∀ id, Online w.redis id → fdField w.redis id ≠ none)
    (ts : List SessionTask) : Windows ts w.redis (ts.map SessionTask.first) where
  logins j id name fd h := by
    rw [List.getElem?_map] at h
    rcases h with h | h
    · obtain ⟨t, ht, hfirst⟩ := Option.map_eq_some_iff.mp h
      cases t <;> cases hfirst
      exact ht
    · obtain ⟨t, -, hfirst⟩ := Option.map_eq_some_iff.mp h
      cases t <;> cases hfirst
  named id online := .inl (members id online)
  left j id h := by
    rw [List.getElem?_map] at h
    obtain ⟨t, -, hfirst⟩ := Option.map_eq_some_iff.mp h
    cases t <;> cases hfirst
  tested j kind obj h := by
    rw [List.getElem?_map] at h
    obtain ⟨t, -, hfirst⟩ := Option.map_eq_some_iff.mp h
    cases t <;> cases hfirst

/-! ## The law -/

/-- Session reads: every forwarded message carries a recorded descriptor of its receiver; a task
that has looked a descriptor up and found none forwards nothing, and neither does one that has found
its receiver offline. -/
structure ReadsRecorded (w : World) (ts : List SessionTask) (c : ReadPool) : Prop where
  recorded : ∀ i obj, Forwards c i obj → RecordedFd w ts c obj.recverId obj.fd
  silent : ∀ i, FindsNone c i → ∀ obj, ¬ Forwards c i obj
  offline : ∀ i, FindsOffline c i → ∀ obj, ¬ Forwards c i obj

/-- **In every run in which each lookup is made while the descriptor is recorded, messages are
forwarded on recorded descriptors only**, and so they are in every run outside the windows of a
session whose members at the start have descriptors. The descriptors of the start are those of
earlier calls. -/
theorem reads_recorded (E : Mysql) {w : World}
    (held : ∀ id value, fdField w.redis id = some value → ∃ fd, value = idText fd)
    (ts : List SessionTask) (c : ReadPool) :
    (Reaches (Pool.step (World.answer E)) (ReadMeets ts)
      (Pool.start w (ts.map SessionTask.task)) c → ReadsRecorded w ts c) ∧
    ((∀ id, Online w.redis id → fdField w.redis id ≠ none) →
      Reaches (Pool.step (World.answer E)) (OutsideWindows ts)
        (Pool.start w (ts.map SessionTask.task)) c → ReadsRecorded w ts c) := by
  refine ⟨fun reach => ?_, fun members reach => ?_⟩
  · have inv : ReadInv w ts c := reach.invariant (readInv_start held ts)
      fun _ _ _ inv meets hstep => readInv_step inv meets hstep
    exact ⟨inv.recorded, fun i hfinds => absurd hfinds (inv.finds i),
      fun i hoffline obj => offline_silent E reach hoffline obj⟩
  · -- the windows stay closed, and outside them a lookup meets the condition
    have inv : ReadInv w ts c ∧ ∃ ss, ReadStage.staged.At c ss ∧ Windows ts c.shared.redis ss := by
      refine reach.invariant
        (I := fun c => ReadInv w ts c ∧ ∃ ss, ReadStage.staged.At c ss ∧
          Windows ts c.shared.redis ss) ?_ ?_
      · exact ⟨readInv_start held ts, _, SessionTask.start_at w ts, windows_start members ts⟩
      · rintro c i c' ⟨inv, ss, hat, closed⟩ outside hstep
        exact ⟨readInv_step inv (closed.meets hat outside) hstep,
          windows_step hat closed outside hstep⟩
    exact ⟨inv.1.recorded, fun i hfinds => absurd hfinds (inv.1.finds i),
      fun i hoffline obj => offline_silent E reach hoffline obj⟩

/-! ## A login and an acceptance -/

theorem Next.unique {c : ReadPool} {i : Nat} {cmdBuf cmdBuf' : Bytes} (h : Next c i cmdBuf)
    (h' : Next c i cmdBuf') : cmdBuf = cmdBuf' := by
  obtain ⟨k, hthread⟩ := h
  obtain ⟨k', hthread'⟩ := h'
  rw [hthread] at hthread'
  cases hthread'
  rfl

/-- A step is outside the windows when no other task has a command to send. -/
theorem outside_alone {ts : List SessionTask} {c : ReadPool} {i : Nat}
    (written : ∀ t, ts[i]? = some t → t.SentWhole ∧ t.Accepted) (normal : c.shared.redisFaults = [])
    (alone : ∀ j cmdBuf, Next c j cmdBuf → j = i) : OutsideWindows ts c i where
  written := written
  answered cmdBuf _ fault := by
    rw [normal]
    nofun
  test id hnext j name fd cmdBuf hbuf hwrite := by
    obtain rfl := alone j cmdBuf hwrite
    obtain ⟨rest, rfl⟩ := hmsetBuf_eq_append hbuf
    cases congrArg (fun b : Bytes => b[1]?) (hnext.unique hwrite)
  enter id hnext j hdrop := by
    obtain rfl := alone j _ hdrop
    cases congrArg (fun b : Bytes => b[1]?) (hnext.unique hdrop)
  drop id hnext j hlookup := by
    obtain rfl := alone j _ hlookup
    cases congrArg (fun b : Bytes => b[1]?) (hnext.unique hlookup)

section Runs

variable {guard : ReadPool → Nat → Prop} {c₀ : ReadPool} {w : World}
  {trace : List (Nat × Event Effect Effect.Ans)} {i : Nat}

/-- A task sends its command, and Redis answers it. -/
theorem reaches_command {ss : List ReadStage} {s : ReadStage} {cmdBuf : Bytes}
    {k : Bool × List Bytes → ReadStage} {reply : RedisReply} {redis : RedisStore}
    (reach : Reaches (Pool.step (World.answer .reference)) guard c₀
      ⟨w, ss.map ReadStage.prog, trace⟩)
    (admits : guard ⟨w, ss.map ReadStage.prog, trace⟩ i) (hs : ss[i]? = some s)
    (hview : ReadStage.view s = some ⟨.redisCommand cmdBuf, ReadStage.after k⟩)
    (normal : w.redisFaults = [])
    (hreply : World.redisReply w.redis cmdBuf = some (reply, redis)) :
    Reaches (Pool.step (World.answer .reference)) guard c₀
      ⟨{ w with redis := redis }, (ss.set i (ReadStage.after k (.reply reply))).map ReadStage.prog,
        trace ++ [(i, ⟨.redisCommand cmdBuf, .reply reply⟩)]⟩ :=
  reach.step admits (Staged.step_of_view (M := ReadStage.staged)
    (c := ⟨w, ss.map ReadStage.prog, trace⟩) rfl hs hview (answer_redisCommand normal hreply))

/-- An acceptance for a receiver who is in the session set is forwarded on the descriptor that the
lookup finds. -/
theorem reaches_forwarded {obj : TransObj} (ss : List ReadStage) (hlen : i < ss.length)
    (reach : Reaches (Pool.step (World.answer .reference)) guard c₀
      ⟨w, (ss.set i (.test .accept obj)).map ReadStage.prog, trace⟩)
    (admits : ∀ s trace, guard ⟨w, (ss.set i s).map ReadStage.prog, trace⟩ i)
    (normal : w.redisFaults = []) (online : Online w.redis obj.recverId)
    (short : (found ((w.redis.hashes (idText obj.id)).lookup (ascii "name"))).length < nameMaxLen) :
    ∃ c pushed, Reaches (Pool.step (World.answer .reference)) guard c₀ c ∧
      (i, ⟨.push pushed, ()⟩) ∈ c.trace ∧ pushed.msgType = obj.msgType ∧
      pushed.recverId = obj.recverId ∧
      pushed.fd = atoi (cstr (found (fdField w.redis obj.recverId))) := by
  have at' : ∀ s, (ss.set i s)[i]? = some s := fun s => List.getElem?_set_self hlen
  -- the membership test
  have reach := reaches_command reach (admits _ _) (at' _) rfl normal
    (reply_sismember w.redis obj.recverId)
  rw [ReadStage.after_tested, if_pos online, List.set_set] at reach
  -- the descriptor
  have hname : ∀ value, ReadStage.after (ReadStage.afterLookup .accept obj)
      (.reply (hgetReply value)) = .readName (obj.setFd (atoi (cstr (found value)))) := by
    intro value
    rw [ReadStage.after, ReadStage.outcome, respond_hgetReply]
    rfl
  have reach := reaches_command reach (admits _ _) (at' _) rfl normal
    (reply_hgetFd w.redis obj.recverId)
  rw [hname, List.set_set] at reach
  -- the asker's name
  have hanswer : ∀ obj' value, (found value).length < nameMaxLen →
      ReadStage.after (ReadStage.afterName obj') (.reply (hgetReply value)) =
        .answer (obj'.setMsg (cstr (found value))).1 := by
    intro obj' value hshort
    rw [ReadStage.after, ReadStage.outcome, respond_hgetReply]
    exact if_neg (Nat.not_le.mpr hshort)
  have reach := reaches_command reach (admits _ _) (at' _) rfl normal
    (reply_hgetName w.redis obj.id)
  rw [hanswer _ _ short, List.set_set] at reach
  have reach := reach.step (admits _ _)
    (Staged.step_of_view (M := ReadStage.staged) rfl (at' _) rfl rfl)
  refine ⟨_, _, reach, List.mem_append_right _ List.mem_cons_self, ?_, ?_, ?_⟩
  · rw [TransObj.setMsg_msgType, TransObj.setFd_msgType]
  · rw [TransObj.setMsg_recverId]
    rfl
  · rw [TransObj.setMsg_fd, TransObj.setFd_fd]
    rfl

end Runs

/-- `ann` logs in on connection 5 while an acceptance for her is handled. -/
def annAccepted : TransObj :=
  { TransObj.zero with msgType := msgAskForFriendAccept, id := 8, recverId := 7 }

def annTasks : List SessionTask := [.login 7 (ascii "ann") 5, .accept annAccepted]

/-- `ann` has entered the session set; her `HMSET` is still to come. -/
theorem ann_entered (guard : ReadPool → Nat → Prop)
    (admits : guard (Pool.start emptyWorld (annTasks.map SessionTask.task)) 0) :
    ∃ trace, Reaches (Pool.step (World.answer .reference)) guard
      (Pool.start emptyWorld (annTasks.map SessionTask.task))
      ⟨{ emptyWorld with redis := enter .empty 7 },
        [.write 7 (ascii "ann") 5, .test .accept annAccepted].map ReadStage.prog, trace⟩ := by
  obtain ⟨n, hsadd⟩ := reply_sadd .empty 7
  have start : Reaches (Pool.step (World.answer .reference)) guard
      (Pool.start emptyWorld (annTasks.map SessionTask.task))
      ⟨emptyWorld, [.enter 7 (ascii "ann") 5, .test .accept annAccepted].map ReadStage.prog, []⟩ :=
    .refl
  exact ⟨_, reaches_command (i := 0) start admits rfl rfl rfl hsadd⟩

theorem fdField_emptyWorld (id : Int32) : fdField emptyWorld.redis id = none :=
  AList.lookup_empty _

theorem annTasks_written (i : Nat) (t : SessionTask) (ht : annTasks[i]? = some t) :
    t.SentWhole ∧ t.Accepted := by
  match i with
  | 0 =>
    cases ht
    have hexpand : expand (ascii "ann") [] = some (ascii "ann") := expand_eq_self (by decide)
    exact ⟨⟨by decide, hmsetCmd_length_le 7 5 (by decide)⟩, _, _, hexpand, hexpand, by decide⟩
  | 1 =>
    cases ht
    exact ⟨trivial, trivial⟩
  | _ + 2 => cases ht

/-- While `ann` logs in, the acceptance stands before its membership test. -/
theorem outside_login {w : World} {s : ReadStage} {cmdBuf : Bytes}
    {next : RedisAnswer → ReadStage} {trace : List (Nat × Event Effect Effect.Ans)}
    (normal : w.redisFaults = []) (hview : ReadStage.view s = some ⟨.redisCommand cmdBuf, next⟩)
    (notTest : cmdBuf[1]? ≠ some 73) (notDrop : cmdBuf[1]? ≠ some 69) : OutsideWindows annTasks
      ⟨w, [s, .test .accept annAccepted].map ReadStage.prog, trace⟩ 0 := by
  have hat : ReadStage.staged.At ⟨w, [s, .test .accept annAccepted].map ReadStage.prog, trace⟩
      [s, .test .accept annAccepted] := rfl
  have login : Next ⟨w, [s, .test .accept annAccepted].map ReadStage.prog, trace⟩ 0 cmdBuf :=
    ⟨_, Staged.thread_of_view hat (i := 0) rfl hview⟩
  have acceptance : Next ⟨w, [s, .test .accept annAccepted].map ReadStage.prog, trace⟩ 1
      (sismemberCmd 7) := ⟨_, Staged.thread_of_view hat (i := 1) rfl rfl⟩
  refine ⟨annTasks_written 0, fun _ _ fault => ?_, fun id h => ?_, fun id _ j h => ?_,
    fun id h => ?_⟩
  · rw [normal]
    nofun
  · rw [login.unique h] at notTest
    exact absurd rfl notTest
  · match j with
    | 0 =>
      rw [login.unique h] at notDrop
      exact notDrop rfl
    | 1 => cases congrArg (fun b : Bytes => b[1]?) (acceptance.unique h)
    | _ + 2 =>
      obtain ⟨k, hthread⟩ := h
      cases hthread
  · rw [login.unique h] at notDrop
    exact absurd rfl notDrop

/-- When `ann` is logged in, the acceptance is alone. -/
theorem outside_acceptance {w : World} {s : ReadStage}
    {trace : List (Nat × Event Effect Effect.Ans)} (normal : w.redisFaults = []) :
    OutsideWindows annTasks ⟨w, [.finished, s].map ReadStage.prog, trace⟩ 1 := by
  refine outside_alone (annTasks_written 1) normal ?_
  rintro j cmdBuf ⟨k, hthread⟩
  match j with
  | 0 => cases hthread
  | 1 => rfl
  | _ + 2 => cases hthread

/-- The login of `ann` is through, outside the windows, and the acceptance stands before its test.
-/
theorem ann_recorded : ∃ fields trace, fields.lookup (ascii "fd") = some (idText 5) ∧
    Reaches (Pool.step (World.answer .reference)) (OutsideWindows annTasks)
      (Pool.start emptyWorld (annTasks.map SessionTask.task))
      ⟨{ emptyWorld with redis := (enter .empty 7).setHash (idText 7) fields },
        [.finished, .test .accept annAccepted].map ReadStage.prog, trace⟩ := by
  obtain ⟨trace, reach⟩ := ann_entered (OutsideWindows annTasks)
    (outside_login (s := .enter 7 (ascii "ann") 5) rfl rfl nofun nofun)
  obtain ⟨whole, accepted⟩ := annTasks_written 0 _ rfl
  obtain ⟨cmdBuf, fields, hbuf, hreply, hfields⟩ := session_written whole accepted (enter .empty 7)
  have hview := ReadStage.view_write hbuf
  obtain ⟨rest, rfl⟩ := hmsetBuf_eq_append hbuf
  exact ⟨fields, _, hfields,
    reaches_command (i := 0) reach (outside_login rfl hview nofun nofun) rfl hview rfl hreply⟩

/-- The login is through, and the acceptance goes out on connection 5. -/
theorem reads_recorded_ann : ∃ (c : ReadPool) (obj : TransObj), Forwards c 1 obj ∧
    obj.recverId = 7 ∧ obj.fd = 5 ∧ ReadsRecorded emptyWorld annTasks c := by
  obtain ⟨fields, trace, hfields, reach⟩ := ann_recorded
  have hfield : fdField ((enter .empty 7).setHash (idText 7) fields) 7 = some (idText 5) := by
    rw [fdField, RedisStore.setHash_hashes_self, hfields]
  have hkey : idText 8 ≠ idText 7 := fun h => absurd (idText_injective h) (by decide)
  have short : (found ((((enter .empty 7).setHash (idText 7) fields).hashes (idText 8)).lookup
      (ascii "name"))).length < nameMaxLen := by
    rw [RedisStore.setHash_hashes_ne _ hkey]
    decide
  obtain ⟨c, pushed, reach, hpush, htype, hrecver, hfd⟩ :=
    reaches_forwarded [.finished, .finished] (i := 1) (by decide) reach
      (fun s trace => outside_acceptance rfl) rfl (online_enter.mpr (.inl rfl)) short
  refine ⟨c, pushed, ⟨by rw [htype]; decide, hpush⟩, hrecver, ?_,
    (reads_recorded .reference ?_ _ _).2 ?_ reach⟩
  · rw [hfd]
    show atoi (cstr (found (fdField ((enter .empty 7).setHash (idText 7) fields) 7))) = 5
    rw [hfield, found, Option.getD_some, cstr_idText, idText, atoi_toText]
  · intro id value h
    rw [fdField_emptyWorld] at h
    cases h
  · intro id online
    exact absurd online (List.not_mem_nil)

/-- The acceptance is handled before the descriptor is written, and goes out on the descriptor 0,
which nobody has recorded. -/
theorem pushed_nowhere :
    ¬ ∀ (E : Mysql) (w : World) (ts : List SessionTask) (c : ReadPool),
      (∀ id value, fdField w.redis id = some value → ∃ fd, value = idText fd) →
      Reaches (Pool.step (World.answer E)) (fun _ _ => True)
        (Pool.start w (ts.map SessionTask.task)) c → ReadsRecorded w ts c := by
  intro claim
  obtain ⟨trace, reach⟩ := ann_entered (fun _ _ => True) trivial
  obtain ⟨c, pushed, reach, hpush, htype, hrecver, hfd⟩ :=
    reaches_forwarded [.write 7 (ascii "ann") 5, .finished] (i := 1) (by decide) reach
      (fun _ _ => trivial) rfl (online_enter.mpr (.inl rfl)) (by decide)
  have holds := claim .reference emptyWorld annTasks c
    (fun id value h => by rw [fdField_emptyWorld] at h; cases h) reach
  have hrecorded := holds.recorded 1 pushed ⟨by rw [htype]; decide, hpush⟩
  have hzero : pushed.fd = 0 := hfd
  rw [hrecver, hzero] at hrecorded
  rcases hrecorded with before | ⟨i, name, text, hi, -⟩
  · rw [fdField_emptyWorld] at before
    cases before
  · match i with
    | 0 => cases hi
    | 1 => cases hi
    | _ + 2 => cases hi

end Smer
