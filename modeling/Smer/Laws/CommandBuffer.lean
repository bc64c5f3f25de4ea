import Smer.Redis.Contexts

/-!
# One buffer for all commands

`ExecuteCmd_spop` formats its command into a member of the client and sends what that member holds,
steps later. Between the two any other call may format its own: the first call then sends the
second's command, and takes its reply. So a call sends its own command as long as nobody writes
another over it. `Apart` is that condition on a step, and in every run whose steps meet it each call
sends its own command and has the reply to it (`commands_kept`).

Nothing in the program makes a run meet the condition. Formatting is one step, so nothing is
established either about two calls that write the buffer at the same instant.
-/

namespace Smer

open Lib

namespace Stage

/-- Behind the formatting of `ExecuteCmd_spop`, up to the sending. -/
def formatted : Stage → Bool
  | .choose | .chooseCluster | .create _ | .connect _ | .opened _ _ _ | .send _ _ => true
  | .format | .refused | .formatWith _ _ | .release _ _ _ | .returned _ => false

/-- The call's next step writes its command into the buffer that all calls share. -/
def formats : Stage → Bool
  | .format | .formatWith _ _ => true
  | _ => false

/-- What sending the command came to: the reply, or the lack of one, that the call still has to hand
on. -/
def answer : Stage → Option RedisAnswer
  | .release _ _ answer | .returned answer => some answer
  | _ => none

end Stage

namespace RedisCall

/-- A call of `ExecuteCmd_spop` that has formatted its command and has not sent it. -/
def Formatted (c : RedisCall) : Prop := c.entry = .executeCmd_spop ∧ c.stage.formatted = true

/-- What the call sent is its own command, and the reply it has is the reply to it. -/
structure Matched (c : RedisCall) : Prop where
  sent : ∀ text redis, c.sent = some (text, redis) → c.text = some text
  replied : ∀ reply, c.stage.answer = some (.reply reply) → ∃ text redis redis',
    c.sent = some (text, redis) ∧ World.redisReply redis text = some (reply, redis')

theorem written_spop {c : RedisCall} (spop : c.entry = .executeCmd_spop) (env : Surroundings) :
    c.written env = c.text := by
  rw [written, spop]

end RedisCall

/-! ## What one step does to the buffer -/

namespace RedisMembers

variable {w w' : RedisMembers} {c c' : RedisCall} {env : Surroundings}

/-- What a step does to the buffer: nothing, it writes it, or it sends what is there. -/
inductive Wrote (w : RedisMembers) (c : RedisCall) (env : Surroundings) (w' : RedisMembers)
    (c' : RedisCall) : Prop where
  | nothing (stage : Stage) (call : c' = c.at' stage) (cmdBuf : w'.cmdBuf = w.cmdBuf)
      (formatted : c.entry = .executeCmd_spop → stage.formatted = true → c.stage.formatted = true)
      (answer : ∀ reply, stage.answer = some (.reply reply) →
        c.stage.answer = some (.reply reply))
  | wrote (stage : Stage) (call : c' = c.at' stage) (formats : c.stage.formats = true)
      (text : c.written env = some w'.cmdBuf) (answer : stage.answer = none)
  | sent (stage : Stage) (call : c' = { c with stage := stage, sent := some (w.cmdBuf, w.redis) })
      (cmdBuf : w'.cmdBuf = w.cmdBuf) (before : c.stage.formatted = true)
      (after : stage.formatted = false)
      (answer : ∀ reply, stage.answer = some (.reply reply) →
        ∃ redis', World.redisReply w.redis w.cmdBuf = some (reply, redis'))

theorem advance_wrote (h : w.advance c env = some (w', c')) : Wrote w c env w' c' := by
  obtain ⟨entry, format, args, stage, sent⟩ := c
  cases stage with
  | format =>
    obtain ⟨text, htext, hout⟩ := Option.map_eq_some_iff.mp h
    cases hout
    exact .wrote _ rfl rfl htext rfl
  | choose =>
    cases h
    by_cases hnormal : w.conType = ConKind.normal.conType
    · rw [if_pos hnormal]
      exact .nothing _ rfl rfl (fun _ _ => rfl) nofun
    · rw [if_neg hnormal]
      exact .nothing _ rfl rfl (fun _ _ => rfl) nofun
  | chooseCluster =>
    cases h
    by_cases hcluster : w.conType = ConKind.cluster.conType
    · rw [if_pos hcluster]
      exact .nothing _ rfl rfl (fun _ _ => rfl) nofun
    · rw [if_neg hcluster]
      exact .nothing _ rfl rfl (fun _ _ => rfl) nofun
  | create k =>
    simp only [advance] at h
    split at h
    · cases h
      refine .nothing _ rfl rfl (fun _ _ => rfl) ?_
      cases entry <;> nofun
    · cases h
      exact .nothing _ rfl rfl (fun _ _ => rfl) nofun
  | connect k =>
    simp only [advance] at h
    split at h
    · cases h
      exact .nothing _ rfl rfl (fun _ _ => rfl) nofun
    · split at h
      · cases h
        exact .nothing _ rfl rfl (fun _ _ => rfl) nofun
      · cases h
        exact .nothing _ rfl rfl (fun _ _ => rfl) nofun
      · cases h
  | refused =>
    cases h
    exact .nothing _ rfl rfl nofun nofun
  | opened k ctx ok =>
    cases ok with
    | true =>
      cases h
      refine .nothing _ rfl rfl (fun _ _ => rfl) ?_
      cases entry <;> nofun
    | false =>
      cases h
      exact .nothing _ rfl rfl (fun _ _ => rfl) nofun
  | formatWith k ctx =>
    obtain ⟨text, htext, hout⟩ := Option.map_eq_some_iff.mp h
    cases hout
    exact .wrote _ rfl rfl htext rfl
  | send k ctx =>
    simp only [advance] at h
    split at h
    · obtain ⟨⟨reply, redis⟩, hreply, hout⟩ := Option.map_eq_some_iff.mp h
      cases hout
      refine .sent _ rfl rfl rfl rfl ?_
      intro reply' heq
      cases heq
      exact ⟨redis, hreply⟩
    · cases h
      exact .sent _ rfl rfl rfl rfl nofun
  | release k ctx answer =>
    cases answer with
    | reply reply =>
      cases h
      exact .nothing _ rfl rfl nofun fun _ heq => heq
    | noReply =>
      cases h
      exact .nothing _ rfl rfl nofun nofun
    | noContext =>
      cases h
      exact .nothing _ rfl rfl nofun nofun
  | returned answer => cases h

end RedisMembers

/-! ## Runs -/

namespace RedisClient

open RedisMembers

/-- A call formats its command only when every call that has formatted its own and has not sent it
has the same command. -/
def Apart (s : RedisClient) : RedisEvent → Prop
  | .advance i env => ∀ call text, s.calls[i]? = some call → call.stage.formats = true →
      call.written env = some text → ∀ (j : Nat) (other : RedisCall), j ≠ i →
        s.calls[j]? = some other → other.Formatted → other.text = some text
  | .call _ _ _ | .changeConType _ => True

/-- The buffer holds the command of every call that has formatted and not sent, and the calls of
`ExecuteCmd_spop` are kept to their commands. -/
structure Undisturbed (s : RedisClient) : Prop where
  buffer : ∀ (i : Nat) (call : RedisCall), s.calls[i]? = some call → call.Formatted →
    call.text = some s.members.cmdBuf
  matched : ∀ (i : Nat) (call : RedisCall), s.calls[i]? = some call →
    call.entry = .executeCmd_spop → call.Matched

theorem undisturbed_start (cmdBuf : Bytes) (conType : Int32) (beginInvalidTime : Int)
    (redis : RedisStore) : Undisturbed (start cmdBuf conType beginInvalidTime redis) :=
  ⟨nofun, nofun⟩

/-- Setting one call: what holds of it and of the others holds of all. -/
theorem forall_set {calls : List RedisCall} {i : Nat} {call' : RedisCall} {P : RedisCall → Prop}
    (own : P call') (others : ∀ (j : Nat) (other : RedisCall), j ≠ i → calls[j]? = some other →
      P other) :
    ∀ (j : Nat) (other : RedisCall), (calls.set i call')[j]? = some other → P other := by
  intro j other hj
  by_cases hij : i = j
  · subst hij
    obtain ⟨hi, -⟩ := List.getElem?_eq_some_iff.mp hj
    rw [List.length_set] at hi
    rw [List.getElem?_set_self hi] at hj
    cases hj
    exact own
  · rw [List.getElem?_set_ne hij] at hj
    exact others j other (Ne.symm hij) hj

theorem Undisturbed.advance {s : RedisClient} (inv : Undisturbed s) {i : Nat} {env : Surroundings}
    {call call' : RedisCall} {members : RedisMembers} (hcall : s.calls[i]? = some call)
    (apart : Apart s (.advance i env)) (wrote : Wrote s.members call env members call') :
    Undisturbed ⟨members, s.calls.set i call'⟩ := by
  cases wrote with
  | nothing stage hcall' cmdBuf formatted answer =>
    subst hcall'
    refine ⟨forall_set ?_ ?_, forall_set ?_ ?_⟩
    · rintro ⟨spop, behind⟩
      show call.text = some members.cmdBuf
      rw [cmdBuf]
      exact inv.buffer i call hcall ⟨spop, formatted spop behind⟩
    · intro j other _ hj
      rw [cmdBuf]
      exact inv.buffer j other hj
    · intro spop
      have matched := inv.matched i call hcall spop
      exact ⟨matched.sent, fun reply hreply => matched.replied reply (answer reply hreply)⟩
    · intro j other _ hj
      exact inv.matched j other hj
  | wrote stage hcall' formats text answer =>
    subst hcall'
    refine ⟨forall_set ?_ ?_, forall_set ?_ ?_⟩
    · rintro ⟨spop, -⟩
      rw [RedisCall.written_spop (c := call) spop] at text
      exact text
    · intro j other hne hj
      exact apart call members.cmdBuf hcall formats text j other hne hj
    · intro spop
      refine ⟨(inv.matched i call hcall spop).sent, ?_⟩
      intro reply hreply
      have hnone : stage.answer = some (.reply reply) := hreply
      rw [answer] at hnone
      cases hnone
    · intro j other _ hj
      exact inv.matched j other hj
  | sent stage hcall' cmdBuf before after answer =>
    subst hcall'
    refine ⟨forall_set ?_ ?_, forall_set ?_ ?_⟩
    · rintro ⟨-, behind⟩
      have hbehind : stage.formatted = true := behind
      rw [after] at hbehind
      cases hbehind
    · intro j other _ hj
      rw [cmdBuf]
      exact inv.buffer j other hj
    · intro spop
      have hbuffer := inv.buffer i call hcall ⟨spop, before⟩
      constructor
      · intro text redis hsent
        cases hsent
        exact hbuffer
      · intro reply hreply
        obtain ⟨redis', hredis⟩ := answer reply hreply
        exact ⟨_, _, redis', rfl, hredis⟩
    · intro j other _ hj
      exact inv.matched j other hj

/-- **Every step that keeps the calls apart keeps them to their commands.** -/
theorem Undisturbed.step {s s' : RedisClient} {e : RedisEvent} (inv : Undisturbed s)
    (apart : Apart s e) (h : step s e = some s') : Undisturbed s' := by
  cases e with
  | call entry format args =>
    cases h
    have cases_of : ∀ (i : Nat) (call : RedisCall),
        (s.calls ++ [.start entry format args])[i]? = some call →
          s.calls[i]? = some call ∨ call = .start entry format args := by
      intro i call hi
      rw [List.getElem?_append] at hi
      split at hi
      · exact .inl hi
      · exact .inr (List.mem_singleton.mp (List.mem_of_getElem? hi))
    constructor
    · intro i call hi formatted
      rcases cases_of i call hi with hi | rfl
      · exact inv.buffer i call hi formatted
      · obtain ⟨spop, behind⟩ := formatted
        cases spop
        cases behind
    · intro i call hi spop
      rcases cases_of i call hi with hi | rfl
      · exact inv.matched i call hi spop
      · cases spop
        exact ⟨nofun, nofun⟩
  | changeConType conType =>
    cases h
    exact ⟨inv.buffer, inv.matched⟩
  | advance i env =>
    obtain ⟨call, members, call', hcall, hadvance, rfl⟩ := step_advance h
    exact inv.advance hcall apart (advance_wrote hadvance)

/-- **In every run that keeps the calls apart, each call sends its own command and has the reply to
it.** -/
theorem commands_kept {cmdBuf : Bytes} {conType : Int32} {beginInvalidTime : Int}
    {redis : RedisStore} {s : RedisClient}
    (reach : Reaches step Apart (start cmdBuf conType beginInvalidTime redis) s) :
    ∀ call ∈ s.calls, call.entry = .executeCmd_spop → call.Matched := by
  have undisturbed : Undisturbed s :=
    reach.invariant (undisturbed_start cmdBuf conType beginInvalidTime redis)
      fun _ _ _ inv apart h => inv.step apart h
  intro call hcall
  obtain ⟨i, hi⟩ := List.getElem?_of_mem hcall
  exact undisturbed.matched i call hi

instance (c : RedisCall) : Decidable c.Formatted := by
  unfold RedisCall.Formatted
  infer_instance

/-- Whether a step keeps the calls apart, looked up in the calls that there are. -/
theorem apart_advance_iff {s : RedisClient} {i : Nat} {env : Surroundings} :
    Apart s (.advance i env) ↔ ∀ call ∈ s.calls[i]?, call.stage.formats = true →
      ∀ text ∈ call.written env, ∀ j < s.calls.length, j ≠ i → ∀ other ∈ s.calls[j]?,
        other.Formatted → other.text = some text := by
  constructor
  · intro apart call hcall formats text htext j _ hne other hother
    exact apart call text hcall formats htext j other hne hother
  · intro apart call text hcall formats htext j other hne hother
    exact apart call hcall formats text htext j (List.getElem?_eq_some_iff.mp hother).1 hne other
      hother

instance (s : RedisClient) : DecidablePred (Apart s)
  | .advance _ _ => decidable_of_iff _ apart_advance_iff.symm
  | .call _ _ _ | .changeConType _ => inferInstanceAs (Decidable True)

/-- Three calls overlap. The first two have the same command, and format it one after the other
before either sends; the third, with another command, formats when they have sent and still hold
their contexts. -/
def overlapping : List RedisEvent :=
  let env : Surroundings := ⟨10, some true, true, []⟩
  [.call .executeCmd_spop (ascii "SISMEMBER a b") [],
    .call .executeCmd_spop (ascii "SISMEMBER a b") [],
    .call .executeCmd_spop (ascii "SREM a b") []] ++
  [0, 1, 0, 1, 0, 0, 0, 1, 1, 1, 0, 1, 2, 2, 2, 0, 2, 2, 2, 1, 2].map fun i => .advance i env

/-- Each of the three has sent its own command and has the reply to it. -/
theorem commands_kept_three : ∃ s : RedisClient,
    s.calls.map (fun call => (call.stage, call.sent.map Prod.fst)) =
      [(.returned (.reply (.integer 0)), some (ascii "SISMEMBER a b")),
        (.returned (.reply (.integer 0)), some (ascii "SISMEMBER a b")),
        (.returned (.reply (.integer 0)), some (ascii "SREM a b"))] ∧
    ∀ call ∈ s.calls, call.Matched := by
  obtain ⟨s, hs, hsent, hentries⟩ : ∃ s, play (fun s e => if Apart s e then step s e else none)
      overlapping (start [] 0 0 .empty) = some s ∧
      s.calls.map (fun call => (call.stage, call.sent.map Prod.fst)) =
        [(.returned (.reply (.integer 0)), some (ascii "SISMEMBER a b")),
          (.returned (.reply (.integer 0)), some (ascii "SISMEMBER a b")),
          (.returned (.reply (.integer 0)), some (ascii "SREM a b"))] ∧
      s.calls.map RedisCall.entry = List.replicate 3 .executeCmd_spop := ⟨_, rfl, rfl, rfl⟩
  refine ⟨s, hsent, fun call hcall => commands_kept (Reaches.of_play hs) call hcall ?_⟩
  have hentry := List.mem_map_of_mem (f := RedisCall.entry) hcall
  rw [hentries] at hentry
  exact List.eq_of_mem_replicate hentry

/-- Two calls format, and then the first one sends: it sends the command of the second. -/
def overwritten : List RedisEvent :=
  let env : Surroundings := ⟨10, some true, false, []⟩
  [.call .executeCmd_spop (ascii "SISMEMBER a b") [], .call .executeCmd_spop (ascii "SREM a b") [],
    .advance 0 env, .advance 1 env] ++ List.replicate 5 (.advance 0 env)

/-- Where the calls are not kept apart, one sends the command of another. -/
theorem command_swapped :
    ¬ ∀ (cmdBuf : Bytes) (conType : Int32) (beginInvalidTime : Int) (redis : RedisStore)
      (s : RedisClient), Reaches step (fun _ _ => True)
        (start cmdBuf conType beginInvalidTime redis) s →
      ∀ call ∈ s.calls, call.entry = .executeCmd_spop → call.Matched := by
  intro claim
  obtain ⟨s, hs⟩ : ∃ s, play step overwritten (start [] 0 0 .empty) = some s := ⟨_, rfl⟩
  have matched := claim [] 0 0 .empty s (Reaches.play .refl hs)
  cases hs
  have own := (matched _ List.mem_cons_self rfl).sent _ _ rfl
  have differ : some (ascii "SISMEMBER a b") ≠ some (ascii "SREM a b") := by decide
  exact differ own

end RedisClient

end Smer
