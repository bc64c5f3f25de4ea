import Smer.Laws.ContextCount

/-!
# How often the Redis client connects in vain

A connect that fails sets `m_beginInvalidTime`, and for `m_maxReconnectInterval` seconds no call
connects. The test and the failure are two steps, and between them other calls can pass the test
too. A call that is about to fail has looked at the time before the first of these failures, or
three seconds later. So, while the clock is not set back, no more than `n` connects fail in any
three seconds, where `n` calls at most are under way at once (`throttled_of_reaches`).

Nothing is established about a clock that is set back, nor about connects that succeed.
-/

namespace Smer

open Lib

/-! ## The steps that look at the time -/

namespace RedisCall

/-- The call has passed the test, and its connect has failed. -/
def failing (c : RedisCall) : Bool :=
  match c.stage with
  | .refused => true
  | .opened _ _ ok => !ok
  | .format | .choose | .chooseCluster | .create _ | .connect _ | .formatWith _ _ | .send _ _
  | .release _ _ _ | .returned _ => false

theorem running_of_failing {c : RedisCall} (h : c.failing = true) : c.running = true := by
  obtain ⟨entry, format, args, stage, sent⟩ := c
  cases stage with
  | refused | opened => rfl
  | format | choose | chooseCluster | create | connect | formatWith | send | release
  | returned => cases h

@[simp] theorem failing_start (entry : Entry) (format : Bytes) (args : List FmtArg) :
    (start entry format args).failing = false := by
  cases entry <;> rfl

@[simp] theorem failing_fetched (k : ConKind) (c : RedisCall) (ctx : Context) :
    (c.fetched k ctx).failing = false := by
  obtain ⟨entry, format, args, stage, sent⟩ := c
  cases entry <;> rfl

end RedisCall

namespace RedisMembers

variable {w w' : RedisMembers} {c c' : RedisCall} {env : Surroundings}

/-- What a step does to `m_beginInvalidTime`: a connect fails, which writes the time and ends the
call, or the time is kept, and the call passes the test only when the last failure is long enough
ago. -/
inductive TimeMove (w : RedisMembers) (c : RedisCall) (env : Surroundings) (w' : RedisMembers)
    (c' : RedisCall) : Prop where
  /-- a failed connect is noted, and the call ends -/
  | fails (fails : c.failing = true) (time : w'.beginInvalidTime = env.now)
      (ended : c'.running = false)
  /-- any other step, behind which a call that passes the test may be about to fail -/
  | goesOn (before : c.failing = false) (time : w'.beginInvalidTime = w.beginInvalidTime)
      (late : c'.failing = true → w.beginInvalidTime + maxReconnectInterval ≤ env.now)

/-- A step behind which the call is not about to fail. -/
theorem TimeMove.quiet (before : c.failing = false)
    (time : w'.beginInvalidTime = w.beginInvalidTime) (after : c'.failing = false) :
    TimeMove w c env w' c' :=
  .goesOn before time fun hfailing => by
    rw [after] at hfailing
    cases hfailing

theorem timeMove_of_advance (h : w.advance c env = some (w', c')) : TimeMove w c env w' c' := by
  obtain ⟨entry, format, args, stage, sent⟩ := c
  cases stage with
  | format =>
    obtain ⟨text, -, hout⟩ := Option.map_eq_some_iff.mp h
    cases hout
    exact .quiet rfl rfl rfl
  | choose =>
    cases h
    refine .quiet rfl rfl ?_
    by_cases hnormal : w.conType = ConKind.normal.conType
    · rw [if_pos hnormal]
      rfl
    · rw [if_neg hnormal]
      rfl
  | chooseCluster =>
    cases h
    refine .quiet rfl rfl ?_
    by_cases hcluster : w.conType = ConKind.cluster.conType
    · rw [if_pos hcluster]
      rfl
    · rw [if_neg hcluster]
      rfl
  | create k =>
    simp only [advance] at h
    split at h
    · cases h
      exact .quiet rfl rfl (RedisCall.failing_fetched _ _ _)
    · cases h
      exact .quiet rfl rfl rfl
  | connect k =>
    simp only [advance] at h
    split at h
    · cases h
      exact .quiet rfl rfl rfl
    · rename_i hsoon
      have hlate := Int.not_lt.mp hsoon
      split at h
      · cases h
        exact .goesOn rfl rfl fun _ => hlate
      · cases h
        exact .goesOn rfl rfl fun _ => hlate
      · cases h
  | refused =>
    cases h
    exact .fails rfl rfl rfl
  | opened k ctx ok =>
    cases ok with
    | true =>
      cases h
      exact .quiet rfl rfl (RedisCall.failing_fetched _ _ _)
    | false =>
      cases h
      exact .fails rfl rfl rfl
  | formatWith k ctx =>
    obtain ⟨text, -, hout⟩ := Option.map_eq_some_iff.mp h
    cases hout
    exact .quiet rfl rfl rfl
  | send k ctx =>
    simp only [advance] at h
    split at h
    · obtain ⟨out, -, hout⟩ := Option.map_eq_some_iff.mp h
      cases hout
      exact .quiet rfl rfl rfl
    · cases h
      exact .quiet rfl rfl rfl
  | release k ctx answer =>
    cases answer with
    | reply reply =>
      cases h
      exact .quiet rfl rfl rfl
    | noReply | noContext =>
      cases h
      exact .quiet rfl rfl rfl
  | returned answer => cases h

end RedisMembers

/-! ## The failures of a run -/

/-- The client with the time of its last step and those of its failed connects, the latest first. -/
structure RedisClock where
  client : RedisClient
  clock : Int
  failures : List Int

namespace RedisClock

open RedisClient RedisMembers

def start (client : RedisClient) (clock : Int) : RedisClock := ⟨client, clock, []⟩

/-- The times of the failed connects, the newest first, behind a step of call `i`. -/
def failuresAt (s : RedisClock) (i : Nat) (env : Surroundings) : List Int :=
  match s.client.calls[i]? with
  | some call => if call.failing then env.now :: s.failures else s.failures
  | none => s.failures

def step (s : RedisClock) (e : RedisEvent) : Option RedisClock :=
  (s.client.step e).map fun client =>
    match e with
    | .advance i env => ⟨client, env.now, s.failuresAt i env⟩
    | .call _ _ _ | .changeConType _ => { s with client := client }

/-- A call starts only while fewer than so many run, and the clock is not set back. -/
def Steady (n : Nat) (s : RedisClock) : RedisEvent → Prop
  | .call _ _ _ => s.client.running < n
  | .changeConType _ => True
  | .advance _ env => s.clock ≤ env.now

/-- In the three seconds from a failure on there are no more than `n`. -/
def Throttled (n : Nat) (failures : List Int) : Prop :=
  ∀ new f old, failures = new ++ f :: old →
    (new ++ [f]).countP (fun g => g < f + maxReconnectInterval) ≤ n

/-- How many calls have a connect that fails in their next step. -/
def failing (s : RedisClock) : Nat := s.client.calls.countP RedisCall.failing

structure Inv (n : Nat) (s : RedisClock) : Prop where
  few : Few n s.client
  past : ∀ f ∈ s.failures, f ≤ s.clock
  known : ∀ f ∈ s.failures, f ≤ s.client.members.beginInvalidTime
  /-- from a failure of the last three seconds on, the failures and those to come are few -/
  recent : ∀ new f old, s.failures = new ++ f :: old → s.clock < f + maxReconnectInterval →
    new.length + 1 + s.failing ≤ n
  throttled : Throttled n s.failures

section Inv

variable {n : Nat} {s s' : RedisClock}

theorem inv_start (n : Nat) (cmdBuf : Bytes) (conType : Int32) (beginInvalidTime clock : Int)
    (redis : RedisStore) :
    Inv n (start (.start cmdBuf conType beginInvalidTime redis) clock) where
  few := few_start n cmdBuf conType beginInvalidTime redis
  past f hf := by cases hf
  known f hf := by cases hf
  recent new f old h := by cases new <;> cases h
  throttled new f old h := by cases new <;> cases h

/-- A connect has failed at the time `now`: the time is kept, and one call fewer is about to fail.
-/
theorem Inv.fails (inv : Inv n s) {client : RedisClient} {now : Int} (few : Few n client)
    (hclock : s.clock ≤ now) (htime : client.members.beginInvalidTime = now)
    (hroom : client.calls.countP RedisCall.failing + 1 ≤ n)
    (hone : client.calls.countP RedisCall.failing + 1 = s.failing) :
    Inv n ⟨client, now, now :: s.failures⟩ := by
  have hrecent : ∀ new f old, now :: s.failures = new ++ f :: old →
      now < f + maxReconnectInterval →
        new.length + 1 + client.calls.countP RedisCall.failing ≤ n := by
    intro new f old hsplit hsoon
    cases new with
    | nil =>
      rw [List.length_nil]
      omega
    | cons g new =>
      obtain ⟨-, hold⟩ := List.cons.inj hsplit
      have hfew := inv.recent new f old hold (Int.lt_of_le_of_lt hclock hsoon)
      rw [List.length_cons]
      omega
  refine ⟨few, fun f hf => ?_, fun f hf => ?_, hrecent, fun new f old hsplit => ?_⟩
  · rcases List.mem_cons.mp hf with rfl | hold
    · exact Int.le_refl _
    · exact Int.le_trans (inv.past f hold) hclock
  · show f ≤ client.members.beginInvalidTime
    rw [htime]
    rcases List.mem_cons.mp hf with rfl | hold
    · exact Int.le_refl _
    · exact Int.le_trans (inv.past f hold) hclock
  · by_cases hsoon : now < f + maxReconnectInterval
    · -- all of them are recent
      have hfew := hrecent new f old hsplit hsoon
      refine Nat.le_trans List.countP_le_length ?_
      rw [List.length_append, List.length_singleton]
      omega
    · cases new with
      | nil =>
        refine Nat.le_trans List.countP_le_length ?_
        show 1 ≤ n
        omega
      | cons g new =>
        obtain ⟨rfl, hold⟩ := List.cons.inj hsplit
        rw [List.cons_append, List.countP_cons, decide_eq_false hsoon]
        exact inv.throttled new f old hold

/-- A step in which nothing fails: the kept time is as it was, and a call passes the test only when
the last failure is long enough ago. -/
theorem Inv.goesOn (inv : Inv n s) {client : RedisClient} {now : Int} (few : Few n client)
    (hclock : s.clock ≤ now)
    (htime : client.members.beginInvalidTime = s.client.members.beginInvalidTime)
    (hlate : client.calls.countP RedisCall.failing ≤ s.failing ∨
      s.client.members.beginInvalidTime + maxReconnectInterval ≤ now) :
    Inv n ⟨client, now, s.failures⟩ := by
  refine ⟨few, fun f hf => Int.le_trans (inv.past f hf) hclock, fun f hf => ?_,
    fun new f old hsplit hsoon => ?_, inv.throttled⟩
  · show f ≤ client.members.beginInvalidTime
    rw [htime]
    exact inv.known f hf
  · rcases hlate with hsame | htested
    · have hfew := inv.recent new f old hsplit (Int.lt_of_le_of_lt hclock hsoon)
      exact Nat.le_trans (Nat.add_le_add_left hsame _) hfew
    · have hf : f ∈ s.failures := hsplit ▸ List.mem_append_right _ List.mem_cons_self
      have hknown := inv.known f hf
      have hnow : now < f + maxReconnectInterval := hsoon
      omega

theorem Inv.advance (inv : Inv n s) {i : Nat} {env : Surroundings} {client : RedisClient}
    (few : Few n client) (hclock : s.clock ≤ env.now)
    (h : s.client.step (.advance i env) = some client) :
    Inv n ⟨client, env.now, s.failuresAt i env⟩ := by
  obtain ⟨call, members, call', hcall, hadvance, rfl⟩ := step_advance h
  have hfailing := countP_set_add RedisCall.failing hcall call'
  have hrunning := countP_set_add RedisCall.running hcall call'
  cases timeMove_of_advance hadvance with
  | fails hfails htime hended =>
    have hnot : call'.failing = false := by
      cases hcases : call'.failing with
      | false => rfl
      | true => rw [RedisCall.running_of_failing hcases] at hended; cases hended
    rw [hnot, hfails, Bool.toNat_false, Nat.add_zero, Bool.toNat_true] at hfailing
    rw [running_of_advance hadvance, hended, Bool.toNat_false, Bool.toNat_true] at hrunning
    have hroom : (s.client.calls.set i call').countP RedisCall.failing ≤
        (s.client.calls.set i call').countP RedisCall.running :=
      countP_le_of_imp (fun _ => RedisCall.running_of_failing) _
    have hall : s.client.calls.countP RedisCall.running ≤ n := inv.few.running
    have hfits : (s.client.calls.set i call').countP RedisCall.failing + 1 ≤ n := by omega
    rw [failuresAt, hcall]
    dsimp only
    rw [if_pos hfails]
    exact inv.fails few hclock htime hfits hfailing
  | goesOn hbefore htime hlate =>
    rw [hbefore, Bool.toNat_false, Nat.add_zero] at hfailing
    rw [failuresAt, hcall]
    dsimp only
    rw [if_neg (by rw [hbefore]; exact Bool.false_ne_true)]
    refine inv.goesOn few hclock htime ?_
    cases hafter : call'.failing with
    | false =>
      rw [hafter, Bool.toNat_false] at hfailing
      exact .inl (Nat.le_of_eq hfailing)
    | true => exact .inr (hlate hafter)

theorem Inv.step {e : RedisEvent} (inv : Inv n s) (steady : Steady n s e)
    (h : s.step e = some s') : Inv n s' := by
  obtain ⟨client, hclient, rfl⟩ := Option.map_eq_some_iff.mp h
  cases e with
  | call entry format args =>
    have few := inv.few.step (e := .call entry format args) steady hclient
    cases hclient
    refine inv.goesOn few (Int.le_refl _) rfl (.inl ?_)
    show (s.client.calls ++ [RedisCall.start entry format args]).countP _ ≤ s.failing
    rw [List.countP_append, List.countP_singleton, RedisCall.failing_start]
    exact Nat.le_refl _
  | changeConType conType =>
    have few := inv.few.step (e := .changeConType conType) trivial hclient
    cases hclient
    exact inv.goesOn few (Int.le_refl _) rfl (.inl (Nat.le_refl _))
  | advance i env =>
    have few := inv.few.step (e := .advance i env) trivial hclient
    exact inv.advance few steady hclient

/-- **The client does not rush at a server that is down**: in every run in which no more than `n`
calls are under way at any time and the clock is not set back, no more than `n` connects fail in any
three seconds. -/
theorem throttled_of_reaches {cmdBuf : Bytes} {conType : Int32} {beginInvalidTime clock : Int}
    {redis : RedisStore} (reach : Reaches step (Steady n)
      (start (.start cmdBuf conType beginInvalidTime redis) clock) s) :
    Throttled n s.failures := by
  have inv : Inv n s := reach.invariant (inv_start n cmdBuf conType beginInvalidTime clock redis)
    fun _ _ _ inv steady h => inv.step steady h
  exact inv.throttled

end Inv

instance (n : Nat) (s : RedisClock) : (e : RedisEvent) → Decidable (Steady n s e)
  | .call _ _ _ => inferInstanceAs (Decidable (_ < _))
  | .changeConType _ => isTrue trivial
  | .advance _ _ => inferInstanceAs (Decidable (_ ≤ _))

/-- Two calls pass the test together and fail one after the other, the first without a context and
the second with one that has an error. Two more come too early and just in time. -/
def fourCalls : List RedisEvent :=
  let without (now : Int) : Surroundings := ⟨now, none, true, []⟩
  let at' (now : Int) : Surroundings := ⟨now, some false, true, []⟩
  let call : RedisEvent := .call .executeCmd_spop (ascii "SISMEMBER a b") []
  [call, call] ++ List.replicate 4 (.advance 0 (without 10)) ++
    List.replicate 4 (.advance 1 (at' 10)) ++ [.advance 0 (without 11), .advance 1 (at' 12), call] ++
    List.replicate 4 (.advance 2 (at' 14)) ++ [call] ++ List.replicate 5 (.advance 3 (at' 15))

theorem throttled_fourCalls : ∃ s : RedisClock,
    play (fun s e => if Steady 2 s e then s.step e else none) fourCalls
      (start (.start [] 0 0 .empty) 0) = some s ∧
    s.failures = [15, 12, 11] ∧ Throttled 2 s.failures := by
  have hplays : (play (fun s e => if Steady 2 s e then step s e else none) fourCalls
      (start (.start [] 0 0 .empty) 0)).map RedisClock.failures = some [15, 12, 11] := by
    decide +kernel
  obtain ⟨s, hs, hfailures⟩ := Option.map_eq_some_iff.mp hplays
  exact ⟨s, hs, hfailures, throttled_of_reaches (Reaches.of_play hs)⟩

end RedisClock

end Smer
