import Smer.Laws.Contexts

/-!
# How many Redis contexts there are

The client sets no bound on its contexts. A call that finds the queue of its kind empty connects,
and between its look at the queue and its connect other contexts may come back. Yet a call looks at
the queue once and holds one context, so the contexts of a kind that are open never outnumber the
calls that ran at once (`contexts_bounded`): the calls that have looked in vain are counted with the
contexts, and at the moment of a look in vain none is idle.

How many calls run at once is given with the run (`AtMost`) and not established: in the program it
is the number of workers.
-/

namespace Smer

open Lib

namespace RedisCall

/-- The call has not returned: it is at some stage before its answer. -/
def running (c : RedisCall) : Bool :=
  match c.stage with
  | .returned _ => false
  | .format | .choose | .chooseCluster | .create _ | .connect _ | .refused | .opened _ _ _
  | .formatWith _ _ | .send _ _ | .release _ _ _ => true

/-- The call has a context of the kind, or has looked for an idle one in vain. -/
def engaged (k : ConKind) (c : RedisCall) : Bool :=
  match c.stage with
  | .connect k' | .opened k' _ _ | .formatWith k' _ | .send k' _ | .release k' _ _ => k' = k
  | .format | .choose | .chooseCluster | .create _ | .refused | .returned _ => false

theorem running_of_engaged {k : ConKind} {c : RedisCall} (h : c.engaged k = true) :
    c.running = true := by
  obtain ⟨entry, format, args, stage, sent⟩ := c
  cases stage with
  | format | choose | chooseCluster | create | refused | returned => cases h
  | connect | opened | formatWith | send | release => rfl

@[simp] theorem engaged_start (k : ConKind) (entry : Entry) (format : Bytes)
    (args : List FmtArg) : (start entry format args).engaged k = false := by
  cases entry <;> rfl

@[simp] theorem running_start (entry : Entry) (format : Bytes) (args : List FmtArg) :
    (start entry format args).running = true := by
  cases entry <;> rfl

@[simp] theorem engaged_fetched (k k' : ConKind) (c : RedisCall) (ctx : Context) :
    (c.fetched k' ctx).engaged k = decide (k' = k) := by
  obtain ⟨entry, format, args, stage, sent⟩ := c
  cases entry <;> rfl

/-- A call that holds a context of the kind is engaged. -/
theorem engaged_of_context {k : ConKind} {c : RedisCall} {ctx : Context} (kinded : c.Kinded)
    (hctx : c.context = some ctx) (hkind : ctx.kind = k) : c.engaged k = true := by
  obtain ⟨entry, format, args, stage, sent⟩ := c
  cases stage with
  | format | choose | chooseCluster | create | connect | refused | returned => cases hctx
  | opened k' ctx' | formatWith k' ctx' | send k' ctx' | release k' ctx' =>
    cases hctx
    exact decide_eq_true ((show ctx.kind = k' from kinded).symm.trans hkind)

end RedisCall

/-! ## What one step does to the numbers -/

namespace Idle

theorem queue_setQueue_self (q : Idle) (contexts : List Context) (k : ConKind) :
    (q.setQueue contexts k).queue k = contexts := by
  cases k <;> rfl

theorem queue_setQueue_ne (q : Idle) (contexts : List Context) {k k' : ConKind} (hne : k' ≠ k) :
    (q.setQueue contexts k').queue k = q.queue k := by
  cases k <;> cases k' <;> first | rfl | exact absurd rfl hne

end Idle

namespace RedisMembers

variable {w w' : RedisMembers} {c c' : RedisCall} {env : Surroundings}

/-- What a call and the idle contexts of the kind come to. -/
def load (w : RedisMembers) (c : RedisCall) (k : ConKind) : Nat :=
  (c.engaged k).toNat + (w.idle.queue k).length

/-- A step that starts no engagement, at an unchanged queue. -/
theorem load_le (hidle : w'.idle = w.idle) {k : ConKind}
    (himp : c'.engaged k = true → c.engaged k = true) : w'.load c' k ≤ w.load c k := by
  rw [load, load, hidle]
  exact Nat.add_le_add_right (Bool.toNat_le_toNat himp) _

/-- A context leaves its queue for a call, or a call's context enters its queue. -/
theorem load_exchange {k k' : ConKind} {idle idle' : List Context}
    (hqueue : w.idle.queue k' = idle) (hidle : w'.idle = w.idle.setQueue idle' k')
    (hself : (c'.engaged k').toNat + idle'.length = (c.engaged k').toNat + idle.length)
    (hother : k' ≠ k → c'.engaged k = c.engaged k) : w'.load c' k = w.load c k := by
  rw [load, load, hidle]
  by_cases hk : k' = k
  · subst hk
    rw [Idle.queue_setQueue_self, hqueue, hself]
  · rw [Idle.queue_setQueue_ne _ _ hk, hother hk]

/-- **A step adds nothing to the load of a kind, unless it leaves the queue empty.** -/
theorem advance_load (h : w.advance c env = some (w', c')) (k : ConKind) :
    w'.load c' k ≤ w.load c k ∨ w'.idle.queue k = [] := by
  obtain ⟨entry, format, args, stage, sent⟩ := c
  cases stage with
  | format =>
    obtain ⟨text, -, hout⟩ := Option.map_eq_some_iff.mp h
    cases hout
    exact .inl (load_le rfl id)
  | choose =>
    cases h
    refine .inl (load_le rfl fun hengaged => ?_)
    by_cases hnormal : w.conType = ConKind.normal.conType
    · rwa [if_pos hnormal] at hengaged
    · rwa [if_neg hnormal] at hengaged
  | chooseCluster =>
    cases h
    refine .inl (load_le rfl fun hengaged => ?_)
    by_cases hcluster : w.conType = ConKind.cluster.conType
    · rwa [if_pos hcluster] at hengaged
    · rwa [if_neg hcluster] at hengaged
  | create k' =>
    simp only [advance] at h
    split at h
    · rename_i ctx rest hqueue
      cases h
      refine .inl (load_exchange hqueue rfl ?_ fun hne => ?_).le
      · rw [RedisCall.engaged_fetched, decide_eq_true rfl, List.length_cons]
        exact (Nat.add_comm _ _).trans (Nat.zero_add _).symm
      · rw [RedisCall.engaged_fetched, decide_eq_false hne]
        rfl
    · rename_i hempty
      cases h
      by_cases hk : k' = k
      · exact .inr (hk ▸ hempty)
      · exact .inl (load_le rfl fun hengaged => absurd (of_decide_eq_true hengaged) hk)
  | connect k' =>
    simp only [advance] at h
    split at h
    · cases h
      exact .inl (load_le rfl fun hengaged => absurd hengaged Bool.false_ne_true)
    · split at h
      · cases h
        exact .inl (load_le rfl id)
      · cases h
        exact .inl (load_le rfl fun hengaged => absurd hengaged Bool.false_ne_true)
      · cases h
  | refused =>
    cases h
    exact .inl (load_le rfl id)
  | opened k' ctx ok =>
    cases ok with
    | true =>
      cases h
      refine .inl (load_le rfl fun hengaged => ?_)
      rwa [RedisCall.engaged_fetched] at hengaged
    | false =>
      cases h
      exact .inl (load_le rfl fun hengaged => absurd hengaged Bool.false_ne_true)
  | formatWith k' ctx =>
    obtain ⟨text, -, hout⟩ := Option.map_eq_some_iff.mp h
    cases hout
    exact .inl (load_le rfl id)
  | send k' ctx =>
    simp only [advance] at h
    split at h
    · obtain ⟨out, -, hout⟩ := Option.map_eq_some_iff.mp h
      cases hout
      exact .inl (load_le rfl id)
    · cases h
      exact .inl (load_le rfl id)
  | release k' ctx answer =>
    cases answer with
    | reply reply =>
      cases h
      refine .inl (load_exchange rfl rfl ?_ fun hne => ?_).le
      · show 0 + (w.idle.queue k' ++ [ctx]).length = (decide (k' = k')).toNat + _
        rw [decide_eq_true rfl, List.length_append, Nat.zero_add]
        exact Nat.add_comm _ _
      · exact (decide_eq_false hne).symm
    | noReply | noContext =>
      cases h
      exact .inl (load_le rfl fun hengaged => absurd hengaged Bool.false_ne_true)
  | returned answer => cases h

end RedisMembers

/-! ## What every run keeps -/

namespace RedisClient

open RedisMembers

/-- How many calls have not returned. -/
def running (s : RedisClient) : Nat := s.calls.countP RedisCall.running

/-- A call starts only while fewer than so many run. -/
def AtMost (n : Nat) (s : RedisClient) : RedisEvent → Prop
  | .call _ _ _ => s.running < n
  | .changeConType _ | .advance _ _ => True

/-- The contexts of a kind that are open: those that calls hold and those that are idle. -/
def openContexts (s : RedisClient) (k : ConKind) : List Context :=
  (s.heldContexts ++ s.members.idle.all).filter (·.kind = k)

/-- What the runs of at most `n` calls at once keep: the calls that have looked in vain, with the
open contexts, are no more than the calls that ran. -/
structure Few (n : Nat) (s : RedisClient) : Prop where
  owned : Owned s
  running : s.running ≤ n
  load : ∀ k, s.calls.countP (RedisCall.engaged k) + (s.members.idle.queue k).length ≤ n

section Few

variable {n : Nat} {s s' : RedisClient}

theorem few_start (n : Nat) (cmdBuf : Bytes) (conType : Int32) (beginInvalidTime : Int)
    (redis : RedisStore) : Few n (start cmdBuf conType beginInvalidTime redis) where
  owned := owned_start cmdBuf conType beginInvalidTime redis
  running := Nat.zero_le n
  load k := by cases k <;> exact Nat.zero_le n

/-- A call that takes a step has not returned. -/
theorem running_of_advance {w w' : RedisMembers} {c c' : RedisCall} {env : Surroundings}
    (h : w.advance c env = some (w', c')) : c.running = true := by
  obtain ⟨entry, format, args, stage, sent⟩ := c
  cases stage with
  | returned => cases h
  | _ => rfl

theorem Few.advance (few : Few n s) {i : Nat} {call call' : RedisCall} {members : RedisMembers}
    {env : Surroundings} (hcall : s.calls[i]? = some call)
    (h : s.members.advance call env = some (members, call')) :
    Few n ⟨members, s.calls.set i call'⟩ := by
  have hrunning : (s.calls.set i call').countP RedisCall.running ≤ n := by
    have hcount := countP_set_add RedisCall.running hcall call'
    have hcalls : s.calls.countP RedisCall.running ≤ n := few.running
    have hone := Bool.toNat_le call'.running
    rw [running_of_advance h, Bool.toNat_true] at hcount
    omega
  refine ⟨few.owned.advance hcall (advance_did h), hrunning, fun k => ?_⟩
  rcases advance_load h k with hload | hempty
  · have hcount := countP_set_add (RedisCall.engaged k) hcall call'
    have hcalls := few.load k
    unfold RedisMembers.load at hload
    show (s.calls.set i call').countP _ + (members.idle.queue k).length ≤ n
    omega
  · -- the calls alone are few enough
    show (s.calls.set i call').countP _ + (members.idle.queue k).length ≤ n
    rw [hempty, List.length_nil, Nat.add_zero]
    exact (countP_le_of_imp (fun _ => RedisCall.running_of_engaged) _).trans hrunning

theorem Few.step {e : RedisEvent} (few : Few n s) (atMost : AtMost n s e)
    (h : RedisClient.step s e = some s') : Few n s' := by
  have howned := few.owned.step h
  cases e with
  | call entry format args =>
    cases h
    refine ⟨howned, ?_, fun k => ?_⟩
    · show (s.calls ++ [RedisCall.start entry format args]).countP RedisCall.running ≤ n
      rw [List.countP_append, List.countP_singleton, RedisCall.running_start, if_pos rfl]
      exact atMost
    · show (s.calls ++ [RedisCall.start entry format args]).countP _ + _ ≤ n
      rw [List.countP_append, List.countP_singleton, RedisCall.engaged_start]
      exact few.load k
  | changeConType conType =>
    cases h
    exact ⟨howned, few.running, few.load⟩
  | advance i env =>
    obtain ⟨call, members, call', hcall, hadvance, rfl⟩ := step_advance h
    exact few.advance hcall hadvance

/-! ## The number of open contexts -/

/-- The idle contexts of a kind are those of its queue. -/
theorem filter_idle {q : Idle} (kinded : q.Kinded) (k : ConKind) :
    q.all.filter (·.kind = k) = q.queue k := by
  have hself : ∀ k, (q.queue k).filter (·.kind = k) = q.queue k := fun k =>
    List.filter_eq_self.mpr fun ctx hctx => decide_eq_true (kinded k ctx hctx)
  have hother : ∀ k k', k' ≠ k → (q.queue k').filter (·.kind = k) = [] := fun k k' hne =>
    List.filter_eq_nil_iff.mpr fun ctx hctx => by simp [kinded k' ctx hctx, hne]
  rw [Idle.all, List.filter_append]
  cases k with
  | normal =>
    have hcluster := hother .normal .cluster (by decide)
    exact (congrArg₂ _ (hself .normal) hcluster).trans (List.append_nil _)
  | cluster =>
    have hnormal := hother .cluster .normal (by decide)
    exact congrArg₂ _ hnormal (hself .cluster)

/-- The calls that hold a context of a kind are engaged. -/
theorem filter_held_le (calls : ∀ call ∈ s.calls, call.Kinded) (k : ConKind) :
    (s.heldContexts.filter (·.kind = k)).length ≤ s.calls.countP (RedisCall.engaged k) := by
  rw [heldContexts, held, List.filter_filterMap, List.length_filterMap_eq_countP]
  refine List.countP_mono_left fun call hcall hholds => ?_
  obtain ⟨ctx, hctx⟩ := Option.isSome_iff_exists.mp hholds
  obtain ⟨hcontext, hkind⟩ := Option.filter_eq_some_iff.mp hctx
  exact RedisCall.engaged_of_context (calls call hcall) hcontext (of_decide_eq_true hkind)

/-- What bounds the contexts of a kind: `n` of them are open at most, every context that was
connected is open or freed, and none was connected twice. -/
structure Bounded (n : Nat) (s : RedisClient) : Prop where
  opened : ∀ k, (s.openContexts k).length ≤ n
  /-- each context that was connected is open or freed, once and not both -/
  created : ∀ k, (s.members.created.filter (·.kind = k)).Perm
    (s.openContexts k ++ s.members.freed.filter (·.kind = k))
  once : s.members.created.Nodup

theorem Few.bounded (few : Few n s) : Bounded n s where
  opened k := by
    rw [openContexts, List.filter_append, List.length_append, filter_idle few.owned.idle]
    exact (Nat.add_le_add_right (filter_held_le few.owned.calls k) _).trans (few.load k)
  created k := by
    have hplaced := few.owned.placed
    rw [← List.append_assoc] at hplaced
    have hkind := (hplaced.filter (·.kind = k)).symm
    rwa [List.filter_append] at hkind
  once := few.owned.nodup

/-- **The contexts are no more than the calls at once**: in every run in which no more than `n`
calls are under way at any time, however many there are one after the other, whatever fails and
whatever `conType` is changed to, no more than `n` contexts of a kind are open, and every other
context that was ever connected has been freed. -/
theorem contexts_bounded {cmdBuf : Bytes} {conType : Int32} {beginInvalidTime : Int}
    {redis : RedisStore}
    (reach : Reaches step (AtMost n) (start cmdBuf conType beginInvalidTime redis) s) :
    Bounded n s := by
  have few : Few n s := reach.invariant (few_start n cmdBuf conType beginInvalidTime redis)
    fun _ _ _ few atMost h => few.step atMost h
  exact few.bounded

end Few

instance (n : Nat) (s : RedisClient) : (e : RedisEvent) → Decidable (AtMost n s e)
  | .call _ _ _ => inferInstanceAs (Decidable (_ < _))
  | .changeConType _ | .advance _ _ => isTrue trivial

/-- Two calls overlap and connect, and a third finds a context idle. -/
def threeCalls : List RedisEvent :=
  let env : Surroundings := ⟨10, some true, true, []⟩
  let call : RedisEvent := .call .executeCmd_spop (ascii "SISMEMBER a b") []
  [call, call] ++ List.replicate 4 (.advance 0 env) ++ List.replicate 7 (.advance 1 env) ++
    List.replicate 3 (.advance 0 env) ++ [call] ++ List.replicate 5 (.advance 2 env)

theorem contexts_bounded_three : ∃ s : RedisClient,
    play (fun s e => if AtMost 2 s e then step s e else none) threeCalls (start [] 0 0 .empty) =
      some s ∧ s.Bounded 2 := by
  have hplays : (play (fun s e => if AtMost 2 s e then step s e else none) threeCalls
      (start [] 0 0 .empty)).isSome = true := by
    decide +kernel
  obtain ⟨s, hs⟩ := Option.isSome_iff_exists.mp hplays
  exact ⟨s, hs, contexts_bounded (Reaches.of_play hs)⟩

end RedisClient

end Smer
