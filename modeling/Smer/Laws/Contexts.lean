import Smer.Redis.Contexts

/-!
# Who owns a Redis context

A context that was ever connected is in one place: idle in the queue of its kind, held by one
running call, or freed. A step of a call does one of six things to the contexts (`Did`): nothing, it
takes one from its queue, it opens a new one, it finds one unanswered, it gives one back, or it
frees one. Everything below is read off these six. So whatever the order of the steps, the failures
and the changes of `conType`, no context is lost, freed twice, or handed to two calls
(`contexts_owned`).

Whose command a context carries, and whose reply, is not established here but in
`Laws.CommandBuffer`.
-/

namespace Smer

open Lib

/-! ## Kinds -/

/-- Each queue holds contexts of its own kind. -/
def Idle.Kinded (q : Idle) : Prop := ∀ k, ∀ ctx ∈ q.queue k, ctx.kind = k

theorem Idle.Kinded.setQueue {q : Idle} (kinded : q.Kinded) {contexts : List Context} {k : ConKind}
    (own : ∀ ctx ∈ contexts, ctx.kind = k) : (q.setQueue contexts k).Kinded := by
  intro k' ctx hctx
  cases k with
  | normal =>
    cases k' with
    | normal => exact own ctx hctx
    | cluster => exact kinded .cluster ctx hctx
  | cluster =>
    cases k' with
    | normal => exact kinded .normal ctx hctx
    | cluster => exact own ctx hctx

/-- A call holds a context of the kind that it works with. -/
def RedisCall.Kinded (c : RedisCall) : Prop :=
  match c.stage with
  | .opened k ctx _ | .formatWith k ctx | .send k ctx | .release k ctx _ => ctx.kind = k
  | .format | .choose | .chooseCluster | .create _ | .connect _ | .refused | .returned _ => True

theorem RedisCall.kinded_of_context {c : RedisCall} (none : c.context = none) : c.Kinded := by
  obtain ⟨entry, format, args, stage, sent⟩ := c
  cases stage with
  | format | choose | chooseCluster | create | connect | refused | returned => trivial
  | opened | formatWith | send | release => cases none

@[simp] theorem RedisCall.fetched_context (c : RedisCall) (k : ConKind) (ctx : Context) :
    (c.fetched k ctx).context = some ctx := by
  obtain ⟨entry, format, args, stage, sent⟩ := c
  cases entry <;> rfl

theorem RedisCall.fetched_kinded (c : RedisCall) {k : ConKind} {ctx : Context} (own : ctx.kind = k) :
    (c.fetched k ctx).Kinded := by
  obtain ⟨entry, format, args, stage, sent⟩ := c
  cases entry <;> exact own

/-! ## What one step does to the contexts -/

namespace RedisMembers

variable {w w' : RedisMembers} {c c' : RedisCall} {env : Surroundings}

/-- What a step of a call does to the contexts: one of six things, each with the queues and the
calls as they are behind it. -/
inductive Did (w : RedisMembers) (c : RedisCall) (w' : RedisMembers) (c' : RedisCall) : Prop where
  | nothing (idle : w'.idle = w.idle) (created : w'.created = w.created)
      (freed : w'.freed = w.freed) (unanswered : w'.unanswered = w.unanswered)
      (context : c'.context = c.context) (kinded : c.Kinded → c'.Kinded)
      (releasing : ∀ k ctx answer, c.stage ≠ .release k ctx answer)
  | took (k : ConKind) (ctx : Context) (rest : List Context) (queue : w.idle.queue k = ctx :: rest)
      (before : c.context = none) (members : w' = { w with idle := w.idle.setQueue rest k })
      (call : c' = c.fetched k ctx)
  | opened (k : ConKind) (ok : Bool) (before : c.context = none)
      (members : w' = { w with created := w.created ++ [⟨k, w.created.length⟩] })
      (call : c'.stage = .opened k ⟨k, w.created.length⟩ ok)
  | unanswered (k : ConKind) (ctx : Context) (before : c.stage = .send k ctx)
      (members : w' = { w with unanswered := w.unanswered ++ [ctx] })
      (call : c'.stage = .release k ctx .noReply)
  | gaveBack (k : ConKind) (ctx : Context) (reply : RedisReply)
      (before : c.stage = .release k ctx (.reply reply))
      (members : w' = { w with idle := w.idle.setQueue (w.idle.queue k ++ [ctx]) k })
      (after : c'.context = none)
  | freed (ctx : Context) (before : c.context = some ctx) (idle : w'.idle = w.idle)
      (created : w'.created = w.created) (freed : w'.freed = w.freed ++ [ctx])
      (unanswered : w'.unanswered = w.unanswered) (after : c'.context = none)

/-- **A step does one of the six.** -/
theorem advance_did (h : w.advance c env = some (w', c')) : Did w c w' c' := by
  obtain ⟨entry, format, args, stage, sent⟩ := c
  cases stage with
  | format =>
    obtain ⟨text, -, hout⟩ := Option.map_eq_some_iff.mp h
    cases hout
    exact .nothing rfl rfl rfl rfl rfl id nofun
  | choose =>
    cases h
    by_cases hnormal : w.conType = ConKind.normal.conType
    · rw [if_pos hnormal]
      exact .nothing rfl rfl rfl rfl rfl id nofun
    · rw [if_neg hnormal]
      exact .nothing rfl rfl rfl rfl rfl id nofun
  | chooseCluster =>
    cases h
    by_cases hcluster : w.conType = ConKind.cluster.conType
    · rw [if_pos hcluster]
      exact .nothing rfl rfl rfl rfl rfl id nofun
    · rw [if_neg hcluster]
      exact .nothing rfl rfl rfl rfl rfl id nofun
  | create k =>
    simp only [advance] at h
    split at h
    · rename_i ctx rest hqueue
      cases h
      exact .took k ctx rest hqueue rfl rfl rfl
    · cases h
      exact .nothing rfl rfl rfl rfl rfl id nofun
  | connect k =>
    simp only [advance] at h
    split at h
    · cases h
      exact .nothing rfl rfl rfl rfl rfl id nofun
    · split at h
      · cases h
        exact .opened _ _ rfl rfl rfl
      · cases h
        exact .nothing rfl rfl rfl rfl rfl id nofun
      · cases h
  | refused =>
    cases h
    exact .nothing rfl rfl rfl rfl rfl id nofun
  | opened k ctx ok =>
    cases ok with
    | true =>
      cases h
      exact .nothing rfl rfl rfl rfl (RedisCall.fetched_context _ _ _)
        (RedisCall.fetched_kinded _) nofun
    | false =>
      cases h
      exact .freed ctx rfl rfl rfl rfl rfl rfl
  | formatWith k ctx =>
    obtain ⟨text, -, hout⟩ := Option.map_eq_some_iff.mp h
    cases hout
    exact .nothing rfl rfl rfl rfl rfl id nofun
  | send k ctx =>
    simp only [advance] at h
    split at h
    · obtain ⟨out, -, hout⟩ := Option.map_eq_some_iff.mp h
      cases hout
      exact .nothing rfl rfl rfl rfl rfl id nofun
    · cases h
      exact .unanswered k ctx rfl rfl rfl
  | release k ctx answer =>
    cases answer with
    | reply reply =>
      cases h
      exact .gaveBack k ctx reply rfl rfl rfl
    | noReply =>
      cases h
      exact .freed ctx rfl rfl rfl rfl rfl rfl
    | noContext =>
      cases h
      exact .freed ctx rfl rfl rfl rfl rfl rfl
  | returned answer => cases h

/-- A call at a stage that names its context holds that context. -/
theorem context_of_stage {c : RedisCall} {stage : Stage} {ctx : Context}
    (at' : c.stage = stage) (names : (c.at' stage).context = some ctx) : c.context = some ctx := by
  rw [RedisCall.context, at']
  exact names

/-- **A step moves contexts and loses none**: what the call holds, what is idle and what is freed
are what they were, but for a context that is new. -/
theorem Did.custody (did : Did w c w' c') :
    ∃ fresh, (fresh = [] ∨ ∃ k, fresh = [⟨k, w.created.length⟩]) ∧
      w'.created = w.created ++ fresh ∧
      (c'.context.toList ++ (w'.idle.all ++ w'.freed)).Perm
        (fresh ++ (c.context.toList ++ (w.idle.all ++ w.freed))) := by
  cases did with
  | nothing idle created freed unanswered context kinded releasing =>
    refine ⟨[], .inl rfl, created.trans (List.append_nil _).symm, ?_⟩
    rw [idle, freed, context]
    exact .refl _
  | took k ctx rest queue before members call =>
    subst members call
    refine ⟨[], .inl rfl, (List.append_nil _).symm, ?_⟩
    rw [before, RedisCall.fetched_context]
    exact ((Idle.all_pop queue).append_right _).symm
  | opened k ok before members call =>
    subst members
    refine ⟨[_], .inr ⟨k, rfl⟩, rfl, ?_⟩
    rw [before, context_of_stage call rfl]
    exact .refl _
  | unanswered k ctx before members call =>
    subst members
    refine ⟨[], .inl rfl, (List.append_nil _).symm, ?_⟩
    rw [context_of_stage before rfl, context_of_stage call rfl]
    exact .refl _
  | gaveBack k ctx reply before members after =>
    subst members
    refine ⟨[], .inl rfl, (List.append_nil _).symm, ?_⟩
    rw [after, context_of_stage before rfl]
    exact (w.idle.all_push k ctx).append_right _
  | freed ctx before idle created freed unanswered after =>
    refine ⟨[], .inl rfl, created.trans (List.append_nil _).symm, ?_⟩
    rw [after, before, idle, freed]
    show (w.idle.all ++ (w.freed ++ [ctx])).Perm (ctx :: (w.idle.all ++ w.freed))
    rw [← List.append_assoc]
    exact List.perm_append_singleton ctx _

/-- Every context stays with its kind. -/
theorem Did.kinded (did : Did w c w' c') (idle : w.idle.Kinded) (call : c.Kinded) :
    w'.idle.Kinded ∧ c'.Kinded := by
  cases did with
  | nothing idle' created freed unanswered context kinded releasing =>
    rw [idle']
    exact ⟨idle, kinded call⟩
  | took k ctx rest queue before members call' =>
    subst members call'
    have own : ∀ x ∈ ctx :: rest, x.kind = k := by
      rw [← queue]
      exact idle k
    exact ⟨idle.setQueue fun x hx => own x (List.mem_cons_of_mem _ hx),
      c.fetched_kinded (own ctx List.mem_cons_self)⟩
  | opened k ok before members call' =>
    subst members
    refine ⟨idle, ?_⟩
    rw [RedisCall.Kinded, call']
  | unanswered k ctx before members call' =>
    subst members
    rw [RedisCall.Kinded, before] at call
    refine ⟨idle, ?_⟩
    rw [RedisCall.Kinded, call']
    exact call
  | gaveBack k ctx reply before members after =>
    subst members
    rw [RedisCall.Kinded, before] at call
    refine ⟨idle.setQueue fun x hx => ?_, RedisCall.kinded_of_context after⟩
    rcases List.mem_append.mp hx with hx | hx
    · exact idle k x hx
    · rw [List.mem_singleton.mp hx]
      exact call
  | freed ctx before idle' created freed unanswered after =>
    rw [idle']
    exact ⟨idle, RedisCall.kinded_of_context after⟩

/-- A call that is about to free a context on which it had no reply. -/
def Discarding (c : RedisCall) (ctx : Context) : Prop := ∃ k, c.stage = .release k ctx .noReply

/-- A context is found unanswered by the call that frees it next. -/
theorem Did.unanswered_cases (did : Did w c w' c') {ctx : Context} (mem : ctx ∈ w'.unanswered) :
    ctx ∈ w.unanswered ∨ Discarding c' ctx := by
  cases did with
  | nothing idle created freed unanswered context kinded releasing =>
    rw [unanswered] at mem
    exact .inl mem
  | took k x rest queue before members call =>
    subst members
    exact .inl mem
  | opened k ok before members call =>
    subst members
    exact .inl mem
  | unanswered k x before members call =>
    subst members
    rcases List.mem_append.mp mem with mem | mem
    · exact .inl mem
    · rw [List.mem_singleton.mp mem]
      exact .inr ⟨k, call⟩
  | gaveBack k x reply before members after =>
    subst members
    exact .inl mem
  | freed x before idle created freed unanswered after =>
    rw [unanswered] at mem
    exact .inl mem

/-- What is freed stays freed, and what is to be discarded is freed. -/
theorem Did.freed_cases (did : Did w c w' c') {ctx : Context}
    (gone : ctx ∈ w.freed ∨ Discarding c ctx) : ctx ∈ w'.freed := by
  have idle_handed : c.context = none → ctx ∈ w.freed := by
    intro before
    rcases gone with gone | ⟨k, hstage⟩
    · exact gone
    · rw [context_of_stage hstage rfl] at before
      cases before
  cases did with
  | nothing idle created freed unanswered context kinded releasing =>
    rcases gone with gone | ⟨k, hstage⟩
    · rw [freed]
      exact gone
    · exact absurd hstage (releasing k ctx .noReply)
  | took k x rest queue before members call =>
    subst members
    exact idle_handed before
  | opened k ok before members call =>
    subst members
    exact idle_handed before
  | unanswered k x before members call =>
    subst members
    rcases gone with gone | ⟨k, hstage⟩
    · exact gone
    · rw [before] at hstage
      cases hstage
  | gaveBack k x reply before members after =>
    subst members
    rcases gone with gone | ⟨k, hstage⟩
    · exact gone
    · rw [before] at hstage
      cases hstage
  | freed x before idle created freed unanswered after =>
    rw [freed]
    rcases gone with gone | ⟨k, hstage⟩
    · exact List.mem_append_left _ gone
    · rw [context_of_stage hstage rfl] at before
      cases before
      exact List.mem_append_right _ List.mem_cons_self

end RedisMembers

/-! ## What every run keeps -/

namespace RedisClient

open RedisMembers

/-- Every context that was ever connected is owned, by its queue, by one call, or by nobody once it
was freed, and by one of these only. -/
structure Owned (s : RedisClient) : Prop where
  placed : (s.heldContexts ++ (s.members.idle.all ++ s.members.freed)).Perm s.members.created
  numbered : s.members.created.map Context.number = List.range s.members.created.length
  idle : s.members.idle.Kinded
  calls : ∀ call ∈ s.calls, call.Kinded
  discarded : ∀ ctx ∈ s.members.unanswered,
    ctx ∈ s.members.freed ∨ ∃ call ∈ s.calls, Discarding call ctx

theorem owned_start (cmdBuf : Bytes) (conType : Int32) (beginInvalidTime : Int)
    (redis : RedisStore) : Owned (start cmdBuf conType beginInvalidTime redis) where
  placed := .refl _
  numbered := rfl
  idle := by
    intro k ctx hctx
    cases k <;> cases hctx
  calls := by
    intro call hcall
    cases hcall
  discarded := by
    intro ctx hctx
    cases hctx

theorem start_context (entry : Entry) (format : Bytes) (args : List FmtArg) :
    (RedisCall.start entry format args).context = none := by
  cases entry <;> rfl

theorem Owned.advance {s : RedisClient} (inv : Owned s) {i : Nat} {call call' : RedisCall}
    {members : RedisMembers} (hcall : s.calls[i]? = some call)
    (did : Did s.members call members call') : Owned ⟨members, s.calls.set i call'⟩ := by
  have hmem := List.mem_of_getElem? hcall
  obtain ⟨hi, -⟩ := List.getElem?_eq_some_iff.mp hcall
  obtain ⟨fresh, hfresh, hcreated, hperm⟩ := did.custody
  obtain ⟨idle, kinded⟩ := did.kinded inv.idle (inv.calls call hmem)
  refine ⟨?_, ?_, idle, ?_, ?_⟩
  · show (held _ (s.calls.set i call') ++ (members.idle.all ++ members.freed)).Perm members.created
    rw [hcreated]
    refine (held_exchange RedisCall.context hcall call' hperm).trans ?_
    exact List.perm_append_comm.trans (inv.placed.append_right _)
  · show members.created.map Context.number = List.range members.created.length
    rw [hcreated, List.map_append, inv.numbered, List.length_append]
    rcases hfresh with rfl | ⟨k, rfl⟩
    · rw [List.map_nil, List.append_nil, List.length_nil, Nat.add_zero]
    · exact List.range_succ.symm
  · intro c hc
    rcases List.mem_or_eq_of_mem_set hc with hc | rfl
    · exact inv.calls c hc
    · exact kinded
  · intro ctx hctx
    rcases did.unanswered_cases hctx with hctx | discarding
    · rcases inv.discarded ctx hctx with gone | ⟨c, hc, discarding⟩
      · exact .inl (did.freed_cases (.inl gone))
      · obtain ⟨j, hj⟩ := List.getElem?_of_mem hc
        by_cases hij : i = j
        · subst hij
          rw [hcall] at hj
          cases hj
          exact .inl (did.freed_cases (.inr discarding))
        · refine .inr ⟨c, List.mem_of_getElem? (i := j) ?_, discarding⟩
          rw [List.getElem?_set_ne hij]
          exact hj
    · exact .inr ⟨call', List.mem_of_getElem? (List.getElem?_set_self hi), discarding⟩

/-- **Every step keeps the ownership.** -/
theorem Owned.step {s s' : RedisClient} {e : RedisEvent} (inv : Owned s)
    (h : step s e = some s') : Owned s' := by
  cases e with
  | call entry format args =>
    cases h
    refine ⟨?_, inv.numbered, inv.idle, ?_, ?_⟩
    · show (held _ (s.calls ++ [.start entry format args]) ++ _).Perm s.members.created
      rw [held_join (start_context entry format args)]
      exact inv.placed
    · intro c hc
      rcases List.mem_append.mp hc with hc | hc
      · exact inv.calls c hc
      · rw [List.mem_singleton.mp hc]
        exact RedisCall.kinded_of_context (start_context entry format args)
    · intro ctx hctx
      rcases inv.discarded ctx hctx with gone | ⟨c, hc, discarding⟩
      · exact .inl gone
      · exact .inr ⟨c, List.mem_append_left _ hc, discarding⟩
  | changeConType conType =>
    cases h
    exact ⟨inv.placed, inv.numbered, inv.idle, inv.calls, inv.discarded⟩
  | advance i env =>
    obtain ⟨call, members, call', hcall, hadvance, rfl⟩ := step_advance h
    exact inv.advance hcall (advance_did hadvance)

theorem owned {cmdBuf : Bytes} {conType : Int32} {beginInvalidTime : Int} {redis : RedisStore}
    {s : RedisClient} (reach : Reaches step (fun _ _ => True)
      (start cmdBuf conType beginInvalidTime redis) s) : Owned s :=
  reach.invariant (owned_start cmdBuf conType beginInvalidTime redis) fun _ _ _ inv _ h => inv.step h

/-- No context was created twice. -/
theorem Owned.nodup {s : RedisClient} (inv : Owned s) : s.members.created.Nodup := by
  apply List.Nodup.of_map Context.number
  rw [inv.numbered]
  exact List.nodup_range

/-- An unanswered context is idle nowhere, and the only call that can hold it is about to free
it. -/
theorem Owned.unanswered {s : RedisClient} (inv : Owned s) {ctx : Context}
    (mem : ctx ∈ s.members.unanswered) :
    ctx ∉ s.members.idle.all ∧
      ∀ call ∈ s.calls, call.context = some ctx → Discarding call ctx := by
  obtain ⟨held, places, apart⟩ := List.nodup_append.mp (inv.placed.symm.nodup inv.nodup)
  obtain ⟨-, -, away⟩ := List.nodup_append.mp places
  rcases inv.discarded ctx mem with gone | ⟨call, hcall, discarding⟩
  · refine ⟨fun idle => away ctx idle ctx gone rfl, ?_⟩
    intro call hcall hctx
    exact absurd rfl (apart ctx (mem_held.mpr ⟨call, hcall, hctx⟩) ctx
      (List.mem_append_right _ gone))
  · obtain ⟨k, hstage⟩ := discarding
    have hctx := context_of_stage hstage rfl
    refine ⟨fun idle => apart ctx (mem_held.mpr ⟨call, hcall, hctx⟩) ctx
      (List.mem_append_left _ idle) rfl, ?_⟩
    intro other hother hholds
    obtain ⟨i, hi⟩ := List.getElem?_of_mem hcall
    obtain ⟨j, hj⟩ := List.getElem?_of_mem hother
    have hij := held_unique held hi hj hctx hholds
    subst hij
    rw [hi] at hj
    cases hj
    exact ⟨k, hstage⟩

/-- **Every context is owned by one**: in every state of every run of calls, whatever fails and
whatever `conType` is changed to, the contexts that were connected are those that running calls
hold, those that are idle and those that are freed, each in one place and once; no two calls hold
one context; a queue holds contexts of its kind; and a context on which a caller's command had no
reply is idle nowhere, and held by nobody but the call that is about to free it. -/
theorem contexts_owned {cmdBuf : Bytes} {conType : Int32} {beginInvalidTime : Int}
    {redis : RedisStore} {s : RedisClient}
    (reach : Reaches step (fun _ _ => True) (start cmdBuf conType beginInvalidTime redis) s) :
    (s.heldContexts ++ (s.members.idle.all ++ s.members.freed)).Perm s.members.created ∧
      s.members.created.Nodup ∧
      (∀ (i j : Nat) (c d : RedisCall) (ctx : Context), s.calls[i]? = some c →
        s.calls[j]? = some d → c.context = some ctx → d.context = some ctx → i = j) ∧
      (∀ ctx ∈ s.members.idle.clients, ctx.kind = .normal) ∧
      (∀ ctx ∈ s.members.idle.clusterClients, ctx.kind = .cluster) ∧
      ∀ ctx ∈ s.members.unanswered, ctx ∉ s.members.idle.all ∧
        ∀ call ∈ s.calls, call.context = some ctx → Discarding call ctx := by
  have inv := owned reach
  have once := (List.nodup_append.mp (inv.placed.symm.nodup inv.nodup)).1
  refine ⟨inv.placed, inv.nodup, ?_, inv.idle .normal, inv.idle .cluster, fun ctx => inv.unanswered⟩
  intro i j c d ctx hi hj hc hd
  exact held_unique once hi hj hc hd

/-- Two calls find no idle context and connect. The first has no reply, and its context is to be
freed while the second gives its own back. -/
def lostReply : List RedisEvent :=
  let call : RedisEvent := .call .executeCmd_spop (ascii "SISMEMBER a b") []
  let env (replies : Bool) : Surroundings := ⟨10, some true, replies, []⟩
  [call, call] ++ List.replicate 3 (.advance 0 (env false)) ++
    List.replicate 5 (.advance 1 (env true)) ++ List.replicate 3 (.advance 0 (env false)) ++
    List.replicate 2 (.advance 1 (env true)) ++ [.advance 0 (env false)]

theorem contexts_owned_lost : ∃ s : RedisClient,
    play step lostReply (start [] 0 0 .empty) = some s ∧
      s.members.created = [⟨.normal, 0⟩, ⟨.normal, 1⟩] ∧ s.members.unanswered = [⟨.normal, 1⟩] ∧
      s.members.freed = [⟨.normal, 1⟩] ∧ ⟨.normal, 1⟩ ∉ s.members.idle.all := by
  have hplays : (play step lostReply (start [] 0 0 .empty)).map (fun s =>
      (s.members.created, s.members.unanswered, s.members.freed)) =
        some ([⟨.normal, 0⟩, ⟨.normal, 1⟩], [⟨.normal, 1⟩], [⟨.normal, 1⟩]) := by
    decide +kernel
  obtain ⟨s, hs, hcontexts⟩ := Option.map_eq_some_iff.mp hplays
  obtain ⟨hcreated, hunanswered, hfreed⟩ : s.members.created = [⟨.normal, 0⟩, ⟨.normal, 1⟩] ∧
      s.members.unanswered = [⟨.normal, 1⟩] ∧ s.members.freed = [⟨.normal, 1⟩] := by
    simpa using hcontexts
  obtain ⟨-, -, -, -, -, discarded⟩ := contexts_owned (Reaches.play .refl hs)
  have hmem : (⟨.normal, 1⟩ : Context) ∈ s.members.unanswered := by
    rw [hunanswered]
    exact List.mem_cons_self
  exact ⟨s, hs, hcreated, hunanswered, hfreed, (discarded _ hmem).1⟩

end RedisClient

end Smer
