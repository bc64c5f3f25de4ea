import Smer.Communication.Commands

/-!
# The argument vectors of the session operations

A session operation means a few words for Redis, and puts them through two formats and a cut at the
spaces. What arrives is what was meant for every id and every descriptor, and for a name exactly
when it has no percent sign and no space (`commands_faithful_iff`): each percent sign is dropped,
doubled or undefined, and a space makes two arguments of one.

What Redis makes of a vector is not the matter here.
-/

namespace Smer

open Lib KGRedisClient

namespace ComManger

variable {α : Type}

/-- A task that sends nothing any more. -/
def Ended (task : Task α) : Prop := (∃ a, task = .pure a) ∨ ∃ why, task = Task.abort why

/-- An answer that the client takes for a success. -/
def Succeeds (a : RedisAnswer) : Prop :=
  ∃ reply texts, a = .reply reply ∧ respond reply = some (true, texts)

/-- A task's commands arrive as these argument vectors, in order: after a success it sends the next
one, and after a failure none. -/
def Sends : List (List Bytes) → Task α → Prop
  | [], task => Ended task
  | args :: rest, task => ∃ cmdBuf next, task = .vis (.redisCommand cmdBuf) next ∧
      argv cmdBuf = some args ∧
      ∀ a, (Succeeds a → Sends rest (next a)) ∧ (¬ Succeeds a → Ended (next a))

/-- Each session operation sends what it means. -/
structure Faithful (id : Int32) (name : Bytes) (fd : Int32) : Prop where
  addSessionTalker : Sends
    [[ascii "SADD", sessionKey, idText id],
      [ascii "HMSET", idText id, ascii "name", name, ascii "fd", idText fd]]
    (ComManger.addSessionTalker id name fd)
  isTalkerOnline : Sends [[ascii "SISMEMBER", sessionKey, idText id]] (ComManger.isTalkerOnline id)
  removeSessionTalker : Sends [[ascii "SREM", sessionKey, idText id], [ascii "DEL", idText id]]
    (ComManger.removeSessionTalker id)
  getTalkerFd : Sends [[ascii "hget", idText id, ascii "fd"]] (ComManger.getTalkerFd id)
  getTalkerName : Sends [[ascii "hget", idText id, ascii "name"]] (ComManger.getTalkerName id)

/-! ## Operations -/

theorem onAnswer_of_succeeds {a : RedisAnswer} (h : Succeeds a) :
    ∃ texts, onAnswer a = pure (true, texts) := by
  obtain ⟨reply, texts, rfl, hrespond⟩ := h
  refine ⟨texts, ?_⟩
  rw [onAnswer, hrespond]

theorem onAnswer_of_not_succeeds {a : RedisAnswer} (h : ¬ Succeeds a) :
    (∃ texts, onAnswer a = pure (false, texts)) ∨ ∃ why, onAnswer a = Task.abort why := by
  cases a with
  | noContext => exact .inl ⟨[], rfl⟩
  | noReply => exact .inl ⟨[], rfl⟩
  | reply reply =>
    cases hrespond : respond reply with
    | none => exact .inr ⟨.raised, by rw [onAnswer, hrespond]⟩
    | some result =>
      obtain ⟨ok | ok, texts⟩ := result
      · exact .inl ⟨texts, by rw [onAnswer, hrespond]⟩
      · exact absurd ⟨reply, texts, rfl, hrespond⟩ h

/-- An operation's first command, and what follows its success. -/
theorem sends_cons {cmdBuf : Bytes} {args : List Bytes} {rest : List (List Bytes)}
    {result : Bool × List Bytes → Task α} (hargv : argv cmdBuf = some args)
    (success : ∀ texts, Sends rest (result (true, texts)))
    (failure : ∀ texts, Ended (result (false, texts))) :
    Sends (args :: rest) (.vis (.redisCommand cmdBuf) fun a => onAnswer a >>= result) := by
  refine ⟨cmdBuf, _, rfl, hargv, fun a => ⟨fun h => ?_, fun h => ?_⟩⟩
  · obtain ⟨texts, hanswer⟩ := onAnswer_of_succeeds h
    rw [hanswer]
    exact success texts
  · rcases onAnswer_of_not_succeeds h with ⟨texts, hanswer⟩ | ⟨why, hanswer⟩
    · rw [hanswer]
      exact failure texts
    · rw [hanswer]
      exact .inr ⟨why, Task.abort_bind why result⟩

/-- The operations that send one command send what they mean. -/
theorem sends_isTalkerOnline (id : Int32) :
    Sends [[ascii "SISMEMBER", sessionKey, idText id]] (ComManger.isTalkerOnline id) := by
  rw [isTalkerOnline_eq]
  refine sends_cons (argv_sismember id) (fun texts => ?_) fun texts => .inl ⟨_, rfl⟩
  cases texts with
  | nil => exact .inr ⟨_, rfl⟩
  | cons first rest => exact .inl ⟨_, rfl⟩

theorem sends_getTalkerFd (id : Int32) :
    Sends [[ascii "hget", idText id, ascii "fd"]] (ComManger.getTalkerFd id) := by
  rw [getTalkerFd_eq]
  refine sends_cons (argv_hgetFd id) (fun texts => ?_) fun texts => .inl ⟨_, rfl⟩
  cases texts with
  | nil => exact .inr ⟨_, rfl⟩
  | cons first rest => exact .inl ⟨_, rfl⟩

theorem sends_getTalkerName (id : Int32) :
    Sends [[ascii "hget", idText id, ascii "name"]] (ComManger.getTalkerName id) := by
  rw [getTalkerName_eq]
  refine sends_cons (argv_hgetName id) (fun texts => ?_) fun texts => .inl ⟨_, rfl⟩
  cases texts with
  | nil => exact .inr ⟨_, rfl⟩
  | cons first rest => exact .inl ⟨_, rfl⟩

theorem sends_removeSessionTalker (id : Int32) :
    Sends [[ascii "SREM", sessionKey, idText id], [ascii "DEL", idText id]]
      (ComManger.removeSessionTalker id) := by
  rw [removeSessionTalker_eq]
  refine sends_cons (argv_srem id) (fun texts => ?_) fun texts => .inl ⟨_, rfl⟩
  exact sends_cons (argv_del id) (fun texts => .inl ⟨_, rfl⟩) fun texts => .inl ⟨_, rfl⟩

/-! ## The name -/

variable {id fd : Int32} {name : Bytes}

/-- The two formats and the cut give the name back as one word exactly when it has no percent sign
and no space. -/
theorem words_twice_iff (hne : name ≠ []) :
    (∃ text sent, expand name [] = some text ∧ expand text [] = some sent ∧ words sent = [name]) ↔
      (37 : UInt8) ∉ name ∧ (32 : UInt8) ∉ name := by
  constructor
  · rintro ⟨text, sent, hname, htext, hwords⟩
    have hcount := length_flatten_words sent
    rw [hwords, List.flatten_singleton] at hcount
    have hsent := expand_length_le htext
    have hpercent : (37 : UInt8) ∉ name := by
      intro hmem
      have hlt := expand_length_lt hname hmem
      omega
    rw [expand_eq_self hpercent] at hname
    cases hname
    rw [expand_eq_self hpercent] at htext
    cases htext
    exact ⟨hpercent, List.count_eq_zero.mp (by omega)⟩
  · rintro ⟨hpercent, hspace⟩
    exact ⟨name, name, expand_eq_self hpercent, expand_eq_self hpercent,
      words_eq_singleton hspace hne⟩

/-- The record of a session is written with the name as one argument exactly when the name comes
back. -/
theorem sends_writeRecord_iff (texts : List Bytes) :
    Sends [[ascii "HMSET", idText id, ascii "name", name, ascii "fd", idText fd]]
        (writeRecord id name fd (true, texts)) ↔
      ∃ text sent, expand name [] = some text ∧ expand text [] = some sent ∧
        words sent = [name] := by
  rw [writeRecord]
  cases hname : expand name [] with
  | none =>
    refine iff_of_false ?_ ?_
    · rintro ⟨cmdBuf, next, htask, -⟩
      cases htask
    · rintro ⟨text, sent, htext, -⟩
      cases htext
  | some text =>
    constructor
    · rintro ⟨cmdBuf, next, htask, hargv, -⟩
      cases htask
      rw [argv_hmset] at hargv
      obtain ⟨sent, hsent, hargs⟩ := Option.map_eq_some_iff.mp hargv
      refine ⟨text, sent, rfl, hsent, ?_⟩
      have htail : words sent ++ [ascii "fd", idText fd] = [name, ascii "fd", idText fd] := by
        simpa only [List.cons.injEq, true_and] using hargs
      exact List.append_cancel_right htail
    · rintro ⟨text', sent, htext, hsent, hwords⟩
      cases htext
      refine sends_cons ?_ (fun texts => .inl ⟨_, rfl⟩) fun texts => .inl ⟨_, rfl⟩
      rw [argv_hmset, hsent, Option.map_some, hwords]
      rfl

theorem sends_addSessionTalker_iff (id fd : Int32) (hzero : (0 : UInt8) ∉ name)
    (hpos : 1 ≤ name.length) (hlen : name.length ≤ 23) :
    Sends [[ascii "SADD", sessionKey, idText id],
        [ascii "HMSET", idText id, ascii "name", name, ascii "fd", idText fd]]
        (addSessionTalker id name fd) ↔
      (37 : UInt8) ∉ name ∧ (32 : UInt8) ∉ name := by
  rw [addSessionTalker_eq id fd hzero (hlen.trans (by decide)),
    ← words_twice_iff (List.ne_nil_of_length_pos hpos)]
  constructor
  · rintro ⟨cmdBuf, next, htask, -, hnext⟩
    cases htask
    have hrecord : Sends _ (writeRecord id name fd (true, [toText 1])) :=
      (hnext (.reply (.integer 1))).1 ⟨.integer 1, _, rfl, rfl⟩
    exact (sends_writeRecord_iff _).mp hrecord
  · intro comes
    exact sends_cons (argv_sadd id) (fun texts => (sends_writeRecord_iff texts).mpr comes)
      fun texts => .inl ⟨_, rfl⟩

/-- **Every session operation sends what it means exactly when the name has no percent sign and no
space.** -/
theorem commands_faithful_iff (id fd : Int32) (hzero : (0 : UInt8) ∉ name) (hpos : 1 ≤ name.length)
    (hlen : name.length ≤ 23) :
    Faithful id name fd ↔ (37 : UInt8) ∉ name ∧ (32 : UInt8) ∉ name := by
  rw [← sends_addSessionTalker_iff id fd hzero hpos hlen]
  constructor
  · intro faithful
    exact faithful.addSessionTalker
  · intro hadd
    exact ⟨hadd, sends_isTalkerOnline id, sends_removeSessionTalker id, sends_getTalkerFd id,
      sends_getTalkerName id⟩

theorem commands_faithful_iff_ann :
    Faithful 7 (ascii "ann") 5 ↔ (37 : UInt8) ∉ ascii "ann" ∧ (32 : UInt8) ∉ ascii "ann" :=
  commands_faithful_iff 7 5 (by decide) (by decide) (by decide)

/-- The name `a b` arrives as two arguments. -/
theorem name_split : ¬ ∀ (id fd : Int32) (name : Bytes), (0 : UInt8) ∉ name → 1 ≤ name.length →
    name.length ≤ 23 → Faithful id name fd := by
  intro claim
  have hsends := (claim 7 5 (ascii "a b") (by decide) (by decide) (by decide)).addSessionTalker
  have hplain := (sends_addSessionTalker_iff 7 5 (by decide) (by decide) (by decide)).mp hsends
  exact hplain.2 (by decide)

end ComManger

end Smer
