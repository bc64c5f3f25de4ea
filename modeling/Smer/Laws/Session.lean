import Smer.Communication.Sessions

/-!
# The session store as a finite map

The session operations are meant to keep a finite map from user ids to names and descriptors
(`SessionMap`). After any sequence of calls Redis represents that map (`Represents`, kept by every
call: `represents_step`, `represents_run`), and the membership test reads it back for every id.

The two lookups read it back for the ids of the map only. For an absent id Redis answers nil, the
client makes it the empty string, and the lookups answer the descriptor 0 and the empty name where
they have a failure answer of their own. So a user's answers are those of the map exactly when the
last call for that user was an `addSessionTalker` (`agrees_iff`).

The calls come one after the other and Redis answers them. Calls at once are in
`Laws.SessionWindows`, and failing ones in `Laws.SessionWrites`.
-/

namespace Smer

open Lib ComManger

/-- A name that is one word of a command: it is sent as it is. -/
structure PlainName where
  text : Bytes
  ne_nil : text ≠ []
  short : text.length < nameMaxLen
  no_zero : (0 : UInt8) ∉ text
  no_space : (32 : UInt8) ∉ text
  no_percent : (37 : UInt8) ∉ text

/-- A call of one of the two writing operations. -/
inductive SessionCall where
  | add (id : Int32) (name : PlainName) (fd : Int32)
  | remove (id : Int32)

namespace SessionCall

def id : SessionCall → Int32
  | add id _ _ => id
  | remove id => id

/-- The operation that is called. -/
def task : SessionCall → Task Bool
  | add id name fd => addSessionTalker id name.text fd
  | remove id => removeSessionTalker id

end SessionCall

/-! ## The map -/

/-- What the session store is for: who is logged in, under which name, on which connection. -/
abbrev SessionMap := Int32 → Option (PlainName × Int32)

/-- One call on the map. -/
def SessionMap.step (m : SessionMap) : SessionCall → SessionMap
  | .add id name fd => Function.update m id (some (name, fd))
  | .remove id => Function.update m id none

/-- The map after a sequence of calls, from the empty one. -/
def sessionMap (calls : List SessionCall) : SessionMap :=
  calls.foldl SessionMap.step fun _ => none

/-- The world after a sequence of calls. -/
def callAll (E : Mysql) (w : World) (calls : List SessionCall) : World :=
  calls.foldl (fun w call => (call.task.run (World.answer E) w).2) w

/-- Redis holds the map: a user's membership, descriptor and name are the map's, and a user who is
not in the map has no fields. -/
def Represents (redis : RedisStore) (m : SessionMap) : Prop :=
  ∀ id, match m id with
    | some (name, fd) => Online redis id ∧
        (redis.hashes (idText id)).lookup (ascii "fd") = some (idText fd) ∧
        (redis.hashes (idText id)).lookup (ascii "name") = some name.text
    | none => ¬ Online redis id ∧
        (redis.hashes (idText id)).lookup (ascii "fd") = none ∧
        (redis.hashes (idText id)).lookup (ascii "name") = none

theorem represents_empty : Represents .empty fun _ => none := fun _ =>
  ⟨Finset.notMem_empty _, AList.lookup_empty _, AList.lookup_empty _⟩

/-! ## A call keeps it -/

/-- A user's hash with a name and a descriptor written to it. -/
def record (redis : RedisStore) (id : Int32) (name : PlainName) (fd : Int32) : RedisHash :=
  ((redis.hashes (idText id)).insert (ascii "name") name.text).insert (ascii "fd") (idText fd)

/-- The fields that are written for a plain name: one word for the name, and the descriptor. -/
theorem sessionFields_plain (redis : RedisStore) (id fd : Int32) (name : PlainName) :
    sessionFields redis id name.text fd = some (record redis id name fd) := by
  rw [sessionFields, words_eq_singleton name.no_space name.ne_nil]
  rfl

/-- What a call leaves behind. -/
theorem run_add {E : Mysql} {w : World} (normal : w.redisFaults = []) (id fd : Int32)
    (name : PlainName) : (addSessionTalker id name.text fd).run (World.answer E) w =
      (.ok true, { w with redis :=
        (enter w.redis id).setHash (idText id) (record (enter w.redis id) id name fd) }) := by
  have hexpand := expand_eq_self name.no_percent
  have hlen : name.text.length ≤ 60 := by
    have := name.short
    have hmax : nameMaxLen = 24 := rfl
    omega
  rw [run_addSessionTalker normal id fd name.no_zero hlen hexpand hexpand, recorded,
    sessionFields_plain]

/-- **A call keeps the representation**, for the map after the call. -/
theorem represents_step {E : Mysql} {w : World} {m : SessionMap} (normal : w.redisFaults = [])
    (holds : Represents w.redis m) (call : SessionCall) :
    (call.task.run (World.answer E) w).2.redisFaults = [] ∧
      Represents (call.task.run (World.answer E) w).2.redis (m.step call) := by
  cases call with
  | add id name fd =>
    rw [SessionCall.task, run_add normal]
    refine ⟨normal, fun other => ?_⟩
    by_cases hother : other = id
    · rw [hother, SessionMap.step, Function.update_self]
      refine ⟨online_enter.mpr (.inl rfl), ?_, ?_⟩
      · rw [RedisStore.setHash_hashes_self]
        exact AList.lookup_insert _
      · rw [RedisStore.setHash_hashes_self, record, AList.lookup_insert_ne (by decide)]
        exact AList.lookup_insert _
    · have hkey : idText other ≠ idText id := fun h => hother (idText_injective h)
      have hhash : ((enter w.redis id).setHash (idText id)
          (record (enter w.redis id) id name fd)).hashes (idText other) =
            w.redis.hashes (idText other) := by
        rw [RedisStore.setHash_hashes_ne _ hkey, enter, RedisStore.setSet_hashes]
      have h := holds other
      rw [SessionMap.step, Function.update_of_ne hother, hhash, online_setHash]
      cases hm : m other with
      | some entry =>
        rw [hm] at h
        exact ⟨online_enter.mpr (.inr h.1), h.2⟩
      | none =>
        rw [hm] at h
        exact ⟨fun hmem => (online_enter.mp hmem).elim hother h.1, h.2⟩
  | remove id =>
    rw [SessionCall.task, run_removeSessionTalker normal]
    refine ⟨normal, fun other => ?_⟩
    by_cases hother : other = id
    · rw [hother, SessionMap.step, Function.update_self, RedisStore.delKey_hashes_self,
        online_delKey]
      exact ⟨fun hmem => (online_leave.mp hmem).2 rfl, AList.lookup_empty _, AList.lookup_empty _⟩
    · have hkey : idText other ≠ idText id := fun h => hother (idText_injective h)
      have hhash : ((leave w.redis id).delKey (idText id)).hashes (idText other) =
          w.redis.hashes (idText other) := by
        rw [RedisStore.delKey_hashes_ne _ hkey, leave, RedisStore.setSet_hashes]
      have h := holds other
      rw [SessionMap.step, Function.update_of_ne hother, hhash, online_delKey]
      cases hm : m other with
      | some entry =>
        rw [hm] at h
        exact ⟨online_leave.mpr ⟨h.1, hother⟩, h.2⟩
      | none =>
        rw [hm] at h
        exact ⟨fun hmem => h.1 (online_leave.mp hmem).1, h.2⟩

/-- Any sequence of calls keeps the representation, and Redis answers all of them. -/
theorem represents_run {E : Mysql} (calls : List SessionCall) :
    ∀ {w : World} {m : SessionMap}, w.redisFaults = [] → Represents w.redis m →
      (callAll E w calls).redisFaults = [] ∧
        Represents (callAll E w calls).redis (calls.foldl SessionMap.step m) := by
  induction calls with
  | nil => exact fun normal holds => ⟨normal, holds⟩
  | cons call calls ih =>
    intro w m normal holds
    obtain ⟨normal', holds'⟩ := represents_step (E := E) normal holds call
    exact ih normal' holds'

/-! ## What the queries answer -/

/-- What the three queries answer for a user. -/
structure Answers where
  online : Except Effect Bool
  fd : Except Effect Int32
  name : Except Effect (Option Bytes)

def answers (E : Mysql) (w : World) (id : Int32) : Answers where
  online := ((isTalkerOnline id).run (World.answer E) w).1
  fd := ((getTalkerFd id).run (World.answer E) w).1
  name := ((getTalkerName id).run (World.answer E) w).1

/-- What they answer of a map: a user who is not in it has no descriptor and no name. -/
def SessionMap.answers (m : SessionMap) (id : Int32) : Answers :=
  match m id with
  | some (name, fd) => ⟨.ok true, .ok fd, .ok (some name.text)⟩
  | none => ⟨.ok false, .ok (-1), .ok none⟩

/-- What they answer when Redis represents the map. -/
theorem answers_of_represents {E : Mysql} {w : World} {m : SessionMap} (normal : w.redisFaults = [])
    (holds : Represents w.redis m) (id : Int32) :
    answers E w id = match m id with
      | some (name, fd) => ⟨.ok true, .ok fd, .ok (some name.text)⟩
      | none => ⟨.ok false, .ok 0, .ok (some [])⟩ := by
  have h := holds id
  rw [answers, run_isTalkerOnline normal, run_getTalkerFd normal, run_getTalkerName normal]
  cases hm : m id with
  | some entry =>
    obtain ⟨name, fd⟩ := entry
    rw [hm] at h
    obtain ⟨hmem, hfd, hname⟩ := h
    rw [hfd, hname, decide_eq_true hmem]
    simp only [found, Option.getD_some, cstr_idText]
    rw [idText, atoi_toText]
  | none =>
    rw [hm] at h
    obtain ⟨hmem, hfd, hname⟩ := h
    rw [hfd, hname, decide_eq_false hmem]
    rfl

/-- A world whose Redis is empty and answers every command normally. -/
def World.fresh (w : World) : Prop := w.redis = .empty ∧ w.redisFaults = []

/-- The store agrees with the map on a user, and goes on doing so whatever is called for others. -/
def Agrees (E : Mysql) (w : World) (calls : List SessionCall) (id : Int32) : Prop :=
  answers E (callAll E w calls) id = (sessionMap calls).answers id ∧
    ∀ call : SessionCall, call.id ≠ id →
      answers E (callAll E w (calls ++ [call])) id = answers E (callAll E w calls) id

theorem answers_callAll {E : Mysql} {w : World} (fresh : w.fresh) (calls : List SessionCall)
    (id : Int32) : answers E (callAll E w calls) id = match sessionMap calls id with
      | some (name, fd) => ⟨.ok true, .ok fd, .ok (some name.text)⟩
      | none => ⟨.ok false, .ok 0, .ok (some [])⟩ := by
  obtain ⟨hempty, normal⟩ := fresh
  obtain ⟨normal', holds⟩ := represents_run (E := E) calls normal
    (hempty ▸ represents_empty)
  exact answers_of_represents normal' holds id

/-- A call for another user leaves a user's entry of the map alone. -/
theorem sessionMap_other (calls : List SessionCall) {call : SessionCall} {id : Int32}
    (hother : call.id ≠ id) : sessionMap (calls ++ [call]) id = sessionMap calls id := by
  rw [sessionMap, List.foldl_append]
  cases call with
  | add other name fd => exact Function.update_of_ne (Ne.symm hother) ..
  | remove other => exact Function.update_of_ne (Ne.symm hother) ..

/-- **The store answers as the map does exactly for the users whose last call was an
`addSessionTalker`.** -/
theorem agrees_iff (E : Mysql) {w : World} (fresh : w.fresh) (calls : List SessionCall)
    (id : Int32) : Agrees E w calls id ↔ (sessionMap calls id).isSome := by
  have hframe : ∀ call : SessionCall, call.id ≠ id →
      answers E (callAll E w (calls ++ [call])) id = answers E (callAll E w calls) id := by
    intro call hother
    rw [answers_callAll fresh, answers_callAll fresh, sessionMap_other calls hother]
  have hself := answers_callAll (E := E) fresh calls id
  cases hm : sessionMap calls id with
  | some entry =>
    rw [hm] at hself
    exact iff_of_true ⟨by rw [hself, SessionMap.answers, hm], hframe⟩ rfl
  | none =>
    rw [hm] at hself
    refine iff_of_false (fun h => ?_) Bool.false_ne_true
    have hagree := h.1
    rw [hself, SessionMap.answers, hm] at hagree
    have hfd : (.ok 0 : Except Effect Int32) = .ok (-1) := congrArg Answers.fd hagree
    cases hfd

/-- A server with nothing stored and nothing failing. -/
def freshWorld : World := ⟨[], .empty, [], [], []⟩

def ann : PlainName := ⟨ascii "ann", by decide, by decide, by decide, by decide, by decide⟩

theorem agrees_iff_relogin : Agrees .reference freshWorld
    [.add 7 ann 5, .remove 7, .add 7 ann 6] 7 :=
  (agrees_iff .reference ⟨rfl, rfl⟩ _ 7).mpr rfl

/-- A user who has logged in and out again still has a descriptor: it is 0. -/
theorem answers_after_logout :
    ¬ ∀ (E : Mysql) (w : World) (calls : List SessionCall) (id : Int32), w.fresh →
      Agrees E w calls id := by
  intro claim
  have fresh : freshWorld.fresh := ⟨rfl, rfl⟩
  have hagree := (claim .reference freshWorld [.add 7 ann 5, .remove 7] 7 fresh).1
  rw [answers_callAll fresh] at hagree
  have hfd : (.ok 0 : Except Effect Int32) = .ok (-1) := congrArg Answers.fd hagree
  cases hfd

end Smer
