import Smer.Laws.Registration

/-!
# What a registration answers when the database fails

A registration makes up to three database calls, and each can fail in more than one way. The law
asks of every combination that the task answers once, and accepts exactly when it has inserted its
row. It holds on the paths where every query behind a result answers one (`truthful_iff`): a null
result set is dereferenced, and when the largest `userid` cannot be read back the task refuses a
registration that it has made.

The task runs alone. Registrations at once are in `Laws.Registration` and `Laws.RegistrationId`.
-/

namespace Smer

open Lib HandleMsg MysqlPool

/-! ## Outcomes -/

/-- What the three database calls come to, should they be made. -/
structure RegOutcomes where
  select : Except SqlFault ResultSet
  insert : Except SqlFault Nat
  maxUserid : Except SqlFault ResultSet

/-- The surroundings of one task: the outcomes to come, the rows inserted, the objects pushed. -/
structure RegWorld where
  queries : List (Except SqlFault ResultSet)
  updates : List (Except SqlFault Nat)
  inserted : Nat
  outbound : List TransObj

namespace RegWorld

def start (o : RegOutcomes) : RegWorld := ⟨[o.select, o.maxUserid], [o.insert], 0, []⟩

/-- Performs one operation: a database call gets the next outcome of its kind, a push is recorded,
and everything else gets no answer. -/
def answer : (o : Effect) → RegWorld → Option (o.Ans × RegWorld)
  | .executeQuery _, s =>
    match s.queries with
    | r :: queries => some (r, { s with queries := queries })
    | [] => none
  | .executeUpdate _, s =>
    match s.updates with
    | .ok count :: updates =>
      some (.ok count, { s with updates := updates, inserted := s.inserted + count })
    | .error fault :: updates => some (.error fault, { s with updates := updates })
    | [] => none
  | .push obj, s => some ((), { s with outbound := s.outbound ++ [obj] })
  | .redisCommand _, _ => none
  | .abort _, _ => none

end RegWorld

/-- From this stage on, the task returns, with one reply more. The reply is an acceptance iff a row
has been inserted, and it is no refusal then. -/
def TruthfulFrom (stage : RegStage) (s : RegWorld) : Prop :=
  ∃ reply s', stage.prog.run RegWorld.answer s = (.ok (), s') ∧
    s'.outbound = s.outbound ++ [reply] ∧
    (reply.msgType = msgRegAccept ↔ 0 < s'.inserted) ∧
    (reply.msgType = msgRegRefuse → s'.inserted = 0)

/-- The outcomes on which a registration is truthful. -/
def RegOutcomes.Healthy (o : RegOutcomes) : Prop :=
  match o.select with
  | .error _ => False
  | .ok (_ :: _) => True
  | .ok [] =>
    match o.insert with
    | .error .escapes => False
    | .error .noConnection | .error .threw => True
    | .ok 0 => True
    | .ok (_ + 1) => ∃ row rows id, o.maxUserid = .ok (row :: rows) ∧ row.getInt .id = some id

/-! ## Stage by stage -/

section Stages

variable {s : RegWorld}

theorem truthful_answer (obj : TransObj) : TruthfulFrom (.answer obj) s ↔
    (obj.msgType = msgRegAccept ↔ 0 < s.inserted) ∧
      (obj.msgType = msgRegRefuse → s.inserted = 0) := by
  constructor
  · rintro ⟨reply, s', hrun, hout, haccept, hrefuse⟩
    cases hrun
    have hreply := List.append_cancel_left hout
    cases hreply
    exact ⟨haccept, hrefuse⟩
  · rintro ⟨haccept, hrefuse⟩
    exact ⟨obj, _, rfl, rfl, haccept, hrefuse⟩

/-- A task that ends before its answer is not truthful, since the law asks for one answer. -/
theorem not_truthful_stop (why : Abort) : ¬ TruthfulFrom (.stop why) s := by
  rintro ⟨reply, s', hrun, -⟩
  cases hrun

theorem truthful_select {t : Registration} {r : Except SqlFault ResultSet}
    {queries : List (Except SqlFault ResultSet)} (hqueries : s.queries = r :: queries) :
    TruthfulFrom (.select t) s ↔
      TruthfulFrom (RegStage.afterSelect t r) { s with queries := queries } := by
  have hanswer : RegWorld.answer (.executeQuery t.select) s =
      some (r, { s with queries := queries }) := by
    simp only [RegWorld.answer, hqueries]
  unfold TruthfulFrom
  rw [RegStage.prog_select, Prog.run_vis_some hanswer]

theorem truthful_insert_ok {t : Registration} {count : Nat} {updates : List (Except SqlFault Nat)}
    (hupdates : s.updates = .ok count :: updates) :
    TruthfulFrom (.insert t) s ↔ TruthfulFrom (RegStage.afterInsert t (.ok count))
      { s with updates := updates, inserted := s.inserted + count } := by
  have hanswer : RegWorld.answer (.executeUpdate t.insert) s =
      some (.ok count, { s with updates := updates, inserted := s.inserted + count }) := by
    simp only [RegWorld.answer, hupdates]
  unfold TruthfulFrom
  rw [RegStage.prog_insert, Prog.run_vis_some hanswer]

theorem truthful_insert_error {t : Registration} {fault : SqlFault}
    {updates : List (Except SqlFault Nat)} (hupdates : s.updates = .error fault :: updates) :
    TruthfulFrom (.insert t) s ↔
      TruthfulFrom (RegStage.afterInsert t (.error fault)) { s with updates := updates } := by
  have hanswer : RegWorld.answer (.executeUpdate t.insert) s =
      some (.error fault, { s with updates := updates }) := by
    simp only [RegWorld.answer, hupdates]
  unfold TruthfulFrom
  rw [RegStage.prog_insert, Prog.run_vis_some hanswer]

theorem truthful_accept {t : Registration} {r : Except SqlFault ResultSet}
    {queries : List (Except SqlFault ResultSet)} (hqueries : s.queries = r :: queries) :
    TruthfulFrom (.accept t) s ↔
      TruthfulFrom (RegStage.afterMaxUserid t r) { s with queries := queries } := by
  have hanswer : RegWorld.answer (.executeQuery maxUseridText) s =
      some (r, { s with queries := queries }) := by
    simp only [RegWorld.answer, hqueries]
  unfold TruthfulFrom
  rw [RegStage.prog_accept, Prog.run_vis_some hanswer]

/-- A refusal is truthful as long as nothing is inserted. -/
theorem truthful_refusal (t : Registration) (text : Bytes) (none : s.inserted = 0) :
    TruthfulFrom (.answer (t.refusal text)) s := by
  have hrefuse : (t.refusal text).msgType = msgRegRefuse := TransObj.setMsg_msgType _ _
  have hne : msgRegRefuse ≠ msgRegAccept := by decide
  rw [truthful_answer, hrefuse, none]
  exact ⟨iff_of_false hne (Nat.lt_irrefl 0), fun _ => rfl⟩

/-- Behind the insert the task answers truthfully iff it reads a `userid` back. -/
theorem truthful_afterMaxUserid (t : Registration) (r : Except SqlFault ResultSet)
    (inserted : 0 < s.inserted) : TruthfulFrom (RegStage.afterMaxUserid t r) s ↔
      ∃ row rows id, r = .ok (row :: rows) ∧ row.getInt .id = some id := by
  rcases r with fault | (_ | ⟨row, rows⟩)
  · have hfailed : ¬ ∃ row rows id, (Except.error fault : Except SqlFault ResultSet) =
        .ok (row :: rows) ∧ row.getInt .id = some id := by
      rintro ⟨row, rows, id, h, -⟩
      cases h
    cases fault with
    | noConnection => exact iff_of_false (not_truthful_stop _) hfailed
    | threw => exact iff_of_false (not_truthful_stop _) hfailed
    | escapes => exact iff_of_false (not_truthful_stop _) hfailed
  · refine iff_of_false ?_ ?_
    · rw [RegStage.afterMaxUserid, truthful_answer]
      rintro ⟨-, hrefuse⟩
      have hzero := hrefuse (TransObj.setMsg_msgType _ _)
      omega
    · rintro ⟨row, rows, id, h, -⟩
      cases h
  · cases hid : row.getInt .id with
    | none =>
      rw [RegStage.afterMaxUserid, hid]
      refine iff_of_false (not_truthful_stop _) ?_
      rintro ⟨row', rows', id, h, hid'⟩
      cases h
      rw [hid] at hid'
      cases hid'
    | some id =>
      rw [RegStage.afterMaxUserid, hid]
      refine iff_of_true ?_ ⟨row, rows, id, rfl, hid⟩
      have haccept : (t.acceptance id).msgType = msgRegAccept := TransObj.setMsg_msgType _ _
      have hne : msgRegAccept ≠ msgRegRefuse := by decide
      refine (truthful_answer _).mpr ?_
      rw [haccept]
      exact ⟨iff_of_true rfl inserted, fun h => absurd h hne⟩

end Stages

/-! ## The law -/

/-- The task of a registration on given outcomes is truthful: it returns, so it never reads a null
result set, it pushes one reply, and the reply says whether the row was inserted. -/
def Truthful (t : Registration) (o : RegOutcomes) : Prop :=
  ∃ reply s, t.task.run RegWorld.answer (.start o) = (.ok (), s) ∧ s.outbound = [reply] ∧
    (reply.msgType = msgRegAccept ↔ 0 < s.inserted) ∧
    (reply.msgType = msgRegRefuse → s.inserted = 0)

/-- **A registration answers truthfully exactly on the healthy outcomes.** -/
theorem truthful_iff (t : Registration) (o : RegOutcomes) : Truthful t o ↔ o.Healthy := by
  obtain ⟨select, insert, maxUserid⟩ := o
  show TruthfulFrom (.select t) (.start ⟨select, insert, maxUserid⟩) ↔ _
  rw [truthful_select rfl, RegOutcomes.Healthy]
  rcases select with (_ | _ | _) | (_ | ⟨row, rows⟩)
  · exact iff_of_false (not_truthful_stop _) id
  · exact iff_of_false (not_truthful_stop _) id
  · exact iff_of_false (not_truthful_stop _) id
  · rw [RegStage.afterSelect]
    rcases insert with (_ | _ | _) | (_ | count)
    · rw [truthful_insert_error rfl]
      exact iff_of_true (truthful_refusal _ _ rfl) trivial
    · rw [truthful_insert_error rfl]
      exact iff_of_true (truthful_refusal _ _ rfl) trivial
    · rw [truthful_insert_error rfl]
      exact iff_of_false (not_truthful_stop _) id
    · rw [truthful_insert_ok rfl, RegStage.afterInsert, if_neg (Nat.lt_irrefl 0)]
      exact iff_of_true (truthful_refusal _ _ rfl) trivial
    · rw [truthful_insert_ok rfl, RegStage.afterInsert, if_pos (Nat.succ_pos count),
        truthful_accept rfl]
      exact truthful_afterMaxUserid _ _ (by show 0 < 0 + (count + 1); omega)
  · exact iff_of_true (truthful_refusal _ _ rfl) trivial

/-- The row is inserted, no connection is left for the largest `userid`, and the task dies on a null
result set: nothing is answered. -/
theorem registration_unanswered : ¬ ∀ (t : Registration) (o : RegOutcomes), Truthful t o := by
  intro claim
  have truthful : TruthfulFrom (.select (bobReg 4))
      (.start ⟨.ok [], .ok 1, .error .noConnection⟩) := claim _ _
  rw [truthful_select rfl, RegStage.afterSelect, truthful_insert_ok rfl, RegStage.afterInsert,
    if_pos Nat.one_pos, truthful_accept rfl] at truthful
  exact not_truthful_stop _ truthful

end Smer
