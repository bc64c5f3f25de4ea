import Smer.HandleMsg.HandleMsgServer
import Smer.Communication.Commands

/-!
# What the server's tasks perform

One lemma for each operation and each task: it performs only effects of a set when the set has the
effects of its parts, and every way to stop. The sets of the later modules (`Footprint`, `Pushes`,
`Whole`) are instances.
-/

namespace Smer

open Lib ComManger KGRedisClient MysqlPool

theorem push_only {P : Effect → Prop} {obj : TransObj} (hobj : P (.push obj)) :
    (Task.push obj).Only P := .call hobj

section Performs

variable {P : Effect → Prop} (aborts : ∀ why, P (.abort why))
include aborts

theorem abort_only {α : Type} (why : Abort) : (Task.abort why : Task α).Only P :=
  .vis (aborts why) fun e => e.elim

/-! ## The operations -/

theorem execQuery_only {format : Bytes} {args : List FmtArg}
    (sends : ∀ cmd, vsnprintf cmdBound format args = some cmd → P (.executeQuery cmd)) :
    (execQuery format args).Only P := by
  unfold execQuery
  split
  · exact abort_only aborts _
  · rename_i cmd hcmd
    refine .vis (sends cmd hcmd) fun r => ?_
    split
    · exact .pure _
    · exact .pure _
    · exact .pure _
    · exact abort_only aborts _

theorem execInsert_only {format : Bytes} {args : List FmtArg}
    (sends : ∀ cmd, vsnprintf cmdBound format args = some cmd → P (.executeUpdate cmd)) :
    (execInsert format args).Only P := by
  unfold execInsert
  split
  · exact abort_only aborts _
  · rename_i cmd hcmd
    refine .vis (sends cmd hcmd) fun r => ?_
    split
    · exact .pure _
    · exact .pure _
    · exact .pure _
    · exact abort_only aborts _

theorem onAnswer_only (a : RedisAnswer) : (onAnswer a).Only P := by
  unfold onAnswer
  split
  · exact .pure _
  · exact .pure _
  · split
    · exact .ret _
    · exact abort_only aborts _

theorem executeCmd_only {format : Bytes} {args : List FmtArg}
    (sends : ∀ cmdBuf, P (.redisCommand cmdBuf)) : (executeCmd_spop format args).Only P := by
  unfold executeCmd_spop
  split
  · exact abort_only aborts _
  · exact .vis (sends _) fun a => onAnswer_only aborts a

theorem isTalkerOnline_only {id : Int32} (sends : P (.redisCommand (sismemberCmd id))) :
    (isTalkerOnline id).Only P := by
  rw [isTalkerOnline_eq]
  refine .vis sends fun a => (onAnswer_only aborts a).bind fun result => ?_
  unfold scontainResult
  split
  · exact .pure _
  · exact abort_only aborts _
  · exact .pure _

theorem getTalkerFd_only {id : Int32} (sends : P (.redisCommand (hgetFdCmd id))) :
    (getTalkerFd id).Only P := by
  rw [getTalkerFd_eq]
  refine .vis sends fun a => (onAnswer_only aborts a).bind fun result => ?_
  unfold fdResult
  split
  · exact .pure _
  · exact abort_only aborts _
  · exact .pure _

theorem getTalkerName_only {id : Int32} (sends : P (.redisCommand (hgetNameCmd id))) :
    (getTalkerName id).Only P := by
  rw [getTalkerName_eq]
  refine .vis sends fun a => (onAnswer_only aborts a).bind fun result => ?_
  unfold nameResult
  split
  · exact .pure _
  · exact abort_only aborts _
  · exact .pure _

/-- The name can be any text, so the second command can be any. -/
theorem addSessionTalker_only {id fd : Int32} {name : Bytes}
    (sends : ∀ cmdBuf, P (.redisCommand cmdBuf)) : (addSessionTalker id name fd).Only P := by
  refine (executeCmd_only aborts sends).bind fun result => ?_
  dsimp only
  split
  · exact (executeCmd_only aborts sends).bind fun result => .ret _
  · exact .ret _

/-! ## The tasks -/

namespace HandleMsg

variable {obj : TransObj} {fd : Int32} {past : Bytes}

omit aborts in
theorem userSendTask_only (online : ∀ id, (isTalkerOnline id).Only P) (hobj : P (.push obj)) :
    (userSendTask obj).Only P := by
  refine (online _).bind fun online => ?_
  split
  · exact push_only hobj
  · exact .pure _

/-- A registration is answered on the descriptor it came from. -/
theorem userRegTask_only (select : (execQuery selectPassword [.str (obj.getName past)]).Only P)
    (insert : (execInsert insertUser
      [.str (obj.getName past), .int fd, .str (obj.getPasswd past)]).Only P)
    (newId : (execQuery selectMaxUserid []).Only P)
    (answers : ∀ o : TransObj, o.fd = fd → P (.push o)) : (userRegTask obj fd past).Only P := by
  refine select.bind fun rows => ?_
  split
  · exact abort_only aborts _
  · exact push_only (answers _ (TransObj.setMsg_fd _ _))
  · refine insert.bind fun inserted => ?_
    split
    · refine newId.bind fun rows => ?_
      split
      · exact abort_only aborts _
      · exact push_only (answers _ (TransObj.setMsg_fd _ _))
      · split
        · exact abort_only aborts _
        · exact push_only (answers _ (TransObj.setMsg_fd _ _))
    · exact push_only (answers _ (TransObj.setMsg_fd _ _))

theorem userLogTask_only (select : (execQuery selectPasswordUserid [.str (obj.getName past)]).Only P)
    (enters : ∀ id name, (addSessionTalker id name fd).Only P) (answers : ∀ o, P (.push o)) :
    (userLogTask obj fd past).Only P := by
  unfold userLogTask
  split
  · exact push_only (answers _)
  · refine select.bind fun rows => ?_
    split
    · exact push_only (answers _)
    · unfold loginWithRow
      split
      · exact abort_only aborts _
      · split
        · exact push_only (answers _)
        · split
          · exact push_only (answers _)
          · exact (enters _ _).bind fun _ => push_only (answers _)
    · exact push_only (answers _)

/-- A friend request is forwarded, or it goes back as not found. -/
theorem askForFriendTask_only (select : (execQuery selectUserid [.str (obj.getMsg past)]).Only P)
    (online : ∀ id, (isTalkerOnline id).Only P) (talkerFd : ∀ id, (getTalkerFd id).Only P)
    (forwarded : ∀ id talker, P (.push ((obj.setrecverId id).setFd talker)))
    (notFound : P (.push ((obj.setMsgType msgAskForFriendNotFound).setFd fd))) :
    (askForFriendTask obj fd past).Only P := by
  refine select.bind fun rows => ?_
  split
  · exact abort_only aborts _
  · split
    · exact abort_only aborts _
    · refine (online _).bind fun online => ?_
      split
      · exact (talkerFd _).bind fun fd => push_only (forwarded _ _)
      · exact .pure _
  · exact push_only notFound

omit aborts in
theorem askForFriendAcceptTask_only (online : ∀ id, (isTalkerOnline id).Only P)
    (talkerFd : ∀ id, (getTalkerFd id).Only P) (talkerName : ∀ id, (getTalkerName id).Only P)
    (answers : ∀ o, P (.push o)) : (askForFriendAcceptTask obj).Only P := by
  refine (online _).bind fun online => ?_
  split
  · refine (talkerFd _).bind fun fd => (talkerName _).bind fun name => ?_
    split
    · split
      · exact .pure _
      · exact push_only (answers _)
    · exact push_only (answers _)
  · exact .pure _

end HandleMsg

end Performs

end Smer
