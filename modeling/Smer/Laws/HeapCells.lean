import Smer.Laws.Grammar
import Smer.Client.Client

/-!
# What the heap held before a message

A message object is built in a fresh heap cell, and its constructor leaves the text area alone. Of
two runs of `getMsgFromInput` that differ in the cell only, both should return the same object, so
that the client sends nothing that it has not been told.

A login, a registration, a friend's name and a line of talk clear the area before they write it. A
logout and the acceptance of a request write no text and clear nothing, and the client sends all 64
bytes of what was there. The name and the password of a login are formats, and a directive in one of
them prints a word that nobody passed: the standard promises no object then, and none is promised
here. `heapBlind_iff` says that all other lines are blind to the cell.
-/

namespace Smer

open Lib ClientM

namespace Util

/-- Whatever the cell of the message held, the line makes the same message, and the client sends the
same of it. -/
def HeapBlind (past line : Bytes) (c : ClientState) : Prop :=
  ∀ heap heap', ∃ made made' c₁ c₂,
    (getMsgFromInput heap past line).run c = some (made, c₁) ∧
    (getMsgFromInput heap' past line).run c = some (made', c₂) ∧
      made = made' ∧ ∀ client, Client.run .client client [made] = Client.run .client client [made']

/-- A command makes a message without a text: a logout does, and the acceptance of a request that is
there. -/
def Command.Textless (c : ClientState) (cmd : Command) (arg : Bytes) : Prop :=
  match cmd with
  | .logout => True
  | .accRequest => ∃ req, c.reqBuff.getOneRequest (atoi (cstr arg)).toInt = some req
  | _ => False

/-- The line is a command that makes a message without a text, and the player is logged in. -/
def TextlessLine (line : Bytes) (c : ClientState) : Prop :=
  c.player.logined = true ∧ ∃ name cmd arg, (name, cmd) ∈ aliases ∧ (64 : UInt8) ∉ arg ∧
    line = name ++ 64 :: arg ∧ cmd.Textless c arg

/-- The formats of the line, read as C strings, have no directive. -/
def PlainFormats (line : Bytes) : Prop :=
  LineFormats (fun _ fmt => (expand (cstr fmt) []).isSome) line

/-! ## The commands -/

section Commands

variable {past arg : Bytes} {c : ClientState} {cmd : Command}

/-- A text that fits is written over a cleared area, so nothing of the heap cell is left in the
object. -/
theorem setMsg_make_blind {s : Bytes} (hs : s.length < maxTransMsgLen)
    (heap heap' : CharArray maxTransMsgLen) (id recverId : Int32) (msgType len : UInt32)
    (fd : Int32) :
    (TransObj.make heap id recverId msgType len fd).setMsg s =
      (TransObj.make heap' id recverId msgType len fd).setMsg s := by
  rw [TransObj.setMsg, if_neg (Nat.not_le_of_lt hs), TransObj.setMsg,
    if_neg (Nat.not_le_of_lt hs)]
  rfl

/-- A name and a password cover the cell, or make no message. -/
theorem namePasswdObj_blind (msgType : UInt32) (heap heap' : CharArray maxTransMsgLen)
    (past arg : Bytes) (snprintf : Snprintf) :
    namePasswdObj msgType heap past arg snprintf = namePasswdObj msgType heap' past arg snprintf := by
  unfold namePasswdObj
  cases splitInputStr2NameAndPwd arg with
  | none => rfl
  | some parts =>
    obtain ⟨name, pwd⟩ := parts
    simp only [TransObj.setNamePasswd]
    split
    · rfl
    · rfl

/-- A gated command is the same over two cells when it is for a player who is logged in. -/
theorem run_gate_congr {rest rest' : ClientM (Option TransObj)}
    (same : c.player.logined = true → rest.run c = rest'.run c) :
    (tryLoginFirst >>= fun first => if first = true then pure none else rest).run c =
      (tryLoginFirst >>= fun first => if first = true then pure none else rest').run c := by
  cases hlogin : c.player.logined with
  | false =>
    rw [StateT.run_bind, StateT.run_bind]
    obtain ⟨c', hfirst⟩ := run_tryLoginFirst_not hlogin
    rw [hfirst]
    rfl
  | true => rw [run_gate hlogin, run_gate hlogin, same hlogin]

/-- A command whose message has a text is the same over every cell. -/
theorem handler_blind (heap heap' : CharArray maxTransMsgLen) (snprintf : Snprintf)
    (hcmd : ¬(c.player.logined = true ∧ cmd.Textless c arg)) :
    (cmd.handler heap past arg snprintf).run c = (cmd.handler heap' past arg snprintf).run c := by
  have hshort : ¬arg.length ≥ nameMaxLen → (cstr arg).length < maxTransMsgLen := by
    intro hlen
    have hname : nameMaxLen = 24 := rfl
    have hmsg : maxTransMsgLen = 64 := rfl
    have hcstr := cstr_length_le arg
    omega
  cases cmd with
  | login =>
    exact congrArg (fun m => m.run c) (namePasswdObj_blind msgLogin heap heap' past arg snprintf)
  | regin =>
    exact congrArg (fun m => m.run c) (namePasswdObj_blind msgReg heap heap' past arg snprintf)
  | logout => exact run_gate_congr fun hlogin => absurd ⟨hlogin, trivial⟩ hcmd
  | askForFriend | choseTalker =>
    refine run_gate_congr fun _ => ?_
    split
    · rfl
    · rename_i hlen
      simp only [setMsg_make_blind (hshort hlen) heap heap']
  | showFriends => rfl
  | showRequests => rfl
  | accRequest =>
    by_cases hlogin : c.player.logined = true
    · cases hreq : c.reqBuff.getOneRequest (atoi (cstr arg)).toInt with
      | none =>
        refine run_gate_congr fun _ => ?_
        simp only [StateT.run_bind, StateT.run_get, Option.pure_def, Option.bind_eq_bind,
          Option.bind_some]
        split
        · simp only [StateT.run_bind, StateT.run_get, Option.pure_def, Option.bind_eq_bind,
            Option.bind_some, hreq]
        · rfl
      | some req => exact absurd ⟨hlogin, req, hreq⟩ hcmd
    · exact run_gate_congr fun h => absurd h hlogin
  | showMySelf => rfl

/-- A gated command has a result when it has one for a player who is logged in. -/
theorem run_gate_isSome {rest : ClientM (Option TransObj)}
    (returns : c.player.logined = true → (rest.run c).isSome) :
    ((tryLoginFirst >>= fun first => if first = true then pure none else rest).run c).isSome := by
  cases hlogin : c.player.logined with
  | false =>
    obtain ⟨c', hrun⟩ := run_gate_not hlogin rest
    rw [hrun]
    rfl
  | true =>
    rw [run_gate hlogin]
    exact returns hlogin

/-- A command whose message has a text has a result exactly when its formats have no directive. -/
theorem handler_isSome_iff (heap : CharArray maxTransMsgLen)
    (hcmd : ¬(c.player.logined = true ∧ cmd.Textless c arg)) :
    ((cmd.handler heap past arg .standard).run c).isSome ↔
      cmd.Formats (fun _ fmt => (expand (cstr fmt) []).isSome) arg := by
  have standard : ∀ size fmt, (Snprintf.standard size fmt).isSome = (expand fmt []).isSome :=
    fun size fmt => Option.isSome_map
  have formats : ∀ msgType, ((namePasswdObj msgType heap past arg .standard).run c).isSome ↔
      ∀ name pwd, arg = name ++ 124 :: pwd → NameAndPwd name pwd →
        (expand (cstr name) []).isSome ∧ (expand (cstr pwd) []).isSome := by
    intro msgType
    rcases run_namePasswdObj (c := c) past heap .standard arg msgType with
      ⟨hsplit, hrun⟩ | ⟨name, pwd, rfl, hparts, hrun⟩
    · rw [hrun]
      exact iff_of_true rfl fun name pwd harg hparts => absurd hparts (not_parts hsplit harg)
    · rw [forall_parts_iff hparts, ← standard nameMaxLen, ← standard passwordMaxLen]
      split at hrun
      · rename_i returns
        obtain ⟨obj, hobj, -⟩ := hrun
        rw [hobj]
        exact iff_of_true rfl returns
      · rename_i stops
        rw [hrun]
        exact iff_of_false Bool.false_ne_true stops
  cases cmd with
  | login => exact formats msgLogin
  | regin => exact formats msgReg
  | logout => exact iff_of_true (run_gate_isSome fun hlogin => absurd ⟨hlogin, trivial⟩ hcmd) trivial
  | askForFriend | choseTalker =>
    refine iff_of_true (run_gate_isSome fun _ => ?_) trivial
    split <;> rfl
  | showFriends | showRequests => exact iff_of_true (run_gate_isSome fun _ => rfl) trivial
  | accRequest =>
    refine iff_of_true ?_ trivial
    by_cases hlogin : c.player.logined = true
    · cases hreq : c.reqBuff.getOneRequest (atoi (cstr arg)).toInt with
      | none =>
        obtain ⟨told, hrun⟩ := run_accRequest_none past heap .standard arg hlogin hreq
        rw [Command.handler, hrun]
        rfl
      | some req => exact absurd ⟨hlogin, req, hreq⟩ hcmd
    · exact run_gate_isSome fun h => absurd h hlogin
  | showMySelf => exact iff_of_true rfl trivial

/-- Without a text, the message is the cell, and the client says so, if there is a message. -/
theorem run_textless (hlogin : c.player.logined = true) (hcmd : cmd.Textless c arg) :
    (∀ heap snprintf, (cmd.handler heap past arg snprintf).run c = none) ∨
      ∃ (obj : TransObj) (c' : ClientState), ∀ heap snprintf,
        (cmd.handler heap past arg snprintf).run c = some (some { obj with msg := heap }, c') := by
  cases cmd with
  | logout =>
    exact .inr ⟨⟨msgLogout, -1, -1, -1, -1, .fill _ 0⟩, c, fun heap _ => run_gate hlogin _⟩
  | accRequest =>
    obtain ⟨req, hreq⟩ := hcmd
    have hrun := fun heap snprintf => run_accRequest past heap snprintf arg hlogin hreq
    cases hadd : c.player.addFriend (req.getMsg past) req.id with
    | none =>
      simp only [hadd, Option.map_none] at hrun
      exact .inl hrun
    | some added =>
      simp only [hadd, Option.map_some] at hrun
      exact .inr ⟨accObj (.fill _ 0) c req, _, hrun⟩
  | _ => exact hcmd.elim

end Commands

/-! ## The whole line -/

section Line

variable {past line : Bytes} {c : ClientState}

/-- A message without a text tells two cells apart. -/
theorem not_heapBlind (htextless : TextlessLine line c) : ¬HeapBlind past line c := by
  intro hblind
  obtain ⟨hlogin, name, cmd, arg, mem, harg, rfl, hcmd⟩ := htextless
  have hrun : ∀ heap, (getMsgFromInput heap past (name ++ 64 :: arg)).run c =
      (cmd.handler heap past arg .standard).run c := fun heap => by
    rw [getMsgFromInput_command cmd.handler (at_notMem_alias mem) harg (find_alias mem)]
  obtain ⟨made, made', c₁, c₂, hmade, hmade', rfl, -⟩ := hblind (.fill _ 0) (.fill _ 1)
  rw [hrun] at hmade hmade'
  rcases run_textless hlogin hcmd with hnone | ⟨obj, c', hhandler⟩
  · rw [hnone] at hmade
    cases hmade
  · rw [hhandler] at hmade hmade'
    have hsame := (congrArg Prod.fst (Option.some.inj hmade)).trans
      (congrArg Prod.fst (Option.some.inj hmade')).symm
    have hmsg := congrArg (fun o : TransObj => o.msg.bytes.head?) (Option.some.inj hsame)
    cases hmsg

/-- A line without an `@` is talk, which covers the cell when it fits, or nothing. -/
theorem run_talk_blind (hat : (64 : UInt8) ∉ line) (hlen : line.length < maxTransMsgLen)
    (heap heap' : CharArray maxTransMsgLen) :
    (getMsgFromInput heap past line).run c = (getMsgFromInput heap' past line).run c := by
  have hfits : (cstr line).length < maxTransMsgLen := (cstr_length_le line).trans_lt hlen
  rw [getMsgFromInput, getMsgFromInput, splitStr_none hat]
  refine run_gate_congr fun _ => ?_
  rw [talkObj, talkObj, setMsg_make_blind hfits heap heap']

/-- Any other line is the same over every cell, and it has a result exactly when its formats have no
directive. -/
theorem run_line_blind (past : Bytes) (hlen : line.length < maxTransMsgLen)
    (hline : ¬TextlessLine line c) (heap : CharArray maxTransMsgLen) :
    (∀ heap', (getMsgFromInput heap past line).run c = (getMsgFromInput heap' past line).run c) ∧
      (((getMsgFromInput heap past line).run c).isSome ↔ PlainFormats line) := by
  rcases pieces_cases 64 line with hat | ⟨name, arg, rfl, hname⟩
  · refine ⟨run_talk_blind hat hlen heap, iff_of_true ?_ fun name cmd arg _ _ hline => ?_⟩
    · rw [getMsgFromInput, splitStr_none hat]
      exact run_gate_isSome fun _ => rfl
    · rw [hline] at hat
      exact absurd (List.mem_append_right _ List.mem_cons_self) hat
  · by_cases harg : (64 : UInt8) ∈ arg
    · have hmany : ∀ heap, (getMsgFromInput heap past (name ++ 64 :: arg)).run c = some (none, c) :=
        fun heap => getMsgFromInput_many hname harg
      refine ⟨fun heap' => (hmany heap).trans (hmany heap').symm, ?_⟩
      rw [hmany]
      refine iff_of_true rfl fun name' cmd arg' mem harg' hline => ?_
      obtain ⟨-, rfl⟩ := command_inj mem harg' hline
      exact absurd harg harg'
    · by_cases known : ∃ cmd, (name, cmd) ∈ aliases
      · obtain ⟨cmd, mem⟩ := known
        have hcmd : ¬(c.player.logined = true ∧ cmd.Textless c arg) := by
          rintro ⟨hlogin, htextless⟩
          exact hline ⟨hlogin, name, cmd, arg, mem, harg, rfl, htextless⟩
        simp only [getMsgFromInput_command cmd.handler hname harg (find_alias mem), PlainFormats,
          lineFormats_iff harg mem]
        exact ⟨fun heap' => handler_blind heap heap' _ hcmd, handler_isSome_iff heap hcmd⟩
      · have unknown : ∀ cmd, (name, cmd) ∉ aliases := fun cmd mem => known ⟨cmd, mem⟩
        have hnothing : ∀ heap,
            (getMsgFromInput heap past (name ++ 64 :: arg)).run c = some (none, c) :=
          fun heap => run_getMsgFromInput_unknown past heap .standard hname harg unknown
        refine ⟨fun heap' => (hnothing heap).trans (hnothing heap').symm, ?_⟩
        rw [hnothing]
        refine iff_of_true rfl fun name' cmd arg' mem harg' hline => ?_
        obtain ⟨rfl, -⟩ := command_inj mem harg' hline
        exact absurd mem (unknown cmd)

/-- **What the heap held is sent by a logout and by the acceptance of a request**, and by no other
line whose formats have no directive. -/
theorem heapBlind_iff (past : Bytes) {line : Bytes} (c : ClientState)
    (hlen : line.length < maxTransMsgLen) :
    HeapBlind past line c ↔ ¬TextlessLine line c ∧ PlainFormats line := by
  constructor
  · intro hblind
    have hline : ¬TextlessLine line c := fun htextless => not_heapBlind htextless hblind
    refine ⟨hline, (run_line_blind past hlen hline (.fill _ 0)).2.mp ?_⟩
    obtain ⟨made, -, c₁, -, hmade, -⟩ := hblind (.fill _ 0) (.fill _ 0)
    rw [hmade]
    rfl
  · rintro ⟨hline, plain⟩ heap heap'
    obtain ⟨same, returns⟩ := run_line_blind past hlen hline heap
    obtain ⟨⟨made, c'⟩, hmade⟩ := Option.isSome_iff_exists.mp (returns.mpr plain)
    exact ⟨made, made, c', c', hmade, (same heap').symm.trans hmade, rfl, fun _ => rfl⟩

/-- A login without a percent sign does not tell. -/
theorem heapBlind_iff_login : HeapBlind [] (ascii "li@bob|secret") startedClient ↔
    ¬TextlessLine (ascii "li@bob|secret") startedClient ∧ PlainFormats (ascii "li@bob|secret") :=
  heapBlind_iff [] startedClient (by decide)

/-- A logout of a player who is logged in has a text that is the heap cell's content, byte for byte.
-/
theorem logout_tells : ¬∀ (past line : Bytes) (c : ClientState), line.length < maxTransMsgLen →
    HeapBlind past line c := by
  intro h
  have htextless : TextlessLine (ascii "lo@") { startedClient with player.logined := true } :=
    ⟨rfl, ascii "lo", .logout, [], by decide, List.not_mem_nil, rfl, trivial⟩
  exact not_heapBlind htextless (h [] _ _ (by decide))

end Line

end Util

end Smer
