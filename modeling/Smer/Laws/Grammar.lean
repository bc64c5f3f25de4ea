import Smer.Util.Input

/-!
# The language of typed lines

`Accepted` says which lines are a message, of which type and with which text: talk, or a command's
name, an `@`, and an argument of the command's own form. `getMsgFromInput` makes a message exactly
for these lines, with one exception (`answers_getMsgFromInput_iff`). A login or a registration hands
the name and the password to `snprintf` as formats, and a `%s` or `%n` in one of them follows a
pointer that nobody passed. A `%d` prints a word that nobody passed, and the message is made.

An accepted request is followed by `addFriend`, which goes through the pointer of the friend's entry.
Only `delFriend` makes a null entry, and nothing calls it: no friend is taken to be deleted here, and
a running client keeps it so (`ClientRun.undeleted_of_reaches`).
-/

namespace Smer

open Lib ClientM

namespace Util

/-! ## The language -/

inductive Command where
  | login
  | logout
  | regin
  | askForFriend
  | choseTalker
  | showFriends
  | showRequests
  | accRequest
  | showMySelf
  deriving DecidableEq

def aliases : List (Bytes × Command) :=
  [(ascii "li", .login), (ascii "login", .login), (ascii "Login", .login),
    (ascii "LOGIN", .login), (ascii "lo", .logout), (ascii "logout", .logout),
    (ascii "Logout", .logout), (ascii "LOGOUT", .logout), (ascii "rg", .regin),
    (ascii "regin", .regin), (ascii "Regin", .regin), (ascii "REGIN", .regin),
    (ascii "ad", .askForFriend), (ascii "add", .askForFriend), (ascii "Add", .askForFriend),
    (ascii "ch", .choseTalker), (ascii "chose", .choseTalker), (ascii "Chose", .choseTalker),
    (ascii "CHOSE", .choseTalker), (ascii "sf", .showFriends),
    (ascii "showfriends", .showFriends), (ascii "showFriends", .showFriends),
    (ascii "ShowFriends", .showFriends), (ascii "sr", .showRequests),
    (ascii "showrequests", .showRequests), (ascii "showRequests", .showRequests),
    (ascii "ShowRequests", .showRequests), (ascii "SHOWREQUESTS", .showRequests),
    (ascii "ar", .accRequest), (ascii "acceptrequest", .accRequest),
    (ascii "acceptRequest", .accRequest), (ascii "Acceptrequest", .accRequest),
    (ascii "ACCEPTREQUEST", .accRequest), (ascii "Me", .showMySelf), (ascii "me", .showMySelf)]

/-- The two parts of an argument that names a user and a password. -/
structure NameAndPwd (name pwd : Bytes) : Prop where
  name_bar : (124 : UInt8) ∉ name
  pwd_bar : (124 : UInt8) ∉ pwd
  name_length : name.length ≤ 23
  pwd_length : pwd.length ≤ 39

/-- An argument that a command takes, with the type of its message and the text, where the message
has one. `requests` is the number of pending requests. -/
inductive Command.Takes (logined : Bool) (requests : Nat) :
    Command → Bytes → UInt32 → Option Bytes → Prop where
  | login {name pwd} : NameAndPwd name pwd →
    Takes logined requests .login (name ++ 124 :: pwd) msgLogin none
  | regin {name pwd} : NameAndPwd name pwd →
    Takes logined requests .regin (name ++ 124 :: pwd) msgReg none
  | logout {arg} : logined = true → Takes logined requests .logout arg msgLogout none
  | askForFriend {arg} : logined = true → arg.length ≤ 23 →
    Takes logined requests .askForFriend arg msgAskForFriend (some arg)
  | choseTalker {arg} : logined = true → arg.length ≤ 23 →
    Takes logined requests .choseTalker arg msgAskForFriend (some arg)
  | accRequest {arg} : logined = true → 0 ≤ (atoi arg).toInt → (atoi arg).toInt < requests →
    Takes logined requests .accRequest arg msgAskForFriendAccept none

/-- A line that is a message, with the message's type and its text, where it has one. -/
inductive Accepted (logined : Bool) (requests : Nat) : Bytes → UInt32 → Option Bytes → Prop where
  | talk {line} : (64 : UInt8) ∉ line → logined = true →
    Accepted logined requests line msgTalk (some line)
  | command {name arg type text} {cmd : Command} : (name, cmd) ∈ aliases → (64 : UInt8) ∉ arg →
    cmd.Takes logined requests arg type text →
    Accepted logined requests (name ++ 64 :: arg) type text

/-- What a call returned is a message exactly when the line is one, of that type and with that
text. -/
def Answers (past : Bytes) (out : Option (Option TransObj × ClientState))
    (accepted : UInt32 → Option Bytes → Prop) : Prop :=
  ∃ made c, out = some (made, c) ∧ (made.isSome ↔ ∃ type text, accepted type text) ∧
    ∀ obj ∈ made, ∀ type text, accepted type text →
      obj.msgType = type ∧ ∀ t ∈ text, obj.getMsg past = t

/-! ## The formats of a line -/

/-- What is asked of the formats that a command uses, each with the size of its area: those of a
login and a registration are the name and the password. -/
def Command.Formats (P : Nat → Bytes → Prop) (cmd : Command) (arg : Bytes) : Prop :=
  match cmd with
  | .login | .regin => ∀ name pwd, arg = name ++ 124 :: pwd → NameAndPwd name pwd →
    P nameMaxLen name ∧ P passwordMaxLen pwd
  | _ => True

/-- And of the formats that a line's command uses, if it has one. -/
def LineFormats (P : Nat → Bytes → Prop) (line : Bytes) : Prop :=
  ∀ name cmd arg, (name, cmd) ∈ aliases → (64 : UInt8) ∉ arg → line = name ++ 64 :: arg →
    cmd.Formats P arg

theorem Command.Formats.mono {P Q : Nat → Bytes → Prop} (h : ∀ size fmt, P size fmt → Q size fmt)
    {cmd : Command} {arg : Bytes} (formats : cmd.Formats P arg) : cmd.Formats Q arg := by
  cases cmd with
  | login | regin =>
    intro name pwd harg hparts
    obtain ⟨hname, hpwd⟩ := formats name pwd harg hparts
    exact ⟨h _ _ hname, h _ _ hpwd⟩
  | _ => exact trivial

/-- What is asked of them for every one of a family is asked of them all at once. -/
theorem Command.forall_formats_iff {ι : Type} {P : ι → Nat → Bytes → Prop} {cmd : Command}
    {arg : Bytes} : (∀ i, cmd.Formats (P i) arg) ↔
      cmd.Formats (fun size fmt => ∀ i, P i size fmt) arg := by
  constructor
  · intro all
    cases cmd with
    | login | regin =>
      intro name pwd harg hparts
      exact ⟨fun i => (all i name pwd harg hparts).1, fun i => (all i name pwd harg hparts).2⟩
    | _ => exact trivial
  · intro formats i
    exact formats.mono fun _ _ h => h i

theorem forall_lineFormats_iff {ι : Type} {P : ι → Nat → Bytes → Prop} {line : Bytes} :
    (∀ i, LineFormats (P i) line) ↔ LineFormats (fun size fmt => ∀ i, P i size fmt) line := by
  constructor
  · intro all name cmd arg mem harg hline
    exact Command.forall_formats_iff.mp fun i => all i name cmd arg mem harg hline
  · intro formats i name cmd arg mem harg hline
    exact Command.forall_formats_iff.mpr (formats name cmd arg mem harg hline) i

/-! ## The command table -/

def Command.handler : Command → InputHandler
  | .login => handleInputOfLogin
  | .logout => handleInputOfLogout
  | .regin => handleInputOfRegin
  | .askForFriend => handleInputOfAskForFriend
  | .choseTalker => handleInputOfChoseTalker
  | .showFriends => handleInputOfShowFriends
  | .showRequests => handleInputOfShowRequests
  | .accRequest => handleInputOfAccRequest
  | .showMySelf => handleInputOfShowMySelf

theorem communicationCmdTable_eq :
    communicationCmdTable = aliases.map fun entry => (entry.1, entry.2.handler) := rfl

theorem aliases_nodup : (aliases.map Prod.fst).Nodup := by decide

/-- Among distinct names, the entry of a name is the one found. -/
theorem find?_of_nodup {α β : Type} [DecidableEq α] {entries : List (α × β)} {a : α} {b : β}
    (nodup : (entries.map Prod.fst).Nodup) (mem : (a, b) ∈ entries) :
    entries.find? (fun entry => entry.1 = a) = some (a, b) := by
  induction entries with
  | nil => cases mem
  | cons entry entries ih =>
    rw [List.map_cons, List.nodup_cons] at nodup
    rcases List.mem_cons.mp mem with rfl | hrest
    · exact List.find?_cons_of_pos (decide_eq_true rfl)
    · have hne : entry.1 ≠ a := fun heq => nodup.1 (heq ▸ List.mem_map_of_mem hrest)
      rw [List.find?_cons_of_neg (by rwa [decide_eq_true_iff]), ih nodup.2 hrest]

/-- A name leads to its command's handler. -/
theorem find_alias {name : Bytes} {cmd : Command} (mem : (name, cmd) ∈ aliases) :
    communicationCmdTable.find? (fun entry => entry.1 = name) = some (name, cmd.handler) := by
  have hfind := find?_of_nodup aliases_nodup mem
  rw [communicationCmdTable_eq, List.find?_map]
  exact congrArg (Option.map fun entry => (entry.1, entry.2.handler)) hfind

theorem find_no_alias {name : Bytes} (none_has : ∀ cmd, (name, cmd) ∉ aliases) :
    communicationCmdTable.find? (fun entry => entry.1 = name) = none := by
  rw [List.find?_eq_none, communicationCmdTable_eq]
  intro entry hentry hname
  obtain ⟨⟨name', cmd⟩, hmem, rfl⟩ := List.mem_map.mp hentry
  obtain rfl : name' = name := of_decide_eq_true hname
  exact none_has cmd hmem

theorem at_notMem_alias {name : Bytes} {cmd : Command} (mem : (name, cmd) ∈ aliases) :
    (64 : UInt8) ∉ name := by
  have hall : ∀ entry ∈ aliases, (64 : UInt8) ∉ entry.1 := by decide
  exact hall _ mem

/-! ## The argument of a name and a password -/

theorem splitInputStr2NameAndPwd_pair {name pwd : Bytes} (h : NameAndPwd name pwd) :
    splitInputStr2NameAndPwd (name ++ 124 :: pwd) = some (name, pwd) := by
  have hsplit : splitStr (name ++ 124 :: pwd) (ascii "|") = [name, pwd] :=
    splitStr_pair h.name_bar h.pwd_bar
  have hfits : ¬ (name.length > nameMaxLen - 1 ∨ pwd.length > passwordMaxLen - 1) := by
    rw [not_or]
    exact ⟨Nat.not_lt.mpr h.name_length, Nat.not_lt.mpr h.pwd_length⟩
  rw [splitInputStr2NameAndPwd, hsplit]
  exact if_neg hfits

theorem splitInputStr2NameAndPwd_eq_some {arg name pwd : Bytes}
    (h : splitInputStr2NameAndPwd arg = some (name, pwd)) :
    arg = name ++ 124 :: pwd ∧ NameAndPwd name pwd := by
  rw [splitInputStr2NameAndPwd] at h
  rcases pieces_cases 124 arg with hbar | ⟨piece, rest, rfl, hpiece⟩
  · have hsplit : splitStr arg (ascii "|") = [arg] := splitStr_notMem hbar
    rw [hsplit] at h
    cases h
  · by_cases hrest : (124 : UInt8) ∈ rest
    · obtain ⟨x, y, tail, hthree⟩ := splitStr_three hpiece hrest
      have hsplit : splitStr (piece ++ 124 :: rest) (ascii "|") = piece :: x :: y :: tail := hthree
      rw [hsplit] at h
      cases h
    · have hsplit : splitStr (piece ++ 124 :: rest) (ascii "|") = [piece, rest] :=
        splitStr_pair hpiece hrest
      rw [hsplit] at h
      by_cases hlong : piece.length > nameMaxLen - 1 ∨ rest.length > passwordMaxLen - 1
      · simp only [if_pos hlong] at h
        cases h
      · simp only [if_neg hlong] at h
        cases h
        rw [not_or] at hlong
        exact ⟨rfl, hpiece, hrest, Nat.le_of_not_lt hlong.1, Nat.le_of_not_lt hlong.2⟩

/-- An argument has one name and one password. -/
theorem forall_parts_iff {P Q : Bytes → Prop} {name pwd : Bytes} (parts : NameAndPwd name pwd) :
    (∀ name' pwd', name ++ 124 :: pwd = name' ++ 124 :: pwd' → NameAndPwd name' pwd' →
      P name' ∧ Q pwd') ↔ P name ∧ Q pwd := by
  constructor
  · intro all
    exact all name pwd rfl parts
  · intro both name' pwd' harg parts'
    have hsame := (splitInputStr2NameAndPwd_pair parts).symm.trans
      ((congrArg splitInputStr2NameAndPwd harg).trans (splitInputStr2NameAndPwd_pair parts'))
    obtain ⟨rfl, rfl⟩ := Prod.mk.inj (Option.some.inj hsame)
    exact both

/-- An argument that is not cut has no name and no password. -/
theorem not_parts {arg : Bytes} (h : splitInputStr2NameAndPwd arg = none) {name pwd : Bytes}
    (harg : arg = name ++ 124 :: pwd) : ¬NameAndPwd name pwd := by
  intro parts
  rw [harg, splitInputStr2NameAndPwd_pair parts] at h
  cases h

/-- A name and a password that fit are set exactly when `snprintf` comes back from both. -/
theorem setNamePasswd_cases (o : TransObj) (snprintf : Snprintf) {name pwd : Bytes}
    (hname : name.length ≤ 23) (hpwd : pwd.length ≤ 39) :
    if (snprintf nameMaxLen name).isSome ∧ (snprintf passwordMaxLen pwd).isSome then
      ∃ o', o.setNamePasswd name pwd snprintf = some (o', true) ∧ o'.msgType = o.msgType
    else o.setNamePasswd name pwd snprintf = none := by
  have hfits : ¬ (decide (name.length ≥ nameMaxLen) || decide (pwd.length ≥ passwordMaxLen)) := by
    have h1 : nameMaxLen = 24 := rfl
    have h2 : passwordMaxLen = 40 := rfl
    rw [Bool.or_eq_true, decide_eq_true_iff, decide_eq_true_iff]
    omega
  have hname' : ¬ name.length ≥ nameMaxLen := Nat.not_le.mpr (Nat.lt_succ_of_le hname)
  have hpwd' : ¬ pwd.length ≥ passwordMaxLen := Nat.not_le.mpr (Nat.lt_succ_of_le hpwd)
  rw [TransObj.setNamePasswd, if_neg hfits]
  simp only [TransObj.setName, TransObj.setPasswd, if_neg hname', if_neg hpwd']
  cases snprintf nameMaxLen name with
  | none => rfl
  | some sentName =>
    cases snprintf passwordMaxLen pwd with
    | none => rfl
    | some sentPwd => exact ⟨_, rfl, rfl⟩

/-! ## Each command -/

section Commands

variable {past : Bytes} {out : Option (Option TransObj × ClientState)} {c c' : ClientState}
  {accepted : UInt32 → Option Bytes → Prop} {type : UInt32} {text : Option Bytes} {obj : TransObj}
  {heap : CharArray maxTransMsgLen} {snprintf : Snprintf} {arg : Bytes} {logined : Bool}
  {requests : Nat}

theorem answers_of_none (hout : out = some (none, c))
    (refused : ∀ type text, ¬ accepted type text) : Answers past out accepted := by
  refine ⟨none, c, hout, iff_of_false (by rintro ⟨⟩) ?_, fun obj hobj => by cases hobj⟩
  rintro ⟨type, text, h⟩
  exact refused type text h

theorem answers_of_some (hout : out = some (some obj, c)) (taken : accepted type text)
    (only : ∀ t x, accepted t x → t = type ∧ x = text) (htype : obj.msgType = type)
    (htext : ∀ t ∈ text, obj.getMsg past = t) : Answers past out accepted := by
  refine ⟨some obj, c, hout, iff_of_true rfl ⟨type, text, taken⟩, fun o ho t x hacc => ?_⟩
  cases ho
  obtain ⟨rfl, rfl⟩ := only t x hacc
  exact ⟨htype, htext⟩

/-- The type and the text of a command's message. -/
def Command.message : Command → Bytes → UInt32 × Option Bytes
  | .login, _ => (msgLogin, none)
  | .regin, _ => (msgReg, none)
  | .logout, _ => (msgLogout, none)
  | .askForFriend, arg | .choseTalker, arg => (msgAskForFriend, some arg)
  | .accRequest, _ => (msgAskForFriendAccept, none)
  | .showFriends, _ | .showRequests, _ | .showMySelf, _ => (msgCmd, none)

theorem Command.Takes.message_eq {cmd : Command} (h : cmd.Takes logined requests arg type text) :
    cmd.message arg = (type, text) := by
  cases h <;> rfl

theorem answers_takes {cmd : Command} (hout : out = some (some obj, c))
    (taken : cmd.Takes logined requests arg type text) (htype : obj.msgType = type)
    (htext : ∀ t ∈ text, obj.getMsg past = t) :
    Answers past out (cmd.Takes logined requests arg) := by
  refine answers_of_some hout taken (fun t x h => ?_) htype htext
  have hsame := h.message_eq.symm.trans taken.message_eq
  exact Prod.mk.inj hsame

/-- The gate of the commands that need a login, passed. -/
theorem run_gate (hlogin : c.player.logined = true) (rest : ClientM (Option TransObj)) :
    (tryLoginFirst >>= fun first => if first = true then pure none else rest).run c =
      rest.run c := by
  rw [StateT.run_bind, run_tryLoginFirst hlogin]
  rfl

theorem run_gate_not (hlogin : c.player.logined = false) (rest : ClientM (Option TransObj)) :
    ∃ c', (tryLoginFirst >>= fun first => if first = true then pure none else rest).run c =
      some (none, c') := by
  obtain ⟨c', hfirst⟩ := run_tryLoginFirst_not hlogin
  refine ⟨c', ?_⟩
  rw [StateT.run_bind, hfirst]
  rfl

variable (past heap snprintf arg) in
/-- A login or a registration: what it makes of its argument. -/
theorem run_namePasswdObj (msgType : UInt32) :
    (splitInputStr2NameAndPwd arg = none ∧
      (namePasswdObj msgType heap past arg snprintf).run c = some (none, c)) ∨
    ∃ name pwd, arg = name ++ 124 :: pwd ∧ NameAndPwd name pwd ∧
      if (snprintf nameMaxLen (cstr name)).isSome ∧
          (snprintf passwordMaxLen (cstr pwd)).isSome then
        ∃ obj, (namePasswdObj msgType heap past arg snprintf).run c = some (some obj, c) ∧
          obj.msgType = msgType
      else (namePasswdObj msgType heap past arg snprintf).run c = none := by
  unfold namePasswdObj
  cases hsplit : splitInputStr2NameAndPwd arg with
  | none => exact .inl ⟨rfl, rfl⟩
  | some parts =>
    obtain ⟨name, pwd⟩ := parts
    obtain ⟨rfl, hparts⟩ := splitInputStr2NameAndPwd_eq_some hsplit
    have hset := setNamePasswd_cases
      (TransObj.make heap (-1) (-1) msgType (.ofNat maxTransMsgLen) (-1)) snprintf
      ((cstr_length_le name).trans hparts.name_length)
      ((cstr_length_le pwd).trans hparts.pwd_length)
    refine .inr ⟨name, pwd, rfl, hparts, ?_⟩
    by_cases returns : (snprintf nameMaxLen (cstr name)).isSome ∧
        (snprintf passwordMaxLen (cstr pwd)).isSome
    · rw [if_pos returns] at hset ⊢
      obtain ⟨obj, hobj, htype⟩ := hset
      simp only [hobj]
      exact ⟨obj, rfl, htype⟩
    · rw [if_neg returns] at hset ⊢
      simp only [hset]
      rfl

/-- A command of a name and a password does what its language says exactly when `snprintf` comes
back from both. -/
theorem answers_namePasswdObj {cmd : Command} {msgType : UInt32} (hzero : (0 : UInt8) ∉ arg)
    (takes_iff : ∀ type text, cmd.Takes logined requests arg type text ↔
      (∃ name pwd, arg = name ++ 124 :: pwd ∧ NameAndPwd name pwd) ∧ type = msgType ∧ text = none) :
    Answers past ((namePasswdObj msgType heap past arg snprintf).run c)
      (cmd.Takes logined requests arg) ↔
      ∀ name pwd, arg = name ++ 124 :: pwd → NameAndPwd name pwd →
        (snprintf nameMaxLen name).isSome ∧ (snprintf passwordMaxLen pwd).isSome := by
  rcases run_namePasswdObj (c := c) past heap snprintf arg msgType with
    ⟨hsplit, hrun⟩ | ⟨name, pwd, rfl, hparts, hrun⟩
  · refine iff_of_true (answers_of_none hrun fun type text h => ?_)
      fun name pwd harg hparts => absurd hparts (not_parts hsplit harg)
    obtain ⟨⟨name, pwd, harg, hparts⟩, -⟩ := (takes_iff type text).mp h
    exact not_parts hsplit harg hparts
  · have hname : cstr name = name := cstr_eq_self fun h => hzero (List.mem_append_left _ h)
    have hpwd : cstr pwd = pwd :=
      cstr_eq_self fun h => hzero (List.mem_append_right _ (List.mem_cons_of_mem _ h))
    rw [hname, hpwd] at hrun
    rw [forall_parts_iff hparts]
    by_cases returns : (snprintf nameMaxLen name).isSome ∧ (snprintf passwordMaxLen pwd).isSome
    · rw [if_pos returns] at hrun
      obtain ⟨obj, hobj, htype⟩ := hrun
      have taken := (takes_iff msgType none).mpr ⟨⟨name, pwd, rfl, hparts⟩, rfl, rfl⟩
      exact iff_of_true (answers_takes hobj taken htype (by rintro t ⟨⟩)) returns
    · rw [if_neg returns] at hrun
      refine iff_of_false ?_ returns
      rintro ⟨made, c', hout, -⟩
      rw [hrun] at hout
      cases hout

variable (heap) in
/-- A command whose message is its argument does what its language says. -/
theorem answers_text {cmd : Command} {d : ClientState} (hzero : (0 : UInt8) ∉ arg)
    (takes_iff : ∀ type text, cmd.Takes c.player.logined requests arg type text ↔
      c.player.logined = true ∧ arg.length ≤ 23 ∧ type = msgAskForFriend ∧ text = some arg)
    (gated : c.player.logined = false → ∃ c', out = some (none, c'))
    (runs : c.player.logined = true → out =
      if arg.length ≥ nameMaxLen then some (none, c)
      else some (some ((TransObj.make heap (-1) (-1) msgAskForFriend (.ofNat maxTransMsgLen)
        (-1)).setMsg (cstr arg)).1, d)) :
    Answers past out (cmd.Takes c.player.logined requests arg) := by
  cases hlogin : c.player.logined with
  | false =>
    obtain ⟨c', hout⟩ := gated hlogin
    rw [hlogin] at takes_iff
    refine answers_of_none hout fun type text htakes => ?_
    cases ((takes_iff type text).mp htakes).1
  | true =>
    have hout := runs hlogin
    rw [hlogin] at takes_iff
    by_cases hlen : arg.length ≤ 23
    · have hshort : ¬ arg.length ≥ nameMaxLen := Nat.not_le.mpr (Nat.lt_succ_of_le hlen)
      rw [if_neg hshort] at hout
      refine answers_takes hout ((takes_iff _ _).mpr ⟨rfl, hlen, rfl, rfl⟩)
        (TransObj.setMsg_msgType _ _) fun t ht => ?_
      cases ht
      rw [cstr_eq_self hzero]
      exact TransObj.getMsg_setMsg _ (lt_of_le_of_lt hlen (by decide)) hzero past
    · have hlong : arg.length ≥ nameMaxLen := Nat.lt_of_not_le hlen
      rw [if_pos hlong] at hout
      refine answers_of_none hout fun type text htakes => ?_
      exact hlen ((takes_iff type text).mp htakes).2.1

/-- The two commands that name a friend take the same arguments, for the same message. -/
theorem takes_text_iff {cmd : Command} (hcmd : cmd = .askForFriend ∨ cmd = .choseTalker)
    (type : UInt32) (text : Option Bytes) : cmd.Takes logined requests arg type text ↔
      logined = true ∧ arg.length ≤ 23 ∧ type = msgAskForFriend ∧ text = some arg := by
  rcases hcmd with rfl | rfl
  · constructor
    · intro h
      cases h with
      | askForFriend hlogin hlen => exact ⟨hlogin, hlen, rfl, rfl⟩
    · rintro ⟨hlogin, hlen, rfl, rfl⟩
      exact .askForFriend hlogin hlen
  · constructor
    · intro h
      cases h with
      | choseTalker hlogin hlen => exact ⟨hlogin, hlen, rfl, rfl⟩
    · rintro ⟨hlogin, hlen, rfl, rfl⟩
      exact .choseTalker hlogin hlen

theorem answers_askForFriend (snprintf : Snprintf) (hzero : (0 : UInt8) ∉ arg) :
    Answers past ((handleInputOfAskForFriend heap past arg snprintf).run c)
      (Command.askForFriend.Takes c.player.logined requests arg) := by
  refine answers_text heap hzero (takes_text_iff (.inl rfl)) (d := c)
    (fun hlogin => run_gate_not hlogin _) ?_
  intro hlogin
  refine (run_gate hlogin _).trans ?_
  split <;> rfl

theorem answers_choseTalker (snprintf : Snprintf) (hzero : (0 : UInt8) ∉ arg) :
    Answers past ((handleInputOfChoseTalker heap past arg snprintf).run c)
      (Command.choseTalker.Takes c.player.logined requests arg) := by
  refine answers_text heap hzero (takes_text_iff (.inr rfl))
    (d := { c with player := c.player.setTalkerName arg }) (fun hlogin => run_gate_not hlogin _) ?_
  intro hlogin
  refine (run_gate hlogin _).trans ?_
  split <;> rfl

/-- The message that accepts a request. -/
def accObj (heap : CharArray maxTransMsgLen) (c : ClientState) (req : TransObj) : TransObj :=
  TransObj.make heap c.player.data.id req.id msgAskForFriendAccept (.ofNat maxTransMsgLen) (-1)

variable (past heap snprintf arg) in
/-- Accepting a request, where the argument reads as its index: the message is made, the player is
told, and the friend is added, if that has a result. -/
theorem run_accRequest {req : TransObj} (hlogin : c.player.logined = true)
    (hreq : c.reqBuff.getOneRequest (atoi (cstr arg)).toInt = some req) :
    (handleInputOfAccRequest heap past arg snprintf).run c =
      (c.player.addFriend (req.getMsg past) req.id).map fun added =>
        (some (accObj heap c req), { c with
          sysBuff := c.sysBuff ++
            [⟨sysOutputMsg, some (ascii "Your command of accept the request have been send \n")⟩]
          player := added.1 }) := by
  have hindex : containsReqIdx c (atoi (cstr arg)).toInt = true := by
    rw [containsReqIdx, Bool.and_eq_true, decide_eq_true_iff, decide_eq_true_iff]
    by_contra hno
    have hno' : ¬ ((atoi (cstr arg)).toInt ≥ 0 ∧ (atoi (cstr arg)).toInt < c.reqBuff.size) := hno
    rw [ConcList.getOneRequest, if_neg hno'] at hreq
    cases hreq
  refine (run_gate hlogin _).trans ?_
  simp only [StateT.run_bind, StateT.run_get, Option.pure_def, Option.bind_eq_bind,
    Option.bind_some, hindex, if_true, hreq]
  rw [run_output, Option.bind_some, run_addFriend]
  cases c.player.addFriend (req.getMsg past) req.id <;> rfl

variable (past heap snprintf arg) in
/-- Where the argument reads as no index of a request, the player is told so. -/
theorem run_accRequest_none (hlogin : c.player.logined = true)
    (hreq : c.reqBuff.getOneRequest (atoi (cstr arg)).toInt = none) :
    ∃ told, (handleInputOfAccRequest heap past arg snprintf).run c =
      some (none, { c with sysBuff := c.sysBuff ++ [told] }) := by
  rw [handleInputOfAccRequest]
  by_cases hindex : containsReqIdx c (atoi (cstr arg)).toInt = true
  · refine ⟨⟨sysOutputMsg, some (ascii "Your command of accept the request send err \n")⟩,
      (run_gate hlogin _).trans ?_⟩
    simp only [StateT.run_bind, StateT.run_get, Option.pure_def, Option.bind_eq_bind,
      Option.bind_some, hindex, if_true, hreq, run_output]
    rfl
  · refine ⟨⟨sysOutputMsg, some (ascii "Your input number of accepted request id not exists ==> " ++
      arg ++ ascii " \n")⟩, (run_gate hlogin _).trans ?_⟩
    simp only [StateT.run_bind, StateT.run_get, Option.pure_def, Option.bind_eq_bind,
      Option.bind_some, if_neg hindex, run_output]
    rfl

/-- Accepting a request does what its language says. -/
theorem answers_accRequest (snprintf : Snprintf) (hzero : (0 : UInt8) ∉ arg) (built : c.reqBuff.Built)
    (undeleted : c.player.Undeleted) :
    Answers past ((handleInputOfAccRequest heap past arg snprintf).run c)
      (Command.accRequest.Takes c.player.logined c.reqBuff.data.length arg) := by
  have takes_iff : ∀ type text,
      Command.accRequest.Takes c.player.logined c.reqBuff.data.length arg type text ↔
      c.player.logined = true ∧ ((atoi arg).toInt ≥ 0 ∧ (atoi arg).toInt < c.reqBuff.size) ∧
        type = msgAskForFriendAccept ∧ text = none := by
    intro type text
    have hsize : c.reqBuff.size = c.reqBuff.data.length := built.sized
    rw [hsize]
    constructor
    · rintro ⟨⟩
      exact ⟨‹_›, ⟨‹_›, ‹_›⟩, rfl, rfl⟩
    · rintro ⟨hlogin, ⟨hlo, hhi⟩, rfl, rfl⟩
      exact .accRequest hlogin hlo hhi
  have hself : cstr arg = arg := cstr_eq_self hzero
  cases hlogin : c.player.logined with
  | false =>
    obtain ⟨c', hout⟩ : ∃ c', (handleInputOfAccRequest heap past arg snprintf).run c = some (none, c') :=
      run_gate_not hlogin _
    rw [hlogin] at takes_iff
    refine answers_of_none hout fun type text h => ?_
    cases ((takes_iff type text).mp h).1
  | true =>
    rw [hlogin] at takes_iff
    by_cases hindex : (atoi arg).toInt ≥ 0 ∧ (atoi arg).toInt < c.reqBuff.size
    · obtain ⟨req, hreq⟩ := built.sized.getOneRequest hindex.1 hindex.2
      have hrun := run_accRequest past heap snprintf arg hlogin
        ((congrArg (fun s => c.reqBuff.getOneRequest (atoi s).toInt) hself).trans hreq)
      obtain ⟨added, hadd⟩ := undeleted.addFriend (req.getMsg past) req.id
      rw [hadd] at hrun
      have taken := (takes_iff msgAskForFriendAccept none).mpr ⟨rfl, hindex, rfl, rfl⟩
      exact answers_takes hrun taken rfl (by rintro t ⟨⟩)
    · have hreq : c.reqBuff.getOneRequest (atoi arg).toInt = none := if_neg hindex
      obtain ⟨told, hout⟩ := run_accRequest_none past heap snprintf arg hlogin
        ((congrArg (fun s => c.reqBuff.getOneRequest (atoi s).toInt) hself).trans hreq)
      exact answers_of_none hout fun type text h => hindex ((takes_iff type text).mp h).2.1

/-- A command that only shows something takes nothing. -/
theorem answers_show (hout : ∃ c', out = some (none, c')) (refused : ∀ type text,
    ¬ accepted type text) : Answers past out accepted := by
  obtain ⟨c', hout⟩ := hout
  exact answers_of_none hout refused

/-- A command that shows something puts a system message when the player is logged in, and makes no
message either way. -/
theorem run_gate_putSysMsg (msgType : UInt32) :
    ∃ c', (tryLoginFirst >>= fun first => if first = true then pure none else
      (putSysMsg msgType none >>= fun _ => pure none : ClientM (Option TransObj))).run c =
        some (none, c') := by
  cases hlogin : c.player.logined with
  | false => exact run_gate_not hlogin _
  | true => exact ⟨_, run_gate hlogin _⟩

/-- **Each command's handler takes what its language says**, where `snprintf` comes back. -/
theorem answers_handler (cmd : Command) (hzero : (0 : UInt8) ∉ arg) (built : c.reqBuff.Built)
    (undeleted : c.player.Undeleted) :
    Answers past ((cmd.handler heap past arg snprintf).run c)
      (cmd.Takes c.player.logined c.reqBuff.data.length arg) ↔
        cmd.Formats (fun size fmt => (snprintf size fmt).isSome) arg := by
  cases cmd with
  | login =>
    refine answers_namePasswdObj hzero fun type text => ⟨fun h => ?_, ?_⟩
    · cases h with
      | login hparts => exact ⟨⟨_, _, rfl, hparts⟩, rfl, rfl⟩
    · rintro ⟨⟨name, pwd, rfl, hparts⟩, rfl, rfl⟩
      exact .login hparts
  | regin =>
    refine answers_namePasswdObj hzero fun type text => ⟨fun h => ?_, ?_⟩
    · cases h with
      | regin hparts => exact ⟨⟨_, _, rfl, hparts⟩, rfl, rfl⟩
    · rintro ⟨⟨name, pwd, rfl, hparts⟩, rfl, rfl⟩
      exact .regin hparts
  | logout =>
    refine iff_of_true ?_ trivial
    cases hlogin : c.player.logined with
    | false =>
      obtain ⟨c', hout⟩ : ∃ c', (handleInputOfLogout heap past arg snprintf).run c = some (none, c') :=
        run_gate_not hlogin _
      refine answers_of_none hout fun type text h => ?_
      cases h
      contradiction
    | true =>
      have hout : (handleInputOfLogout heap past arg snprintf).run c =
          some (some ((TransObj.make heap (-1) (-1) msgLogout (-1) (-1)).setMsgType msgLogout), c) :=
        run_gate hlogin _
      exact answers_takes hout (.logout rfl) rfl (by rintro t ⟨⟩)
  | askForFriend => exact iff_of_true (answers_askForFriend snprintf hzero) trivial
  | choseTalker => exact iff_of_true (answers_choseTalker snprintf hzero) trivial
  | showFriends =>
    exact iff_of_true (answers_show (run_gate_putSysMsg sysShowFriendsMsg) (by rintro _ _ ⟨⟩))
      trivial
  | showRequests =>
    exact iff_of_true (answers_show (run_gate_putSysMsg sysShowAskForFriendReq) (by rintro _ _ ⟨⟩))
      trivial
  | accRequest => exact iff_of_true (answers_accRequest snprintf hzero built undeleted) trivial
  | showMySelf => exact iff_of_true (answers_show ⟨_, rfl⟩ (by rintro _ _ ⟨⟩)) trivial

end Commands

/-! ## The whole line -/

section Line

variable {past : Bytes} {c : ClientState} {heap : CharArray maxTransMsgLen} {name arg line : Bytes}
  {type : UInt32} {text : Option Bytes} {logined : Bool} {requests : Nat} {cmd : Command}

theorem alias_unique {cmd' : Command} (mem : (name, cmd) ∈ aliases)
    (mem' : (name, cmd') ∈ aliases) : cmd' = cmd := by
  have hsame := (find?_of_nodup aliases_nodup mem').symm.trans (find?_of_nodup aliases_nodup mem)
  exact congrArg Prod.snd (Option.some.inj hsame)

/-- A line without an `@` is talk or nothing. -/
theorem accepted_talk_iff (hat : (64 : UInt8) ∉ line) :
    Accepted logined requests line type text ↔
      logined = true ∧ type = msgTalk ∧ text = some line := by
  constructor
  · rintro (⟨-, hlogin⟩ | -)
    · exact ⟨hlogin, rfl, rfl⟩
    · exact absurd (List.mem_append_right _ List.mem_cons_self) hat
  · rintro ⟨hlogin, rfl, rfl⟩
    exact .talk hat hlogin

/-- A line has one command and one argument. -/
theorem command_inj {name' arg' : Bytes} (mem : (name, cmd) ∈ aliases) (harg : (64 : UInt8) ∉ arg)
    (hline : name' ++ 64 :: arg' = name ++ 64 :: arg) : name = name' ∧ arg = arg' := by
  obtain ⟨hname, -, htail⟩ :=
    (List.append_cons_inj_of_notMem (at_notMem_alias mem) harg).mp hline.symm
  exact ⟨hname, htail⟩

/-- A line with an `@` is its command's. -/
theorem accepted_command_iff (hname : (64 : UInt8) ∉ name) :
    Accepted logined requests (name ++ 64 :: arg) type text ↔
      (64 : UInt8) ∉ arg ∧ ∃ cmd, (name, cmd) ∈ aliases ∧
        cmd.Takes logined requests arg type text := by
  constructor
  · intro h
    generalize hline : name ++ 64 :: arg = line at h
    cases h with
    | talk hat _ =>
      rw [← hline] at hat
      exact absurd (List.mem_append_right _ List.mem_cons_self) hat
    | command mem harg htakes =>
      obtain ⟨rfl, rfl⟩ := command_inj mem harg hline
      exact ⟨harg, _, mem, htakes⟩
  · rintro ⟨harg, cmd, mem, htakes⟩
    exact .command mem harg htakes

variable (heap past snprintf)

/-- A line whose command is not in the table makes nothing. -/
theorem run_getMsgFromInput_unknown (hname : (64 : UInt8) ∉ name) (harg : (64 : UInt8) ∉ arg)
    (unknown : ∀ cmd, (name, cmd) ∉ aliases) :
    (getMsgFromInput heap past (name ++ 64 :: arg) snprintf).run c = some (none, c) := by
  rw [getMsgFromInput, splitStr_one hname harg]
  simp only [find_no_alias unknown]
  rfl

/-- A line without an `@` makes what the language says. -/
theorem answers_getMsgFromInput_talk (hat : (64 : UInt8) ∉ line) (hzero : (0 : UInt8) ∉ line)
    (hlen : line.length < maxTransMsgLen) :
    Answers past ((getMsgFromInput heap past line snprintf).run c)
      (Accepted c.player.logined c.reqBuff.data.length line) := by
  cases hlogin : c.player.logined with
  | false =>
    obtain ⟨c', hout⟩ : ∃ c', (getMsgFromInput heap past line snprintf).run c =
        some (none, c') := by
      rw [getMsgFromInput, splitStr_none hat]
      exact run_gate_not hlogin _
    refine answers_of_none hout fun type text h => ?_
    cases ((accepted_talk_iff hat).mp h).1
  | true =>
    refine answers_of_some (run_getMsgFromInput_talk hlogin hat)
      ((accepted_talk_iff hat).mpr ⟨rfl, rfl, rfl⟩)
      (fun t x h => ((accepted_talk_iff hat).mp h).2) (TransObj.setMsg_msgType _ _)
      fun t ht => ?_
    cases ht
    rw [talkObj, cstr_eq_self hzero]
    exact TransObj.getMsg_setMsg _ hlen hzero past

/-- A line of a known command is accepted as the command takes its argument. -/
theorem accepted_eq_takes (hname : (64 : UInt8) ∉ name) (harg : (64 : UInt8) ∉ arg)
    (mem : (name, cmd) ∈ aliases) :
    Accepted logined requests (name ++ 64 :: arg) = cmd.Takes logined requests arg := by
  funext type text
  refine propext ((accepted_command_iff hname).trans ⟨?_, fun h => ⟨harg, cmd, mem, h⟩⟩)
  rintro ⟨-, cmd', mem', htakes⟩
  exact alias_unique mem mem' ▸ htakes

omit heap past snprintf in
/-- What is asked of the formats of a known command's line is asked of the command's. -/
theorem lineFormats_iff {P : Nat → Bytes → Prop} (harg : (64 : UInt8) ∉ arg)
    (mem : (name, cmd) ∈ aliases) : LineFormats P (name ++ 64 :: arg) ↔ cmd.Formats P arg := by
  constructor
  · intro hline
    exact hline name cmd arg mem harg rfl
  · intro formats name' cmd' arg' mem' harg' hline
    obtain ⟨rfl, rfl⟩ := command_inj mem' harg' hline
    exact alias_unique mem mem' ▸ formats

/-- A line makes what the language says exactly when `snprintf` comes back from its formats. -/
theorem answers_getMsgFromInput_snprintf_iff (hzero : (0 : UInt8) ∉ line)
    (hlen : line.length < maxTransMsgLen) (built : c.reqBuff.Built)
    (undeleted : c.player.Undeleted) :
    Answers past ((getMsgFromInput heap past line snprintf).run c)
      (Accepted c.player.logined c.reqBuff.data.length line) ↔
      LineFormats (fun size fmt => (snprintf size fmt).isSome) line := by
  rcases pieces_cases 64 line with hat | ⟨name, arg, rfl, hname⟩
  · -- no `@`: talk
    refine iff_of_true (answers_getMsgFromInput_talk past heap snprintf hat hzero hlen) ?_
    intro name cmd arg _ _ hline
    rw [hline] at hat
    exact absurd (List.mem_append_right _ List.mem_cons_self) hat
  · by_cases harg : (64 : UInt8) ∈ arg
    · -- more than one `@`: nothing
      refine iff_of_true ?_ fun name' cmd arg' mem harg' hline => ?_
      · refine answers_of_none (getMsgFromInput_many hname harg) fun type text h => ?_
        exact ((accepted_command_iff hname).mp h).1 harg
      · obtain ⟨-, rfl⟩ := command_inj mem harg' hline
        exact absurd harg harg'
    · have hargZero : (0 : UInt8) ∉ arg :=
        fun h => hzero (List.mem_append_right _ (List.mem_cons_of_mem _ h))
      by_cases known : ∃ cmd, (name, cmd) ∈ aliases
      · obtain ⟨cmd, mem⟩ := known
        rw [getMsgFromInput_command cmd.handler hname harg (find_alias mem),
          accepted_eq_takes hname harg mem, answers_handler cmd hargZero built undeleted,
          lineFormats_iff harg mem]
      · have unknown : ∀ cmd, (name, cmd) ∉ aliases := fun cmd mem => known ⟨cmd, mem⟩
        refine iff_of_true ?_ fun name' cmd arg' mem harg' hline => ?_
        · refine answers_of_none
            (run_getMsgFromInput_unknown past heap snprintf hname harg unknown) fun type text h => ?_
          obtain ⟨-, cmd, mem, -⟩ := (accepted_command_iff hname).mp h
          exact unknown cmd mem
        · obtain ⟨rfl, -⟩ := command_inj mem harg' hline
          exact absurd mem (unknown cmd)

omit heap past snprintf in
/-- The formats of a line with a name and a password. -/
theorem lineFormats_namePwd_iff {P : Nat → Bytes → Prop} {pwd : Bytes} {user : Bytes}
    (mem : (name, cmd) ∈ aliases) (hcmd : cmd = .login ∨ cmd = .regin)
    (parts : NameAndPwd user pwd) (harg : (64 : UInt8) ∉ user ++ 124 :: pwd) :
    LineFormats P (name ++ 64 :: (user ++ 124 :: pwd)) ↔
      P nameMaxLen user ∧ P passwordMaxLen pwd := by
  have formats_iff : cmd.Formats P (user ++ 124 :: pwd) ↔ ∀ user' pwd',
      user ++ 124 :: pwd = user' ++ 124 :: pwd' → NameAndPwd user' pwd' →
        P nameMaxLen user' ∧ P passwordMaxLen pwd' := by
    rcases hcmd with rfl | rfl <;> rfl
  rw [lineFormats_iff harg mem, formats_iff, forall_parts_iff parts]

/-- Without a login, a line is a login or a registration, or no message. -/
theorem accepted_not_logined (h : Accepted false requests line type text) :
    type = msgLogin ∨ type = msgReg := by
  cases h with
  | talk _ hlogin => cases hlogin
  | command _ _ htakes =>
    cases htakes with
    | login => exact .inl rfl
    | regin => exact .inr rfl
    | logout hlogin | askForFriend hlogin | choseTalker hlogin | accRequest hlogin => cases hlogin

/-- A client that was just started. -/
def startedClient : ClientState := ⟨.fresh 0 none true, .empty, [], []⟩

theorem startedClient_undeleted : startedClient.player.Undeleted := by
  intro name h
  cases h

/-- A login whose name and password are strings of `%s`. -/
def stringsLogin : Bytes :=
  ascii "li@%s%s%s%s%s%s%s%s%s%s|%s%s%s%s%s%s%s%s%s%s%s%s%s%s%s%s%s%s%s"

end Line

end Util

end Smer
