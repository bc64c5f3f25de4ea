import Mathlib.Logic.Basic

/-!
# Keys and terminal settings (`Input/src/ReadKey.cpp`)

The key table, the queues that a key's command goes to, and the two changes that the client makes to
the terminal's settings. `scanKeyBoard` is more than one step for the other threads, so its body is
spread over the program points of `Game`; `ReadKey.putCmd` is what it does with the key.
-/

namespace Smer

/-! ## Commands (`SmerSystem/inc/MyEnum.h`) -/

def cmdMoveUp : UInt32 := 0
def cmdMoveDown : UInt32 := 1
def cmdMoveLeft : UInt32 := 2
def cmdMoveRight : UInt32 := 3
def cmdAttack : UInt32 := 4
def cmdJump : UInt32 := 5
def cmdEnter : UInt32 := 6
def cmdBackpack : UInt32 := 7
def cmdMap : UInt32 := 8
def cmdSystem : UInt32 := 9

/-! ## Terminal settings -/

/-- `struct termios`. -/
structure Termios where
  cIflag : UInt32
  cOflag : UInt32
  cCflag : UInt32
  cLflag : UInt32
  cCc : Vector UInt8 32
  deriving DecidableEq

namespace Termios

def icanon : UInt32 := 2
def echo : UInt32 := 8

/-- What `scanKeyBoard` sets: no lines, no echo, and a read of one byte that does not wait. -/
def forScan (stored : Termios) : Termios :=
  { stored with
    cLflag := stored.cLflag &&& ~~~icanon &&& ~~~echo
    cCc := (stored.cCc.set 5 0).set 6 1 }

/-- What `handleTalk` sets. Both flags are masks, so no flag stays. -/
def forTalk (stored : Termios) : Termios :=
  { stored with cLflag := stored.cLflag &&& icanon &&& echo }

example (stored : Termios) : stored.forTalk.cLflag = 0 := by
  show stored.cLflag &&& icanon &&& echo = 0
  rw [UInt32.and_assoc]
  exact UInt32.and_zero

end Termios

/-! ## Keys -/

/-- A command object counts by its type, in the two queues and in the `MSG_CMD` objects that were
pushed to the outbound queue. -/
structure ReadKey where
  cmdQue : List UInt32
  sysCmdQue : List UInt32
  buff : List UInt32
  /-- the descriptors that `scanKeyBoard` has opened; nothing closes one -/
  opened : List Int32

namespace ReadKey

def start : ReadKey := ⟨[], [], [], []⟩

/-- The map `cmd`, as the constructor fills it. -/
def cmd : List (Int × UInt32) :=
  [(119, cmdMoveUp), (97, cmdMoveLeft), (115, cmdMoveDown), (100, cmdMoveRight), (10, cmdEnter),
    (98, cmdBackpack), (109, cmdMap), (27, cmdSystem), (106, cmdAttack), (32, cmdJump)]

def isSystemCmd (type : UInt32) : Bool := type ≥ cmdEnter ∧ type ≤ cmdSystem

def isActorCmd (type : UInt32) : Bool := type ≥ cmdMoveUp ∧ type ≤ cmdJump

/-- The end of `scanKeyBoard`, on the variable `in`. Where nothing was read, `in` is whatever the
stack held. -/
def putCmd (r : ReadKey) (key : Int8) : ReadKey :=
  match cmd.lookup key.toInt with
  | none => r
  | some type =>
    if isActorCmd type then { r with buff := r.buff ++ [type], cmdQue := r.cmdQue ++ [type] }
    else if isSystemCmd type then { r with sysCmdQue := r.sysCmdQue ++ [type] }
    else r

def getCmd (r : ReadKey) : Option UInt32 × ReadKey :=
  (r.cmdQue.head?, { r with cmdQue := r.cmdQue.tail })

def getSysCmd (r : ReadKey) : Option UInt32 × ReadKey :=
  (r.sysCmdQue.head?, { r with sysCmdQue := r.sysCmdQue.tail })

end ReadKey

end Smer
