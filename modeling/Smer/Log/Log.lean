import Smer.Util.ConcQueue
import Smer.Util.FileIO
import Smer.Util.ZTime

/-!
# The server's log (`Log/inc/Log.h`)

Any thread puts a line into the queue of `MyLog`. One worker of the thread pool runs `MyLog::run`:
it waits till the queue is not empty, pops a line, takes the day from the clock, and appends the
line to the day's file. A line bears the time at which it was put, and the file the day on which it
was popped.

`LogRun` is the queue among its threads, of which thread 0 is the writer. `written` is the history
of the lines that went through `writeToFile`, with what the clock told.
-/

namespace Smer

open Lib

inductive LogLevel where
  | error
  | debug
  | info
  | warning
  deriving DecidableEq

/-- What is common to the routines that put a line: the text that they push. -/
def logLine (level timeStamp str : Bytes) : Bytes :=
  ascii "[ " ++ timeStamp ++ level ++ ascii "] " ++ str ++ ascii "\n"

namespace MyLog

def putErrLog (now : LocalTime) (str : Bytes) : Bytes :=
  logLine (ascii " -ERROR- : ") (Ztime.getCurTimeWithHms now) str

def putDebugLog (now : LocalTime) (str : Bytes) : Bytes :=
  logLine (ascii " -DEBUG- : ") (Ztime.getCurTimeWithHms now) str

def putInfoLog (now : LocalTime) (str : Bytes) : Bytes :=
  logLine (ascii " -INFO- : ") (Ztime.getCurTimeWithHms now) str

def putWarningLog (now : LocalTime) (str : Bytes) : Bytes :=
  logLine (ascii " -WARNING- : ") (Ztime.getCurTimeWithHms now) str

def logPath : Bytes := ascii "../log/"

/-- The file of a line that is popped at that time. -/
def file (now : LocalTime) : Bytes := logPath ++ Ztime.getCurTimeWithYmd now ++ ascii ".log"

end MyLog

/-- A call of one of the macros. -/
structure LogEntry where
  level : LogLevel
  now : LocalTime
  str : Bytes

/-- The text that the call pushes. -/
def LogEntry.log (e : LogEntry) : Bytes :=
  match e.level with
  | .error => MyLog.putErrLog e.now e.str
  | .debug => MyLog.putDebugLog e.now e.str
  | .info => MyLog.putInfoLog e.now e.str
  | .warning => MyLog.putWarningLog e.now e.str

/-- Where `MyLog::run` stands. -/
inductive LogPoint where
  | look
  /-- in `waitTillNotEmpty` -/
  | looking
  /-- in `pop` -/
  | popping
  | name (log : Bytes)
  | write (now : LocalTime) (log : Bytes)

structure LogRun where
  queue : QueueRun Bytes
  writer : LogPoint
  io : FileIo
  files : Files
  written : List (LocalTime × Bytes)

inductive LogAction where
  /-- another thread than the writer puts a line -/
  | put (thread : Nat) (entry : LogEntry)
  /-- a thread holds the mutex of the queue -/
  | locked (thread : Nat) (woken : Option Nat)
  | wake (thread : Nat)
  /-- the writer goes on outside the queue -/
  | writer (now : LocalTime) (outcome : FileOutcome)

namespace LogRun

def start (threads : Nat) (files : Files) : LogRun :=
  ⟨.start threads, .look, .start, files, []⟩

def writerStep (s : LogRun) (now : LocalTime) (outcome : FileOutcome) : Option LogRun :=
  match s.writer, s.queue.threads[0]? with
  | .look, _ => (s.queue.step (.call 0 .waitTillNotEmpty)).map fun queue =>
      { s with queue := queue, writer := .looking }
  | .looking, some (QueueThread.out _) => (s.queue.step (.call 0 .pop)).map fun queue =>
      { s with queue := queue, writer := .popping }
  | .popping, some (QueueThread.out (some log)) => some { s with writer := .name log }
  | .name log, _ => some { s with writer := .write now log }
  | .write now log, _ =>
    let (io, files) := s.io.writeToFile s.files (MyLog.file now) log outcome
    some { s with
      writer := .look
      io := io
      files := files
      written := s.written ++ [(now, log)] }
  | _, _ => none

def step (s : LogRun) : LogAction → Option LogRun
  | .put thread entry =>
    if thread = 0 then none
    else (s.queue.step (.call thread (.push entry.log))).map fun queue => { s with queue := queue }
  | .locked thread woken =>
    (s.queue.step (.locked thread woken)).map fun queue => { s with queue := queue }
  | .wake thread => (s.queue.step (.wake thread)).map fun queue => { s with queue := queue }
  | .writer now outcome => s.writerStep now outcome

end LogRun

end Smer
