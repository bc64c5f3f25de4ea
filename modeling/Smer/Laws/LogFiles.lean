import Smer.Laws.Log
import Smer.Lib.Segments

/-!
# The log is read back

What the log is for: the lines tell who put what, at what time of the day, and the files of the days
in the order of their names are the whole log. `readLog` reads the lines of a file, which gives back
what was put where no text has a line break (`readLog_logs`). In every run in which the clock never
goes back by a day and nothing fails, the files of the days that the writer has seen are, one after
the other, the lines in the order in which they were put, up to those that are still to be written
(`readsBack_of_reaches`).

Nothing is established where a write fails, or where the clock is set back over midnight.
-/

namespace Smer

open Lib

/-! ## Lines -/

/-- The line break that ends a line of the log. -/
def newline : UInt8 := 10

def LogLevel.text : LogLevel → Bytes
  | .error => ascii " -ERROR- : "
  | .debug => ascii " -DEBUG- : "
  | .info => ascii " -INFO- : "
  | .warning => ascii " -WARNING- : "

/-- What a line tells: the time of the day, the level and the text. -/
structure LogRecord where
  timeStamp : Bytes
  level : LogLevel
  str : Bytes
  deriving DecidableEq

def LogEntry.record (e : LogEntry) : LogRecord := ⟨Ztime.getCurTimeWithHms e.now, e.level, e.str⟩

/-- Reads a line that has lost its break: the time of day, the level, and the text behind the
bracket. -/
def readLine (line : Bytes) : Option LogRecord :=
  let rest := line.drop 10
  ([.error, .debug, .info, .warning].find? fun level : LogLevel =>
    (level.text ++ ascii "] ").isPrefixOf rest).map fun level =>
      ⟨(line.drop 2).take 8, level, rest.drop (level.text ++ ascii "] ").length⟩

/-- Reads the lines of a file. A file ends with a break, so the last piece is empty. -/
def readLog (content : Bytes) : Option (List LogRecord) :=
  (content.splitOn newline).dropLast.mapM readLine

/-- The line of an entry, up to its break. -/
def LogEntry.body (e : LogEntry) : Bytes :=
  ascii "[ " ++ (Ztime.getCurTimeWithHms e.now ++ (e.level.text ++ (ascii "] " ++ e.str)))

theorem LogEntry.log_eq (e : LogEntry) : e.log = e.body ++ [newline] := by
  obtain ⟨level, now, str⟩ := e
  cases level with
  | error | debug | info | warning =>
    simp only [LogEntry.log, MyLog.putErrLog, MyLog.putDebugLog, MyLog.putInfoLog,
      MyLog.putWarningLog, logLine, LogEntry.body, LogLevel.text, List.append_assoc]
    rfl

theorem Ztime.hms_length (now : LocalTime) : (getCurTimeWithHms now).length = 8 := by
  rw [getCurTimeWithHms_eq]
  simp only [List.length_append, List.length_cons, padded_length]

/-- **A line is read as what was put.** -/
theorem readLine_body (e : LogEntry) : readLine e.body = some e.record := by
  have hstamp : (e.body.drop 2).take 8 = Ztime.getCurTimeWithHms e.now := by
    have hopen : (ascii "[ ").length = 2 := rfl
    rw [LogEntry.body, List.drop_left' hopen, List.take_left' (Ztime.hms_length _)]
  have hrest : e.body.drop 10 = e.level.text ++ (ascii "] " ++ e.str) := by
    have hlen : (ascii "[ " ++ Ztime.getCurTimeWithHms e.now).length = 10 := by
      rw [List.length_append, Ztime.hms_length]
      rfl
    rw [LogEntry.body, ← List.append_assoc, List.drop_left' hlen]
  have hfind : ([.error, .debug, .info, .warning].find? fun level : LogLevel =>
      (level.text ++ ascii "] ").isPrefixOf (e.level.text ++ (ascii "] " ++ e.str))) =
      some e.level := by
    cases e.level with
    | error | debug | info | warning => rfl
  simp only [readLine, hrest, hfind, Option.map_some, hstamp, LogEntry.record]
  rw [← List.append_assoc, List.drop_left]

/-- No break is in a line but at its end, unless the text has one. -/
theorem newline_notMem_body {e : LogEntry} (hstr : newline ∉ e.str) : newline ∉ e.body := by
  have hdigits : ∀ {n : Nat}, n < 10 ^ 2 → newline ∉ padded 2 n := fun hn hmem =>
    absurd (mem_padded hn hmem).1 (by decide)
  have two : ∀ {n : Nat}, n ≤ 10 ^ 2 → ∀ x : Fin n, (x : Nat) < 10 ^ 2 := Ztime.fin_lt_hundred
  have hlevel : newline ∉ e.level.text := by
    cases e.level with
    | error | debug | info | warning => decide
  rw [LogEntry.body, Ztime.getCurTimeWithHms_eq]
  simp only [List.mem_append, List.mem_cons, not_or]
  exact ⟨by decide, ⟨hdigits (two (by decide) _), by decide, hdigits (two (by decide) _),
    by decide, hdigits (two (by decide) _)⟩, hlevel, by decide, hstr⟩

/-- Lines are cut at their breaks. -/
theorem splitOn_lines {lines : List Bytes} (hlines : ∀ line ∈ lines, newline ∉ line) :
    (lines.map (· ++ [newline])).flatten.splitOn newline = lines ++ [[]] := by
  induction lines with
  | nil => rfl
  | cons line lines ih =>
    have hline := hlines line List.mem_cons_self
    rw [List.map_cons, List.flatten_cons, List.append_assoc, List.singleton_append,
      List.splitOn_append_cons_self_of_not_mem hline,
      ih fun other hother => hlines other (List.mem_cons_of_mem _ hother)]
    rfl

/-- **The lines of texts without a break are read back.** -/
theorem readLog_logs {entries : List LogEntry} (hentries : ∀ e ∈ entries, newline ∉ e.str) :
    readLog (entries.map LogEntry.log).flatten = some (entries.map LogEntry.record) := by
  have hlogs : entries.map LogEntry.log = (entries.map LogEntry.body).map (· ++ [newline]) := by
    rw [List.map_map]
    exact List.map_congr_left fun e _ => e.log_eq
  have hlines : ∀ line ∈ entries.map LogEntry.body, newline ∉ line := by
    intro line hline
    obtain ⟨e, he, rfl⟩ := List.mem_map.mp hline
    exact newline_notMem_body (hentries e he)
  rw [readLog, hlogs, splitOn_lines hlines, List.dropLast_concat]
  clear hentries hlogs hlines
  induction entries with
  | nil => rfl
  | cons e entries ih =>
    rw [List.map_cons, List.mapM_cons, readLine_body, ih]
    rfl

/-! ## Names -/

theorem append_lt_append_iff (s t u : Bytes) : s ++ t < s ++ u ↔ t < u := by
  induction s with
  | nil => exact Iff.rfl
  | cons c s ih => rw [List.cons_append, List.cons_append, Ztime.mark_lt_iff, ih]

namespace MyLog

variable {t u : LocalTime}

/-- **The files of the days are named in their order.** -/
theorem file_lt_iff : file t < file u ↔ t.date < u.date := by
  have hsame : ¬ ascii ".log" < ascii ".log" := by decide
  simp only [file, List.append_assoc, append_lt_append_iff, Ztime.getCurTimeWithYmd_eq,
    Ztime.ymd_append_lt_iff, hsame, and_false, or_false]

/-- Two times have one file exactly when they are of one day. -/
theorem file_eq_iff : file t = file u ↔ t.date = u.date := by
  constructor
  · intro heq
    rcases lt_trichotomy t.date u.date with hlt | hdate | hlt
    · have := file_lt_iff.mpr hlt
      rw [heq] at this
      exact absurd this (List.lt_irrefl _)
    · exact hdate
    · have := file_lt_iff.mpr hlt
      rw [heq] at this
      exact absurd this (List.lt_irrefl _)
  · intro hdate
    simp only [LocalTime.date, List.cons.injEq, Fin.val_inj, and_true] at hdate
    rw [file, file, Ztime.getCurTimeWithYmd_eq, Ztime.getCurTimeWithYmd_eq, Ztime.ymd, Ztime.ymd,
      hdate.1, hdate.2.1, hdate.2.2]

end MyLog

/-! ## Runs -/

namespace LogRun

/-- A step in which no text has a line break, the clock does not go back by a day, and nothing
fails. -/
def Ordinary (s : LogRun) : LogAction → Prop
  | .put _ entry => newline ∉ entry.str
  | .writer now outcome => (∀ e ∈ s.written, e.1.date ≤ now.date) ∧ outcome.opens = true ∧
    ∀ log ∈ s.hand, log.length ≤ outcome.reaches
  | .locked _ _ | .wake _ => True

/-- A line of an entry whose text has no break. -/
def Plain (log : Bytes) : Prop := ∃ entry : LogEntry, newline ∉ entry.str ∧ log = entry.log

/-- What the ordinary steps keep besides. -/
structure OrdinaryInv (files : Files) (s : LogRun) : Prop where
  inv : s.Inv files
  puts : QueueRun.Calls (fun _ call => ∀ log ∈ call.value, Plain log) s.queue.threads
  plain : ∀ log ∈ s.queue.pushed, Plain log
  sorted : s.written.Pairwise fun e e' => e.1.date ≤ e'.1.date
  last : ∀ now log, s.writer = .write now log → ∀ e ∈ s.written, e.1.date ≤ now.date
  good : ∀ path f, s.io.path2file.lookup path = some (some f) → f.good = true

/-- What the files are for, given the days whose files are read. -/
structure ReadsBack (days : List LocalTime) (s : LogRun) : Prop where
  names : (days.map MyLog.file).Pairwise (· < ·)
  whole : (days.map MyLog.file).flatMap s.files = (s.written.map Prod.snd).flatten
  /-- of the entries that were put, in this order, the first are written and read back; the others
  are in the writer's hand and in the queue -/
  read : ∃ entries : List LogEntry, s.queue.pushed = entries.map LogEntry.log ∧
    s.written.map Prod.snd = (entries.take s.written.length).map LogEntry.log ∧
    readLog ((days.map MyLog.file).flatMap s.files) =
      some ((entries.take s.written.length).map LogEntry.record)

section Ordinary

variable {files : Files} {s s' : LogRun} {q : QueueRun Bytes}

theorem ordinaryInv_start (threads : Nat) (files : Files) (hthreads : 0 < threads) :
    (start threads files).OrdinaryInv files where
  inv := inv_start threads files hthreads
  puts := by
    intro i thread hthread call hcall
    rw [List.eq_of_mem_replicate (List.mem_of_getElem? hthread)] at hcall
    cases hcall
  plain := by rintro log ⟨⟩
  sorted := .nil
  last := nofun
  good := by rintro path f ⟨⟩

/-- What is pushed is what an operation was called with. -/
theorem plain_step {a : QueueAction Bytes}
    (puts : QueueRun.Calls (fun _ call => ∀ log ∈ call.value, Plain log) s.queue.threads)
    (plain : ∀ log ∈ s.queue.pushed, Plain log) (h : s.queue.step a = some q) :
    ∀ log ∈ q.pushed, Plain log := by
  cases a with
  | call i call =>
    obtain ⟨-, rfl⟩ := QueueRun.step_call h
    exact plain
  | wake i =>
    obtain ⟨call, -, rfl⟩ := QueueRun.step_wake h
    exact plain
  | locked i woken =>
    obtain ⟨call, hready, ⟨-, rfl⟩ | ⟨done, threads, -, -, rfl⟩⟩ := QueueRun.step_locked h
    · exact plain
    · intro log hlog
      rcases List.mem_append.mp hlog with hold | hnew
      · exact plain log hold
      · exact puts i _ hready call rfl log (Option.mem_toList.mp hnew)

/-- A step of a thread at the queue keeps what the ordinary steps keep: what is called with is
plain, and no file changes. -/
theorem OrdinaryInv.queue (ord : s.OrdinaryInv files) {a : QueueAction Bytes} {point : LogPoint}
    (h : s.queue.step a = some q)
    (called : ∀ i call, a = .call i call → ∀ log ∈ call.value, Plain log)
    (inv : Inv files { s with queue := q, writer := point })
    (last : ∀ now log, point = .write now log → ∀ e ∈ s.written, e.1.date ≤ now.date) :
    OrdinaryInv files { s with queue := q, writer := point } where
  inv := inv
  puts := ord.puts.step h called
  plain := plain_step ord.puts ord.plain h
  sorted := ord.sorted
  last := last
  good := ord.good

/-- A line is written whole, to a file that can be opened. -/
theorem OrdinaryInv.writes (ord : s.OrdinaryInv files) {now now' : LocalTime} {log : Bytes}
    {outcome : FileOutcome} (hpoint : s.writer = .write now log)
    (ordinary : s.Ordinary (.writer now' outcome)) : OrdinaryInv files { s with
      writer := .look
      io := (s.io.writeToFile s.files (MyLog.file now) log outcome).1
      files := (s.io.writeToFile s.files (MyLog.file now) log outcome).2
      written := s.written ++ [(now, log)] } := by
  obtain ⟨-, hopens, hreaches⟩ := ordinary
  have hwhole : log.length ≤ outcome.reaches := hreaches log (by rw [hand, hpoint]; simp)
  have hstream : (s.io.stream (MyLog.file now) outcome.opens).good = true := by
    rw [FileIo.stream, hopens]
    split
    · rename_i f hf
      exact ord.good _ f hf
    · rfl
    · rfl
  refine ⟨ord.inv.writes hpoint outcome, ord.puts, ord.plain, ?_, ?_, fun path f hf => ?_⟩
  · refine List.pairwise_append.mpr ⟨ord.sorted, List.pairwise_singleton _ _, fun e he e' he' => ?_⟩
    rw [List.mem_singleton.mp he']
    exact ord.last now log hpoint e he
  · intro now' log' hlook
    cases hlook
  · by_cases hpath : path = MyLog.file now
    · have hself : some (some f) = some (some
          ((s.io.stream (MyLog.file now) outcome.opens).write (s.files (MyLog.file now)) log
            outcome.reaches).1) := by
        rw [← hf, hpath]
        exact AList.lookup_insert _
      cases hself
      rw [OutStream.write, if_pos hstream]
      exact decide_eq_true hwhole
    · refine ord.good path f ?_
      rw [← hf]
      exact (AList.lookup_insert_ne hpath).symm

theorem OrdinaryInv.writerStep (ord : s.OrdinaryInv files) {now : LocalTime}
    {outcome : FileOutcome} (ordinary : s.Ordinary (.writer now outcome))
    (h : s.writerStep now outcome = some s') : s'.OrdinaryInv files := by
  have hinv := ord.inv.writerStep h
  unfold LogRun.writerStep at h
  split at h
  · obtain ⟨q, hq, rfl⟩ := Option.map_eq_some_iff.mp h
    exact ord.queue hq (by rintro i call ⟨⟩ log ⟨⟩) hinv nofun
  · obtain ⟨q, hq, rfl⟩ := Option.map_eq_some_iff.mp h
    exact ord.queue hq (by rintro i call ⟨⟩ log ⟨⟩) hinv nofun
  · cases h
    exact ⟨hinv, ord.puts, ord.plain, ord.sorted, nofun, ord.good⟩
  · cases h
    refine ⟨hinv, ord.puts, ord.plain, ord.sorted, ?_, ord.good⟩
    rintro now' log ⟨⟩
    exact ordinary.1
  · rename_i hpoint
    cases h
    exact ord.writes hpoint ordinary
  · cases h

theorem OrdinaryInv.step (ord : s.OrdinaryInv files) {a : LogAction} (ordinary : s.Ordinary a)
    (h : s.step a = some s') : s'.OrdinaryInv files := by
  have hinv := ord.inv.step h
  cases a with
  | put i entry =>
    rw [LogRun.step, Option.ite_none_left_eq_some] at h
    obtain ⟨q, hq, rfl⟩ := Option.map_eq_some_iff.mp h.2
    refine ord.queue hq ?_ hinv ord.last
    rintro j call ⟨⟩ log ⟨⟩
    exact ⟨entry, ordinary, rfl⟩
  | locked i woken =>
    obtain ⟨q, hq, rfl⟩ := Option.map_eq_some_iff.mp h
    refine ord.queue hq ?_ hinv ord.last
    intro j call hcall
    cases hcall
  | wake i =>
    obtain ⟨q, hq, rfl⟩ := Option.map_eq_some_iff.mp h
    refine ord.queue hq ?_ hinv ord.last
    intro j call hcall
    cases hcall
  | writer now outcome => exact ord.writerStep ordinary h

/-- A file has all the lines that went to it. -/
theorem OrdinaryInv.files_eq (ord : s.OrdinaryInv files) (path : Bytes) :
    s.files path = files path ++ (s.linesOf path).flatten := by
  have holds := ord.inv.files path
  cases hlookup : s.io.path2file.lookup path with
  | none =>
    obtain ⟨hfile, hlines⟩ := holds.unused hlookup
    rw [hfile, hlines, List.flatten_nil, List.append_nil]
  | some pointer =>
    cases pointer with
    | none => exact absurd hlookup holds.opened
    | some f => exact holds.good f hlookup (ord.good path f hlookup)

/-- Plain lines are lines of entries. -/
theorem plain_entries {logs : List Bytes} (plain : ∀ log ∈ logs, Plain log) :
    ∃ entries : List LogEntry, (∀ e ∈ entries, newline ∉ e.str) ∧
      logs = entries.map LogEntry.log := by
  induction logs with
  | nil => exact ⟨[], (by rintro e ⟨⟩), rfl⟩
  | cons log logs ih =>
    obtain ⟨entries, hentries, rfl⟩ := ih fun other hother =>
      plain other (List.mem_cons_of_mem _ hother)
    obtain ⟨e, he, rfl⟩ := plain log List.mem_cons_self
    refine ⟨e :: entries, fun e' he' => ?_, rfl⟩
    rcases List.mem_cons.mp he' with rfl | he'
    · exact he
    · exact hentries e' he'

/-- The files of the days, one after the other. -/
theorem OrdinaryInv.whole (ord : s.OrdinaryInv files) {days : List LocalTime}
    (hdays : days.Pairwise fun t u => t.date < u.date)
    (covers : ∀ e ∈ s.written, ∃ t ∈ days, t.date = e.1.date)
    (fresh : ∀ t ∈ days, files (MyLog.file t) = []) :
    (days.map MyLog.file).flatMap s.files = (s.written.map Prod.snd).flatten := by
  have hday : ∀ t ∈ days, s.files (MyLog.file t) =
      ((segmentOf (fun e : LocalTime × Bytes => e.1.date) s.written t.date).map Prod.snd).flatten := by
    intro t ht
    have hlines : s.written.filter (fun e => MyLog.file e.1 = MyLog.file t) =
        segmentOf (fun e : LocalTime × Bytes => e.1.date) s.written t.date :=
      List.filter_congr fun e _ => decide_eq_decide.mpr MyLog.file_eq_iff
    rw [ord.files_eq, fresh t ht, List.nil_append, linesOf, hlines]
  have hsegments : (days.map LocalTime.date).flatMap
      (segmentOf (fun e : LocalTime × Bytes => e.1.date) s.written) = s.written := by
    refine flatMap_segmentOf (List.pairwise_map.mpr hdays) ord.sorted fun e he => ?_
    obtain ⟨t, ht, hdate⟩ := covers e he
    exact List.mem_map.mpr ⟨t, ht, hdate⟩
  calc (days.map MyLog.file).flatMap s.files
      = days.flatMap fun t => s.files (MyLog.file t) := by rw [List.flatMap_map]
    _ = days.flatMap fun t => ((segmentOf (fun e : LocalTime × Bytes => e.1.date) s.written
          t.date).map Prod.snd).flatten := List.flatMap_congr hday
    _ = (((days.map LocalTime.date).flatMap
          (segmentOf (fun e : LocalTime × Bytes => e.1.date) s.written)).map Prod.snd).flatten := by
        rw [List.flatMap_map, List.map_flatMap, ← List.flatMap_id, List.flatMap_assoc]
        simp only [List.flatMap_id]
    _ = (s.written.map Prod.snd).flatten := by rw [hsegments]

/-- **The log is read back from the files in the order of their names**, in every ordinary run. -/
theorem readsBack_of_reaches {threads : Nat} (hthreads : 0 < threads) {days : List LocalTime}
    (hdays : days.Pairwise fun t u => t.date < u.date)
    (fresh : ∀ t ∈ days, files (MyLog.file t) = [])
    (reach : Reaches step Ordinary (start threads files) s)
    (covers : ∀ e ∈ s.written, ∃ t ∈ days, t.date = e.1.date) : s.ReadsBack days := by
  have ord : s.OrdinaryInv files := reach.invariant (ordinaryInv_start threads files hthreads)
    fun _ _ _ ord ordinary h => ord.step ordinary h
  obtain ⟨entries, hentries, hpushed⟩ := plain_entries ord.plain
  have hwritten : s.written.map Prod.snd =
      (entries.take s.written.length).map LogEntry.log := by
    rw [List.map_take, ← hpushed, ord.inv.fifo, ord.inv.popped, List.append_assoc,
      ← List.length_map Prod.snd, List.take_left]
  have hwhole := ord.whole hdays covers fresh
  refine ⟨List.pairwise_map.mpr (hdays.imp MyLog.file_lt_iff.mpr), hwhole, entries, hpushed,
    hwritten, ?_⟩
  rw [hwhole, hwritten, readLog_logs fun e he => hentries e (List.mem_of_mem_take he)]

end Ordinary

instance (s : LogRun) (a : LogAction) : Decidable (s.Ordinary a) :=
  match a with
  | .put _ entry => inferInstanceAs (Decidable (newline ∉ entry.str))
  | .writer now outcome => inferInstanceAs (Decidable ((∀ e ∈ s.written, e.1.date ≤ now.date) ∧
      outcome.opens = true ∧ ∀ log ∈ s.hand, log.length ≤ outcome.reaches))
  | .locked _ _ | .wake _ => isTrue trivial

/-- The two files of the lines that were put in the last second of a day. -/
theorem readsBack_overMidnight : ∃ s,
    play (fun s a => if Ordinary s a then step s a else none) overMidnight (start 2 noFiles) =
      some s ∧ s.ReadsBack [lastSecond, midnight] := by
  have hplays : (play (fun s a => if Ordinary s a then step s a else none) overMidnight
      (start 2 noFiles)).map (fun s => s.written.map Prod.fst) = some [lastSecond, midnight] := by
    decide +kernel
  obtain ⟨s, hs, hdays⟩ := Option.map_eq_some_iff.mp hplays
  refine ⟨s, hs, readsBack_of_reaches (by decide) (by decide) (fun _ _ => rfl)
    (Reaches.of_play hs) fun e he => ⟨e.1, ?_, rfl⟩⟩
  rw [← hdays]
  exact List.mem_map_of_mem he

end LogRun

end Smer
