import Smer.Lib.CText
import Mathlib.Data.List.AList
import Mathlib.Logic.Function.Basic

/-!
# Files that are appended to (`Util/inc/FileIO.h`)

`FileIo` keeps a stream for each path, opened for appending when the path is first written to. A
stream that could not be opened, or that has failed to write, takes nothing more; nobody looks at
its state, and it stays in the map until the path is closed.
-/

namespace Smer

open Lib

/-- The contents of the files. -/
abbrev Files := Bytes → Bytes

/-- A stream for appending. -/
structure OutStream where
  good : Bool

/-- What the system does for a call: whether the file can be opened, and how many bytes of the text
reach it. -/
structure FileOutcome where
  opens : Bool
  reaches : Nat

/-- `(*f) << str; (*f).flush();`, on a file with that content. -/
def OutStream.write (f : OutStream) (content str : Bytes) (reaches : Nat) : OutStream × Bytes :=
  if f.good then (⟨str.length ≤ reaches⟩, content ++ str.take reaches) else (f, content)

structure FileIo where
  /-- a path that was closed has a null pointer -/
  path2file : AList fun _ : Bytes => Option OutStream

namespace FileIo

def start : FileIo := ⟨∅⟩

/-- The stream that a write to the path uses. -/
def stream (io : FileIo) (path : Bytes) (opens : Bool) : OutStream :=
  match io.path2file.lookup path with
  | some (some f) => f
  | some none | none => ⟨opens⟩

def writeToFile (io : FileIo) (files : Files) (path str : Bytes) (outcome : FileOutcome) :
    FileIo × Files :=
  let (f, content) := (io.stream path outcome.opens).write (files path) str outcome.reaches
  (⟨io.path2file.insert path (some f)⟩, Function.update files path content)

/-! ## What a file has of what was written to it -/

/-- A file that has had these texts written to it, since it had the first content: a stream that is
good has put all of them there, and otherwise the file has the texts up to some byte. -/
structure Holds (io : FileIo) (files : Files) (path first : Bytes) (texts : List Bytes) : Prop where
  grows : first <+: files path
  pre : files path <+: first ++ texts.flatten
  good : ∀ f, io.path2file.lookup path = some (some f) → f.good = true →
    files path = first ++ texts.flatten
  unused : io.path2file.lookup path = none → files path = first ∧ texts = []
  opened : io.path2file.lookup path ≠ some none

theorem holds_start (files : Files) (path : Bytes) : start.Holds files path (files path) [] where
  grows := List.prefix_refl _
  pre := by rw [List.flatten_nil, List.append_nil]
  good f hf := by cases hf
  unused _ := ⟨rfl, rfl⟩
  opened := nofun

variable {io : FileIo} {files : Files} {path first str : Bytes} {texts : List Bytes}

/-- A write to another path. -/
theorem Holds.other (holds : io.Holds files path first texts) {other : Bytes} (hne : other ≠ path)
    (outcome : FileOutcome) (str : Bytes) :
    (io.writeToFile files other str outcome).1.Holds (io.writeToFile files other str outcome).2
      path first texts := by
  have hlookup : (io.writeToFile files other str outcome).1.path2file.lookup path =
      io.path2file.lookup path := AList.lookup_insert_ne hne.symm
  have hfile : (io.writeToFile files other str outcome).2 path = files path :=
    Function.update_of_ne hne.symm _ _
  refine ⟨?_, ?_, fun f hf => ?_, fun hnone => ?_, ?_⟩
  · rw [hfile]
    exact holds.grows
  · rw [hfile]
    exact holds.pre
  · rw [hlookup] at hf
    rw [hfile]
    exact holds.good f hf
  · rw [hlookup] at hnone
    rw [hfile]
    exact holds.unused hnone
  · rw [hlookup]
    exact holds.opened

/-- The stream that a write uses has put everything there, if it is good. -/
theorem Holds.stream_good (holds : io.Holds files path first texts) {opens : Bool}
    (hgood : (io.stream path opens).good = true) : files path = first ++ texts.flatten := by
  unfold stream at hgood
  split at hgood
  · rename_i f hf
    exact holds.good f hf hgood
  · rename_i hclosed
    exact absurd hclosed holds.opened
  · rename_i hnone
    obtain ⟨hfile, htexts⟩ := holds.unused hnone
    rw [hfile, htexts, List.flatten_nil, List.append_nil]

/-- **A file has a beginning of what was written to it**, whatever fails: nothing is written behind
a text that did not get there whole. -/
theorem Holds.write (holds : io.Holds files path first texts) (outcome : FileOutcome) :
    (io.writeToFile files path str outcome).1.Holds (io.writeToFile files path str outcome).2
      path first (texts ++ [str]) := by
  have hlookup : (io.writeToFile files path str outcome).1.path2file.lookup path =
      some (some ((io.stream path outcome.opens).write (files path) str outcome.reaches).1) :=
    AList.lookup_insert _
  have hfile : (io.writeToFile files path str outcome).2 path =
      ((io.stream path outcome.opens).write (files path) str outcome.reaches).2 :=
    Function.update_self _ _ _
  have htexts : first ++ (texts ++ [str]).flatten = first ++ texts.flatten ++ str := by
    rw [List.flatten_append, List.flatten_singleton, List.append_assoc]
  refine ⟨?_, ?_, fun f hf hgood => ?_, fun hnone => ?_, ?_⟩
  · rw [hfile, OutStream.write]
    split
    · exact holds.grows.trans (List.prefix_append _ _)
    · exact holds.grows
  · rw [hfile, htexts]
    by_cases hgood : (io.stream path outcome.opens).good = true
    · rw [OutStream.write, if_pos hgood, holds.stream_good hgood]
      exact List.prefix_append_right_inj _ |>.mpr (List.take_prefix _ _)
    · rw [OutStream.write, if_neg hgood]
      exact holds.pre.trans (List.prefix_append _ _)
  · rw [hlookup] at hf
    cases hf
    rw [hfile, htexts]
    by_cases hbefore : (io.stream path outcome.opens).good = true
    · rw [OutStream.write, if_pos hbefore] at hgood ⊢
      rw [holds.stream_good hbefore, List.take_of_length_le (of_decide_eq_true hgood)]
    · rw [OutStream.write, if_neg hbefore] at hgood
      exact absurd hgood hbefore
  · rw [hlookup] at hnone
    cases hnone
  · rw [hlookup]
    exact nofun

end FileIo

end Smer
