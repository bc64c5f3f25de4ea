import Smer.Lib.CText
import Mathlib.Data.List.AList
import Mathlib.Data.Finset.Basic

/-!
# The Redis server, as far as the session commands reach

A keyspace of sets and a keyspace of hashes, and the commands that the repository sends to them. A
command is a list of words. Redis compares its first word without regard to case, checks the number
of the others, and answers with one reply.

The set key and the hash keys that the repository uses never meet, so the two keyspaces are kept
apart and no command is refused for the type of its key.
-/

namespace Smer

open Lib

/-- A hash: field names to values. -/
abbrev RedisHash := AList fun _ : Bytes => Bytes

/-- What the server holds. A missing key is an empty set, and an empty hash. -/
structure RedisStore where
  sets : Bytes → Finset Bytes
  hashes : Bytes → RedisHash

/-- The replies of the protocol. -/
inductive RedisReply where
  | integer (value : Int)
  | string (str : Bytes)
  | status (str : Bytes)
  | nil
  | error (str : Bytes)
  | array (elements : List RedisReply)
  | other

namespace RedisStore

/-- Nothing stored. -/
def empty : RedisStore := ⟨fun _ => ∅, fun _ => ∅⟩

def setSet (s : RedisStore) (key : Bytes) (members : Finset Bytes) : RedisStore :=
  { s with sets := Function.update s.sets key members }

def setHash (s : RedisStore) (key : Bytes) (fields : RedisHash) : RedisStore :=
  { s with hashes := Function.update s.hashes key fields }

/-- One key of `DEL`. -/
def delKey (s : RedisStore) (key : Bytes) : RedisStore := (s.setSet key ∅).setHash key ∅

def hasKey (s : RedisStore) (key : Bytes) : Bool := s.sets key ≠ ∅ || s.hashes key ≠ ∅

/-- The fields of `HMSET` and `HSET`, written in order. A field without a value is not a pair. -/
def writeFields (fields : RedisHash) : List Bytes → Option RedisHash
  | [] => some fields
  | [_] => none
  | field :: value :: rest => writeFields (fields.insert field value) rest

/-- The words of a command, its name in capitals. -/
def upper (word : Bytes) : Bytes := word.map fun b => if 97 ≤ b && b ≤ 122 then b - 32 else b

def wrongArity (name : Bytes) : RedisReply :=
  .error (ascii "ERR wrong number of arguments for '" ++ name ++ ascii "' command")

/-- The commands that are sent, by name. -/
inductive Command where
  | sadd
  | srem
  | sismember
  | del
  | hmset
  | hset
  | hget
  | hgetall
  deriving DecidableEq

def Command.ofWord (word : Bytes) : Option Command :=
  let name := upper word
  if name = ascii "SADD" then some .sadd
  else if name = ascii "SREM" then some .srem
  else if name = ascii "SISMEMBER" then some .sismember
  else if name = ascii "DEL" then some .del
  else if name = ascii "HMSET" then some .hmset
  else if name = ascii "HSET" then some .hset
  else if name = ascii "HGET" then some .hget
  else if name = ascii "HGETALL" then some .hgetall
  else none

/-- One command on its arguments. -/
def perform (s : RedisStore) : Command → List Bytes → RedisReply × RedisStore
  | .sadd, key :: member :: members =>
    let added := (member :: members).toFinset
    (.integer (added \ s.sets key).card, s.setSet key (s.sets key ∪ added))
  | .sadd, _ => (wrongArity (ascii "sadd"), s)
  | .srem, key :: member :: members =>
    let removed := (member :: members).toFinset
    (.integer (s.sets key ∩ removed).card, s.setSet key (s.sets key \ removed))
  | .srem, _ => (wrongArity (ascii "srem"), s)
  | .sismember, [key, member] => (.integer (if member ∈ s.sets key then 1 else 0), s)
  | .sismember, _ => (wrongArity (ascii "sismember"), s)
  | .del, key :: keys =>
    (.integer ((key :: keys).dedup.filter s.hasKey).length, (key :: keys).foldl delKey s)
  | .del, [] => (wrongArity (ascii "del"), s)
  | .hmset, key :: field :: value :: rest =>
    match writeFields (s.hashes key) (field :: value :: rest) with
    | some fields => (.status (ascii "OK"), s.setHash key fields)
    | none => (wrongArity (ascii "hmset"), s)
  | .hmset, _ => (wrongArity (ascii "hmset"), s)
  | .hset, key :: field :: value :: rest =>
    match writeFields (s.hashes key) (field :: value :: rest) with
    | some fields =>
      (.integer (fields.keys.length - (s.hashes key).keys.length), s.setHash key fields)
    | none => (wrongArity (ascii "hset"), s)
  | .hset, _ => (wrongArity (ascii "hset"), s)
  | .hget, [key, field] =>
    match (s.hashes key).lookup field with
    | some value => (.string value, s)
    | none => (.nil, s)
  | .hget, _ => (wrongArity (ascii "hget"), s)
  | .hgetall, [key] =>
    (.array ((s.hashes key).entries.flatMap fun e => [.string e.1, .string e.2]), s)
  | .hgetall, _ => (wrongArity (ascii "hgetall"), s)

/-- One command line. -/
def exec (s : RedisStore) : List Bytes → RedisReply × RedisStore
  | [] => (.error (ascii "ERR empty command"), s)
  | word :: args =>
    match Command.ofWord word with
    | some command => s.perform command args
    | none => (.error (ascii "ERR unknown command '" ++ word ++ ascii "'"), s)

/-! ## Reading after writing -/

variable (s : RedisStore)

@[simp] theorem setSet_hashes (key : Bytes) (members : Finset Bytes) :
    (s.setSet key members).hashes = s.hashes := rfl

@[simp] theorem setHash_sets (key : Bytes) (fields : RedisHash) :
    (s.setHash key fields).sets = s.sets := rfl

@[simp] theorem setSet_sets_self (key : Bytes) (members : Finset Bytes) :
    (s.setSet key members).sets key = members := Function.update_self ..

theorem setSet_sets_ne {key other : Bytes} (hne : other ≠ key) (members : Finset Bytes) :
    (s.setSet key members).sets other = s.sets other := Function.update_of_ne hne ..

@[simp] theorem setHash_hashes_self (key : Bytes) (fields : RedisHash) :
    (s.setHash key fields).hashes key = fields := Function.update_self ..

theorem setHash_hashes_ne {key other : Bytes} (hne : other ≠ key) (fields : RedisHash) :
    (s.setHash key fields).hashes other = s.hashes other := Function.update_of_ne hne ..

@[simp] theorem delKey_hashes_self (key : Bytes) : (s.delKey key).hashes key = ∅ :=
  setHash_hashes_self ..

theorem delKey_hashes_ne {key other : Bytes} (hne : other ≠ key) :
    (s.delKey key).hashes other = s.hashes other := by
  rw [delKey, setHash_hashes_ne _ hne, setSet_hashes]

theorem delKey_sets_ne {key other : Bytes} (hne : other ≠ key) :
    (s.delKey key).sets other = s.sets other := by
  rw [delKey, setHash_sets, setSet_sets_ne _ hne]

/-- Pairs written in order: as many values as fields. -/
theorem writeFields_isSome (fields : RedisHash) (args : List Bytes) :
    (writeFields fields args).isSome ↔ args.length % 2 = 0 := by
  fun_induction writeFields fields args with
  | case1 => simp only [Option.isSome_some, List.length_nil, Nat.zero_mod]
  | case2 => simp only [Option.isSome_none, Bool.false_eq_true, List.length_singleton, Nat.one_mod,
      one_ne_zero]
  | case3 fields field value rest ih =>
    rw [ih, List.length_cons, List.length_cons]
    omega

/-- The last pair written is what a later read finds. -/
theorem writeFields_append_pair (fields : RedisHash) {args : List Bytes} (field value : Bytes)
    {written : RedisHash} (hw : writeFields fields (args ++ [field, value]) = some written)
    (even : args.length % 2 = 0) : written.lookup field = some value := by
  induction fields, args using writeFields.induct with
  | case1 fields =>
    cases hw
    exact AList.lookup_insert _
  | case2 => cases even
  | case3 fields f v rest ih =>
    simp only [List.length_cons] at even
    exact ih hw (by omega)

end RedisStore

end Smer
