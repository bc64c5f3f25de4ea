import Smer.Laws.UserMap

/-!
# Refreshing the user map on any reply

`flushAllUserHashData` asks for the whole hash and stores what comes back, two strings at a time.
Whatever Redis replies, it should end: with true and every field of the reply stored under its
value, or with false and nothing changed.

`ExecuteCmd_spop` makes a success of one string out of every reply that is no array, errors
included, and the loop then reads the second string of a pair that has none (`refresh_single`). An
array of odd length does the same, and an array with an element without a text raises an exception.
Of the other arrays a field is found again unless its name has a zero byte or is read a second time
with another number. `refresh_safe_iff` says that these are all the ways to fail.

The reply is any reply at all; which one Redis sends for a given hash is not used.
-/

namespace Smer

open Lib ComManger KGRedisClient

/-! ## Replies and their fields -/

/-- Redis answers the command for the whole hash, and nothing else is asked. -/
def answering (a : RedisAnswer) : (o : Effect) → Unit → Option (o.Ans × Unit)
  | .redisCommand cmdBuf, s => if cmdBuf = hgetallCmd then some (a, s) else none
  | _, _ => none

/-- The user map is refreshed with the reply that Redis gives to the one command of the refresh. -/
def refresh (data : RedisDataManger) (reply : RedisReply) :
    Except Effect (Bool × RedisDataManger) :=
  ((flushAllUserHashData data).run (answering (.reply reply)) ()).1

/-- The whole text of an element of an array. -/
def wholeText : RedisReply → Option Bytes
  | .integer value => some (toText value)
  | .string str | .status str | .error str => some str
  | .nil | .array _ | .other => none

/-- The texts of an array whose elements all have one. -/
def replyTexts : RedisReply → Option (List Bytes)
  | .array elements => elements.mapM wholeText
  | _ => none

/-- A field of the hash: a name and its value. -/
abbrev UserField := Sigma fun _ : Bytes => Bytes

/-- The fields that texts list, names and values in turn. -/
def pairs : List Bytes → List UserField
  | name :: value :: rest => ⟨name, value⟩ :: pairs rest
  | _ => []

/-- The number of the last field whose name is read as `name`. -/
def lastNumber (fields : List UserField) (name : Bytes) : Option Int32 :=
  (fields.reverse.find? fun field => cstr field.1 = name).map fun field => number field.2

/-- The refresh succeeds and stores every field, or fails and leaves the map and the flag. -/
def RefreshSafe (data : RedisDataManger) (reply : RedisReply) : Prop :=
  (∃ data' texts, refresh data reply = .ok (true, data') ∧ replyTexts reply = some texts ∧
    ∀ field ∈ pairs texts, data'.userHash.lookup field.1 = some (number field.2)) ∨
  refresh data reply = .ok (false, data)

/-- A field is found under its name after all of them are stored: a name with a zero byte is never
stored, so the map had it, and of the fields that are read under any other name the last one
counts. -/
def FoundAgain (userHash : UserMap) (fields : List UserField) (field : UserField) : Prop :=
  if 0 ∈ field.1 then userHash.lookup field.1 = some (number field.2)
  else lastNumber fields field.1 = some (number field.2)

/-- The reply is of an unknown kind, or an array of texts, even in number, whose fields are all
found again. -/
def Storable (data : RedisDataManger) (reply : RedisReply) : Prop :=
  reply = .other ∨ ∃ texts, replyTexts reply = some texts ∧ Even texts.length ∧
    ∀ field ∈ pairs texts, FoundAgain data.userHash (pairs texts) field

/-! ## The response -/

/-- An element is converted to the C string of its text. -/
theorem elementText_eq_map (element : RedisReply) :
    elementText element = (wholeText element).map cstr := by
  cases element with
  | integer value =>
    have hplain : (0 : UInt8) ∉ toText value := notMem_toText (by decide) (by decide)
    exact congrArg some (cstr_eq_self hplain).symm
  | _ => rfl

theorem mapM_elementText (elements : List RedisReply) :
    elements.mapM elementText = (elements.mapM wholeText).map (List.map cstr) := by
  induction elements with
  | nil => rfl
  | cons element elements ih =>
    rw [List.mapM_cons, List.mapM_cons, ih, elementText_eq_map]
    cases wholeText element with
    | none => rfl
    | some text => cases elements.mapM wholeText <;> rfl

/-- Texts that are even in number are their pairs. -/
theorem flatMap_pairs {texts : List Bytes} (heven : Even texts.length) :
    (pairs texts).flatMap (fun field => [cstr field.1, cstr field.2]) = texts.map cstr := by
  fun_induction pairs texts with
  | case1 name value rest ih =>
    have hrest : Even rest.length := by
      simpa [Nat.even_add_one] using heven
    rw [List.flatMap_cons, ih hrest]
    rfl
  | case2 texts hpair =>
    cases texts with
    | nil => rfl
    | cons name rest =>
      cases rest with
      | nil => exact absurd heven Nat.not_even_one
      | cons value rest => exact absurd rfl (hpair name value rest)

/-- The loop reads behind the end of a response that is odd in number. -/
theorem storeUsers_odd {response : List Bytes} (hodd : ¬Even response.length)
    (userHash : UserMap) : storeUsers userHash response = none := by
  fun_induction storeUsers userHash response with
  | case1 => exact absurd Even.zero hodd
  | case2 => rfl
  | case3 userHash name value rest ih =>
    apply ih
    simpa [Nat.even_add_one] using hodd

/-! ## The refresh -/

/-- The refresh stores what the reply is converted to. -/
theorem refresh_eq (data : RedisDataManger) (reply : RedisReply) :
    refresh data reply =
      match respond reply with
      | some (true, response) =>
        match storeUsers data.userHash response with
        | some userHash => .ok (true, setUserMapFlag { data with userHash } 0)
        | none => .error (.abort .outOfBounds)
      | some (false, _) => .ok (false, data)
      | none => .error (.abort .raised) := by
  have hanswer : answering (.reply reply) (.redisCommand hgetallCmd) () =
      some (.reply reply, ()) := by
    rw [answering, if_pos rfl]
  rw [refresh, flushAllUserHashData, execHgetAll_eq, Prog.vis_bind, Prog.run_vis_some hanswer,
    onAnswer]
  cases respond reply with
  | none => rfl
  | some out =>
    obtain ⟨ok, response⟩ := out
    cases ok with
    | false => rfl
    | true =>
      rw [Prog.ret_bind]
      simp only [if_true]
      cases storeUsers data.userHash response <;> rfl

/-- A success of one string is read behind its end. -/
theorem refresh_single {data : RedisDataManger} {reply : RedisReply} {text : Bytes}
    (hrespond : respond reply = some (true, [text])) :
    refresh data reply = .error (.abort .outOfBounds) := by
  rw [refresh_eq, hrespond]
  rfl

/-- An array with an element without a text raises an exception. -/
theorem refresh_textless {data : RedisDataManger} {elements : List RedisReply}
    (htexts : elements.mapM wholeText = none) :
    refresh data (.array elements) = .error (.abort .raised) := by
  rw [refresh_eq, respond, mapM_elementText, htexts]
  rfl

/-- An array of texts, odd in number, is read behind its end. -/
theorem refresh_odd {data : RedisDataManger} {elements : List RedisReply} {texts : List Bytes}
    (htexts : elements.mapM wholeText = some texts) (hodd : ¬Even texts.length) :
    refresh data (.array elements) = .error (.abort .outOfBounds) := by
  have hnone : storeUsers data.userHash (texts.map cstr) = none :=
    storeUsers_odd (by rwa [List.length_map]) data.userHash
  rw [refresh_eq, respond, mapM_elementText, htexts]
  simp only [Option.map_some, hnone]

/-- An array of texts, even in number, is stored over what the map had. -/
theorem refresh_even (data : RedisDataManger) {elements : List RedisReply} {texts : List Bytes}
    (htexts : elements.mapM wholeText = some texts) (heven : Even texts.length) :
    ∃ data', refresh data (.array elements) = .ok (true, data') ∧ ∀ name,
      data'.userHash.lookup name =
        (lastNumber (pairs texts) name).or (data.userHash.lookup name) := by
  obtain ⟨stored, hstored, hlookup⟩ := storeUsers_fields (pairs texts) data.userHash
  rw [flatMap_pairs heven] at hstored
  refine ⟨setUserMapFlag { data with userHash := stored } 0, ?_, hlookup⟩
  rw [refresh_eq, respond, mapM_elementText, htexts]
  simp only [Option.map_some, hstored]

/-- What is looked up afterwards is the field iff the field is found again. -/
theorem lookup_eq_iff_foundAgain {userHash : UserMap} {fields : List UserField}
    {field : UserField} (hfield : field ∈ fields) :
    (lastNumber fields field.1).or (userHash.lookup field.1) = some (number field.2) ↔
      FoundAgain userHash fields field := by
  unfold FoundAgain
  split
  · rename_i hzero
    have hnone : lastNumber fields field.1 = none := by
      rw [lastNumber, Option.map_eq_none_iff, List.find?_eq_none]
      intro other _ hname
      rw [← of_decide_eq_true hname] at hzero
      exact zero_notMem_cstr other.1 hzero
    rw [hnone, Option.none_or]
  · rename_i hplain
    have hsome : (lastNumber fields field.1).isSome := by
      rw [lastNumber, Option.isSome_map, List.find?_isSome]
      exact ⟨field, List.mem_reverse.mpr hfield, decide_eq_true (cstr_eq_self hplain)⟩
    rw [Option.or_of_isSome hsome]

/-- A reply that aborts the refresh is not safe. -/
theorem not_refreshSafe_of_error {data : RedisDataManger} {reply : RedisReply} {o : Effect}
    (haborts : refresh data reply = .error o) : ¬RefreshSafe data reply := by
  rintro (⟨data', texts, hok, -⟩ | hkept)
  · cases haborts.symm.trans hok
  · cases haborts.symm.trans hkept

/-- **The refresh is safe exactly on the replies that it can store**, and on those of no known
kind. -/
theorem refresh_safe_iff (data : RedisDataManger) (reply : RedisReply) :
    RefreshSafe data reply ↔ Storable data reply := by
  cases reply with
  | other => exact iff_of_true (.inr rfl) (.inl rfl)
  | array elements =>
    have hother : RedisReply.array elements ≠ .other := by
      intro h
      cases h
    cases htexts : elements.mapM wholeText with
    | none =>
      refine iff_of_false (not_refreshSafe_of_error (refresh_textless htexts)) ?_
      rintro (h | ⟨texts, h, -⟩)
      · exact hother h
      · cases htexts.symm.trans h
    | some texts =>
      have hsame : ∀ {texts'}, replyTexts (.array elements) = some texts' → texts' = texts := by
        intro texts' h
        exact Option.some.inj (h.symm.trans htexts)
      by_cases heven : Even texts.length
      · obtain ⟨data', hrefresh, hlookup⟩ := refresh_even data htexts heven
        constructor
        · rintro (⟨data₁, texts₁, hok, h₁, hfound⟩ | hkept)
          · cases hsame h₁
            cases hrefresh.symm.trans hok
            refine .inr ⟨texts, h₁, heven, fun field hfield => ?_⟩
            rw [← lookup_eq_iff_foundAgain hfield, ← hlookup]
            exact hfound field hfield
          · cases hrefresh.symm.trans hkept
        · rintro (h | ⟨texts₁, h₁, -, hfound⟩)
          · exact absurd h hother
          · cases hsame h₁
            refine .inl ⟨data', texts, hrefresh, h₁, fun field hfield => ?_⟩
            rw [hlookup, lookup_eq_iff_foundAgain hfield]
            exact hfound field hfield
      · refine iff_of_false (not_refreshSafe_of_error (refresh_odd htexts heven)) ?_
        rintro (h | ⟨texts₁, h₁, heven₁, -⟩)
        · exact hother h
        · cases hsame h₁
          exact heven heven₁
  | _ =>
    refine iff_of_false (not_refreshSafe_of_error (refresh_single rfl)) ?_
    rintro (h | ⟨texts, h, -⟩) <;> cases h

/-- An error reply becomes one string, and the loop reads the second of a pair behind the vector's
end. -/
theorem not_refresh_safe :
    ¬∀ (data : RedisDataManger) (reply : RedisReply), RefreshSafe data reply := by
  intro h
  have herror : refresh .new (.error (ascii "ERR")) = .error (.abort .outOfBounds) :=
    refresh_single rfl
  exact not_refreshSafe_of_error herror (h .new (.error (ascii "ERR")))

end Smer
