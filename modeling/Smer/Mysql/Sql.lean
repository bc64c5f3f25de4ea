import Smer.Lib.SqlText

/-!
# The database, as far as the server's statements reach

The server sends MySQL two kinds of statement on one table: a `select` with a username between
quotes (or the largest `userid`), and an `insert` of one row. `parse` reads a statement text: it
finds the quoted literals by the rules of `Lib.scanLit`, and answers what the statement asks for, or
that it breaks off before its end (`incomplete`), or that it is none of these (`other`).

`Mysql` is the engine. Its fields are what the server relies on: a `select` answers the rows whose
username is the literal's value, an `insert` adds its row under a fresh, larger `userid` or is
refused, and a statement that breaks off is a syntax error. What the engine does with a text that is
none of these, such as one whose literal a stray quote has ended early, is left open.
`Mysql.reference` is an engine that refuses all of that.
-/

namespace Smer

open Lib

/-! ## Tables and result sets -/

/-- A row of `userinfo`. -/
structure UserRow where
  userid : Int32
  username : Bytes
  fd : Int32
  password : Bytes
  deriving DecidableEq

abbrev UserInfo := List UserRow

/-- The columns of the result sets. -/
inductive Column where
  | userid
  | password
  | id
  deriving DecidableEq

inductive Cell where
  | int (i : Int32)
  | text (s : Bytes)
  | null
  deriving DecidableEq

abbrev ResultRow := List (Column × Cell)

/-- A result set before its first `next`. -/
abbrev ResultSet := List ResultRow

namespace ResultRow

/-- `getInt`: a column that the row does not have raises an exception, and null reads as zero. -/
def getInt (row : ResultRow) (c : Column) : Option Int32 :=
  (row.lookup c).map fun
    | .int i => i
    | .text s => atoi s
    | .null => 0

/-- `getString`. -/
def getString (row : ResultRow) (c : Column) : Option Bytes :=
  (row.lookup c).map fun
    | .int i => toText i.toInt
    | .text s => s
    | .null => []

end ResultRow

/-! ## Statements -/

/-- The three column lists that are selected by username. -/
inductive Columns where
  | password
  | passwordUserid
  | userid
  deriving DecidableEq

def Columns.text : Columns → Bytes
  | .password => ascii "password"
  | .passwordUserid => ascii "password, userid"
  | .userid => ascii "userid"

def Columns.project : Columns → UserRow → ResultRow
  | .password, row => [(.password, .text row.password)]
  | .passwordUserid, row => [(.password, .text row.password), (.userid, .int row.userid)]
  | .userid, row => [(.userid, .int row.userid)]

/-- What a statement text says. -/
inductive Statement where
  | select (columns : Columns) (username : Bytes)
  | maxUserid
  | insert (username : Bytes) (fd : Int32) (password : Bytes)
  | incomplete
  | other
  deriving DecidableEq

/-- The text of a `select` up to its opening quote. -/
def selectText (columns : Columns) : Bytes :=
  ascii "select " ++ columns.text ++ ascii " from userinfo where username = '"

def maxUseridText : Bytes := ascii "select max(userid) as id from userinfo;"

/-- The text of an `insert` up to its first opening quote. -/
def insertText : Bytes := ascii "insert into userinfo (username, fd, password) values('"

/-- A `select`, from behind its opening quote. The final semicolon may be missing. -/
def parseSelect (columns : Columns) (text : Bytes) : Statement :=
  match scanLit text with
  | none => .incomplete
  | some (username, rest) =>
    if rest = [] ∨ rest = ascii ";" then .select columns username else .other

/-- A byte of a numeral. -/
def inNumeral (b : UInt8) : Bool := b = 45 || isDigit b

/-- An `insert`, from behind its second opening quote. -/
def parsePassword (username : Bytes) (fd : Int32) (text : Bytes) : Statement :=
  match scanLit text with
  | none => .incomplete
  | some (password, rest) =>
    if rest = ascii ")" ∨ rest = ascii ");" then .insert username fd password
    else if rest = [] then .incomplete
    else .other

/-- An `insert`, from behind its first literal. -/
def parseFd (username rest : Bytes) : Statement :=
  let numeral := (rest.drop 2).takeWhile inNumeral
  let expected := ascii ", " ++ numeral ++ ascii ", '"
  if numeral = toText (atoi numeral).toInt ∧ expected.isPrefixOf rest then
    parsePassword username (atoi numeral) (rest.drop expected.length)
  else if rest.isPrefixOf expected then .incomplete
  else .other

/-- An `insert`, from behind its first opening quote. -/
def parseInsert (text : Bytes) : Statement :=
  match scanLit text with
  | none => .incomplete
  | some (username, rest) => parseFd username rest

/-- Read a statement text. -/
def parse (cmd : Bytes) : Statement :=
  if insertText.isPrefixOf cmd then parseInsert (cmd.drop insertText.length)
  else if (selectText .password).isPrefixOf cmd then
    parseSelect .password (cmd.drop (selectText .password).length)
  else if (selectText .passwordUserid).isPrefixOf cmd then
    parseSelect .passwordUserid (cmd.drop (selectText .passwordUserid).length)
  else if (selectText .userid).isPrefixOf cmd then
    parseSelect .userid (cmd.drop (selectText .userid).length)
  else if cmd = maxUseridText then .maxUserid
  else .other

theorem parse_insert (text : Bytes) : parse (insertText ++ text) = parseInsert text := by
  rw [parse, if_pos (by simp only [List.isPrefixOf_iff_prefix, List.prefix_append]),
    List.drop_left]

theorem parse_select (columns : Columns) (text : Bytes) :
    parse (selectText columns ++ text) = parseSelect columns text := by
  have hprefix : (selectText columns).isPrefixOf (selectText columns ++ text) = true := by
    simp only [List.isPrefixOf_iff_prefix, List.prefix_append]
  cases columns with
  | password =>
    rw [parse, if_neg (by simp [insertText, selectText, Columns.text, ascii]), if_pos hprefix,
      List.drop_left]
  | passwordUserid =>
    rw [parse, if_neg (by simp [insertText, selectText, Columns.text, ascii]),
      if_neg (by simp [selectText, Columns.text, ascii]), if_pos hprefix, List.drop_left]
  | userid =>
    rw [parse, if_neg (by simp [insertText, selectText, Columns.text, ascii]),
      if_neg (by simp [selectText, Columns.text, ascii]),
      if_neg (by simp [selectText, Columns.text, ascii]), if_pos hprefix, List.drop_left]

theorem parse_maxUserid : parse maxUseridText = .maxUserid := by decide +kernel

/-- A `select` whose username decodes. -/
theorem parseSelect_decodes {columns : Columns} {x username : Bytes}
    (hx : decodeBody x = some username) :
    parseSelect columns (x ++ ascii "';") = .select columns username := by
  have hscan : scanLit (x ++ ascii "';") = some (username, ascii ";") :=
    scanLit_append_quote hx (by decide)
  rw [parseSelect, hscan]
  exact if_pos (.inr rfl)

/-- A text pasted between the quotes of a `select` decodes if the `select` is read as one. -/
theorem decodes_of_parseSelect {columns columns' : Columns} {x username : Bytes}
    (h : parseSelect columns (x ++ ascii "';") = .select columns' username) :
    decodeBody x = some username := by
  rw [parseSelect] at h
  split at h
  · cases h
  · rename_i v rest hscan
    split at h
    · rename_i hrest
      cases h
      by_cases hquoted : StaysQuoted x
      · rcases hquoted.decodes_or_open with ⟨v, hv⟩ | ⟨-, hopen⟩
        · have hscan' : scanLit (x ++ ascii "';") = some (v, ascii ";") :=
            scanLit_append_quote hv (by decide)
          rw [hscan] at hscan'
          cases hscan'
          exact hv
        · have hscan' : scanLit (x ++ ascii "';") = none := hopen [59] (by decide)
          rw [hscan] at hscan'
          cases hscan'
      · rw [StaysQuoted] at hquoted
        simp only [not_forall] at hquoted
        obtain ⟨v, tail, hscan', htail⟩ := hquoted
        rw [scanLit_append hscan' htail] at hscan
        cases hscan
        have hlen : 0 < tail.length := List.length_pos_iff.mpr htail
        have hend : (ascii "';").length = 2 := by decide
        rcases hrest with hrest | hrest
        · have hcount := congrArg List.length hrest
          rw [List.length_append, hend] at hcount
          cases hcount
        · have hcount := congrArg List.length hrest
          rw [List.length_append, hend] at hcount
          have hone : (ascii ";").length = 1 := by decide
          omega
    · cases h

/-- A `select` behind its opening quote is a `select` of its columns or nothing. -/
theorem parseSelect_cases (columns : Columns) (text : Bytes) :
    (∃ username, parseSelect columns text = .select columns username) ∨
      parseSelect columns text = .incomplete ∨ parseSelect columns text = .other := by
  unfold parseSelect
  split
  · exact .inr (.inl rfl)
  · split
    · exact .inl ⟨_, rfl⟩
    · exact .inr (.inr rfl)

/-- What a `select` is read as does not depend on its columns. -/
theorem parseSelect_other {columns columns' : Columns} {text : Bytes}
    (h : parseSelect columns text = .other) : parseSelect columns' text = .other := by
  unfold parseSelect at h ⊢
  split at h
  · cases h
  · split at h
    · cases h
    · rename_i hrest
      exact if_neg hrest

/-- An `insert` behind its second opening quote is an `insert` or nothing. -/
theorem parsePassword_cases (username : Bytes) (fd : Int32) (text : Bytes) :
    (∃ password, parsePassword username fd text = .insert username fd password) ∨
      parsePassword username fd text = .incomplete ∨ parsePassword username fd text = .other := by
  unfold parsePassword
  split
  · exact .inr (.inl rfl)
  · split
    · exact .inl ⟨_, rfl⟩
    · split
      · exact .inr (.inl rfl)
      · exact .inr (.inr rfl)

theorem takeWhile_numeral (fd : Int32) (rest : Bytes) :
    (toText fd.toInt ++ 44 :: rest).takeWhile inNumeral = toText fd.toInt := by
  rw [List.takeWhile_append_of_pos, List.takeWhile_cons_of_neg (by decide), List.append_nil]
  intro b hb
  rcases mem_toText hb with rfl | hdigit
  · rfl
  · simp only [inNumeral, hdigit, Bool.or_true]

/-- The descriptor of an `insert` is read back. -/
theorem parseFd_toText (username : Bytes) (fd : Int32) (text : Bytes) :
    parseFd username (ascii ", " ++ toText fd.toInt ++ ascii ", '" ++ text) =
      parsePassword username fd text := by
  have hnumeral : ((ascii ", " ++ toText fd.toInt ++ ascii ", '" ++ text).drop 2).takeWhile
      inNumeral = toText fd.toInt := by
    rw [List.append_assoc, List.append_assoc]
    exact takeWhile_numeral fd (ascii " '" ++ text)
  simp only [parseFd, hnumeral, atoi_toText]
  rw [if_pos ⟨trivial, by simp only [List.isPrefixOf_iff_prefix, List.prefix_append]⟩,
    List.drop_left]

/-- An `insert` whose two texts decode. -/
theorem parse_insert_decodes {name username passwd password : Bytes}
    (hname : decodeBody name = some username) (hpasswd : decodeBody passwd = some password)
    (fd : Int32) {rest : Bytes} (hrest : rest = ascii ")" ∨ rest = ascii ");") :
    parse (insertText ++ (name ++ 39 ::
      (ascii ", " ++ toText fd.toInt ++ ascii ", '" ++ (passwd ++ 39 :: rest)))) =
        .insert username fd password := by
  have hhead : rest.head? ≠ some 39 := by
    rcases hrest with rfl | rfl <;> decide
  have hcomma : (ascii ", " ++ toText fd.toInt ++ ascii ", '" ++ (passwd ++ 39 :: rest)).head? ≠
      some 39 := by
    rw [List.append_assoc, List.append_assoc]
    intro hcomma
    exact absurd (Option.some.inj hcomma) (by decide)
  rw [parse_insert, parseInsert, scanLit_append_quote hname hcomma]
  simp only
  rw [parseFd_toText, parsePassword, scanLit_append_quote hpasswd hhead]
  exact if_pos hrest

/-- An `insert` is for the username that its first literal reads. -/
theorem scanLit_of_parseInsert {text username password : Bytes} {fd : Int32}
    (h : parseInsert text = .insert username fd password) :
    ∃ rest, scanLit text = some (username, rest) := by
  unfold parseInsert at h
  split at h
  · cases h
  · rename_i user rest hscan
    refine ⟨rest, ?_⟩
    have huser : user = username := by
      unfold parseFd at h
      simp only at h
      split at h
      · unfold parsePassword at h
        split at h
        · cases h
        · split at h
          · cases h
            rfl
          · split at h
            · cases h
            · cases h
      · split at h
        · cases h
        · cases h
    rw [hscan, huser]

/-! ## The rows of a username -/

/-- With pairwise distinct usernames, a name selects its one row. -/
theorem filter_username {t : UserInfo} (distinct : (t.map UserRow.username).Nodup) {row : UserRow}
    (hrow : row ∈ t) : t.filter (fun r => r.username = row.username) = [row] := by
  induction t with
  | nil => cases hrow
  | cons r t ih =>
    rw [List.map_cons, List.nodup_cons] at distinct
    rcases List.mem_cons.mp hrow with rfl | hmem
    · have hrest : t.filter (fun r => r.username = row.username) = [] := by
        rw [List.filter_eq_nil_iff]
        intro r hr heq
        exact distinct.1 (List.mem_map.mpr ⟨r, hr, of_decide_eq_true heq⟩)
      rw [List.filter_cons, if_pos (decide_eq_true rfl), hrest]
    · have hne : r.username ≠ row.username := fun heq =>
        distinct.1 (heq ▸ List.mem_map_of_mem hmem)
      rw [List.filter_cons, if_neg (by simpa only [decide_eq_true_eq] using hne),
        ih distinct.2 hmem]

theorem filter_username_nil {t : UserInfo} {name : Bytes}
    (hname : ¬ ∃ row ∈ t, row.username = name) :
    t.filter (fun r => r.username = name) = [] := by
  rw [List.filter_eq_nil_iff]
  intro r hr heq
  exact hname ⟨r, hr, of_decide_eq_true heq⟩

/-! ## The engine -/

/-- The largest `userid` of the table. -/
def maxUserid (t : UserInfo) : Option Int32 :=
  ((t.map fun row => row.userid.toInt).max?).map Int32.ofInt

def maxCell (t : UserInfo) : Cell :=
  match maxUserid t with
  | some id => .int id
  | none => .null

/-- A MySQL engine. `none` is an SQL error. -/
structure Mysql where
  query : Bytes → UserInfo → Option ResultSet
  /-- the number of rows changed, and the table after it -/
  update : Bytes → UserInfo → Option (Nat × UserInfo)
  query_select : ∀ {cmd columns username}, parse cmd = .select columns username → ∀ t,
    query cmd t = some ((t.filter fun row => row.username = username).map columns.project)
  query_max : ∀ {cmd}, parse cmd = .maxUserid → ∀ t, query cmd t = some [[(.id, maxCell t)]]
  query_incomplete : ∀ {cmd}, parse cmd = .incomplete → ∀ t, query cmd t = none
  update_insert : ∀ {cmd username fd password}, parse cmd = .insert username fd password →
    ∀ t, update cmd t = none ∨ ∃ id, (∀ row ∈ t, row.userid < id) ∧
      update cmd t = some (1, t ++ [⟨id, username, fd, password⟩])
  update_incomplete : ∀ {cmd}, parse cmd = .incomplete → ∀ t, update cmd t = none

theorem userid_le_max {t : UserInfo} {m : Int32} (hm : maxUserid t = some m) :
    ∀ row ∈ t, row.userid ≤ m := by
  obtain ⟨i, hi, rfl⟩ := Option.map_eq_some_iff.mp hm
  obtain ⟨hmem, hle⟩ := List.max?_eq_some_iff.mp hi
  obtain ⟨top, _, rfl⟩ := List.mem_map.mp hmem
  intro row hrow
  rw [Int32.ofInt_toInt, Int32.le_iff_toInt_le]
  exact hle _ (List.mem_map_of_mem hrow)

/-- A row above all others has the largest `userid`. -/
theorem maxUserid_append {t : UserInfo} {row : UserRow}
    (above : ∀ row' ∈ t, row'.userid < row.userid) :
    maxUserid (t ++ [row]) = some row.userid := by
  have hmax : ((t ++ [row]).map fun row => row.userid.toInt).max? = some row.userid.toInt := by
    rw [List.max?_eq_some_iff, List.map_append, List.map_singleton]
    refine ⟨List.mem_append_right _ List.mem_cons_self, fun i hi => ?_⟩
    rcases List.mem_append.mp hi with hold | hnew
    · obtain ⟨row', hrow', rfl⟩ := List.mem_map.mp hold
      exact Int.le_of_lt (Int32.lt_iff_toInt_lt.mp (above row' hrow'))
    · rw [List.mem_singleton.mp hnew]
  rw [maxUserid, hmax, Option.map_some, Int32.ofInt_toInt]

theorem getInt_maxCell {t : UserInfo} {id : Int32} (hid : maxUserid t = some id) :
    ResultRow.getInt [(.id, maxCell t)] .id = some id := by
  rw [maxCell, hid]
  rfl

/-- The next `userid`: one above the largest, while there is one. -/
def nextUserid (t : UserInfo) : Option Int32 :=
  match maxUserid t with
  | some m => if m.toInt < 2 ^ 31 - 1 then some (.ofInt (m.toInt + 1)) else none
  | none => some 1

theorem userid_lt_next {t : UserInfo} {id : Int32} (hid : nextUserid t = some id) :
    ∀ row ∈ t, row.userid < id := by
  intro row hrow
  rw [nextUserid] at hid
  split at hid
  · rename_i m hm
    have hle := Int32.le_iff_toInt_le.mp (userid_le_max hm row hrow)
    split at hid
    · cases hid
      have hlo := m.le_toInt
      rw [Int32.lt_iff_toInt_lt, Int32.toInt_ofInt_of_le (by omega) (by omega)]
      omega
    · cases hid
  · rename_i hnone
    rw [maxUserid, Option.map_eq_none_iff, List.max?_eq_none_iff, List.map_eq_nil_iff] at hnone
    rw [hnone] at hrow
    cases hrow

/-- An engine that knows the statements of `parse` and no others. -/
def Mysql.reference : Mysql where
  query cmd t :=
    match parse cmd with
    | .select columns username =>
      some ((t.filter fun row => row.username = username).map columns.project)
    | .maxUserid => some [[(.id, maxCell t)]]
    | _ => none
  update cmd t :=
    match parse cmd with
    | .insert username fd password =>
      (nextUserid t).map fun id => (1, t ++ [⟨id, username, fd, password⟩])
    | _ => none
  query_select h t := by rw [h]
  query_max h t := by rw [h]
  query_incomplete h t := by rw [h]
  update_insert h t := by
    rw [h]
    cases hid : nextUserid t with
    | none => exact .inl rfl
    | some id => exact .inr ⟨id, userid_lt_next hid, rfl⟩
  update_incomplete h t := by rw [h]

end Smer
