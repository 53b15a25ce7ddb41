import Pika.Command.Encoding

/-!
# Records on a follower

What a follower makes of a record: it parses the content, looks the command
up, runs its `DoInitial` and encodes it again.  Apart from deadlines at the
end of the `int32_t` range and long paddings the record stays what it is.
-/

namespace Pika.Command

open Foundation
open List hiding length
open Binlog (Bytes BinlogItem)

/-! ## Accepted arguments -/

theorem checked_eq_ok_iff {argv : List Bytes} {parsed : Except CmdRet Cmd} :
    checked command argv parsed = .ok cmd ↔
      command.checkArg argv.length = true ∧ parsed = .ok cmd := by
  unfold checked
  split_ifs with counted
  · simp [counted]
  · simp [counted]

theorem integer_eq_ok_iff {text : Bytes} :
    integer text = .ok number ↔ string2l text = some number := by
  unfold integer
  cases string2l text with
  | none => simp
  | some read => simp

/-- A positive arity is the number of arguments. -/
theorem length_of_checkArg {command : CommandName} {arity : Nat}
    {argv : List Bytes} (counted : command.checkArg argv.length = true)
    (registered : command.registration.arity = arity) (positive : 0 < arity) :
    argv.length = arity := by
  simp [CommandName.checkArg, registered] at counted
  omega

/-- `string2l` reads what `ll2string` writes. -/
theorem string2l_decimalInt (lower : -2 ^ 63 ≤ number) (upper : number < 2 ^ 63) :
    string2l (decimalInt number) = some number :=
  readIntIn_eq_some_iff.mpr ⟨rfl, lower, upper⟩

/-! ## What is accepted -/

/-- The commands `Initial` makes of an argument vector, class by class. -/
inductive Accepted (argv : List Bytes) : CommandName → Cmd → Prop
  | set (fields : SetFields) : Accepted argv .setCmd (.set argv fields)
  | setnx : Accepted argv .setnxCmd (.setnx (argument argv 1) (argument argv 2))
  | setex (sec : Int) : Accepted argv .setexCmd (.setex (argument argv 1) (argument argv 3) sec)
  | psetex (usec : Int) :
      Accepted argv .psetexCmd (.psetex (argument argv 1) (argument argv 3) usec)
  | expire (sec : Int) : Accepted argv .expireCmd (.expire (argument argv 1) sec)
  | pexpire (msec : Int) (three : argv.length = 3) :
      Accepted argv .pexpireCmd (.pexpire argv (argument argv 1) msec)
  | expireat (timeStamp : Int) :
      Accepted argv .expireatCmd (.expireat argv (argument argv 1) timeStamp)
  | pexpireat (timeStampMs : Int) (three : argv.length = 3)
      (read : string2l (argument argv 2) = some timeStampMs) :
      Accepted argv .pexpireatCmd (.pexpireat argv (argument argv 1) timeStampMs)
  | pkSetexAt (timeStamp : Int) :
      Accepted argv .pkSetexAtCmd (.pkSetexAt argv (argument argv 1) (argument argv 3) timeStamp)
  | flushall : Accepted argv .flushallCmd .flushall
  | flushdb (dbName : String) : Accepted argv .flushdbCmd (.flushdb argv dbName)
  | padding : Accepted argv .paddingCmd (.padding argv)
  | other (command : CommandName) : Accepted argv command (.other command argv)

theorem accepted_of_initial {otherInitial : OtherInitial}
    {command : CommandName} {argv : List Bytes} {cmd : Cmd}
    (accepted : initial otherInitial command argv = .ok cmd) :
    Accepted argv command cmd := by
  unfold initial at accepted
  split at accepted
  case h_1 =>
    obtain ⟨-, parsed⟩ := checked_eq_ok_iff.mp accepted
    obtain ⟨fields, -, rfl⟩ := Except.map_eq_ok_iff.mp parsed
    exact .set fields
  case h_2 =>
    obtain ⟨-, ⟨⟩⟩ := checked_eq_ok_iff.mp accepted
    exact .setnx
  case h_3 =>
    obtain ⟨-, parsed⟩ := checked_eq_ok_iff.mp accepted
    obtain ⟨sec, -, rfl⟩ := Except.map_eq_ok_iff.mp parsed
    exact .setex sec
  case h_4 =>
    obtain ⟨-, parsed⟩ := checked_eq_ok_iff.mp accepted
    obtain ⟨usec, -, rfl⟩ := Except.map_eq_ok_iff.mp parsed
    exact .psetex usec
  case h_5 =>
    obtain ⟨-, parsed⟩ := checked_eq_ok_iff.mp accepted
    obtain ⟨sec, -, rfl⟩ := Except.map_eq_ok_iff.mp parsed
    exact .expire sec
  case h_6 =>
    obtain ⟨counted, parsed⟩ := checked_eq_ok_iff.mp accepted
    obtain ⟨msec, -, rfl⟩ := Except.map_eq_ok_iff.mp parsed
    exact .pexpire msec (length_of_checkArg counted rfl (Nat.succ_pos 2))
  case h_7 =>
    obtain ⟨-, parsed⟩ := checked_eq_ok_iff.mp accepted
    obtain ⟨timeStamp, -, rfl⟩ := Except.map_eq_ok_iff.mp parsed
    exact .expireat timeStamp
  case h_8 =>
    obtain ⟨counted, parsed⟩ := checked_eq_ok_iff.mp accepted
    obtain ⟨timeStampMs, read, rfl⟩ := Except.map_eq_ok_iff.mp parsed
    exact .pexpireat timeStampMs (length_of_checkArg counted rfl (Nat.succ_pos 2))
      (integer_eq_ok_iff.mp read)
  case h_9 =>
    obtain ⟨-, parsed⟩ := checked_eq_ok_iff.mp accepted
    split at parsed
    · cases parsed
    · split_ifs at parsed
      cases parsed
      exact .pkSetexAt _
  case h_10 =>
    obtain ⟨-, ⟨⟩⟩ := checked_eq_ok_iff.mp accepted
    exact .flushall
  case h_11 =>
    obtain ⟨-, parsed⟩ := checked_eq_ok_iff.mp accepted
    obtain ⟨dbName, -, rfl⟩ := Except.map_eq_ok_iff.mp parsed
    exact .flushdb dbName
  case h_12 =>
    obtain ⟨-, ⟨⟩⟩ := checked_eq_ok_iff.mp accepted
    exact .padding
  case h_13 =>
    obtain ⟨-, -, rfl⟩ := Except.map_eq_ok_iff.mp accepted
    exact .other _

/-! ## Reading a record -/

@[simp] theorem recordContent_binlogEncode (item : BinlogItem) (content : Bytes) :
    recordContent (binlogEncode item content) = content := by
  rw [recordContent, binlogEncode]
  exact drop_left' (by simp [binlogEncodeLen])

theorem readArray_redisAppend {count : Nat} {arguments : List Bytes}
    (counted : count = arguments.length) :
    readArray (redisAppend count arguments) = some arguments := by
  rw [counted]
  exact readArray_respArray arguments

variable {otherInitial : OtherInitial} {clock : Int} {item : BinlogItem}
variable {cmd : Cmd} {argv : List Bytes}

theorem readArray_binlogEncode {count : Nat} (counted : count = argv.length) :
    readArray (recordContent (binlogEncode item (redisAppend count argv))) = some argv := by
  rw [recordContent_binlogEncode, readArray_redisAppend counted]

/-- The command that a follower makes of a record. -/
def followerCmd (otherInitial : OtherInitial) (record : Bytes) : Option Cmd :=
  (readArray (recordContent record)).bind fun argv =>
    (getCmd argv).bind fun command => (initial otherInitial command argv).toOption

theorem followerCmd_eq {record : Bytes} {outcome : Except CmdRet Cmd}
    (read : readArray (recordContent record) = some argv) (found : getCmd argv = some command)
    (accepted : initial otherInitial command argv = outcome) :
    followerCmd otherInitial record = outcome.toOption := by
  rw [followerCmd, read, Option.bind_some, found, Option.bind_some, accepted]

theorem followerCmd_named {record : Bytes} {name : String} {rest : List Bytes}
    {outcome : Except CmdRet Cmd}
    (read : readArray (recordContent record) = some (ascii name :: rest))
    (found : getCmdFromTable (stringToLower (ascii name)) = some command)
    (accepted : initial otherInitial command (ascii name :: rest) = outcome) :
    followerCmd otherInitial record = outcome.toOption :=
  followerCmd_eq read (show getCmd (ascii name :: rest) = _ from found) accepted

/-- A command that logs its own arguments is read as itself. -/
theorem followerCmd_argvRecord (found : getCmd argv = some command)
    (accepted : initial otherInitial command argv = .ok cmd) :
    followerCmd otherInitial (argvRecord item argv) = some cmd :=
  followerCmd_eq (readArray_binlogEncode rfl) found accepted

/-- A record is stable if the command read from it records itself alike. -/
theorem stableOnFollower_iff :
    StableOnFollower otherInitial clock item cmd ↔
      ∃ copy, followerCmd otherInitial (cmd.toBinlog clock item) = some copy ∧
        ∀ later, copy.toBinlog later item = cmd.toBinlog clock item := by
  constructor
  · rintro ⟨argv, command, copy, read, found, accepted, same⟩
    refine ⟨copy, ?_, same⟩
    exact followerCmd_eq read found accepted
  · rintro ⟨copy, made, same⟩
    obtain ⟨argv, read, known⟩ := Option.bind_eq_some_iff.mp made
    obtain ⟨command, found, kept⟩ := Option.bind_eq_some_iff.mp known
    cases accepted : initial otherInitial command argv with
    | error refused =>
      rw [accepted] at kept
      cases kept
    | ok other =>
      rw [accepted] at kept
      cases kept
      exact ⟨argv, command, _, read, found, accepted, same⟩

theorem stableOnFollower_of_argvRecord (found : getCmd argv = some command)
    (accepted : initial otherInitial command argv = .ok cmd)
    (recorded : ∀ clock, cmd.toBinlog clock item = argvRecord item argv) :
    StableOnFollower otherInitial clock item cmd := by
  refine stableOnFollower_iff.mpr ⟨cmd, ?_, ?_⟩
  · rw [recorded]
    exact followerCmd_argvRecord found accepted
  · intro later
    rw [recorded, recorded]

/-! ## The commands that are logged in place of others -/

theorem castInt32_eq_last_iff (value : Int) :
    castInt32 value = 2 ^ 31 - 1 ↔ value % 2 ^ 32 = 2 ^ 31 - 1 := by
  have kept : castInt32 (2 ^ 31 - 1) = 2 ^ 31 - 1 := castInt32_eq_self (by decide) (by decide)
  rw [← kept, castInt32_eq_iff]
  rfl

/-- `PKSetexAtCmd::DoInitial` refuses exactly the last value of an
`int32_t`. -/
theorem initial_pksetexat (otherInitial : OtherInitial) (key value : Bytes) (deadline : Int) :
    initial otherInitial .pkSetexAtCmd
        [ascii "pksetexat", key, decimalInt (castInt32 deadline), value] =
      if deadline % 2 ^ 32 = 2 ^ 31 - 1 then .error .kInvalidInt
      else .ok (.pkSetexAt [ascii "pksetexat", key, decimalInt (castInt32 deadline), value]
        key value (castInt32 deadline)) := by
  have range := castInt32_mem_range deadline
  have read : string2l (decimalInt (castInt32 deadline)) = some (castInt32 deadline) :=
    string2l_decimalInt (by omega) (by omega)
  have last : 2 ^ 31 - 1 ≤ castInt32 deadline ↔ deadline % 2 ^ 32 = 2 ^ 31 - 1 := by
    rw [← castInt32_eq_last_iff]
    omega
  have counted : CommandName.checkArg .pkSetexAtCmd 4 = true := by decide
  simp only [initial, checked, length_cons, length_nil, Nat.zero_add,
    Nat.reduceAdd, counted, if_true, argument, getD_cons_succ, getD_cons_zero, read, last]

theorem followerCmd_pksetexat (deadline : Int) :
    followerCmd otherInitial (pksetexatRecord item key value deadline) =
      if deadline % 2 ^ 32 = 2 ^ 31 - 1 then none
      else some (.pkSetexAt [ascii "pksetexat", key, decimalInt (castInt32 deadline), value]
        key value (castInt32 deadline)) := by
  have read : readArray (recordContent (pksetexatRecord item key value deadline)) =
      some [ascii "pksetexat", key, decimalInt (castInt32 deadline), value] :=
    readArray_binlogEncode rfl
  rw [followerCmd_named read (by decide +kernel) (initial_pksetexat ..)]
  split_ifs <;> rfl

theorem stableOnFollower_iff_of_pksetexat {deadline : Int}
    (recorded : cmd.toBinlog clock item = pksetexatRecord item key value deadline) :
    StableOnFollower otherInitial clock item cmd ↔ deadline % 2 ^ 32 ≠ 2 ^ 31 - 1 := by
  rw [stableOnFollower_iff, recorded, followerCmd_pksetexat]
  split_ifs with last
  · refine iff_of_false ?_ (not_not_intro last)
    rintro ⟨_, refused, _⟩
    cases refused
  · exact iff_of_true ⟨_, rfl, fun _ => rfl⟩ last

theorem initial_expireat (otherInitial : OtherInitial) (key : Bytes) (deadline : Int) :
    initial otherInitial .expireatCmd [ascii "expireat", key, decimalInt (castInt64 deadline)] =
      .ok (.expireat [ascii "expireat", key, decimalInt (castInt64 deadline)]
        key (castInt64 deadline)) := by
  have range := castInt64_mem_range deadline
  have number : string2l (decimalInt (castInt64 deadline)) = some (castInt64 deadline) :=
    string2l_decimalInt range.1 range.2
  have counted : CommandName.checkArg .expireatCmd 3 = true := by decide
  simp only [initial, checked, length_cons, length_nil,
    Nat.zero_add, Nat.reduceAdd, counted, if_true, argument,
    getD_cons_succ, getD_cons_zero, integer, number]
  rfl

theorem followerCmd_expireat {count : Nat} (three : count = 3) (deadline : Int) :
    followerCmd otherInitial (expireatRecord item count key deadline) =
      some (.expireat [ascii "expireat", key, decimalInt (castInt64 deadline)]
        key (castInt64 deadline)) := by
  have read : readArray (recordContent (expireatRecord item count key deadline)) =
      some [ascii "expireat", key, decimalInt (castInt64 deadline)] :=
    readArray_binlogEncode three
  exact followerCmd_named read (by decide +kernel) (initial_expireat ..)

theorem stableOnFollower_of_expireat {count : Nat} {deadline : Int} (three : count = 3)
    (recorded : cmd.toBinlog clock item = expireatRecord item count key deadline) :
    StableOnFollower otherInitial clock item cmd := by
  rw [stableOnFollower_iff, recorded, followerCmd_expireat three]
  refine ⟨_, rfl, fun later => ?_⟩
  rw [three]
  rfl

/-- `setnx` is logged under its own name and with its own arguments. -/
theorem followerCmd_setnx :
    followerCmd otherInitial ((Cmd.setnx key value).toBinlog clock item) =
      some (.setnx key value) := by
  have read : readArray (recordContent ((Cmd.setnx key value).toBinlog clock item)) =
      some [ascii "setnx", key, value] :=
    readArray_binlogEncode rfl
  have accepted : initial otherInitial .setnxCmd [ascii "setnx", key, value] =
      .ok (.setnx key value) :=
    checked_eq_ok_iff.mpr ⟨rfl, rfl⟩
  exact followerCmd_named read (by decide +kernel) accepted

/-- FLUSHALL is logged as FLUSHDB. -/
theorem followerCmd_flushall :
    followerCmd otherInitial (Cmd.flushall.toBinlog clock item) =
      some (.flushdb [ascii "flushdb"] "all") := by
  have read : readArray (recordContent (Cmd.flushall.toBinlog clock item)) =
      some [ascii "flushdb"] :=
    readArray_binlogEncode rfl
  have accepted : initial otherInitial .flushdbCmd [ascii "flushdb"] =
      .ok (.flushdb [ascii "flushdb"] "all") :=
    checked_eq_ok_iff.mpr ⟨rfl, rfl⟩
  exact followerCmd_named read (by decide +kernel) accepted

/-! ## Paddings -/

/-- The length of the parameter is the low 32 bits of the argument's. -/
theorem parameterLen_eq (length : Nat) :
    castInt32 (castInt32 (castUInt32 (length + 34 + 22 + 5) - 34) - 22 - 5) = castInt32 length := by
  have inner : castInt32 (castUInt32 (length + 34 + 22 + 5) - 34) =
      castInt32 (length + 34 + 22 + 5 - 34) := by
    rw [Int.sub_eq_add_neg, castInt32_castUInt32_add, ← Int.sub_eq_add_neg]
  have outer : castInt32 (length + 34 + 22 + 5 - 34) - 22 - 5 =
      castInt32 (length + 34 + 22 + 5 - 34) + -27 := by
    omega
  rw [inner, outer, castInt32_castInt32_add]
  congr 1
  omega

theorem castInt32_length_cases (length : Nat) :
    (0 ≤ castInt32 length ∧ castInt32 length < 100000) ↔ length % 2 ^ 32 < 100000 := by
  unfold castInt32
  rw [Int.bmod_def]
  omega

def paddingItem : BinlogItem :=
  { execTime := 0, termId := 0, logicId := 0, filenum := 0, offset := 0 }

/-- The content of a padding whose parameter has a length. -/
def paddingContent (length : Nat) : Bytes :=
  lengthLine arrayMarker (decimal 2) ++ (bulk (decimal 7) (ascii "padding") ++
    bulk (List.replicate (5 - (decimal length).length) 48 ++ decimal length)
      (List.replicate length 42))

theorem readArray_paddingContent (length : Nat) :
    readArray (paddingContent length) = some [ascii "padding", List.replicate length 42] := by
  have read := readArray_of_numerals [(decimal 7, ascii "padding"),
      (List.replicate (5 - (decimal length).length) 48 ++ decimal length, List.replicate length 42)]
    (readDigits_decimal 2)
    (by
      simp only [forall_mem_cons, readDigits_decimal, length_replicate]
      exact ⟨rfl, readDigits_replicate_zero _ (readDigits_decimal _), by simp⟩)
  simpa [paddingContent] using read

theorem length_bulk (numeral text : Bytes) :
    (bulk numeral text).length = numeral.length + text.length + 5 := by
  simp only [bulk, lengthLine, newLine, length_append, length_cons, length_nil]
  omega

theorem length_paddingContent (short : length < 100000) :
    (paddingContent length).length = length + 27 := by
  have digits := (length_decimal_le_iff length 4).mpr short
  have word : (bulk (decimal 7) (ascii "padding")).length = 13 := by
    simp [length_bulk, ascii, decimal]
  have count : (decimal 2).length = 1 := by simp [decimal]
  simp only [paddingContent, length_append, word, length_bulk, lengthLine, newLine,
    length_cons, length_nil, length_replicate, count]
  omega

/-- A padding whose length needs at most five digits. -/
theorem constructPaddingBinlog_eq (short : length < 100000) :
    constructPaddingBinlog (length + 61) = binlogEncode paddingItem (paddingContent length) := by
  have digits := (length_decimal_le_iff length 4).mpr short
  have content : castInt32 (((length + 61 : Nat) : Int) - 34) = ((length + 27 : Nat) : Int) := by
    rw [castInt32_eq_self] <;> omega
  have parameter : castInt32 (((length + 27 : Nat) : Int) - 22 - 5) = length := by
    rw [castInt32_eq_self] <;> omega
  have announced := castUInt32_natCast_of_lt (show length + 27 < 2 ^ 32 by omega)
  simp only [constructPaddingBinlog, content, parameter, announced, Int.toNat_natCast,
    if_neg (Int.not_lt.mpr (Int.natCast_nonneg length)), if_neg (Nat.not_lt.mpr digits)]
  rw [binlogEncode, length_paddingContent short]
  rfl

theorem castUInt32_paddingSize {length : Nat} (short : length % 2 ^ 32 < 100000) :
    castUInt32 ((length : Int) + 34 + 22 + 5) = length % 2 ^ 32 + 61 := by
  unfold castUInt32
  omega

/-- A longer one is no record at all. -/
theorem constructPaddingBinlog_of_not_lt {length : Nat} (long : ¬length % 2 ^ 32 < 100000) :
    constructPaddingBinlog (castUInt32 (length + 34 + 22 + 5)) = [] := by
  rw [← castInt32_length_cases] at long
  simp only [constructPaddingBinlog, parameterLen_eq]
  split_ifs with negative many
  · rfl
  · rfl
  · exfalso
    rw [Nat.not_lt, length_decimal_le_iff] at many
    omega

/-- A padding is read as one, or not at all. -/
theorem followerCmd_padding :
    followerCmd otherInitial ((Cmd.padding argv).toBinlog clock item) =
      if (argument argv 1).length % 2 ^ 32 < 100000 then
        some (.padding [ascii "padding", List.replicate ((argument argv 1).length % 2 ^ 32) 42])
      else none := by
  rw [Cmd.toBinlog]
  split_ifs with short
  · have read := readArray_paddingContent ((argument argv 1).length % 2 ^ 32)
    rw [← recordContent_binlogEncode paddingItem (paddingContent _)] at read
    have accepted : initial otherInitial .paddingCmd [ascii "padding",
        List.replicate ((argument argv 1).length % 2 ^ 32) 42] = .ok (.padding _) :=
      checked_eq_ok_iff.mpr ⟨rfl, rfl⟩
    rw [castUInt32_paddingSize short, constructPaddingBinlog_eq short]
    exact followerCmd_named read (by decide +kernel) accepted
  · rw [constructPaddingBinlog_of_not_lt short]
    rfl

theorem stableOnFollower_iff_of_padding :
    StableOnFollower otherInitial clock item (.padding argv) ↔
      (argument argv 1).length % 2 ^ 32 < 100000 := by
  rw [stableOnFollower_iff, followerCmd_padding]
  split_ifs with short
  · refine iff_of_true ⟨_, rfl, fun later => ?_⟩ short
    have sameSize : castUInt32
        ((((argument argv 1).length % 2 ^ 32 : Nat) : Int) + 34 + 22 + 5) =
        castUInt32 ((argument argv 1).length + 34 + 22 + 5) := by
      unfold castUInt32
      omega
    simp only [Cmd.toBinlog, argument, getD_cons_succ,
      getD_cons_zero, length_replicate]
    exact congrArg constructPaddingBinlog sameSize
  · refine iff_of_false ?_ short
    rintro ⟨_, read, _⟩
    cases read

/-- A record is understood by a follower and stays the same there exactly when
the command's arguments and the clock allow it to be recorded. -/
theorem stableOnFollower_iff_recordable (otherInitial : OtherInitial)
    (clock : Int) (item : BinlogItem) {command : CommandName}
    {argv : List Bytes} {cmd : Cmd} (found : getCmd argv = some command)
    (accepted : initial otherInitial command argv = .ok cmd) :
    StableOnFollower otherInitial clock item cmd ↔ cmd.Recordable clock := by
  have plain : (∀ clock, cmd.toBinlog clock item = argvRecord item argv) →
      StableOnFollower otherInitial clock item cmd :=
    stableOnFollower_of_argvRecord found accepted
  cases accepted_of_initial accepted with
  | set fields =>
    by_cases expiring : fields.condition = .kEXORPX
    · have recorded : (Cmd.set argv fields).toBinlog clock item =
          pksetexatRecord item fields.key fields.value (clock + fields.sec) := if_pos expiring
      rw [stableOnFollower_iff_of_pksetexat recorded]
      simp [Cmd.Recordable, expiring]
    · refine iff_of_true (plain fun _ => if_neg expiring) ?_
      intro same
      exact absurd same expiring
  | setnx =>
    exact iff_of_true (stableOnFollower_iff.mpr ⟨_, followerCmd_setnx, fun _ => rfl⟩) trivial
  | setex | psetex => exact stableOnFollower_iff_of_pksetexat rfl
  | expire => exact iff_of_true (stableOnFollower_of_expireat rfl rfl) trivial
  | pexpire _ three | pexpireat _ three =>
    exact iff_of_true (stableOnFollower_of_expireat three rfl) trivial
  | flushall =>
    exact iff_of_true (stableOnFollower_iff.mpr ⟨_, followerCmd_flushall, fun _ => rfl⟩)
      trivial
  | padding => exact stableOnFollower_iff_of_padding
  | expireat | pkSetexAt | flushdb | other => exact iff_of_true (plain fun _ => rfl) trivial

/-- `SETEX k 10 v` at second 100 is recorded as a PKSETEXAT that the follower
accepts and records alike. -/
theorem stableOnFollower_setex_short :
    StableOnFollower (fun _ _ => .ok ()) 100
      { execTime := 100, termId := 0, logicId := 1, filenum := 0, offset := 0 }
      (.setex (ascii "k") (ascii "v") 10) := by
  have found : getCmd [ascii "setex", ascii "k", ascii "10", ascii "v"] = some .setexCmd := by
    decide +kernel
  have accepted : initial (fun _ _ => .ok ()) .setexCmd
      [ascii "setex", ascii "k", ascii "10", ascii "v"] =
      .ok (.setex (ascii "k") (ascii "v") 10) := by
    decide +kernel
  exact (stableOnFollower_iff_recordable _ 100 _ found accepted).mpr (by decide)

/-- A deadline at the end of the `int32_t` range is accepted by SETEX, and the
follower refuses its record. -/
theorem not_stableOnFollower_setex_last :
    initial (fun _ _ => .ok ()) .setexCmd
        [ascii "setex", ascii "k", ascii "2147483547", ascii "v"] =
      .ok (.setex (ascii "k") (ascii "v") 2147483547) ∧
    ¬StableOnFollower (fun _ _ => .ok ()) 100
      { execTime := 100, termId := 0, logicId := 1, filenum := 0, offset := 0 }
      (.setex (ascii "k") (ascii "v") 2147483547) := by
  refine ⟨by decide +kernel, ?_⟩
  rw [stableOnFollower_iff_of_pksetexat rfl]
  decide

end Pika.Command
