import Pika.Command.Stability

/-!
# The size of a record

A client's request has to fit into the buffer of its connection.  The record
that it leaves in the binlog is at most a hundred bytes longer than the
request, and can be longer: it has the header of an item in front.
-/

namespace Pika.Command

open Foundation List
open Binlog (Bytes BinlogItem length_putFixed)

/-- The values of `max-conn-rbuf-size`. -/
inductive ConnRbufSize where
  /-- `PIKA_MAX_CONN_RBUF_LB`. -/
  | low
  /-- `PIKA_MAX_CONN_RBUF`, also for every other value in the file. -/
  | standard
  /-- `PIKA_MAX_CONN_RBUF_HB`. -/
  | high
  deriving DecidableEq, Repr

/-- `max_conn_rbuf_size()`. -/
def ConnRbufSize.bytes : ConnRbufSize → Nat
  | low => 2 ^ 26
  | standard => 2 ^ 28
  | high => 2 ^ 29

/-- A record of a write command that came in a request which fits into the
buffer of its connection. -/
def FromClient (otherInitial : OtherInitial) (buffer : ConnRbufSize) (record : Bytes) : Prop :=
  ∃ argv command cmd clock item, (respArray argv).length ≤ buffer.bytes ∧
      getCmd argv = some command ∧ command.isWrite = true ∧
      initial otherInitial command argv = .ok cmd ∧
      cmd.toBinlog clock item = record

/-! ## Lengths -/

/-- The length of a bulk string. -/
def bulkLength (text : Bytes) : Nat := (bulk (decimal text.length) text).length

theorem length_redisAppend (count : Nat) (arguments : List Bytes) :
    (redisAppend count arguments).length =
      (decimal count).length + 3 + (arguments.map bulkLength).sum := by
  rw [redisAppend, length_append, length_flatMap]
  simp only [lengthLine, newLine, length_append, length_cons, length_nil]
  rfl

theorem length_binlogEncode (item : BinlogItem) (content : Bytes) :
    (binlogEncode item content).length = content.length + 34 := by
  simp only [binlogEncode, length_append, length_putFixed]
  omega

theorem length_decimal_le (digits : Nat) (small : number < 10 ^ (digits + 1)) :
    (decimal number).length ≤ digits + 1 :=
  (length_decimal_le_iff number digits).mpr small

theorem length_decimalInt_le (digits : Nat) (small : number.natAbs < 10 ^ (digits + 1)) :
    (decimalInt number).length ≤ digits + 2 := by
  cases number with
  | ofNat number => exact (length_decimal_le digits small).trans (Nat.le_succ _)
  | negSucc number => exact Nat.succ_le_succ (length_decimal_le digits small)

/-- An argument that is not there is an empty text. -/
theorem bulkLength_argument_le (argv : List Bytes) (index : Nat) :
    bulkLength (argument argv index) ≤ (argv.map bulkLength).sum + 6 := by
  induction argv generalizing index with
  | nil => simp [argument, bulkLength, length_bulk, decimal]
  | cons text argv ih =>
    cases index with
    | zero =>
      simp only [argument, getD_cons_zero, map_cons, sum_cons]
      omega
    | succ index =>
      have later := ih index
      simp only [argument, getD_cons_succ, map_cons, sum_cons] at later ⊢
      omega

theorem bulkLength_arguments_le (argv : List Bytes) (order : first < second) :
    bulkLength (argument argv first) + bulkLength (argument argv second) ≤
      (argv.map bulkLength).sum + 12 := by
  induction argv generalizing first second with
  | nil => simp [argument, bulkLength, length_bulk, decimal]
  | cons text argv ih =>
    obtain ⟨second, rfl⟩ := Nat.exists_eq_succ_of_ne_zero (Nat.ne_zero_of_lt order)
    cases first with
    | zero =>
      have later := bulkLength_argument_le argv second
      simp only [argument, getD_cons_zero, getD_cons_succ,
        map_cons, sum_cons] at later ⊢
      omega
    | succ first =>
      have later := ih (Nat.lt_of_succ_lt_succ order)
      simp only [argument, getD_cons_succ, map_cons, sum_cons] at later ⊢
      omega

/-! ## Records -/

theorem length_respArray (argv : List Bytes) :
    (respArray argv).length = (decimal argv.length).length + 3 + (argv.map bulkLength).sum :=
  length_redisAppend argv.length argv

theorem length_argvRecord (item : BinlogItem) (argv : List Bytes) :
    (argvRecord item argv).length = (respArray argv).length + 34 :=
  length_binlogEncode item _

theorem bulkLength_decimalInt_castInt32_le (deadline : Int) :
    bulkLength (decimalInt (castInt32 deadline)) ≤ 19 := by
  have range := castInt32_mem_range deadline
  have short : (decimalInt (castInt32 deadline)).length ≤ 11 := length_decimalInt_le 9 (by omega)
  have numeral : (decimal (decimalInt (castInt32 deadline)).length).length ≤ 2 :=
    length_decimal_le 1 (by omega)
  rw [bulkLength, length_bulk]
  omega

theorem bulkLength_decimalInt_castInt64_le (deadline : Int) :
    bulkLength (decimalInt (castInt64 deadline)) ≤ 27 := by
  have range := castInt64_mem_range deadline
  have short : (decimalInt (castInt64 deadline)).length ≤ 20 := length_decimalInt_le 18 (by omega)
  have numeral : (decimal (decimalInt (castInt64 deadline)).length).length ≤ 2 :=
    length_decimal_le 1 (by omega)
  rw [bulkLength, length_bulk]
  omega

theorem length_pksetexatRecord_le (item : BinlogItem) (argv : List Bytes)
    (order : first < second) (deadline : Int) :
    (pksetexatRecord item (argument argv first) (argument argv second) deadline).length ≤
      (respArray argv).length + 100 := by
  have arguments := bulkLength_arguments_le argv order
  have numeral := bulkLength_decimalInt_castInt32_le deadline
  have word : bulkLength (ascii "pksetexat") = 15 := by
    simp [bulkLength, length_bulk, ascii, decimal]
  have count : (decimal 4).length = 1 := by simp [decimal]
  rw [pksetexatRecord, length_binlogEncode, length_redisAppend, length_respArray]
  simp only [map_cons, map_nil, sum_cons, sum_nil]
  omega

theorem length_expireatRecord_le (item : BinlogItem) (argv : List Bytes)
    (index : Nat) (deadline : Int) :
    (expireatRecord item 3 (argument argv index) deadline).length ≤
      (respArray argv).length + 100 := by
  have argument := bulkLength_argument_le argv index
  have numeral := bulkLength_decimalInt_castInt64_le deadline
  have word : bulkLength (ascii "expireat") = 14 := by
    simp [bulkLength, length_bulk, ascii, decimal]
  have count : (decimal 3).length = 1 := by simp [decimal]
  rw [expireatRecord, length_binlogEncode, length_redisAppend, length_respArray]
  simp only [map_cons, map_nil, sum_cons, sum_nil]
  omega

theorem length_setnxRecord_le (item : BinlogItem) (argv : List Bytes) (order : first < second) :
    (binlogEncode item (redisAppend 3
        [ascii "setnx", argument argv first, argument argv second])).length ≤
      (respArray argv).length + 100 := by
  have arguments := bulkLength_arguments_le argv order
  have word : bulkLength (ascii "setnx") = 11 := by simp [bulkLength, length_bulk, ascii, decimal]
  have count : (decimal 3).length = 1 := by simp [decimal]
  rw [length_binlogEncode, length_redisAppend, length_respArray]
  simp only [map_cons, map_nil, sum_cons, sum_nil]
  omega

/-- The parameter of a padding is as long as the one it was made for, unless
its length is not an `int`. -/
theorem length_constructPaddingBinlog_le (length : Nat) (small : length < 2 ^ 31) :
    (constructPaddingBinlog (castUInt32 (length + 34 + 22 + 5))).length ≤ length + 61 := by
  by_cases short : length % 2 ^ 32 < 100000
  · rw [castUInt32_paddingSize short, constructPaddingBinlog_eq short, length_binlogEncode,
      length_paddingContent short]
    omega
  · rw [constructPaddingBinlog_of_not_lt short]
    exact Nat.zero_le _

theorem key_value_of_setOptions (accepted : setOptions options fields = .ok parsed) :
    parsed.key = fields.key ∧ parsed.value = fields.value := by
  fun_induction setOptions options fields with
  | case1 fields =>
    cases accepted
    exact ⟨rfl, rfl⟩
  | case2 opt rest fields _ ih => exact ih accepted
  | case3 opt rest fields _ _ ih => exact ih accepted
  | case5 opt fields _ _ _ target rest ih => exact ih accepted
  | case9 opt fields _ _ _ _ number rest sec _ _ ih => exact ih accepted
  | _ => cases accepted

/-- A record is at most a hundred bytes longer than the request it is from. -/
theorem length_toBinlog_le (accepted : initial otherInitial command argv = .ok cmd)
    (small : (respArray argv).length < 2 ^ 31) (clock : Int) (item : BinlogItem) :
    (cmd.toBinlog clock item).length ≤ (respArray argv).length + 100 := by
  have own : (argvRecord item argv).length ≤ (respArray argv).length + 100 := by
    rw [length_argvRecord]
    omega
  cases accepted_of_initial accepted with
  | set fields =>
    rw [Cmd.toBinlog]
    split_ifs
    · obtain ⟨-, parsed⟩ := checked_eq_ok_iff.mp accepted
      obtain ⟨_, read, same⟩ := Except.map_eq_ok_iff.mp parsed
      cases same
      obtain ⟨key, value⟩ := key_value_of_setOptions read
      rw [key, value]
      exact length_pksetexatRecord_le item argv (Nat.lt_succ_self 1) _
    · exact own
  | setnx => exact length_setnxRecord_le item argv (Nat.lt_succ_self 1)
  | setex sec => exact length_pksetexatRecord_le item argv (by decide) _
  | psetex usec => exact length_pksetexatRecord_le item argv (by decide) _
  | expire sec => exact length_expireatRecord_le item argv 1 _
  | pexpire msec three =>
    rw [Cmd.toBinlog, three]
    exact length_expireatRecord_le item argv 1 _
  | expireat timeStamp => exact own
  | pexpireat timeStampMs three read =>
    rw [Cmd.toBinlog, three]
    exact length_expireatRecord_le item argv 1 _
  | pkSetexAt timeStamp => exact own
  | flushall =>
    rw [Cmd.toBinlog, length_binlogEncode, length_redisAppend]
    simp [bulkLength, length_bulk, ascii, decimal]
  | flushdb dbName => exact own
  | padding =>
    have inside := bulkLength_argument_le argv 1
    rw [bulkLength, length_bulk] at inside
    rw [length_respArray] at small ⊢
    have padded := length_constructPaddingBinlog_le (argument argv 1).length (by omega)
    rw [Cmd.toBinlog]
    omega
  | other => exact own

/-- A client's record is at most a hundred bytes longer than the buffer of its
connection. -/
theorem FromClient.length_le (fromClient : FromClient otherInitial buffer record) :
    record.length ≤ buffer.bytes + 100 := by
  obtain ⟨argv, command, cmd, clock, item, fitting, -, -, accepted, rfl⟩ := fromClient
  have bounded : buffer.bytes < 2 ^ 31 := by
    cases buffer <;> decide
  have longer := length_toBinlog_le accepted (fitting.trans_lt bounded) clock item
  omega

end Pika.Command
