import Pika.Command.Encoding
import Pika.Foundation.Strtol

/-!
# The items of the configuration

Each item that CONFIG REWRITE writes, with the four pieces of code it passes
through: the check of CONFIG SET and the conversion of its setter, the text
that CONFIG REWRITE stores, and what `Load` makes of a text.
-/

namespace Pika.Server

open Foundation List
open Binlog (Bytes)
open Command (cString stringToLower toLower)

/-! ## Numbers -/

/-- The items with a number. -/
inductive IntItem where
  | timeout | maxclients | dumpExpire | slavePriority | expireLogsDays
  | expireLogsNums | rootConnectionNum | slowlogLogSlowerThan | slowlogMaxLen
  | maxCacheStatisticKeys | smallCompactionThreshold | maxClientResponseSize
  | dbSyncSpeed | syncWindowSize | maxCacheFiles | maxBackgroundCompactions
  | writeBufferSize | maxWriteBufferNumber | arenaBlockSize | consensusLevel
  | replicationNum
  deriving DecidableEq, Repr

/-- `blackwidow::OptionType`. -/
inductive OptionType where
  | kDB | kColumnFamily
  deriving DecidableEq, Repr

/-- What the code says about an item with a number. -/
structure IntSpec where
  /-- The name for CONFIG SET and CONFIG REWRITE. -/
  name : String
  loadName : String := name
  /-- The numbers that CONFIG SET accepts. -/
  accepts : Int → Bool := fun _ => true
  /-- The number that CONFIG SET hands to the setter. -/
  limit : Int → Int := fun number => number
  engineOption : Option (OptionType × String) := none
  /-- `Load` uses `GetConfInt64`. -/
  wide : Bool := false
  /-- CONFIG REWRITE uses `SetConfInt64`. -/
  wideRewrite : Bool := false
  /-- What `Load` stores before it reads. -/
  preset : Option Int := none
  /-- What `Load` makes of the number it read, given `write_buffer_size_`. -/
  check : Int → Int → Int := fun _ number => number

/-- The items, as `ConfigSet`, `ConfigRewrite` and `Load` have them. -/
def IntItem.spec : IntItem → IntSpec
  | timeout =>
    { name := "timeout"
      preset := some (-1)
      check := fun _ number => if number < 0 then 60 else number }
  | maxclients =>
    { name := "maxclients"
      accepts := fun number => 0 < number
      check := fun _ number => if number ≤ 0 then 20000 else number }
  | dumpExpire =>
    { name := "dump-expire", check := fun _ number => if number < 0 then 0 else number }
  | slavePriority => { name := "slave-priority" }
  | expireLogsDays =>
    { name := "expire-logs-days"
      accepts := fun number => 0 < number
      check := fun _ number => if number ≤ 0 then 1 else number }
  | expireLogsNums =>
    { name := "expire-logs-nums"
      accepts := fun number => 0 < number
      check := fun _ number => if number ≤ 10 then 10 else number }
  | rootConnectionNum =>
    { name := "root-connection-num"
      accepts := fun number => 0 < number
      check := fun _ number => if number < 0 then 2 else number }
  | slowlogLogSlowerThan =>
    { name := "slowlog-log-slower-than", accepts := fun number => 0 ≤ number, preset := some (-1) }
  | slowlogMaxLen =>
    { name := "slowlog-max-len"
      accepts := fun number => 0 ≤ number
      check := fun _ number => if number = 0 then 128 else number }
  | maxCacheStatisticKeys =>
    { name := "max-cache-statistic-keys"
      accepts := fun number => 0 ≤ number
      preset := some 0
      check := fun _ number => if number ≤ 0 then 0 else number }
  | smallCompactionThreshold =>
    { name := "small-compaction-threshold"
      accepts := fun number => 0 ≤ number
      preset := some 5000
      check := fun _ number => if number ≤ 0 ∨ 100000 ≤ number then 5000 else number }
  | maxClientResponseSize =>
    { name := "max-client-response-size"
      accepts := fun number => 0 ≤ number
      wide := true
      check := fun _ number => if number ≤ 0 then 1073741824 else number }
  | dbSyncSpeed =>
    { name := "db-sync-speed"
      limit := fun number => if number < 0 ∨ 1024 < number then 1024 else number
      check := fun _ number => if number < 0 ∨ 1024 < number then 1024 else number }
  | syncWindowSize =>
    { name := "sync-window-size"
      accepts := fun number => 0 < number && number ≤ 90000
      preset := some 9000
      check := fun _ number =>
        if number ≤ 0 then 9000 else if 90000 < number then 90000
        else number }
  | maxCacheFiles =>
    { name := "max-cache-files"
      engineOption := some (.kDB, "max_open_files")
      preset := some 5000
      check := fun _ number => if number < -1 then 5000 else number }
  | maxBackgroundCompactions =>
    { name := "max-background-compactions"
      engineOption := some (.kDB, "max_background_compactions")
      preset := some 2
      check := fun _ number => if number ≤ 0 then 2 else if 8 ≤ number then 8 else number }
  | writeBufferSize =>
    { name := "write-buffer-size"
      engineOption := some (.kColumnFamily, "write_buffer_size")
      wide := true
      wideRewrite := true
      check := fun _ number => if number ≤ 0 then 268435456 else number }
  | maxWriteBufferNumber =>
    { name := "max-write-buffer-number"
      loadName := "max-write-buffer-num"
      engineOption := some (.kColumnFamily, "max_write_buffer_number")
      preset := some 2
      check := fun _ number => if number ≤ 0 then 2 else number }
  | arenaBlockSize =>
    { name := "arena-block-size"
      engineOption := some (.kColumnFamily, "arena_block_size")
      wide := true
      wideRewrite := true
      -- `write_buffer_size_ >> 3`
      check := fun bufferSize number => if number ≤ 0 then bufferSize / 8 else number }
  | consensusLevel => { name := "consensus-level", preset := some 0 }
  | replicationNum => { name := "replication-num", preset := some 0 }

/-- How `BaseConf` reads numbers.  It reads what it has written. -/
structure ConfReaders where
  getInt : Bytes → Int
  getInt64 : Bytes → Int
  getInt_range : ∀ text, -2 ^ 31 ≤ getInt text ∧ getInt text < 2 ^ 31
  getInt64_range : ∀ text, -2 ^ 63 ≤ getInt64 text ∧ getInt64 text < 2 ^ 63
  getInt_decimalInt : ∀ number, -2 ^ 31 ≤ number → number < 2 ^ 31 →
    getInt (decimalInt number) = number
  getInt64_decimalInt : ∀ number, -2 ^ 63 ≤ number → number < 2 ^ 63 →
    getInt64 (decimalInt number) = number

/-- The number that `Load` reads for an item. -/
def IntItem.read (readers : ConfReaders) (item : IntItem) (memory : Int)
    (text : Option Bytes) : Int :=
  text.elim (item.spec.preset.getD memory) fun text =>
    if item.spec.wide then readers.getInt64 text else readers.getInt text

/-- The text that CONFIG REWRITE stores for a number. -/
def IntItem.written (item : IntItem) (number : Int) : Bytes :=
  if item.spec.wideRewrite then decimalInt number
  else decimalInt (castInt32 number)

/-! ## Texts -/

/-- The items with a text. -/
inductive TextItem where
  | requirepass | masterauth | userpass | dumpPrefix | compactCron
  | compactInterval | slaveof
  deriving DecidableEq, Repr

/-- The name in the file and for CONFIG SET. -/
def TextItem.name : TextItem → String
  | requirepass => "requirepass"
  | masterauth => "masterauth"
  | userpass => "userpass"
  | dumpPrefix => "dump-prefix"
  | compactCron => "compact-cron"
  | compactInterval => "compact-interval"
  | slaveof => "slaveof"

/-- `std::atoi` on a text of any length: `strtol` stops at the ends of its
range. -/
def atoiInt (text : Bytes) : Int :=
  castInt32 (max (-2 ^ 63) (min (2 ^ 63 - 1) (atoi (cString text))))

/-- `value.find` of a character. -/
def findByte (byte : UInt8) (text : Bytes) : Option Nat :=
  text.findIdx? fun other => other == byte

/-- The check of `compact-cron`, the same in CONFIG SET and in `Load`. -/
def validCron (value : Bytes) : Bool :=
  let haveWeek := value.count 47 = 2
  let firstSlash := (findByte 47 value).getD 0
  let weekStr := if haveWeek then value.take firstSlash else []
  let compactCron := if haveWeek then value.drop (firstSlash + 1) else value
  let len := compactCron.length
  (findByte 45 compactCron).any fun colon =>
    (findByte 47 compactCron).any fun underline =>
      if underline ≤ colon ∨ len ≤ colon + 1 ∨ colon + 1 = underline ∨ len ≤ underline + 1 then
        false
      else
        let week := atoiInt weekStr
        let start := atoiInt (compactCron.take colon)
        let stop := atoiInt ((compactCron.drop (colon + 1)).take underline)
        let usage := atoiInt (compactCron.drop (underline + 1))
        !((haveWeek && (week < 1 || 7 < week)) || start < 0 || 23 < start ||
          stop < 0 || 23 < stop || usage < 0 || 100 < usage)

/-- The check of `compact-interval`, the same in CONFIG SET and in `Load`. -/
def validInterval (value : Bytes) : Bool :=
  (findByte 47 value).any fun slash =>
    if value.length ≤ slash + 1 then false
    else
      let interval := atoiInt (value.take slash)
      let usage := atoiInt (value.drop (slash + 1))
      !(interval ≤ 0 || usage < 0 || 100 < usage)

/-- The texts of an item that are kept. -/
def TextItem.valid : TextItem → Bytes → Bool
  | compactCron, value => value = [] || validCron value
  | compactInterval, value => value = [] || validInterval value
  | _, _ => true

/-- What `Load` makes of a text.  The members are empty before. -/
def TextItem.loaded (item : TextItem) (text : Option Bytes) : Bytes :=
  if item.valid (text.getD []) then text.getD [] else []

/-! ## Flags -/

/-- The items that are on or off. -/
inductive FlagItem where
  | slowlogWriteErrorlog | writeBinlog
  deriving DecidableEq, Repr

/-- The name in the file and for CONFIG SET. -/
def FlagItem.name : FlagItem → String
  | slowlogWriteErrorlog => "slowlog-write-errorlog"
  | writeBinlog => "write-binlog"

/-- A flag as it is written. -/
def yesNo (flag : Bool) : Bytes := if flag then ascii "yes" else ascii "no"

/-- What `Load` makes of a text. -/
def FlagItem.loaded : FlagItem → Option Bytes → Bool
  | slowlogWriteErrorlog, text => text.getD [] = ascii "yes"
  | writeBinlog, text => text.getD [] ≠ ascii "no"

/-! ## The blacklist -/

/-- The byte of a comma. -/
def comma : UInt8 := 44

/-- `StringSplit` at commas.  It is not in the sources, and assumed to leave
out empty parts. -/
def stringSplit (text : Bytes) : List Bytes := (text.splitOn comma).filter fun part => part ≠ []

/-- `StringConcat` with commas, assumed to put one between two parts. -/
def stringConcat (parts : List Bytes) : Bytes := [comma].intercalate parts

/-- `user_blacklist_` of a text. -/
def userBlacklist (text : Bytes) : List Bytes := (stringSplit text).map stringToLower

/-! ## What is written is read -/

/-- A text that is kept is read back. -/
theorem TextItem.loaded_of_valid {item : TextItem} (valid : item.valid text = true) :
    item.loaded (some text) = text := by
  rw [TextItem.loaded, Option.getD_some, if_pos valid]

theorem TextItem.valid_nil (item : TextItem) : item.valid [] = true := by
  cases item <;> rfl

/-- What is loaded is valid. -/
theorem TextItem.valid_loaded (item : TextItem) (text : Option Bytes) :
    item.valid (item.loaded text) = true := by
  rw [TextItem.loaded]
  split_ifs with valid
  · exact valid
  · exact item.valid_nil

/-- A flag is read as it was written. -/
theorem FlagItem.loaded_yesNo (item : FlagItem) (flag : Bool) :
    item.loaded (some (yesNo flag)) = flag := by
  cases item <;> cases flag <;> decide +kernel

/-- The parts of a text have no comma. -/
theorem comma_not_mem_of_mem_splitOn {text part : Bytes} (member : part ∈ text.splitOn comma) :
    comma ∉ part := by
  induction text generalizing part with
  | nil =>
    rw [splitOn_nil, mem_singleton] at member
    rw [member]
    exact not_mem_nil
  | cons byte text ih =>
    rw [splitOn_cons_eq_if_modifyHead] at member
    split_ifs at member with isComma
    · rcases mem_cons.mp member with rfl | later
      · exact not_mem_nil
      · exact ih later
    · cases parts : text.splitOn comma with
      | nil =>
        rw [parts] at member
        cases member
      | cons first rest =>
        rw [parts] at member ih
        rcases mem_cons.mp member with rfl | later
        · rw [mem_cons, not_or]
          refine ⟨?_, ih mem_cons_self⟩
          rintro rfl
          exact isComma (beq_self_eq_true _)
        · exact ih (mem_cons_of_mem _ later)

/-- Lowering a letter does not overflow. -/
theorem toNat_toLower_of_upper {byte : UInt8} (upper : 65 ≤ byte.toNat ∧ byte.toNat ≤ 90) :
    (byte + 32).toNat = byte.toNat + 32 := by
  rw [UInt8.toNat_add]
  change (byte.toNat + 32) % 256 = byte.toNat + 32
  omega

theorem toLower_eq_comma_iff (byte : UInt8) : toLower byte = comma ↔ byte = comma := by
  rw [toLower]
  split_ifs with upper
  · rw [← UInt8.toNat_inj, ← UInt8.toNat_inj, toNat_toLower_of_upper upper]
    change byte.toNat + 32 = 44 ↔ byte.toNat = 44
    omega
  · rfl

theorem toLower_toLower (byte : UInt8) : toLower (toLower byte) = toLower byte := by
  by_cases upper : 65 ≤ byte.toNat ∧ byte.toNat ≤ 90
  · have lower := toNat_toLower_of_upper upper
    rw [toLower, toLower, if_pos upper, if_neg (by omega)]
  · have kept : toLower byte = byte := if_neg upper
    rw [kept, kept]

theorem stringToLower_stringToLower (text : Bytes) :
    stringToLower (stringToLower text) = stringToLower text := by
  rw [stringToLower, stringToLower, map_map]
  exact map_congr_left fun byte _ => toLower_toLower byte

/-- The blacklist is read back from its parts. -/
theorem stringSplit_stringConcat (noComma : ∀ part ∈ parts, comma ∉ part)
    (nonempty : ∀ part ∈ parts, part ≠ []) :
    stringSplit (stringConcat parts) = parts := by
  rw [stringSplit, stringConcat]
  cases parts with
  | nil => rfl
  | cons part rest =>
    rw [splitOn_intercalate comma noComma (cons_ne_nil _ _)]
    exact filter_eq_self.mpr fun part member => decide_eq_true (nonempty part member)

/-- A blacklist is read as it was written. -/
theorem userBlacklist_stringConcat (text : Bytes) :
    userBlacklist (stringConcat (userBlacklist text)) = userBlacklist text := by
  have noComma : ∀ part ∈ userBlacklist text, comma ∉ part := by
    intro part member isComma
    obtain ⟨raw, found, rfl⟩ := mem_map.mp member
    obtain ⟨byte, inside, lowered⟩ := mem_map.mp isComma
    rw [(toLower_eq_comma_iff byte).mp lowered] at inside
    exact comma_not_mem_of_mem_splitOn (mem_of_mem_filter found) inside
  have nonempty : ∀ part ∈ userBlacklist text, part ≠ [] := by
    intro part member
    obtain ⟨raw, found, rfl⟩ := mem_map.mp member
    have notEmpty := of_decide_eq_true (mem_filter.mp found).2
    exact fun empty => notEmpty (map_eq_nil_iff.mp empty)
  rw [userBlacklist, stringSplit_stringConcat noComma nonempty]
  rw [userBlacklist, map_map]
  exact map_congr_left fun part _ => stringToLower_stringToLower part

end Pika.Server
