import Pika.Foundation.ItemFile
import Pika.Server.ConfItems

/-!
# CONFIG SET, CONFIG REWRITE and Load

The members of `PikaConf`, the items of its file, and the commands noted for
items that the file does not have.  CONFIG SET changes a member and may note
its item; CONFIG REWRITE writes the members over the items that are there and
appends the noted ones; a restart loads the file into new members.
-/

namespace Pika.Server

open Foundation List
open Binlog (Bytes)
open Command (string2l)
open Function (update update_of_ne update_self)

/-- The items that CONFIG REWRITE writes. -/
inductive ConfItem where
  | int (item : IntItem)
  | text (item : TextItem)
  | flag (item : FlagItem)
  | userblacklist
  deriving DecidableEq, Repr

/-- What the commands read of the server. -/
structure SetEnv where
  /-- `role() == PIKA_ROLE_SLAVE`. -/
  isSlave : Bool
  /-- The status of `RewriteBlackwidowOptions`, if it fails. -/
  rewriteOptions : OptionType → String → Bytes → Option Bytes

/-! ## Refusals -/

/-- The reply to a value that is no argument for an item. -/
def invalidArgument (label : String) (value : Bytes) : Bytes :=
  ascii "-ERR Invalid argument '" ++ value ++ ascii ("' for CONFIG SET '" ++ label ++ "'\r\n")

/-- The reply to a number that is not accepted. -/
def IntItem.invalidArgument (value : Bytes) : IntItem → Bytes
  | timeout => ascii "-ERR Invalid argument " ++ value ++ ascii " for CONFIG SET 'timeout'\r\n"
  | dbSyncSpeed => Server.invalidArgument "db-sync-speed(MB)" value
  | item => Server.invalidArgument item.spec.name value

/-- The reply to a number outside the range. -/
def IntItem.exceedRange (value : Bytes) : IntItem → Bytes
  | syncWindowSize =>
    ascii "-ERR Argument exceed range '" ++ value ++ ascii "' for CONFIG SET 'sync-window-size'\r\n"
  | item => item.invalidArgument value

/-- The reply of CONFIG SET where it refuses a number. -/
def IntItem.refusal (env : SetEnv) (item : IntItem) (value : Bytes) : Option Bytes :=
  (string2l value).elim (some (item.invalidArgument value)) fun number =>
    if item.spec.accepts number then
      item.spec.engineOption.bind fun option =>
        (env.rewriteOptions option.1 option.2 value).map fun status =>
          ascii ("-ERR Set " ++ item.spec.name ++ " wrong: ") ++ status ++ ascii "\r\n"
    else some (item.exceedRange value)

/-- The reply of CONFIG SET where it refuses a text. -/
def TextItem.refusal (item : TextItem) (value : Bytes) : Option Bytes :=
  if item.valid value then none
  else some (ascii ("-ERR invalid " ++ item.name ++ "\r\n"))

/-- The reply of CONFIG SET where it refuses a flag. -/
def FlagItem.refusal (env : SetEnv) (value : Bytes) : FlagItem → Option Bytes
  | slowlogWriteErrorlog =>
    if value = ascii "yes" ∨ value = ascii "no" then none
    else some (invalidArgument "slowlog-write-errorlog" value)
  | writeBinlog =>
    if env.isSlave then some (ascii "-ERR need to close master-slave mode first\r\n")
    else if value = ascii "yes" ∨ value = ascii "no" then none
    else some (ascii "-ERR invalid write-binlog (yes or no)\r\n")

namespace ConfItem

/-- The type of a member. -/
abbrev Value : ConfItem → Type
  | int _ => Int
  | text _ => Bytes
  | flag _ => Bool
  | userblacklist => List Bytes

/-- The name in the file and for CONFIG SET. -/
def name : ConfItem → String
  | int item => item.spec.name
  | text item => item.name
  | flag item => item.name
  | userblacklist => "userblacklist"

/-- The name that `Load` reads. -/
def loadName : ConfItem → String
  | int item => item.spec.loadName
  | item => item.name

/-- The items with which CONFIG SET and CONFIG REWRITE begin. -/
def common : List ConfItem :=
  [int .timeout, text .requirepass, text .masterauth, text .userpass,
    userblacklist, text .dumpPrefix, int .maxclients, int .dumpExpire,
    int .expireLogsDays, int .expireLogsNums, int .rootConnectionNum,
    flag .slowlogWriteErrorlog, int .slowlogLogSlowerThan, int .slowlogMaxLen,
    flag .writeBinlog, int .maxCacheStatisticKeys,
    int .smallCompactionThreshold, int .maxClientResponseSize,
    int .dbSyncSpeed, text .compactCron, text .compactInterval,
    int .slavePriority, int .syncWindowSize]

/-- The items of CONFIG SET, in the order of its reply to `*`. -/
def settable : List ConfItem :=
  common ++ [int .maxCacheFiles, int .maxBackgroundCompactions, int .writeBufferSize,
    int .maxWriteBufferNumber, int .arenaBlockSize]

/-- The items of CONFIG REWRITE, in its order. -/
def rewritten : List ConfItem :=
  common ++ [int .consensusLevel, int .replicationNum, int .maxCacheFiles,
    int .maxBackgroundCompactions, int .maxWriteBufferNumber, int .writeBufferSize,
    int .arenaBlockSize, text .slaveof]

/-- The reply of CONFIG SET where it refuses a value. -/
def refusal (env : SetEnv) (value : Bytes) : ConfItem → Option Bytes
  | int item => item.refusal env value
  | text item => item.refusal value
  | flag item => item.refusal env value
  | userblacklist => none

/-- The member that a setter stores for a value that is accepted. -/
def setTo : (item : ConfItem) → Bytes → item.Value
  | int item, value => castInt32 (item.spec.limit ((string2l value).getD 0))
  | text _, value => value
  | flag _, value => decide (value = ascii "yes")
  | userblacklist, value => Server.userBlacklist value

/-- The text that a setter notes for a value. -/
def pushed : ConfItem → Bytes → Bytes
  | int item, value => decimalInt (castInt32 (item.spec.limit ((string2l value).getD 0)))
  | text _, value => value
  | flag .slowlogWriteErrorlog, value => yesNo (value = ascii "yes")
  | flag .writeBinlog, value => value
  | userblacklist, value => value

/-- The text that CONFIG REWRITE stores for a member. -/
def written : (item : ConfItem) → item.Value → Bytes
  | int item, member => item.written member
  | text _, member => member
  | flag _, member => yesNo member
  | userblacklist, member => stringConcat member

/-- The member after `Load`, given `write_buffer_size_`, the member before and
the text that is read. -/
def loaded (readers : ConfReaders) (bufferSize : Int) :
    (item : ConfItem) → item.Value → Option Bytes → item.Value
  | int item, memory, found => item.spec.check bufferSize (item.read readers memory found)
  | text item, _, found => item.loaded found
  | flag item, _, found => item.loaded found
  | userblacklist, _, found => Server.userBlacklist (found.getD [])

/-- CONFIG REWRITE writes every item. -/
theorem mem_rewritten (item : ConfItem) : item ∈ rewritten := by
  cases item with
  | int item => cases item <;> decide
  | text item => cases item <;> decide
  | flag item => cases item <;> decide
  | userblacklist => decide

theorem nodup_names : (rewritten.map name).Nodup := by
  decide +kernel

/-- No two items have one name. -/
theorem name_injective : Function.Injective name := by
  intro first second same
  exact inj_on_of_nodup_map nodup_names (mem_rewritten first) (mem_rewritten second) same

end ConfItem

/-- The members of the configuration. -/
abbrev ConfMembers : Type := (item : ConfItem) → item.Value

/-- The members before `Load`, of which those that the constructor leaves hold
any number of their type. -/
structure RawMembers where
  members : ConfMembers
  int_range : ∀ item : IntItem,
    -2 ^ 63 ≤ (members (.int item) : Int) ∧ (members (.int item) : Int) < 2 ^ 63

/-- `PikaConf`: the items of its file, its members and `diff_commands_`. -/
structure PikaConf where
  file : ItemFile String Bytes
  members : ConfMembers
  diffCommands : ItemFile String Bytes

/-- `Load` of a file into members. -/
def load (readers : ConfReaders) (memory : ConfMembers)
    (file : ItemFile String Bytes) : ConfMembers :=
  let buffer := ConfItem.int .writeBufferSize
  let bufferSize : Int := buffer.loaded readers 0 (memory buffer) (file buffer.loadName)
  fun item => item.loaded readers bufferSize (memory item) (file item.loadName)

namespace PikaConf

/-- A server that has started from a file. -/
def start (readers : ConfReaders) (memory : ConfMembers)
    (file : ItemFile String Bytes) : PikaConf where
  file := file
  members := load readers memory file
  diffCommands := fun _ => none

/-- `TryPushDiffCommands`. -/
def tryPushDiffCommands (command : String) (value : Bytes) (conf : PikaConf) : PikaConf :=
  if (conf.file command).isSome then conf
  else
    { conf with diffCommands := update conf.diffCommands command (some value) }

/-- The setter of an item. -/
def set (item : ConfItem) (value : Bytes) (conf : PikaConf) : PikaConf :=
  { conf.tryPushDiffCommands item.name (item.pushed value) with
    members := update conf.members item (item.setTo value) }

/-- The item of CONFIG SET with a name. -/
def itemNamed (setItem : Bytes) : Option ConfItem :=
  ConfItem.settable.find? fun item => ascii item.name = setItem

/-- `ConfigSet`: the reply, and the configuration behind it. -/
def configSet (env : SetEnv) (setItem value : Bytes) (conf : PikaConf) : Bytes × PikaConf :=
  if setItem = ascii "*" then
    (ascii "*28\r\n" ++ ConfItem.settable.flatMap fun item =>
          bulk (decimal (ascii item.name).length) (ascii item.name), conf)
  else
    match itemNamed setItem with
    | none => (ascii "-ERR Unsupported CONFIG parameter: " ++ setItem ++ ascii "\r\n", conf)
    | some item =>
      match item.refusal env value with
      | some reply => (reply, conf)
      | none => (ascii "+OK\r\n", conf.set item value)

/-- The items that are appended: those with a text. -/
def filteredItems (conf : PikaConf) : ItemFile String Bytes :=
  fun name => (conf.diffCommands name).filter fun text => text ≠ []

/-- `ConfigRewrite`. -/
def configRewrite (conf : PikaConf) : PikaConf where
  file :=
    ItemFile.append ((ConfItem.rewritten.map fun item =>
        (item.name, item.written (conf.members item))).foldl ItemFile.write conf.file)
      conf.filteredItems
  members := conf.members
  diffCommands := fun _ => none

/-! ## What CONFIG REWRITE leaves in the file -/

/-- An item that was there has the text of its member; one that was noted has
the noted text. -/
theorem configRewrite_file_name (conf : PikaConf) (item : ConfItem) :
    conf.configRewrite.file item.name = ((conf.file item.name).map fun _ =>
        item.written (conf.members item)).or
        (conf.filteredItems item.name) := by
  simp only [configRewrite, ItemFile.append]
  rw [ItemFile.foldl_write_of_mem]
  · rw [map_map]
    exact ConfItem.nodup_names
  · exact mem_map.mpr ⟨item, item.mem_rewritten, rfl⟩

/-- Names of no item come from the file, or from what was pushed. -/
theorem configRewrite_file_of_ne (conf : PikaConf) (other : ∀ item : ConfItem, item.name ≠ name) :
    conf.configRewrite.file name = (conf.file name).or (conf.filteredItems name) := by
  simp only [configRewrite, ItemFile.append]
  rw [ItemFile.foldl_write_of_not_mem]
  rw [map_map, mem_map]
  rintro ⟨item, -, same⟩
  exact other item same

/-! ## Runs -/

/-- A command that reads or writes the configuration. -/
inductive Op where
  | configSet (env : SetEnv) (setItem value : Bytes)
  | configRewrite

/-- The configuration behind a command. -/
def step (conf : PikaConf) : Op → PikaConf
  | .configSet env setItem value => (conf.configSet env setItem value).2
  | .configRewrite => conf.configRewrite

/-- The value that a command sets an item to. -/
def Op.sets (item : ConfItem) : Op → Option Bytes
  | .configSet env setItem value =>
    if setItem ≠ ascii "*" ∧ itemNamed setItem = some item ∧ item.refusal env value = none then
      some value
    else none
  | .configRewrite => none

/-- The last value that an item is set to. -/
def lastSet (ops : List Op) (item : ConfItem) : Option Bytes :=
  ops.foldl (fun last op => (op.sets item).or last) none

/-- The configuration behind commands. -/
def run (readers : ConfReaders) (memory : ConfMembers)
    (file : ItemFile String Bytes) (ops : List Op) : PikaConf :=
  ops.foldl step (start readers memory file)

/-- The configuration of a server that is started from the file of another. -/
def restart (readers : ConfReaders) (memory : ConfMembers) (conf : PikaConf) : PikaConf :=
  start readers memory conf.file

/-- CONFIG SET replies and changes nothing, or calls the setter of one item. -/
theorem configSet_cases (conf : PikaConf) (env : SetEnv) (setItem value : Bytes) :
    (∃ reply, conf.configSet env setItem value = (reply, conf) ∧
      ∀ other, (Op.configSet env setItem value).sets other = none) ∨
    ∃ item, conf.configSet env setItem value = (ascii "+OK\r\n", conf.set item value) ∧
      ∀ other, (Op.configSet env setItem value).sets other =
        if other = item then some value else none := by
  by_cases star : setItem = ascii "*"
  · refine .inl ⟨_, if_pos star, fun other => ?_⟩
    rw [Op.sets, if_neg fun both => both.1 star]
  · cases named : itemNamed setItem with
    | none =>
      refine .inl ⟨_, by simp only [configSet, if_neg star, named]; rfl, fun other => ?_⟩
      rw [Op.sets, named, if_neg]
      rintro ⟨-, same, -⟩
      cases same
    | some item =>
      cases refused : item.refusal env value with
      | some reply =>
        refine .inl ⟨reply, by simp only [configSet, if_neg star, named, refused],
          fun other => ?_⟩
        rw [Op.sets, named, if_neg]
        rintro ⟨-, same, accepted⟩
        cases same
        rw [refused] at accepted
        cases accepted
      | none =>
        refine .inr ⟨item, by simp only [configSet, if_neg star, named, refused], fun other => ?_⟩
        rw [Op.sets, named]
        by_cases same : other = item
        · subst same
          rw [if_pos rfl, if_pos ⟨star, rfl, refused⟩]
        · rw [if_neg same, if_neg]
          rintro ⟨-, equal, -⟩
          exact same (Option.some.inj equal).symm

/-- What a configuration has to do with the file it was loaded from and the
values its items were set to. -/
structure Tracks (file : ItemFile String Bytes) (members : ConfMembers)
    (last : ConfItem → Option Bytes) (conf : PikaConf) : Prop where
  members_eq : ∀ item, conf.members item = (last item).elim (members item) item.setTo
  stays : ∀ item : ConfItem, (file item.name).isSome = true → (conf.file item.name).isSome = true
  comes : ∀ item : ConfItem, last item = none → file item.name = none → conf.file item.name = none
  noted : ∀ item : ConfItem, conf.file item.name = none → conf.filteredItems item.name =
      ((last item).map item.pushed).filter fun text => text ≠ []
  other : ∀ name, (∀ item : ConfItem, item.name ≠ name) →
    conf.file name = file name ∧ conf.diffCommands name = none

section Tracks

variable {file : ItemFile String Bytes} {members : ConfMembers}
variable {conf : PikaConf}

/-- At the start nothing is set. -/
theorem tracks_start (readers : ConfReaders) (memory : ConfMembers) (file : ItemFile String Bytes) :
    Tracks file (load readers memory file) (fun _ => none) (start readers memory file) where
  members_eq _ := rfl
  stays _ there := there
  comes _ _ missing := missing
  noted _ _ := rfl
  other _ _ := ⟨rfl, rfl⟩

theorem set_file (item : ConfItem) (value : Bytes) (conf : PikaConf) :
    (conf.set item value).file = conf.file := by
  simp only [set, tryPushDiffCommands]
  split_ifs <;> rfl

/-- A name that is noted is not in the file. -/
theorem set_diffCommands_of_ne (other : name ≠ item.name) (value : Bytes) (conf : PikaConf) :
    (conf.set item value).diffCommands name = conf.diffCommands name := by
  simp only [set, tryPushDiffCommands]
  split_ifs
  · rfl
  · exact update_of_ne other _ _

theorem set_diffCommands_self (missing : conf.file item.name = none) (value : Bytes) :
    (conf.set item value).diffCommands item.name = some (item.pushed value) := by
  simp only [set, tryPushDiffCommands, missing, Option.isSome_none,
    Bool.false_eq_true, if_false, update_self]

/-- CONFIG SET keeps track. -/
theorem Tracks.set (tracks : Tracks file members last conf) (item : ConfItem) (value : Bytes) :
    Tracks file members (update last item (some value)) (conf.set item value) where
  members_eq other := by
    by_cases same : other = item
    · subst same
      rw [update_self]
      exact update_self _ _ _
    · rw [update_of_ne same, ← tracks.members_eq]
      exact update_of_ne same _ _
  stays other there := by
    rw [set_file]
    exact tracks.stays other there
  comes other unset missing := by
    rw [set_file]
    by_cases same : other = item
    · rw [same, update_self] at unset
      cases unset
    · rw [update_of_ne same] at unset
      exact tracks.comes other unset missing
  noted other missing := by
    rw [set_file] at missing
    by_cases same : other = item
    · subst same
      rw [filteredItems, set_diffCommands_self missing, update_self, Option.map_some]
    · rw [filteredItems, set_diffCommands_of_ne (fun name => same (ConfItem.name_injective name)),
        update_of_ne same]
      exact tracks.noted other missing
  other name unnamed := by
    rw [set_file, set_diffCommands_of_ne (unnamed item).symm]
    exact tracks.other name unnamed

/-- So does CONFIG REWRITE. -/
theorem Tracks.configRewrite (tracks : Tracks file members last conf) :
    Tracks file members last conf.configRewrite where
  members_eq := tracks.members_eq
  stays item there := by
    rw [configRewrite_file_name, Option.isSome_or, Option.isSome_map,
      tracks.stays item there, Bool.true_or]
  comes item unset missing := by
    have absent := tracks.comes item unset missing
    rw [configRewrite_file_name, tracks.noted item absent, absent, unset]
    rfl
  noted item missing := by
    rw [configRewrite_file_name, Option.or_eq_none_iff, Option.map_eq_none_iff] at missing
    rw [← tracks.noted item missing.1, missing.2]
    rfl
  other name unnamed := by
    obtain ⟨kept, unnoted⟩ := tracks.other name unnamed
    refine ⟨?_, rfl⟩
    rw [conf.configRewrite_file_of_ne unnamed, filteredItems, unnoted, kept,
      Option.filter_none, Option.or_none]

/-- Every command keeps track of what was set. -/
theorem Tracks.step (tracks : Tracks file members last conf) (op : Op) :
    Tracks file members (fun item => (op.sets item).or (last item)) (conf.step op) := by
  cases op with
  | configRewrite => exact tracks.configRewrite
  | configSet env setItem value =>
    rcases conf.configSet_cases env setItem value with
      ⟨reply, replied, sets⟩ | ⟨item, replied, sets⟩
    · simp only [PikaConf.step, replied, sets, Option.none_or]
      exact tracks
    · have same : (fun other =>
          ((Op.configSet env setItem value).sets other).or (last other)) =
            update last item (some value) := by
        funext other
        rw [sets other, Function.update_apply]
        split_ifs <;> rfl
      simp only [PikaConf.step, replied, same]
      exact tracks.set item value

/-- So do all of them. -/
theorem tracks_run (readers : ConfReaders) (memory : ConfMembers)
    (file : ItemFile String Bytes) (ops : List Op) :
    Tracks file (load readers memory file) (lastSet ops) (run readers memory file ops) := by
  have folded : ∀ last conf, Tracks file (load readers memory file) last conf →
        Tracks file (load readers memory file)
          (fun item => ops.foldl (fun last op => (op.sets item).or last) (last item))
          (ops.foldl PikaConf.step conf) := by
    induction ops with
    | nil => exact fun _ _ tracks => tracks
    | cons op ops ih =>
      exact fun last conf tracks => ih _ _ (tracks.step op)
  exact folded _ _ (tracks_start readers memory file)

end Tracks

end PikaConf

end Pika.Server
