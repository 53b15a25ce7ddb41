import Pika.Server.Configuration

/-!
# What a restart keeps

Texts, flags and the blacklist that were set survive CONFIG REWRITE and a
restart, whatever their values.  Numbers go through an `int` in their setter
and through the checks of `Load`, which CONFIG SET does not make; one of them
is loaded under another name, one is written through an `int`, and one has a
default that depends on another.
-/

namespace Pika.Server

open Foundation Option
open Binlog (Bytes)
open Command (string2l)

/-! ## Numbers that Load leaves as they are -/

namespace IntItem

/-- `Load` takes a number as it is. -/
def Keeps (bufferSize number : Int) : IntItem → Prop
  | timeout => 0 ≤ number
  | maxclients => 0 < number
  | dumpExpire => 0 ≤ number
  | slavePriority => True
  | expireLogsDays => 0 < number
  | expireLogsNums => 10 ≤ number
  | rootConnectionNum => 0 ≤ number
  | slowlogLogSlowerThan => True
  | slowlogMaxLen => number ≠ 0
  | maxCacheStatisticKeys => 0 ≤ number
  | smallCompactionThreshold => 0 < number ∧ number < 100000
  | maxClientResponseSize => 0 < number
  | dbSyncSpeed => 0 ≤ number ∧ number ≤ 1024
  | syncWindowSize => 0 < number ∧ number ≤ 90000
  | maxCacheFiles => -1 ≤ number
  | maxBackgroundCompactions => 0 < number ∧ number ≤ 8
  | writeBufferSize => 0 < number
  | maxWriteBufferNumber => 0 < number
  | arenaBlockSize => 0 < number ∨ number = 0 ∧ bufferSize < 8
  | consensusLevel => True
  | replicationNum => True

variable {bufferSize other number : Int} {item : IntItem}

/-- A check leaves a number alone exactly if the item keeps it. -/
theorem check_eq_self_iff (positive : 0 < bufferSize) :
    item.spec.check bufferSize number = number ↔ item.Keeps bufferSize number := by
  cases item <;> simp only [spec, Keeps] <;> try split_ifs
  all_goals omega

theorem check_congr (notArena : item ≠ arenaBlockSize) :
    item.spec.check bufferSize number = item.spec.check other number := by
  cases item <;> first | rfl | exact absurd rfl notArena

/-- What a check returns passes it. -/
theorem keeps_check (notArena : item ≠ arenaBlockSize) :
    item.Keeps other (item.spec.check bufferSize number) := by
  cases item <;> simp only [spec, Keeps] <;> try split_ifs
  all_goals first | omega | trivial

theorem limit_of_keeps (keeps : item.Keeps bufferSize number) :
    item.spec.limit number = number := by
  cases item <;> first
    | rfl
    | simp only [Keeps] at keeps
      simp only [spec]
      rw [if_neg (by omega)]

theorem check_range (notArena : item ≠ arenaBlockSize)
    (lower : -2 ^ 31 ≤ number) (upper : number < 2 ^ 31) :
    -2 ^ 31 ≤ item.spec.check bufferSize number ∧ item.spec.check bufferSize number < 2 ^ 31 := by
  cases item <;> simp only [spec] <;> try split_ifs
  all_goals first | omega | exact absurd rfl notArena

theorem check_range_wide
    (bufferUpper : item = arenaBlockSize → 0 ≤ bufferSize ∧ bufferSize < 2 ^ 63)
    (lower : -2 ^ 63 ≤ number) (upper : number < 2 ^ 63) :
    -2 ^ 63 ≤ item.spec.check bufferSize number ∧ item.spec.check bufferSize number < 2 ^ 63 := by
  by_cases arena : item = arenaBlockSize
  · have buffer := bufferUpper arena
    subst arena
    simp only [spec]
    split_ifs <;> omega
  · cases item <;> simp only [spec] <;> try split_ifs
    all_goals first | omega | exact absurd rfl arena

end IntItem

namespace PikaConf

/-! ## Survival -/

/-- A member is what a value denotes. -/
def Denotes (value : Bytes) : (item : ConfItem) → item.Value → Prop
  | .int _, member => string2l value = some member
  | .text _, member => member = value
  | .flag _, member => value = yesNo member
  | .userblacklist, member => member = Server.userBlacklist value

/-- What was set survives CONFIG REWRITE and a restart, and nothing else
changes. -/
structure Survives (readers : ConfReaders) (memory later : RawMembers)
    (file : ItemFile String Bytes) (ops : List Op) : Prop where
  /-- An item that was set has the member that its last value denotes, also
  behind a restart. -/
  set : ∀ item value, lastSet ops item = some value →
    ((run readers memory.members file ops).configRewrite.restart readers
          later.members).members item = (run readers memory.members file ops).members item ∧
      Denotes value item ((run readers memory.members file ops).members item)
  /-- An item that was not set has the member of the first start. -/
  unset : ∀ item, lastSet ops item = none →
    ((run readers memory.members file ops).configRewrite.restart readers
        later.members).members item = (start readers memory.members file).members item
  /-- Other items of the file keep their texts. -/
  other : ∀ name, (∀ item : ConfItem, item.name ≠ name) →
    ((run readers memory.members file ops).configRewrite.restart readers
      later.members).file name = file name

/-- A number that was set survives: it is an `int` that `Load` takes as it is,
and it is the number at the start where it is loaded under another name. -/
def SetSound (bufferSize atStart : Int) (value : Bytes) (item : IntItem) : Prop :=
  ∃ number, string2l value = some number ∧ -2 ^ 31 ≤ number ∧
    number < 2 ^ 31 ∧ item.Keeps bufferSize number ∧
    (item = .maxWriteBufferNumber → number = atStart)

/-- A number that was not set survives: in the file, a response size is an
`int` and an arena is taken as it is; outside the file, an item without a
preset member has one that `Load` makes the same number of. -/
def UnsetSound (bufferSize atStart later : Int) (file : ItemFile String Bytes)
    (item : IntItem) : Prop :=
  ((file item.spec.name).isSome = true → (item = .maxClientResponseSize → atStart < 2 ^ 31) ∧
      (item = .arenaBlockSize → item.Keeps bufferSize atStart)) ∧
    (file item.spec.name = none → item.spec.preset = none →
      item.spec.check bufferSize later = atStart)

/-- What was set and what was loaded survives. -/
structure SoundRun (readers : ConfReaders) (memory later : RawMembers)
    (file : ItemFile String Bytes) (ops : List Op) : Prop where
  set : ∀ (item : IntItem) value, lastSet ops (.int item) = some value → SetSound
      ((run readers memory.members file ops).members (.int .writeBufferSize))
      ((start readers memory.members file).members (.int item)) value item
  unset : ∀ item : IntItem, lastSet ops (.int item) = none → UnsetSound
      ((run readers memory.members file ops).members (.int .writeBufferSize))
      ((start readers memory.members file).members (.int item))
      (later.members (.int item)) file item

section Texts

variable {value : Bytes}

/-- The text of an item that was set. -/
def SetText (item : ConfItem) (value : Bytes) (text : Option Bytes) : Prop :=
  text = some (item.written (item.setTo value)) ∨
    text = (some (item.pushed value)).filter fun text => text ≠ []

theorem getD_filter (text : Bytes) :
    ((some text).filter fun text => text ≠ []).getD [] = text := by
  cases text with
  | nil => rfl
  | cons byte text => rfl

/-- A valid text is loaded as it was set. -/
theorem loaded_text_of_set (valid : item.valid value = true)
    (setText : SetText (.text item) value text) :
    item.loaded text = value := by
  have read : text.getD [] = value := by
    rcases setText with rfl | rfl
    · rfl
    · exact getD_filter value
  rw [TextItem.loaded, read, if_pos valid]

/-- So is a flag. -/
theorem loaded_flag_of_set (flag : value = ascii "yes" ∨ value = ascii "no")
    (setText : SetText (.flag item) value text) :
    item.loaded text = decide (value = ascii "yes") := by
  have read : text = some (yesNo (value = ascii "yes")) := by
    rcases setText with rfl | rfl
    · rfl
    · cases item <;> rcases flag with rfl | rfl <;> decide +kernel
  rw [read, FlagItem.loaded_yesNo]

/-- So is the blacklist. -/
theorem userBlacklist_of_set (setText : SetText .userblacklist value text) :
    Server.userBlacklist (text.getD []) = Server.userBlacklist value := by
  rcases setText with rfl | rfl
  · exact userBlacklist_stringConcat value
  · exact congrArg Server.userBlacklist (getD_filter value)

end Texts

/-! ## The rewritten file -/

/-- What CONFIG REWRITE makes of a file, given the members that were loaded and
the values that were set. -/
structure Rewritten (file : ItemFile String Bytes) (members : ConfMembers)
    (last : ConfItem → Option Bytes) (next : ItemFile String Bytes) : Prop where
  set : ∀ item value, last item = some value → SetText item value (next item.name)
  unset : ∀ item : ConfItem, last item = none →
    next item.name = (file item.name).map fun _ => item.written (members item)
  other : ∀ name, (∀ item : ConfItem, item.name ≠ name) → next name = file name

section Run

variable {readers : ConfReaders} {memory later members : ConfMembers}
variable {file next : ItemFile String Bytes}

/-- What CONFIG REWRITE leaves for an item. -/
theorem Tracks.rewritten (tracks : Tracks file members last conf) :
    Rewritten file members last conf.configRewrite.file where
  set item value lastEq := by
    rw [configRewrite_file_name, tracks.members_eq, lastEq]
    cases there : conf.file item.name with
    | some old => exact .inl rfl
    | none =>
      rw [tracks.noted item there, lastEq]
      exact .inr rfl
  unset item unset := by
    rw [configRewrite_file_name]
    cases there : file item.name with
    | none =>
      have absent := tracks.comes item unset there
      rw [tracks.noted item absent, absent, unset]
      rfl
    | some text =>
      obtain ⟨old, present⟩ := isSome_iff_exists.mp
        (tracks.stays item (by rw [there]; rfl))
      rw [tracks.members_eq, unset, present]
      rfl
  other name unnamed := (tracks.configRewrite.other name unnamed).1

/-- The value an item was last set to was accepted. -/
theorem accepted_of_lastSet (lastEq : lastSet ops item = some value) :
    ∃ env, item.refusal env value = none := by
  have folded : ∀ before : Option Bytes,
      ops.foldl (fun last op => (op.sets item).or last) before = some value →
        before = some value ∨ ∃ op : Op, op.sets item = some value := by
    clear lastEq
    induction ops with
    | nil => exact fun _ same => .inl same
    | cons op ops ih =>
      intro before same
      rcases ih _ same with found | later
      · rcases or_eq_some_iff.mp found with here | ⟨-, earlier⟩
        · exact .inr ⟨op, here⟩
        · exact .inl earlier
      · exact .inr later
  rcases folded none lastEq with impossible | ⟨op, sets⟩
  · cases impossible
  · cases op with
    | configRewrite => cases sets
    | configSet env setItem other =>
      rw [Op.sets] at sets
      split_ifs at sets with accepted
      cases sets
      exact ⟨env, accepted.2.2⟩

/-- A member is loaded from its own text, and the size of an arena also from
the size of the write buffer. -/
theorem load_eq (item : ConfItem) :
    load readers memory file item =
      item.loaded readers (load readers memory file (.int .writeBufferSize))
        (memory item) (file item.loadName) :=
  rfl

theorem load_writeBufferSize_pos : 0 < (load readers memory file (.int .writeBufferSize) : Int) :=
  @IntItem.keeps_check _ 0 _ .writeBufferSize (by decide)

end Run

/-! ## Numbers -/

section Numbers

variable {readers : ConfReaders} {memory later : ConfMembers}
variable {file next : ItemFile String Bytes}
variable {last : ConfItem → Option Bytes}
variable {item : IntItem} {value : Bytes} {number : Int}

/-- A number of an `int` is read back from its numeral. -/
theorem read_decimalInt (lower : -2 ^ 31 ≤ number) (upper : number < 2 ^ 31) (before : Int) :
    item.read readers before (some (decimalInt number)) = number := by
  rw [IntItem.read, elim_some]
  split_ifs
  · exact readers.getInt64_decimalInt number (by omega) (by omega)
  · exact readers.getInt_decimalInt number lower upper

/-- What is read of an item that was set. -/
theorem read_of_set (setText : SetText (.int item) value text) (before : Int) :
    item.read readers before text = castInt32 (item.spec.limit ((string2l value).getD 0)) := by
  have range := castInt32_mem_range (item.spec.limit ((string2l value).getD 0))
  have written : text = some (decimalInt (castInt32
      (item.spec.limit ((string2l value).getD 0)))) := by
    rcases setText with rfl | rfl
    · simp only [ConfItem.written, ConfItem.setTo, IntItem.written, castInt32_castInt32, ite_self]
    · rw [filter_some, if_pos]
      · rfl
      · exact decide_eq_true (decimalInt_ne_nil _)
  rw [written, read_decimalInt range.1 range.2]

/-- All items but one are loaded under the name they have in the file. -/
theorem loadName_eq (sameName : item ≠ .maxWriteBufferNumber) :
    (ConfItem.int item).loadName = (ConfItem.int item).name := by
  cases item <;> first | rfl | exact absurd rfl sameName

/-- The number of write buffers is loaded under a name that is never
written. -/
theorem load_maxWriteBufferNumber {members : ConfMembers}
    (rewritten : Rewritten file members last next) :
    load readers later next (.int .maxWriteBufferNumber) =
      load readers memory file (.int .maxWriteBufferNumber) := by
  have other : ∀ item : ConfItem, item.name ≠ "max-write-buffer-num" := by
    have each : ∀ item ∈ ConfItem.rewritten, item.name ≠ "max-write-buffer-num" := by decide +kernel
    exact fun item => each item item.mem_rewritten
  calc
    load readers later next (.int .maxWriteBufferNumber) =
      (ConfItem.int .maxWriteBufferNumber).loaded readers 0 0 (next "max-write-buffer-num") := rfl
    _ = (ConfItem.int .maxWriteBufferNumber).loaded readers 0 0
        (file "max-write-buffer-num") := by rw [rewritten.other _ other]
    _ = load readers memory file (.int .maxWriteBufferNumber) := rfl

/-- CONFIG SET stores numbers only. -/
theorem exists_number_of_lastSet (lastEq : lastSet ops (.int item) = some value) :
    ∃ number, string2l value = some number := by
  obtain ⟨env, accepted⟩ := accepted_of_lastSet lastEq
  cases read : string2l value with
  | some number => exact ⟨number, rfl⟩
  | none =>
    rw [ConfItem.refusal, IntItem.refusal, read] at accepted
    cases accepted

/-- A number that was set survives exactly if it is sound. -/
theorem survives_set_int_iff (rewritten : Rewritten file (load readers memory file) last next)
    (lastEq : last (.int item) = some value) (denoted : string2l value = some number) :
    (load readers later next (.int item) = (ConfItem.int item).setTo value ∧
        Denotes value (.int item) ((ConfItem.int item).setTo value)) ↔
      SetSound (load readers later next (.int .writeBufferSize))
        (load readers memory file (.int item)) value item := by
  have setTo : (ConfItem.int item).setTo value = castInt32 (item.spec.limit number) := by
    rw [ConfItem.setTo, denoted, getD_some]
  have reload : item ≠ .maxWriteBufferNumber → load readers later next (.int item) =
        item.spec.check (load readers later next (.int .writeBufferSize))
          (castInt32 (item.spec.limit number)) := by
    intro sameName
    rw [load_eq, ConfItem.loaded, loadName_eq sameName,
      read_of_set (rewritten.set _ _ lastEq), denoted, getD_some]
  rw [setTo]
  constructor
  · rintro ⟨kept, denotes⟩
    have same : number = castInt32 (item.spec.limit number) :=
      Option.some.inj (denoted.symm.trans denotes)
    have range := castInt32_mem_range (item.spec.limit number)
    rw [← same] at kept reload
    refine ⟨number, denoted, by omega, by omega, ?_, ?_⟩
    · by_cases renamed : item = .maxWriteBufferNumber
      · rw [← kept, renamed]
        exact IntItem.keeps_check (by decide)
      · exact (IntItem.check_eq_self_iff load_writeBufferSize_pos).mp
          ((reload renamed).symm.trans kept)
    · rintro rfl
      rw [← kept, load_maxWriteBufferNumber rewritten]
  · rintro ⟨other, otherDenoted, lower, upper, keeps, renamed⟩
    cases Option.some.inj (denoted.symm.trans otherDenoted)
    have same : castInt32 (item.spec.limit number) = number := by
      rw [IntItem.limit_of_keeps keeps, castInt32_eq_self lower upper]
    rw [same] at reload ⊢
    refine ⟨?_, denoted⟩
    by_cases renamedItem : item = .maxWriteBufferNumber
    · rw [renamed renamedItem, renamedItem, load_maxWriteBufferNumber rewritten]
    · rw [reload renamedItem]
      exact (IntItem.check_eq_self_iff load_writeBufferSize_pos).mpr keeps

theorem read_range (unset : item.spec.preset = none) (readers : ConfReaders)
    (memory : RawMembers) (text : Option Bytes) :
    -2 ^ 63 ≤ item.read readers (memory.members (.int item)) text ∧
      item.read readers (memory.members (.int item)) text < 2 ^ 63 := by
  cases text with
  | some text =>
    rw [IntItem.read, elim_some]
    split_ifs
    · exact readers.getInt64_range text
    · have range := readers.getInt_range text
      omega
  | none =>
    rw [IntItem.read, elim_none, unset, getD_none]
    exact memory.int_range item

/-- What `Load` stores fits in 64 bits. -/
theorem load_range (unset : item.spec.preset = none) (memory : RawMembers) :
    -2 ^ 63 ≤ (load readers memory.members file (.int item) : Int) ∧
      (load readers memory.members file (.int item) : Int) < 2 ^ 63 := by
  have read : ∀ item : IntItem, item.spec.preset = none → _ := fun item unset =>
    @read_range item unset readers memory (file (ConfItem.int item).loadName)
  have bufferRead := read .writeBufferSize rfl
  have buffer := @IntItem.check_range_wide 0 _ .writeBufferSize
    (fun arena => by cases arena) bufferRead.1 bufferRead.2
  exact IntItem.check_range_wide (fun _ => ⟨load_writeBufferSize_pos.le, buffer.2⟩)
    (read item unset).1 (read item unset).2

/-- An item written as an `int64_t` is read back. -/
theorem read_written_wide (wide : item.spec.wide = true)
    (wideRewrite : item.spec.wideRewrite = true) (lower : -2 ^ 63 ≤ number)
    (upper : number < 2 ^ 63) (before : Int) :
    item.read readers before (some (item.written number)) = number := by
  rw [IntItem.read, elim_some, if_pos wide, IntItem.written,
    if_pos wideRewrite, readers.getInt64_decimalInt number lower upper]

/-- One written as an `int` is narrowed. -/
theorem read_written_narrow (narrow : item.spec.wideRewrite = false) (before : Int) :
    item.read readers before (some (item.written number)) = castInt32 number := by
  have range := castInt32_mem_range number
  rw [IntItem.written, if_neg (Bool.eq_false_iff.mp narrow), read_decimalInt range.1 range.2]

theorem wideRewrite_of_narrow (narrow : item.spec.wide = false) :
    item.spec.wideRewrite = false := by
  cases item <;> first | rfl | cases narrow

/-- The numbers that are loaded from a text as an `int` are in its range. -/
theorem load_range_of_narrow (narrow : item.spec.wide = false)
    (there : file (ConfItem.int item).loadName = some text) :
    -2 ^ 31 ≤ (load readers memory file (.int item) : Int) ∧
      (load readers memory file (.int item) : Int) < 2 ^ 31 := by
  have notArena : item ≠ .arenaBlockSize := by
    rintro rfl
    cases narrow
  have read : item.read readers (memory (.int item))
      (file (ConfItem.int item).loadName) = readers.getInt text := by
    rw [there, IntItem.read, elim_some, if_neg (Bool.eq_false_iff.mp narrow)]
  have range := readers.getInt_range text
  rw [← read] at range
  exact IntItem.check_range notArena range.1 range.2

/-- A response size that is written as an `int` is loaded again exactly if it
is one. -/
theorem check_castInt32_iff (positive : 0 < number) :
    IntItem.maxClientResponseSize.spec.check bufferSize (castInt32 number) = number ↔
      number < 2 ^ 31 := by
  have range := castInt32_mem_range number
  simp only [IntItem.spec]
  constructor
  · intro same
    split_ifs at same <;> omega
  · intro fits
    rw [castInt32_eq_self (by omega) fits, if_neg (by omega)]

/-- What is loaded for a number that is in the file and was not set. -/
theorem check_read_written_iff (memory : RawMembers) (positive : 0 < bufferSize)
    (there : file (ConfItem.int item).loadName = some text) (before : Int) :
    item.spec.check bufferSize (item.read readers before
          (some (item.written (load readers memory.members file (.int item))))) =
        load readers memory.members file (.int item) ↔ (item = .maxClientResponseSize →
        (load readers memory.members file (.int item) : Int) < 2 ^ 31) ∧
      (item = .arenaBlockSize →
        item.Keeps bufferSize (load readers memory.members file (.int item))) := by
  by_cases arena : item = .arenaBlockSize
  · subst arena
    obtain ⟨lower, upper⟩ := @load_range readers file .arenaBlockSize rfl memory
    rw [read_written_wide rfl rfl lower upper, IntItem.check_eq_self_iff positive]
    simp
  · have keeps : item.Keeps bufferSize (load readers memory.members file (.int item)) :=
      IntItem.keeps_check arena
    have kept := (IntItem.check_eq_self_iff positive).mpr keeps
    by_cases response : item = .maxClientResponseSize
    · subst response
      rw [read_written_narrow rfl, check_castInt32_iff keeps]
      simp
    · apply iff_of_true _ ⟨fun same => absurd same response, fun same => absurd same arena⟩
      by_cases buffer : item = .writeBufferSize
      · subst buffer
        obtain ⟨lower, upper⟩ := @load_range readers file .writeBufferSize rfl memory
        rw [read_written_wide rfl rfl lower upper, kept]
      · have narrow : item.spec.wide = false := by
          cases item <;> first
            | rfl
            | exact absurd rfl arena
            | exact absurd rfl response
            | exact absurd rfl buffer
        obtain ⟨lower, upper⟩ :=
          @load_range_of_narrow readers memory.members file item _ narrow there
        rw [read_written_narrow (wideRewrite_of_narrow narrow), castInt32_eq_self lower upper, kept]

/-- A number that was not set survives exactly if it is sound. -/
theorem survives_unset_int_iff {memory : RawMembers}
    (rewritten : Rewritten file (load readers memory.members file) last next)
    (unset : last (.int item) = none) :
    load readers later next (.int item) = load readers memory.members file (.int item) ↔
      UnsetSound (load readers later next (.int .writeBufferSize))
        (load readers memory.members file (.int item)) (later (.int item)) file
        item := by
  by_cases renamed : item = .maxWriteBufferNumber
  · subst renamed
    apply iff_of_true (load_maxWriteBufferNumber rewritten)
    refine ⟨fun _ => ⟨?_, ?_⟩, ?_⟩
    · rintro ⟨⟩
    · rintro ⟨⟩
    · rintro - ⟨⟩
  · have name := loadName_eq renamed
    have reload := @load_eq readers later next (.int item)
    rw [name, rewritten.unset _ unset, ConfItem.loaded] at reload
    rw [reload, UnsetSound]
    cases there : file (ConfItem.int item).name with
    | some text =>
      rw [map_some, ConfItem.written, check_read_written_iff memory
        load_writeBufferSize_pos (name ▸ there)]
      change file item.spec.name = some text at there
      simp [there]
    | none =>
      change file item.spec.name = none at there
      rw [map_none, there]
      cases preset : item.spec.preset with
      | none =>
        rw [IntItem.read, elim_none, preset, getD_none]
        simp
      | some number =>
        have notArena : item ≠ .arenaBlockSize := by
          rintro rfl
          cases preset
        have first := @load_eq readers memory.members file (.int item)
        rw [name, ConfItem.loaded] at first
        change _ = item.spec.check _ (item.read readers _ (file item.spec.name)) at first
        rw [there] at first
        rw [first, IntItem.read, IntItem.read, elim_none,
          elim_none, preset, getD_some, getD_some]
        apply iff_of_true (IntItem.check_congr notArena)
        simp

end Numbers

/-! ## Everything else -/

section Everything

variable {readers : ConfReaders} {memory later : ConfMembers}
variable {file next : ItemFile String Bytes}
variable {item : ConfItem} {value : Bytes}

/-- Texts, flags and the blacklist survive. -/
theorem survives_set_of_not_int (notInt : ∀ number, item ≠ .int number)
    (setText : SetText item value (next item.name)) (accepted : item.refusal env value = none) :
    load readers later next item = item.setTo value ∧ Denotes value item (item.setTo value) := by
  cases item with
  | int number => exact absurd rfl (notInt number)
  | text item =>
    have valid : item.valid value = true := by
      rw [ConfItem.refusal, TextItem.refusal] at accepted
      split_ifs at accepted with valid
      exact valid
    exact ⟨loaded_text_of_set valid setText, rfl⟩
  | flag item =>
    have flag : value = ascii "yes" ∨ value = ascii "no" := by
      cases item with
      | slowlogWriteErrorlog =>
        rw [ConfItem.refusal, FlagItem.refusal] at accepted
        split_ifs at accepted with flag
        exact flag
      | writeBinlog =>
        rw [ConfItem.refusal, FlagItem.refusal] at accepted
        split_ifs at accepted with slave flag
        exact flag
    refine ⟨loaded_flag_of_set flag setText, ?_⟩
    change value = yesNo (value = ascii "yes")
    rcases flag with rfl | rfl <;> decide +kernel
  | userblacklist => exact ⟨userBlacklist_of_set setText, rfl⟩

/-- Every other item is loaded as it was written. -/
theorem loaded_written (notInt : ∀ number, item ≠ .int number)
    (before other : item.Value) (text : Option Bytes) :
    item.loaded readers otherSize other (text.map fun _ =>
          item.written (item.loaded readers bufferSize before text)) =
      item.loaded readers bufferSize before text := by
  cases item with
  | int number => exact absurd rfl (notInt number)
  | text item =>
    cases text with
    | none => rfl
    | some text => exact item.loaded_of_valid (item.valid_loaded _)
  | flag item =>
    cases text with
    | none => rfl
    | some text => exact item.loaded_yesNo _
  | userblacklist =>
    cases text with
    | none => rfl
    | some text => exact userBlacklist_stringConcat text

/-- Texts, flags and the blacklist survive if they were not set. -/
theorem survives_unset_of_not_int (notInt : ∀ number, item ≠ .int number)
    (rewritten : Rewritten file (load readers memory file) last next) (unset : last item = none) :
    load readers later next item = load readers memory file item := by
  have name : item.loadName = item.name := by
    cases item with
    | int number => exact absurd rfl (notInt number)
    | _ => rfl
  have reload := @load_eq readers later next item
  have first := @load_eq readers memory file item
  rw [name, rewritten.unset item unset] at reload
  rw [name] at first
  rw [reload, first]
  exact loaded_written notInt _ _ _

/-- Where every setting survives, each number was set soundly. -/
theorem Survives.setSound {memory later : RawMembers} {ops : List Op}
    {item : IntItem} (survives : Survives readers memory later file ops)
    (lastEq : lastSet ops (.int item) = some value) :
    SetSound (load readers later.members (run readers memory.members file ops).configRewrite.file
        (.int .writeBufferSize))
      (load readers memory.members file (.int item)) value item := by
  have tracks := tracks_run readers memory.members file ops
  obtain ⟨number, denoted⟩ := exists_number_of_lastSet lastEq
  apply (survives_set_int_iff tracks.rewritten lastEq denoted).mp
  have kept := survives.set _ value lastEq
  rw [tracks.members_eq, lastEq] at kept
  exact kept

/-- What was set survives CONFIG REWRITE and a restart, and nothing else
changes, exactly if the numbers are sound. -/
theorem survives_iff (readers : ConfReaders) (memory later : RawMembers)
    (file : ItemFile String Bytes) (ops : List Op) :
    Survives readers memory later file ops ↔ SoundRun readers memory later file ops := by
  have tracks := tracks_run readers memory.members file ops
  have rewritten := tracks.rewritten
  have numberSet := fun (item : IntItem) (value : Bytes)
      (lastEq : lastSet ops (.int item) = some value) =>
    (exists_number_of_lastSet lastEq).elim fun _ =>
      @survives_set_int_iff _ _ later.members _ _ _ _ _ _ rewritten lastEq
  have numberUnset := fun (item : IntItem) (unset : lastSet ops (.int item) = none) =>
    @survives_unset_int_iff _ later.members _ _ _ _ _ rewritten unset
  constructor
  · intro survives
    have same : load readers later.members
          (run readers memory.members file ops).configRewrite.file
          (.int .writeBufferSize) =
        (run readers memory.members file ops).members (.int .writeBufferSize) := by
      cases lastEq : lastSet ops (.int .writeBufferSize) with
      | some value => exact (survives.set _ value lastEq).1
      | none =>
        rw [tracks.members_eq, lastEq]
        exact survives.unset _ lastEq
    refine ⟨fun item value lastEq => ?_, fun item unset => ?_⟩
    · rw [← same]
      exact survives.setSound lastEq
    · rw [← same]
      exact (numberUnset item unset).mp (survives.unset _ unset)
  · intro sound
    -- The size of the write buffer does not depend on itself.
    have same : load readers later.members
          (run readers memory.members file ops).configRewrite.file
          (.int .writeBufferSize) =
        (run readers memory.members file ops).members (.int .writeBufferSize) := by
      rw [tracks.members_eq]
      cases lastEq : lastSet ops (.int .writeBufferSize) with
      | some value =>
        exact ((numberSet .writeBufferSize value lastEq).mpr (sound.set _ value lastEq)).1
      | none => exact (numberUnset .writeBufferSize lastEq).mpr (sound.unset _ lastEq)
    rw [same] at numberSet numberUnset
    refine ⟨fun item value lastEq => ?_, fun item unset => ?_, rewritten.other⟩
    · rw [tracks.members_eq, lastEq]
      by_cases isInt : ∃ number, item = .int number
      · obtain ⟨number, rfl⟩ := isInt
        exact (numberSet number value lastEq).mpr (sound.set number value lastEq)
      · obtain ⟨env, accepted⟩ := accepted_of_lastSet lastEq
        exact survives_set_of_not_int (not_exists.mp isInt)
          (rewritten.set item value lastEq) accepted
    · by_cases isInt : ∃ number, item = .int number
      · obtain ⟨number, rfl⟩ := isInt
        exact (numberUnset number unset).mpr (sound.unset number unset)
      · exact survives_unset_of_not_int (not_exists.mp isInt) rewritten unset

end Everything

/-- Readers of numerals. -/
def numeralReaders : ConfReaders where
  getInt text := castInt32 ((readInt text).getD 0)
  getInt64 text := castInt64 ((readInt text).getD 0)
  getInt_range _ := castInt32_mem_range _
  getInt64_range _ := castInt64_mem_range _
  getInt_decimalInt number lower upper := by
    rw [readInt_decimalInt, getD_some, castInt32_eq_self lower upper]
  getInt64_decimalInt number lower upper := by
    rw [readInt_decimalInt, getD_some, castInt64_eq_self lower upper]

/-- Members that are zero before `Load`. -/
def zeroMembers : RawMembers where
  members
    | .int _ => (0 : Int)
    | .text _ => []
    | .flag _ => false
    | .userblacklist => []
  int_range _ := castInt64_mem_range 0

/-- `CONFIG SET expire-logs-nums 5`. -/
def fiveLogs : Op :=
  .configSet { isSlave := false, rewriteOptions := fun _ _ _ => none }
    (ascii "expire-logs-nums") (ascii "5")

/-- Five logs are accepted, and ten are loaded. -/
theorem not_survives_fiveLogs :
    ¬Survives numeralReaders zeroMembers zeroMembers (fun _ => none) [fiveLogs] := by
  intro survives
  have last : lastSet [fiveLogs] (.int .expireLogsNums) = some (ascii "5") := by decide +kernel
  obtain ⟨number, denoted, -, -, keeps, -⟩ := survives.setSound last
  have five : string2l (ascii "5") = some 5 := by decide +kernel
  cases Option.some.inj (five.symm.trans denoted)
  change (10 : Int) ≤ 5 at keeps
  omega

end PikaConf

end Pika.Server
