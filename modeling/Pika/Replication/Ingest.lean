import Pika.Binlog.FailedPut
import Pika.Command.Encoding
import Pika.Sync.Node

/-!
# Taking in a batch of binlog items

`HandleBGWorkerWriteBinlog` goes through the items of a response, appends the
command of each to the follower's binlog, schedules it on the database, and
acknowledges the producer position.  `ProcessLeaderLog` does not look at the
status of the append.
-/

namespace Pika.Replication

open Foundation Option
open Binlog (BinlogItem Bytes Status)
open Command (Cmd OtherInitial)
open Sync (LogOffset)

/-- One `BinlogSync` of a response. -/
structure BinlogSync where
  session : BitVec 32
  /-- `binlog_offset`, behind the item on the master. -/
  binlogOffset : LogOffset
  /-- `binlog`, empty in a keepalive. -/
  binlog : Bytes
  deriving DecidableEq

/-- `consensus_meta`, which a master of consensus level zero leaves out. -/
structure ConsensusMeta where
  term : Nat
  prevOffset : LogOffset
  deriving DecidableEq

/-- What the worker reads of the server and the slave partition before each
item. -/
structure SlaveView where
  /-- `role() & PIKA_ROLE_SLAVE`. -/
  isSlave : Bool
  state : SlavePartitionState
  masterSession : BitVec 32
  deriving DecidableEq

/-- A call of `HandleBGWorkerWriteBinlog` that goes through its items. -/
structure Batch where
  /-- The items that are left. -/
  chips : List BinlogSync
  ackStart : LogOffset
  pbEnd : LogOffset
  onlyKeepalive : Bool
  /-- The offsets of the items that could not be appended. -/
  lost : List LogOffset
  deriving DecidableEq

/-- What `HandleBGWorkerWriteBinlog` takes from the items of a response. -/
def Batch.ofChips (chips : List BinlogSync) : Batch :=
  let items := chips.filter fun chip => chip.binlog ≠ []
  let pbBegin := (items.head?.map BinlogSync.binlogOffset).getD LogOffset.zero
  let onlyKeepalive := pbBegin.same LogOffset.zero
  { chips := chips
    ackStart := if onlyKeepalive then LogOffset.zero else pbBegin
    pbEnd := (items.getLast?.map BinlogSync.binlogOffset).getD LogOffset.zero
    onlyKeepalive := onlyKeepalive
    lost := [] }

/-- A binlog sync ack. -/
structure BinlogAck where
  start : LogOffset
  stop : LogOffset
  /-- The offsets of the items of the batch that could not be appended. -/
  lost : List LogOffset
  deriving DecidableEq

/-- The follower's side of a partition, up to the queues of the database
workers. -/
structure Intake where
  log : Binlog
  term : Nat
  lastOffset : LogOffset
  /-- The commands appended to the binlog. -/
  appended : List Cmd
  /-- The commands scheduled on the database. -/
  scheduled : List Cmd
  batch : Option Batch
  acks : List BinlogAck

inductive IntakeLabel where
  /-- `HandleBGWorkerWriteBinlog` is called. -/
  | receive (chips : List BinlogSync) (consensus : Option ConsensusMeta)
  /-- It handles the next item, with what it reads meanwhile, the clocks of
  `ToBinlog` and of the fragments, and the file operation that fails. -/
  | handle (view : SlaveView) (clock : Int) (now : Nat → Nat) (failure : Option Nat)
  | acknowledge

/-- `BinlogItemWithoutContentDecode`. -/
def decodeItem (binlog : Bytes) : Option BinlogItem :=
  if binlogItemWithoutContentDecode binlog then
    some
      { execTime := Sync.getFixed ((binlog.drop 2).take 4)
        termId := Sync.getFixed ((binlog.drop 6).take 4)
        logicId := Sync.getFixed ((binlog.drop 10).take 8)
        filenum := Sync.getFixed ((binlog.drop 18).take 4)
        offset := Sync.getFixed ((binlog.drop 22).take 8) }
  else none

/-- The RESP parser and `HandleWriteBinlog` up to `ConsensusProcessLeaderLog`:
the command of an item, or nothing when the parser is not done. -/
def readCommand (otherInitial : OtherInitial) (binlog : Bytes) : Option Cmd :=
  (readArray (Command.recordContent binlog)).bind fun argv =>
    (Command.getCmd argv).bind fun command =>
      match Command.initial otherInitial command argv with
      | .ok cmd => some cmd
      | .error _ => none

/-- `Put`, of which a file operation may fail. -/
def tryPut (now : Nat → Nat) (failure : Option Nat) (record : Bytes)
    (log : Binlog) : Option (Status × Binlog) :=
  match failure with
  | none => log.put now record
  | some made =>
    if log.opened then
      match log.putFailing now made record with
      | some failed => some (.ioError "Put", failed)
      | none => log.put now record
    else log.put now record

/-- The log is open and no file operation of the `Put` fails. -/
def PutSucceeds (now : Nat → Nat) (failure : Option Nat) (record : Bytes) (log : Binlog) : Prop :=
  log.opened = true ∧ ∀ made, failure = some made → log.putFailing now made record = none

theorem put_eq_ok_iff {log after : Binlog} {now : Nat → Nat} {record : Bytes}
    {status : Status} (returned : log.put now record = some (status, after)) :
    status = .ok ↔ log.opened = true := by
  unfold Binlog.put at returned
  split_ifs at returned with closed short <;> cases returned
  · simp [closed]
  · simpa using closed

theorem tryPut_ok_iff {log after : Binlog} {now : Nat → Nat}
    {failure : Option Nat} {record : Bytes} {status : Status}
    (returned : tryPut now failure record log = some (status, after)) :
    status = .ok ↔ PutSucceeds now failure record log := by
  unfold tryPut at returned
  cases failure with
  | none => simpa [PutSucceeds] using put_eq_ok_iff returned
  | some made =>
    by_cases opened : log.opened = true
    · cases failing : log.putFailing now made record with
      | none =>
        simp only [opened, if_true, failing] at returned
        simpa [PutSucceeds, failing] using put_eq_ok_iff returned
      | some failed =>
        simp only [opened, if_true, failing] at returned
        cases returned
        simp [PutSucceeds, failing]
    · simp only [opened] at returned
      have status := put_eq_ok_iff returned
      simp [PutSucceeds, opened, status]

theorem put_isSome_iff (now : Nat → Nat) (record : Bytes) (log : Binlog) :
    (log.put now record).isSome ↔ (log.opened = true → record.length < 2 ^ 31) := by
  unfold Binlog.put
  split_ifs with closed short
  · simp [closed]
  · exact iff_of_true rfl fun _ => short
  · exact iff_of_false nofun fun bounded => short (bounded (by simpa using closed))

/-- A `Put` returns unless it has to append a record that is too long. -/
theorem tryPut_isSome_iff (now : Nat → Nat) (failure : Option Nat) (record : Bytes) (log : Binlog) :
    (tryPut now failure record log).isSome ↔
      (PutSucceeds now failure record log → record.length < 2 ^ 31) := by
  unfold tryPut PutSucceeds
  cases failure with
  | none => simpa using put_isSome_iff now record log
  | some made =>
    by_cases opened : log.opened = true
    · cases failing : log.putFailing now made record with
      | none => simpa [opened, failing] using put_isSome_iff now record log
      | some failed => simp [opened, failing]
    · simpa [opened] using put_isSome_iff now record log

theorem tryPut_of_not {log : Binlog} {now : Nat → Nat} {failure : Option Nat}
    {record : Bytes} (fails : ¬PutSucceeds now failure record log) :
    ∃ status after, tryPut now failure record log = some (status, after) ∧ status ≠ .ok := by
  by_cases opened : log.opened = true
  · have failing : ∃ made, failure = some made ∧ log.putFailing now made record ≠ none := by
      simpa [PutSucceeds, opened] using fails
    obtain ⟨made, rfl, failed⟩ := failing
    obtain ⟨after, putEq⟩ := ne_none_iff_exists'.mp failed
    refine ⟨.ioError "Put", after, ?_, nofun⟩
    simp only [tryPut, opened, if_true, putEq]
  · have closed : log.opened = false := Bool.eq_false_of_not_eq_true opened
    refine ⟨.busy "Binlog is not open yet", log, ?_, nofun⟩
    cases failure <;> simp [tryPut, Binlog.put, closed]

namespace Intake

/-- A follower before the first batch. -/
def initial (log : Binlog) (term : Nat) (lastOffset : LogOffset) : Intake where
  log := log
  term := term
  lastOffset := lastOffset
  appended := []
  scheduled := []
  batch := none
  acks := []

/-- `ProcessLeaderLog` at consensus level zero: the command is scheduled
whatever `InternalAppendLog` returned.  The result says whether the item was
lost. -/
def processLeaderLog (clock : Int) (now : Nat → Nat) (failure : Option Nat)
    (item : BinlogItem) (cmd : Cmd) (intake : Intake) :
    Option (Bool × Intake) :=
  if item.logicId < intake.lastOffset.lOffset.index then some (false, intake)
  else
    (tryPut now failure (cmd.toBinlog clock item) intake.log).map fun (status, log) =>
        (decide (status ≠ .ok),
          { intake with
            log := log
            appended :=
              if status = .ok then intake.appended ++ [cmd]
              else intake.appended
            scheduled := intake.scheduled ++ [cmd] })

/-- `ConsensusUpdateTerm`, for a term that is not older. -/
def updateTerm (term : Nat) (intake : Intake) : Intake :=
  if intake.term < term then
    { intake with
      term := term
      log := { intake.log with version := { intake.log.version with term := term } } }
  else intake

/-- The items of a response do not follow the last one in memory. -/
def mismatches (consensus : ConsensusMeta) (intake : Intake) : Bool :=
  intake.lastOffset.lOffset.index ≠ 0 &&
    (intake.lastOffset.lOffset ≠ consensus.prevOffset.lOffset ||
      intake.lastOffset.bOffset ≠ consensus.prevOffset.bOffset)

/-- The first part of `HandleBGWorkerWriteBinlog`, up to its loop. -/
def receive (chips : List BinlogSync) (consensus : Option ConsensusMeta)
    (intake : Intake) : Intake :=
  let batch := Batch.ofChips chips
  match consensus with
  | none => { intake with batch := some batch }
  | some consensus =>
    if consensus.term < intake.term then intake
    else if !batch.onlyKeepalive && intake.mismatches consensus then
      intake.updateTerm consensus.term
    else { intake.updateTerm consensus.term with batch := some batch }

/-- The checks in front of each item. -/
def admits (classicMode : Bool) (view : SlaveView) (chip : BinlogSync) : Bool :=
  !(classicMode && !view.isSlave) && (view.state = .kConnected || view.state = .kWaitDBSync) &&
    view.masterSession = chip.session

/-- One iteration of the loop.  Whatever stops the loop drops the batch. -/
def handle (otherInitial : OtherInitial) (classicMode : Bool) (view : SlaveView)
    (clock : Int) (now : Nat → Nat) (failure : Option Nat) (intake : Intake) :
    Option Intake :=
  intake.batch.bind fun batch =>
    match batch.chips with
    | [] => none
    | chip :: chips =>
      if admits classicMode view chip then
        if chip.binlog = [] then some { intake with batch := some { batch with chips := chips } }
        else
          match decodeItem chip.binlog, readCommand otherInitial chip.binlog with
          | some item, some cmd =>
            (intake.processLeaderLog clock now failure item cmd).map fun (isLost, next) =>
                { next with
                  batch := some { batch with
                    chips := chips
                    lost :=
                      if isLost then batch.lost ++ [chip.binlogOffset]
                      else batch.lost } }
          | _, _ => some { intake with batch := none }
      else some { intake with batch := none }

/-- `ack_end` of a batch that is not a keepalive. -/
def producerOffset (pbEnd : LogOffset) (log : Binlog) : LogOffset :=
  match log.getProducerStatus with
  | none => { LogOffset.zero with
      lOffset := { LogOffset.zero.lOffset with term := pbEnd.lOffset.term } }
  | some position =>
    { bOffset := position, lOffset := { term := pbEnd.lOffset.term, index := log.version.logicId } }

/-- The last part of `HandleBGWorkerWriteBinlog`. -/
def acknowledge (intake : Intake) : Option Intake :=
  intake.batch.bind fun batch =>
    if batch.chips = [] then
      some
        { intake with
          batch := none
          acks := intake.acks ++
            [{ start := batch.ackStart
               stop :=
                if batch.onlyKeepalive then LogOffset.zero
                else producerOffset batch.pbEnd intake.log
               lost := batch.lost }] }
    else none

def step (otherInitial : OtherInitial) (classicMode : Bool) (intake : Intake) :
    IntakeLabel → Option Intake
  | .receive chips consensus =>
    if intake.batch = none then some (intake.receive chips consensus)
    else none
  | .handle view clock now failure =>
    intake.handle otherInitial classicMode view clock now failure
  | .acknowledge => intake.acknowledge

/-- Log and database are together: what was scheduled is what was appended, in
the same order, and no ack reaches an item that was not appended. -/
structure Together (intake : Intake) : Prop where
  scheduled_eq : intake.scheduled = intake.appended
  /-- Acks end before every item that could not be appended. -/
  acks_lt : ∀ ack ∈ intake.acks, ∀ offset ∈ ack.lost, ack.stop < offset

/-- A step appends the item it takes in, if it takes one in. -/
def Appends (otherInitial : OtherInitial) (classicMode : Bool) (intake : Intake) :
    IntakeLabel → Prop
  | .handle view clock now failure =>
    ∀ batch chip chips item cmd, intake.batch = some batch → batch.chips = chip :: chips →
      admits classicMode view chip = true → chip.binlog ≠ [] →
      decodeItem chip.binlog = some item →
      readCommand otherInitial chip.binlog = some cmd →
      ¬item.logicId < intake.lastOffset.lOffset.index →
        PutSucceeds now failure (cmd.toBinlog clock item) intake.log
  | _ => True

/-- Nothing was lost so far. -/
structure Complete (intake : Intake) : Prop where
  scheduled_eq : intake.scheduled = intake.appended
  batch_lost : ∀ batch, intake.batch = some batch → batch.lost = []
  acks_lost : ∀ ack ∈ intake.acks, ack.lost = []

theorem complete_initial (log : Binlog) (term : Nat) (lastOffset : LogOffset) :
    (initial log term lastOffset).Complete where
  scheduled_eq := rfl
  batch_lost := nofun
  acks_lost := nofun

variable {intake next : Intake} {otherInitial : OtherInitial}
variable {classicMode : Bool}

theorem Complete.together (complete : intake.Complete) : intake.Together where
  scheduled_eq := complete.scheduled_eq
  acks_lt ack member offset lost := by
    rw [complete.acks_lost ack member] at lost
    cases lost

/-- `ProcessLeaderLog` drops an old item, and schedules every other one: it is
appended where its `Put` succeeds. -/
theorem processLeaderLog_cases {failure : Option Nat}
    (processed : intake.processLeaderLog clock now failure item cmd = some (isLost, next)) :
    next.acks = intake.acks ∧
      ((item.logicId < intake.lastOffset.lOffset.index ∧ isLost = false ∧
          next.appended = intake.appended ∧ next.scheduled = intake.scheduled) ∨
        (¬item.logicId < intake.lastOffset.lOffset.index ∧
          next.scheduled = intake.scheduled ++ [cmd] ∧
          ((PutSucceeds now failure (cmd.toBinlog clock item) intake.log ∧ isLost = false ∧
              next.appended = intake.appended ++ [cmd]) ∨
            (¬PutSucceeds now failure (cmd.toBinlog clock item) intake.log ∧ isLost = true ∧
              next.appended = intake.appended)))) := by
  unfold processLeaderLog at processed
  split_ifs at processed with old
  · cases processed
    exact ⟨rfl, .inl ⟨old, rfl, rfl, rfl⟩⟩
  · obtain ⟨⟨status, log⟩, putEq, same⟩ := map_eq_some_iff.mp processed
    have outcome := tryPut_ok_iff putEq
    cases same
    refine ⟨rfl, .inr ⟨old, rfl, ?_⟩⟩
    rw [← outcome]
    by_cases succeeded : status = .ok <;> simp [succeeded]

/-- What `ProcessLeaderLog` lengthens. -/
theorem processLeaderLog_effect {failure : Option Nat}
    (processed : intake.processLeaderLog clock now failure item cmd = some (isLost, after)) :
    (intake.scheduled.length < after.scheduled.length ↔
        ¬item.logicId < intake.lastOffset.lOffset.index) ∧
      (intake.appended.length < after.appended.length ↔
        ¬item.logicId < intake.lastOffset.lOffset.index ∧
          PutSucceeds now failure (cmd.toBinlog clock item) intake.log) := by
  obtain ⟨-, ⟨old, -, appended, scheduled⟩ | ⟨recent, scheduled, ⟨succeeds, -, appended⟩ |
    ⟨fails, -, appended⟩⟩⟩ := processLeaderLog_cases processed
  · simp [old, appended, scheduled]
  · simp [recent, succeeds, appended, scheduled]
  · simp [recent, fails, appended, scheduled]

theorem processLeaderLog_isSome_iff {clock : Int} {now : Nat → Nat}
    {failure : Option Nat} {item : BinlogItem} {cmd : Cmd} :
    (intake.processLeaderLog clock now failure item cmd).isSome ↔
      (¬item.logicId < intake.lastOffset.lOffset.index →
        PutSucceeds now failure (cmd.toBinlog clock item) intake.log →
          (cmd.toBinlog clock item).length < 2 ^ 31) := by
  unfold processLeaderLog
  split_ifs with old
  · simp [old]
  · rw [isSome_map, tryPut_isSome_iff]
    exact ⟨fun fits _ => fits, fun fits => fits old⟩

section

variable (complete : intake.Complete)
include complete

theorem Complete.updateTerm (term : Nat) :
    (intake.updateTerm term).Complete := by
  unfold Intake.updateTerm
  split_ifs
  · exact { complete with }
  · exact complete

theorem Complete.begin (chips : List BinlogSync) :
    Complete { intake with batch := some (Batch.ofChips chips) } where
  __ := complete
  batch_lost := by
    rintro batch ⟨⟩
    rfl

theorem Complete.drop : Complete { intake with batch := none } where
  __ := complete
  batch_lost := nofun

theorem Complete.receive (chips : List BinlogSync) (consensus : Option ConsensusMeta) :
    (intake.receive chips consensus).Complete := by
  cases consensus with
  | none => exact complete.begin chips
  | some consensus =>
    simp only [Intake.receive]
    split_ifs
    · exact complete
    · exact complete.updateTerm consensus.term
    · exact (complete.updateTerm consensus.term).begin chips

theorem Complete.handle {view : SlaveView} {clock : Int} {now : Nat → Nat} {failure : Option Nat}
    (appends : intake.Appends otherInitial classicMode (.handle view clock now failure))
    (handled : intake.handle otherInitial classicMode view clock now failure = some next) :
    next.Complete := by
  obtain ⟨batch, batchEq, handled⟩ := bind_eq_some_iff.mp handled
  have nothingLost := complete.batch_lost batch batchEq
  cases chipsEq : batch.chips with
  | nil => simp [chipsEq] at handled
  | cons chip chips =>
    simp only [chipsEq] at handled
    split_ifs at handled with admitted keepalive
    · cases handled
      refine ⟨complete.scheduled_eq, ?_, complete.acks_lost⟩
      rintro other ⟨⟩
      exact nothingLost
    · split at handled
      · rename_i item cmd decoded read
        obtain ⟨⟨isLost, after⟩, processed, ⟨⟩⟩ := map_eq_some_iff.mp handled
        obtain ⟨sameAcks, outcome⟩ := processLeaderLog_cases processed
        have kept : isLost = false ∧ after.scheduled = after.appended := by
          rcases outcome with ⟨-, kept, sameAppended, sameScheduled⟩ |
              ⟨recent, moreScheduled, ⟨-, kept, moreAppended⟩ | ⟨fails, -⟩⟩
          · exact ⟨kept, by rw [sameAppended, sameScheduled, complete.scheduled_eq]⟩
          · exact ⟨kept, by rw [moreAppended, moreScheduled, complete.scheduled_eq]⟩
          · exact (fails (appends batch chip chips item cmd batchEq chipsEq
              admitted keepalive decoded read recent)).elim
        refine ⟨kept.2, ?_, ?_⟩
        · rintro other ⟨⟩
          simp [kept.1, nothingLost]
        · intro ack member
          exact complete.acks_lost ack (sameAcks ▸ member)
      · cases handled
        exact complete.drop
    · cases handled
      exact complete.drop

theorem Complete.acknowledge (acknowledged : intake.acknowledge = some next) :
    next.Complete := by
  obtain ⟨batch, batchEq, acknowledged⟩ := bind_eq_some_iff.mp acknowledged
  by_cases finished : batch.chips = []
  · rw [if_pos finished] at acknowledged
    cases acknowledged
    refine ⟨complete.scheduled_eq, nofun, ?_⟩
    intro ack member
    rcases List.mem_append.mp member with old | new
    · exact complete.acks_lost ack old
    · rw [List.mem_singleton.mp new]
      exact complete.batch_lost batch batchEq
  · rw [if_neg finished] at acknowledged
    cases acknowledged

end

theorem Complete.step {label : IntakeLabel} (complete : intake.Complete)
    (appends : intake.Appends otherInitial classicMode label)
    (stepped : intake.step otherInitial classicMode label = some next) :
    next.Complete := by
  cases label with
  | receive chips consensus =>
    simp only [Intake.step] at stepped
    split_ifs at stepped
    cases stepped
    exact complete.receive chips consensus
  | handle view clock now failure => exact complete.handle appends stepped
  | acknowledge => exact complete.acknowledge stepped

theorem Complete.noticed {label : IntakeLabel} (complete : intake.Complete)
    (loses : ¬intake.Appends otherInitial classicMode label) :
    ∃ next, intake.step otherInitial classicMode label = some next ∧ ¬next.Together := by
  cases label with
  | receive | acknowledge => exact (loses trivial).elim
  | handle view clock now failure =>
    simp only [Appends, not_forall] at loses
    obtain ⟨batch, chip, chips, item, cmd, batchEq, chipsEq, admitted,
      hasItem, decoded, read, recent, fails⟩ := loses
    -- An item that cannot be appended is scheduled all the same.
    obtain ⟨status, log, putEq, failed⟩ := tryPut_of_not fails
    obtain ⟨next, stepped, sameAppended, moreScheduled⟩ : ∃ next, intake.step otherInitial
        classicMode (.handle view clock now failure) = some next ∧
        next.appended = intake.appended ∧ next.scheduled = intake.scheduled ++ [cmd] := by
      simp [Intake.step, Intake.handle, batchEq, chipsEq, admitted, hasItem, decoded, read,
        processLeaderLog, recent, putEq, failed]
    refine ⟨next, stepped, fun together => ?_⟩
    have same := together.scheduled_eq
    rw [sameAppended, moreScheduled, complete.scheduled_eq] at same
    simp at same

/-- Log and database stay together along a run exactly if every item that is
taken in is appended. -/
theorem together_iff_appends (otherInitial : OtherInitial) (classicMode : Bool)
    (log : Binlog) (term : Nat) (lastOffset : LogOffset) (labels : List IntakeLabel) :
    RunSatisfies (step otherInitial classicMode) Together (initial log term lastOffset) labels ↔
      RunAdmissible (step otherInitial classicMode) (Appends otherInitial classicMode)
        (initial log term lastOffset) labels :=
  runSatisfies_iff_runSafe Complete.together Complete.step Complete.noticed
    (complete_initial log term lastOffset)

/-- An item `set a 1` of session 0. -/
def setItem : BinlogSync where
  session := 0
  binlogOffset := LogOffset.inFile 80 1
  binlog := Command.argvRecord
    { execTime := 0, termId := 0, logicId := 1, filenum := 0, offset := 0 }
    [[115, 101, 116], [97], [49]]

/-- A slave that is connected with session 0. -/
def connectedView : SlaveView where
  isSlave := true
  state := .kConnected
  masterSession := 0

theorem putFailing_zero_ne_none (now : Nat → Nat) (record : Bytes) (log : Binlog) :
    log.putFailing now 0 record ≠ none := by
  rw [Binlog.putFailing, Binlog.produceLoopFailing]
  split_ifs <;> simp_all

/-- The first append of an item fails, and its command is scheduled. -/
theorem not_together_failedAppend :
    ¬RunSatisfies (step (fun _ _ => .ok ()) true) Together
      (initial (Binlog.fresh 104857600 0) 0 LogOffset.zero)
      [.receive [setItem] none, .handle connectedView 0 (fun _ => 0) (some 0)] := by
  intro together
  have complete := (complete_initial (Binlog.fresh 104857600 0) 0
    LogOffset.zero).receive [setItem] none
  have read : (readCommand (fun _ _ => .ok ()) setItem.binlog).isSome := by decide +kernel
  obtain ⟨cmd, readEq⟩ := isSome_iff_exists.mp read
  have loses : ¬Appends (fun _ _ => .ok ()) true
      ((initial (Binlog.fresh 104857600 0) 0 LogOffset.zero).receive [setItem] none)
      (.handle connectedView 0 (fun _ => 0) (some 0)) := by
    intro appends
    have succeeds := appends _ setItem [] _ cmd rfl rfl (by decide)
      (by decide) rfl readEq (Nat.not_lt_zero _)
    exact putFailing_zero_ne_none _ _ _ (succeeds.2 0 rfl)
  obtain ⟨next, stepped, apart⟩ := complete.noticed loses
  exact apart ((together.2 _ rfl).2 next stepped)

end Intake

end Pika.Replication
