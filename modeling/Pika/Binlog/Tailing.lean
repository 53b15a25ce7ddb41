import Pika.Binlog.RoundTrip
import Pika.Foundation.Transition

/-!
# A reader that follows a running writer

The writer's `Put` and the reader's `Get` as single steps on the shared files
and producer status.  A `Put` is cut at the creation of a file, at each change
of the producer status and at each append; a `Get` is cut at its look at the
producer status, at each skip and read, at its test for the next file and at
opening it.
-/

namespace Pika.Binlog

open Foundation

/-! ## The writer's steps -/

/-- One step of a running `Put`. -/
inductive WriterStep where
  | createNextFile
  /-- Publish the start of the next file. -/
  | publishRoll
  /-- Take the block offset from the new file. -/
  | initLogFile
  | append (slice : Bytes)
  /-- Publish the position behind the item. -/
  | publishPut (produced : ProduceState)

/-- The effect of one step of a `Put`. -/
def WriterStep.apply (log : Binlog) : WriterStep → Binlog
  | .createNextFile => log.createNextFile
  | .publishRoll => log.publishRoll
  | .initLogFile => log.initLogFile
  | .append slice => log.appendQueue slice
  | .publishPut produced => log.publishPut produced

/-- The steps of a `Put` behind its check for a roll. -/
def produceSteps (produced : ProduceState) : List WriterStep :=
  produced.appends.map .append ++ [.publishPut produced]

/-- The steps of a `Put`.  Only the writer changes what they are computed
from, so they are known when the `Put` starts. -/
def putSteps (now : Nat → Nat) (item : Bytes) (log : Binlog) : List WriterStep :=
  (if log.fileSize < (log.files.contents log.proNum).length then
    [.createNextFile, .publishRoll, .initLogFile]
  else []) ++ produceSteps (log.checkRoll.produce now item)

theorem foldl_append_steps (log : Binlog) (slices : List Bytes) :
    (slices.map WriterStep.append).foldl WriterStep.apply log = slices.foldl appendQueue log := by
  rw [List.foldl_map]
  rfl

/-- The steps of a `Put`, taken without interruption, are the `Put`. -/
theorem foldl_putSteps (now : Nat → Nat) (item : Bytes) (log : Binlog) :
    (putSteps now item log).foldl WriterStep.apply log = log.putSlice now item := by
  have produced : ∀ base : Binlog,
      (produceSteps (base.produce now item)).foldl WriterStep.apply base =
        ((base.produce now item).appends.foldl appendQueue base).publishPut
          (base.produce now item) := by
    intro base
    rw [produceSteps, List.foldl_append, foldl_append_steps]
    rfl
  by_cases full : log.fileSize < (log.files.contents log.proNum).length
  · have rolled : log.checkRoll = log.roll := if_pos full
    rw [putSteps, if_pos full, List.foldl_append]
    change (produceSteps _).foldl WriterStep.apply log.roll = _
    rw [rolled, produced, putSlice, rolled]
  · have stayed : log.checkRoll = log := if_neg full
    rw [putSteps, if_neg full, List.nil_append, stayed, produced, putSlice, stayed]

/-! ## The reader's steps -/

/-- Where a running `Get` stands. -/
inductive Phase where
  /-- No `Get` is running. -/
  | idle
  /-- Before the look at the producer status. -/
  | check
  /-- Before the skip of a block tail. -/
  | skip
  /-- Before the read of a header. -/
  | header
  /-- Before the read of a payload. -/
  | payload (type length : Nat)
  /-- Before the test for the next file. -/
  | probe
  | openNext
  deriving DecidableEq, Repr

/-- A reader in the course of its `Get`s. -/
structure Session where
  /-- Where the running `Get` stands. -/
  phase : Phase
  output : Output
  reader : Reader

namespace Session

/-- Go on behind a physical record, with the status that `Get` returns if it
returns. -/
def settle (record : PhysicalRecord) : Session × Option Status :=
  match Reader.switchRecord record with
  | (none, output) => ({ phase := .skip, output := output, reader := record.reader }, none)
  | (some status, output) =>
    if status.isEndFile then
      ({ phase := .probe, output := output, reader := record.reader }, none)
    else ({ phase := .idle, output := output, reader := record.reader }, some .ok)

/-- One step of a running `Get`, with the status it returns if it returns. -/
def step (log : Pika.Binlog) (session : Session) : Session × Option Status :=
  match session.phase with
  | .idle => (session, none)
  | .check =>
    if session.reader.readToTheEnd log then
      ({ session with phase := .idle }, some (.endFile "End of cur log file"))
    else ({ session with phase := .skip }, none)
  | .skip =>
    ({ session with phase := .header, reader := session.reader.skipBlockTail log.files }, none)
  | .header =>
    match session.reader.readHeader log.files with
    | (.stop type, next) =>
      settle
        { recordType := type.code, fragment := [], output := session.output, reader := next }
    | (.payload type length, next) =>
      ({ session with phase := .payload type length, reader := next }, none)
  | .payload type length =>
    settle (session.reader.readPayload log.files session.output type length)
  | .probe =>
    if log.files.fileExists (castUInt32 (session.reader.curFilenum + 1)) then
      ({ session with phase := .openNext }, none)
    else ({ session with phase := .idle }, some (.ioError "File Does Not Exists"))
  | .openNext => ({ session with phase := .check, reader := session.reader.openNext }, none)

/-- The steps of a `Get`, taken without interruption, up to its return. -/
inductive Returns (log : Pika.Binlog) : Session → Session × Status → Prop where
  | done {session next : Session} (stepped : session.step log = (next, some status)) :
      Returns log session (next, status)
  | more {session next : Session} {result : Session × Status}
      (stepped : session.step log = (next, none))
      (returns : Returns log next result) :
      Returns log session result

variable {log : Pika.Binlog} {result : Session × Status}

/-- What a step returns, or what the steps behind it return. -/
def Leads (log : Pika.Binlog) (result : Session × Status) : Session × Option Status → Prop
  | (next, some status) => result = (next, status)
  | (next, none) => Returns log next result

theorem Returns.of_leads (leads : Leads log result (session.step log)) :
    Returns log session result := by
  match stepped : session.step log with
  | (next, some status) =>
    rw [stepped] at leads
    exact leads ▸ .done stepped
  | (next, none) =>
    rw [stepped] at leads
    exact .more stepped leads

/-- The skip and the reads make up `ReadPhysicalRecord`. -/
theorem returns_of_settle {output : Output} {reader : Reader}
    (leads : Leads log result (settle (reader.readPhysicalRecord log.files output))) :
    Returns log { phase := .skip, output := output, reader := reader }
      result := by
  refine .more rfl (.of_leads ?_)
  simp only [Reader.readPhysicalRecord, Reader.readRecord] at leads
  simp only [step]
  cases headed : (reader.skipBlockTail log.files).readHeader log.files with
  | mk outcome next =>
    cases outcome with
    | stop type => simpa only [headed] using leads
    | payload type length =>
      simp only [headed] at leads
      exact .of_leads leads

/-- The steps between two looks at the files for the next one make up
`Consume`. -/
theorem returns_of_consume (files : Files) (output : Output) (reader : Reader)
    (sameFiles : log.files = files)
    (leads : Leads log result (if (reader.consume files output).1.isEndFile then
        ({ phase := .probe
           output := (reader.consume files output).2.1
           reader := (reader.consume files output).2.2 }, none)
      else
        ({ phase := .idle
           output := (reader.consume files output).2.1
           reader := (reader.consume files output).2.2 }, some .ok))) :
    Returns log { phase := .skip, output := output, reader := reader }
      result := by
  subst sameFiles
  fun_induction Reader.consume log.files output reader with
  | case1 output reader record status stops =>
    apply returns_of_settle
    have switched : Reader.switchRecord record =
        (some status, (Reader.switchRecord record).2) := by rw [← stops]
    rw [settle, switched]
    exact leads
  | case2 output reader record continues ih =>
    apply returns_of_settle
    have switched : Reader.switchRecord record =
        (none, (Reader.switchRecord record).2) := by rw [← continues]
    rw [settle, switched]
    exact ih leads

/-- The steps of a `Get`, taken without interruption, are the loop of
`Get`. -/
theorem returns_of_getLoop {status : Status} {output last : Output} {reader next : Reader}
    (returned : reader.getLoop log fuel output = some (status, last, next)) :
    Returns log { phase := .check, output := output, reader := reader }
      ({ phase := .idle, output := last, reader := next }, status) := by
  induction fuel generalizing output reader with
  | zero => cases returned
  | succ fuel ih =>
    apply Returns.of_leads
    rw [Reader.getLoop] at returned
    simp only [step]
    split_ifs at returned ⊢ with atEnd
    · cases returned
      rfl
    · apply returns_of_consume log.files output reader rfl
      simp only at returned
      generalize reader.consume log.files output = consumed at returned ⊢
      obtain ⟨outcome, assembled, behind⟩ := consumed
      split_ifs at returned ⊢ with ended present
      · exact .more (if_pos present) (.more rfl (ih returned))
      · cases returned
        exact .done (if_neg present)
      · cases returned
        rfl

/-- A `Get` at the end of a file goes on with an item of two fragments in the
next one. -/
theorem returns_nextFile :
    ∃ log session, Returns log
        { phase := .check, output := ⟨[], 0, 0⟩, reader := .positioned 0 9 } (session, .ok) ∧
      session.output = ⟨List.replicate 70000 1, 1, 70016⟩ := by
  obtain ⟨log, journal⟩ := exists_journal_twoFiles List.length_replicate
  have behind : Drains log (.positioned 0 9) [⟨List.replicate 70000 1, ⟨1, 70016⟩⟩] :=
    drains_of_chain journal.chain.uncons.2 journal.aligned.getProducerStatus_eq
      (Reader.at_positioned _ _)
  obtain ⟨fuel, next, returned, -⟩ := behind ⟨[], 0, 0⟩
  rw [get_of_queue (Reader.at_positioned _ _).queue_ne_none] at returned
  exact ⟨log, _, returns_of_getLoop returned, rfl⟩

end Session

/-! ## The system -/

/-- A writer, a reader that follows it, and what has happened so far. -/
structure Tailing where
  /-- The shared files and producer status. -/
  log : Binlog
  /-- The steps the running `Put` still has to take. -/
  pending : List WriterStep
  item : Bytes
  /-- The items whose `Put` has completed. -/
  completed : List Record
  session : Session
  /-- The completed items before the position the reader was set to. -/
  skipped : List Record
  /-- The items the reader has returned since. -/
  returned : List Record

namespace Tailing

/-- What the writer or the reader does next. -/
inductive Label where
  /-- The writer starts a `Put`. -/
  | put (call : PutCall)
  /-- The writer takes one step of its `Put`. -/
  | write
  /-- The reader is set to the position behind the first `count` items. -/
  | seek (count : Nat)
  /-- The reader starts a `Get`. -/
  | get
  /-- The reader takes one step of its `Get`. -/
  | read

/-- A fresh log with an idle writer and a reader that has not been set. -/
def initial (fileSize term : Nat) : Tailing :=
  { log := fresh fileSize term
    pending := []
    item := []
    completed := []
    session :=
      { phase := .idle
        output := { scratch := [], filenum := 0, offset := 0 }
        reader := Reader.unseeked }
    skipped := []
    returned := [] }

/-- The position behind the first `count` completed items. -/
def seekPosition (system : Tailing) (count : Nat) : BinlogOffset :=
  Chain.positionAfter { filenum := 0, offset := 0 } (system.completed.take count)

/-- The records returned after a reader step with the given status. -/
def recordReturn (returned : List Record) (session : Session) : Option Status → List Record
  | some .ok =>
    returned ++
      [{ item := session.output.scratch
         position :=
          { filenum := session.output.filenum, offset := session.output.offset } }]
  | _ => returned

def step (system : Tailing) : Label → Option Tailing
  | .put call =>
    if system.pending.isEmpty ∧ call.item.length < 2 ^ 31 then
      some { system with pending := putSteps call.now call.item system.log, item := call.item }
    else none
  | .write =>
    match system.pending with
    | [] => none
    | next :: pending =>
      let log := next.apply system.log
      some { system with
        log := log
        pending := pending
        completed :=
          if pending.isEmpty then
            system.completed ++ [{ item := system.item, position := log.position }]
          else system.completed }
  | .seek count =>
    if system.session.phase = .idle then
      (Reader.seek system.log (system.seekPosition count).filenum
        (system.seekPosition count).offset).map fun reader =>
          { system with
            session := { system.session with reader := reader }
            skipped := system.completed.take count
            returned := [] }
    else none
  | .get =>
    if system.session.phase = .idle ∧ system.session.reader.queue ≠ none then
      some { system with
        session :=
          { system.session with
            phase := .check
            output := { system.session.output with scratch := [] } } }
    else none
  | .read =>
    if system.session.phase = .idle then none
    else
      let result := system.session.step system.log
      some { system with
        session := result.1
        returned := recordReturn system.returned result.1 result.2 }

/-- The items returned since the reader was set are the first ones whose `Put`
completed behind that position, in order, each once and whole. -/
def Faithful (system : Tailing) : Prop :=
  (system.skipped ++ system.returned).map Record.item <+: system.completed.map Record.item

/-- A started `Put` has an item, and its end fits the integers it is published
through. -/
def Admissible (system : Tailing) : Label → Prop
  | .put call =>
    call.item ≠ [] ∧ (system.log.position.place system.log.fileSize call.item.length).Fits
  | _ => True

end Tailing
end Pika.Binlog
