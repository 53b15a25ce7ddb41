import Mathlib.Data.List.Induction
import Pika.Command.Authentication
import Pika.Command.ErrorLine
import Pika.Foundation.Segment
import Pika.Partition.Lookup
import Pika.Replication.Purge

/-!
# Errors that echo their cause

The error of an unknown command quotes its name, BGSAVE, COMPACT, INFO and
PURGELOGSTO quote the table that does not exist, COMPACT the type it does not
know and PUBSUB its subcommand, all as the client has sent them.  Other errors
quote the status of the engine, and GEOPOS and GEOHASH go on appending to it.
Every error is one line exactly if none of these texts holds a line end.
-/

namespace Pika.Command

open Foundation List
open Binlog (Bytes)
open Partition (Lookups)
open Replication (purgelogstoNumber)

/-- What a command ends with, by the texts that its errors can have. -/
inductive Outcome (Text : Type) where
  | succeeded (res : CmdRes) (fine : res.ret.isError = false)
  /-- `SetRes`, with a content or without one. -/
  | failed (ret : CmdRes.Ret) (text : Option Text)

/-- The reply of an outcome. -/
def Outcome.res {Text : Type} (bytes : Text → Bytes) : Outcome Text → CmdRes
  | .succeeded res _ => res
  | .failed ret text => CmdRes.create.setResContent ret ((text.map bytes).getD [])

/-- What `ZScore` returns. -/
inductive ScoreAnswer (Score : Type) where
  | ok (score : Score)
  | notFound
  | failed (reported : StatusText)

/-- What the commands read of the server, and what the commands that echo
nothing end with. -/
structure ServerView (Sync Table Score : Type) where
  lookups : Lookups Sync Table
  defaultTable : Bytes
  isKeyScaning : Bool
  isCompacting : Bool
  stringSplit : Bytes → List Bytes
  zScore : Bytes → Bytes → ScoreAnswer Score
  longitude : Score → Bytes
  latitude : Score → Bytes
  /-- The eleven letters of GEOHASH. -/
  geohash : Score → Bytes
  initial : CommandName → List Bytes → Outcome FixedText
  /-- The error with which `Execute` returns before it calls `Do`. -/
  beforeDo : CommandName → List Bytes → Option FixedText
  /-- `Do` of the commands that look up tables or subscriptions. -/
  serve : CommandName → List Bytes → Outcome FixedText
  execute : CommandName → List Bytes → Outcome ErrorText

/-- A reply with a text of the source. -/
def fixedError (ret : CmdRes.Ret) (text : FixedText) : CmdRes :=
  CmdRes.create.setResContent ret text.bytes

/-- `SetRes` with `kWrongNum` and the name of a command. -/
def wrongNum (command : CommandName) : CmdRes := fixedError .kWrongNum (.name command)

/-- A negative arity is a least number of arguments. -/
theorem checkArg_iff_le {command : CommandName} {least : Nat}
    (arity : command.registration.arity = -(least : Int)) (positive : 0 < least) (number : Nat) :
    command.checkArg number = true ↔ least ≤ number := by
  have notExact : decide (0 < -(least : Int)) = false := decide_eq_false (by omega)
  have atLeast : decide (-(least : Int) < 0) = true := decide_eq_true (by omega)
  simp only [CommandName.checkArg, arity, notExact, atLeast, Bool.false_and,
    Bool.false_or, Bool.true_and, Bool.not_eq_true', decide_eq_false_iff_not]
  omega

namespace ServerView

variable {Sync Table Score : Type} (view : ServerView Sync Table Score)

/-- The loop over the tables that a command names. -/
def checkTables (names : List Bytes) (res : CmdRes) : Access CmdRes :=
  (view.lookups.checkTables names).map fun
    | .invalidTable name => res.setResContent .kInvalidTable name
    | _ => res

/-- `BgsaveCmd::DoInitial`. -/
def bgsaveInitial (argv : List Bytes) : Access CmdRes :=
  if CommandName.bgsaveCmd.checkArg argv.length then
    if argv.length = 2 then view.checkTables (view.stringSplit (argument argv 1)) .create
    else .returned .create
  else .returned (wrongNum .bgsaveCmd)

/-- `CompactCmd::DoInitial`. -/
def compactInitial (argv : List Bytes) : Access CmdRes :=
  if CommandName.compactCmd.checkArg argv.length && argv.length ≤ 3 then
    if view.isKeyScaning then
      .returned (fixedError .kErrOther (.literal
        "The info keyspace operation is executing, Try again later"
        (by simp [errorLiterals])))
    else if argv.length = 3 then view.checkTables (view.stringSplit (argument argv 1)) .create
    else .returned .create
  else .returned (wrongNum .compactCmd)

/-- `table_` of PURGELOGSTO. -/
def purgelogstoTable (argv : List Bytes) : Bytes :=
  if argv.length = 3 then argument argv 2 else view.defaultTable

/-- `PurgelogstoCmd::DoInitial`. -/
def purgelogstoInitial (argv : List Bytes) : Access CmdRes :=
  if CommandName.purgelogstoCmd.checkArg argv.length && argv.length ≤ 3 then
    match purgelogstoNumber (argument argv 1) with
    | none => .returned (CmdRes.create.setRes .kInvalidParameter)
    | some _ =>
      (view.lookups.table (view.purgelogstoTable argv)).map fun entry =>
        if entry.isSome then .create
        else CmdRes.create.setResContent .kInvalidTable (view.purgelogstoTable argv)
  else .returned (wrongNum .purgelogstoCmd)

/-- What `InfoCmd::DoInitial` makes of the argument behind `keyspace`. -/
def infoKeyspace (argument : Bytes) : CmdRes :=
  if argument = ascii "1" then
    if view.isCompacting then
      fixedError .kErrOther (.literal "The compact operation is executing, Try again later"
        (by simp [errorLiterals]))
    else .create
  else if argument = ascii "off" ∨ argument = ascii "0" then .create
  else CmdRes.create.setRes .kSyntaxErr

/-- `InfoCmd::DoInitial`. -/
def infoInitial (argv : List Bytes) : Access CmdRes :=
  if 4 < argv.length then .returned (CmdRes.create.setRes .kSyntaxErr)
  else if argv.length = 1 then .returned .create
  else if sameWord (argument argv 1) "keyspace" then
    if argv.length = 2 then .returned .create
    else if argv.length = 4 then
      view.checkTables (view.stringSplit (argument argv 3)) (view.infoKeyspace (argument argv 2))
    else .returned (view.infoKeyspace (argument argv 2))
  else if argv.length = 2 then .returned .create
  else .returned (CmdRes.create.setRes .kSyntaxErr)

/-- The text of an error of PUBSUB. -/
def pubSubText (subcommand : Bytes) : Bytes :=
  ascii "Unknown PUBSUB subcommand or wrong number of arguments for '" ++ subcommand ++ ascii "'"

/-- A subcommand of PUBSUB. -/
def isPubSubSubcommand (subcommand : Bytes) : Bool :=
  sameWord subcommand "channels" || sameWord subcommand "numsub" || sameWord subcommand "numpat"

/-- `PubSubCmd::DoInitial`. -/
def pubSubInitial (argv : List Bytes) : CmdRes :=
  if CommandName.pubSubCmd.checkArg argv.length then
    if isPubSubSubcommand (argument argv 1) then .create
    else CmdRes.create.setResContent .kErrOther (pubSubText (argument argv 1))
  else wrongNum .pubSubCmd

/-- `struct_type_` of COMPACT. -/
def structType (argv : List Bytes) : Bytes :=
  if argv.length = 1 then ascii "all"
  else if argv.length = 2 then argument argv 1
  else argument argv 2

/-- A type that COMPACT knows. -/
def isStructType (type : Bytes) : Bool :=
  ["all", "string", "hash", "set", "zset", "list"].any (sameWord type)

/-- `CompactCmd::Do`. -/
def compactDo (argv : List Bytes) : CmdRes :=
  if isStructType (structType argv) then CmdRes.create.setRes .kOk
  else CmdRes.create.setResContent .kInvalidDbType (structType argv)

/-- `PubSubCmd::Do`, of which only CHANNELS can fail. -/
def pubSubDo (argv : List Bytes) : CmdRes :=
  if sameWord (argument argv 1) "channels" && 3 < argv.length then
    CmdRes.create.setResContent .kErrOther (pubSubText (argument argv 1))
  else (view.serve .pubSubCmd argv).res FixedText.bytes

/-- The iteration of GEOPOS and GEOHASH for a member.  An error does not end
the loop. -/
def appendScore (append : Score → CmdRes → CmdRes) (res : CmdRes) : ScoreAnswer Score → CmdRes
  | .ok score => append score res
  | .notFound => res.appendStringLen (-1)
  | .failed reported => res.setResContent .kErrOther reported.text

/-- The scores of the members of GEOPOS and GEOHASH. -/
def scores (argv : List Bytes) : List (ScoreAnswer Score) :=
  (argv.drop 2).map (view.zScore (argument argv 1))

/-- `GeoPosCmd::Do`. -/
def geoPosDo (argv : List Bytes) : CmdRes :=
  (view.scores argv).foldl (appendScore fun score res =>
      ((res.appendArrayLen 2).appendString (view.longitude score)).appendString
        (view.latitude score))
    (CmdRes.create.appendArrayLen (argv.drop 2).length)

/-- `GeoHashCmd::Do`. -/
def geoHashDo (argv : List Bytes) : CmdRes :=
  (view.scores argv).foldl (appendScore fun score res =>
      (res.appendStringLen 11).appendContent (view.geohash score))
    (CmdRes.create.appendArrayLen (argv.drop 2).length)

/-- `Initial`. -/
def doInitial (argv : List Bytes) : CommandName → Access CmdRes
  | .bgsaveCmd => view.bgsaveInitial argv
  | .compactCmd => view.compactInitial argv
  | .purgelogstoCmd => view.purgelogstoInitial argv
  | .infoCmd => view.infoInitial argv
  | .pubSubCmd => .returned (pubSubInitial argv)
  | command => .returned ((view.initial command argv).res FixedText.bytes)

/-- `Do`. -/
def doExecute (argv : List Bytes) : CommandName → CmdRes
  | .compactCmd => compactDo argv
  | .pubSubCmd => view.pubSubDo argv
  | .geoPosCmd => view.geoPosDo argv
  | .geoHashCmd => view.geoHashDo argv
  | .bgsaveCmd => (view.serve .bgsaveCmd argv).res FixedText.bytes
  | .purgelogstoCmd => (view.serve .purgelogstoCmd argv).res FixedText.bytes
  | .infoCmd => (view.serve .infoCmd argv).res FixedText.bytes
  | command => (view.execute command argv).res ErrorText.bytes

/-- `Execute`. -/
def execution (argv : List Bytes) (command : CommandName) : CmdRes :=
  match view.beforeDo command argv with
  | some text => fixedError .kErrOther text
  | none => view.doExecute argv command

/-- The error with which `DoCmd` refuses a command behind `Initial`. -/
def lateRefusal (request : ClientRequest) (command : CommandName) : Option FixedText :=
  if request.isPubSub && !pubSubCommands.contains command then
    some (.literal "only (P)SUBSCRIBE / (P)UNSUBSCRIBE / PING / QUIT allowed in this context"
      (by simp [errorLiterals]))
  else if command.isWrite then
    if request.binlogIoError then
      some (.literal "Writing binlog failed, maybe no space left on device"
        (by simp [errorLiterals]))
    else if (currentKey command request.argv).isEmpty then
      some (.literal "Internal ERROR" (by simp [errorLiterals]))
    else if request.readonly then some (.literal "Server in read-only" (by simp [errorLiterals]))
    else none
  else none

/-- `DoCmd` behind `Initial`. -/
def behindInitial (request : ClientRequest) (command : CommandName) : CmdRes :=
  match lateRefusal request command with
  | some text => fixedError .kErrOther text
  | none => view.execution request.argv command

def doCmd (stat : StatType) (request : ClientRequest) : Access CmdRes :=
  match getCmd request.argv with
  | none =>
    .returned (CmdRes.create.setResContent .kErrOther
      (ascii "unknown or unsupported command \"" ++ argument request.argv 0 ++ ascii "\""))
  | some command =>
    if stat.isAuthed request.blacklist command then
      (view.doInitial request.argv command).bind fun res =>
        if res.ok then .returned (view.behindInitial request command)
        else .returned res
    else if command.isAdminRequire then
      .returned (fixedError .kErrOther (.literal
        "NOAUTH Authentication required." (by simp [errorLiterals])))
    else
      .returned (fixedError .kErrOther (.literal "Command is in blacklist."
        (by simp [errorLiterals])))

/-- Whatever error an access returns is one line. -/
def ErrorsAreLines (access : Access CmdRes) : Prop :=
  ∀ res, access = .returned res → res.ret.isError = true → IsErrorLine res.message

/-! ## The texts that are echoed -/

/-- A table is the first of a list that does not exist. -/
def FirstMissing (names : List Bytes) (table : Bytes) : Prop :=
  Reaches (fun name => ∃ entry, view.lookups.table name = .returned (some entry))
    (fun name => name = table ∧ view.lookups.table name = .returned none) names

/-- The tables of a list exist. -/
def AllExist (names : List Bytes) : Prop :=
  ∀ name ∈ names, ∃ entry, view.lookups.table name = .returned (some entry)

/-- What `DoInitial` echoes holds no line end. -/
def CleanInitial (argv : List Bytes) : CommandName → Prop
  | .bgsaveCmd =>
    argv.length = 2 → ∀ table, view.FirstMissing (view.stringSplit (argument argv 1)) table →
        ¬newLine <:+: table
  | .compactCmd =>
    argv.length = 3 → view.isKeyScaning = false →
      ∀ table, view.FirstMissing (view.stringSplit (argument argv 1)) table → ¬newLine <:+: table
  | .purgelogstoCmd =>
    2 ≤ argv.length → argv.length ≤ 3 → (purgelogstoNumber (argument argv 1)).isSome = true →
        view.lookups.table (view.purgelogstoTable argv) = .returned none →
          ¬newLine <:+: view.purgelogstoTable argv
  | .infoCmd =>
    argv.length = 4 → sameWord (argument argv 1) "keyspace" = true →
      ∀ table, view.FirstMissing (view.stringSplit (argument argv 3)) table → ¬newLine <:+: table
  | .pubSubCmd =>
    2 ≤ argv.length → isPubSubSubcommand (argument argv 1) = false → ¬newLine <:+: argument argv 1
  | _ => True

/-- `DoInitial` accepts the arguments of a command whose `Do` can echo. -/
def Accepts (argv : List Bytes) : CommandName → Prop
  | .compactCmd =>
    1 ≤ argv.length ∧ argv.length ≤ 3 ∧ view.isKeyScaning = false ∧ (argv.length = 3 →
        view.AllExist (view.stringSplit (argument argv 1)))
  | .pubSubCmd => 2 ≤ argv.length ∧ isPubSubSubcommand (argument argv 1) = true
  | command => ((view.initial command argv).res FixedText.bytes).ok = true

/-- If a score could not be read, neither could the last one, and its status
holds no line end. -/
def CleanScores (scores : List (ScoreAnswer Score)) : Prop :=
  (∃ reported, .failed reported ∈ scores) →
    ∃ reported, scores.getLast? = some (.failed reported) ∧ ¬newLine <:+: reported.text

/-- What `Do` echoes holds no line end. -/
def CleanDo (argv : List Bytes) : CommandName → Prop
  | .compactCmd => isStructType (structType argv) = false → ¬newLine <:+: structType argv
  | .pubSubCmd =>
    sameWord (argument argv 1) "channels" = true → 3 < argv.length → ¬newLine <:+: argument argv 1
  | .geoPosCmd | .geoHashCmd => CleanScores (view.scores argv)
  | .bgsaveCmd | .purgelogstoCmd | .infoCmd => True
  | command =>
    ∀ ret reported, view.execute command argv = .failed ret (some (.status reported)) →
        ret.isError = true → ret.quotes = true → ¬newLine <:+: reported.text

/-- No text that the error of a request would echo holds a line end. -/
def EchoesClean (stat : StatType) (request : ClientRequest) : Prop :=
  (getCmd request.argv = none → ¬newLine <:+: argument request.argv 0) ∧
    ∀ command, getCmd request.argv = some command →
      stat.isAuthed request.blacklist command = true →
        view.CleanInitial request.argv command ∧ (view.Accepts request.argv command →
            lateRefusal request command = none → view.beforeDo command request.argv = none →
                view.CleanDo request.argv command)

/-! ## One stage after the other -/

@[simp] theorem raw_setResContent_create (ret : CmdRes.Ret) (text : Bytes) :
    (CmdRes.create.setResContent ret text).raw = text := by
  cases text <;> simp [CmdRes.setResContent, CmdRes.create]

theorem errorsAreLines_returned_iff (res : CmdRes) :
    ErrorsAreLines (.returned res) ↔ (res.ret.isError = true → res.ret.quotes = true →
        ¬newLine <:+: res.raw) := by
  constructor
  · intro lines error
    exact (CmdRes.isErrorLine_message_iff error).mp (lines res rfl error)
  · rintro clean other ⟨⟩ error
    exact (CmdRes.isErrorLine_message_iff error).mpr (clean error)

theorem errorsAreLines_setResContent_iff (ret : CmdRes.Ret) (text : Bytes) :
    ErrorsAreLines (.returned (CmdRes.create.setResContent ret text)) ↔
      (ret.isError = true → ret.quotes = true → ¬newLine <:+: text) := by
  rw [errorsAreLines_returned_iff, raw_setResContent_create]
  rfl

theorem errorsAreLines_fixedError (ret : CmdRes.Ret) (text : FixedText) :
    ErrorsAreLines (.returned (fixedError ret text)) := by
  rw [fixedError, errorsAreLines_setResContent_iff]
  exact fun _ _ => text.not_newLine_infix

theorem errorsAreLines_setRes (ret : CmdRes.Ret) :
    ErrorsAreLines (.returned (CmdRes.create.setRes ret)) := by
  rw [errorsAreLines_returned_iff]
  exact fun _ _ => not_newLine_infix_of_not_mem not_mem_nil

theorem errorsAreLines_create : ErrorsAreLines (.returned .create) := errorsAreLines_setRes .kNone

/-- Outcomes with texts of the source are lines. -/
theorem errorsAreLines_fixedOutcome (outcome : Outcome FixedText) :
    ErrorsAreLines (.returned (outcome.res FixedText.bytes)) := by
  cases outcome with
  | succeeded res fine =>
    rw [errorsAreLines_returned_iff]
    intro error
    cases fine.symm.trans error
  | failed ret text =>
    cases text with
    | none => exact errorsAreLines_setRes ret
    | some text => exact errorsAreLines_fixedError ret text

theorem errorsAreLines_outcome_iff (outcome : Outcome ErrorText) :
    ErrorsAreLines (.returned (outcome.res ErrorText.bytes)) ↔
      ∀ ret reported, outcome = .failed ret (some (.status reported)) →
        ret.isError = true → ret.quotes = true → ¬newLine <:+: reported.text := by
  cases outcome with
  | succeeded res fine =>
    exact iff_of_true (errorsAreLines_fixedOutcome (.succeeded res fine)) nofun
  | failed ret text =>
    match text with
    | none => exact iff_of_true (errorsAreLines_setRes ret) nofun
    | some (.fixed text) => exact iff_of_true (errorsAreLines_fixedError ret text) nofun
    | some (.status reported) =>
      rw [Outcome.res, Option.map_some, Option.getD_some, errorsAreLines_setResContent_iff]
      constructor
      · rintro clean other again ⟨⟩
        exact clean
      · intro clean
        exact clean ret reported rfl

/-- A text quoted inside a text is as clean as the whole. -/
theorem errorsAreLines_quoting_iff {before behind : String}
    (noReturn : carriageReturn ∉ ascii before)
    (noFeed : (10 : UInt8) ∉ ascii behind) (text : Bytes) :
    ErrorsAreLines (.returned (CmdRes.create.setResContent .kErrOther
        (ascii before ++ text ++ ascii behind))) ↔ ¬newLine <:+: text := by
  rw [errorsAreLines_setResContent_iff, append_assoc]
  have same := (pair_infix_append_left noReturn (text ++ ascii behind)).trans
    (pair_infix_append_right noFeed text)
  exact ⟨fun clean inside => clean rfl rfl (same.mpr inside),
    fun clean _ _ inside => clean (same.mp inside)⟩

/-- A stage returns and leaves no error. -/
def Passes (access : Access CmdRes) : Prop := ∃ res, access = .returned res ∧ res.ok = true

theorem errorsAreLines_bind_iff {initial : Access CmdRes} {next : CmdRes} :
    ErrorsAreLines (initial.bind fun res =>
        if res.ok then .returned next else .returned res) ↔
      ErrorsAreLines initial ∧ (Passes initial → ErrorsAreLines (.returned next)) := by
  cases initial with
  | returned res =>
    rw [Access.bind_returned]
    by_cases ok : res.ok = true
    · have fine : ErrorsAreLines (.returned res) := by
        rw [errorsAreLines_returned_iff]
        intro error
        cases ret : res.ret <;> simp [CmdRes.ok, ret] at ok <;>
          simp [CmdRes.Ret.isError, ret] at error
      rw [if_pos ok, and_iff_right fine]
      exact ⟨fun lines _ => lines, fun lines => lines ⟨res, rfl, ok⟩⟩
    · rw [if_neg ok]
      refine ⟨fun lines => ⟨lines, ?_⟩, fun lines => lines.1⟩
      rintro ⟨other, ⟨⟩, isOk⟩
      exact absurd isOk ok
  | aborted | undefined =>
    refine iff_of_true ?_ ⟨?_, ?_⟩
    · nofun
    · nofun
    · rintro ⟨res, same, -⟩
      cases same

section Tables

variable {view}

/-- The loop over tables ends at the first that does not exist. -/
theorem checkTables_eq_invalidTable_iff (table : Bytes) :
    view.lookups.checkTables names = .returned (.invalidTable table) ↔
      view.FirstMissing names table := by
  unfold FirstMissing
  induction names with
  | nil =>
    exact iff_of_false nofun (not_reaches_nil _ _)
  | cons name names ih =>
    rw [reaches_cons, ← ih, Lookups.checkTables]
    cases view.lookups.table name with
    | returned entry => cases entry <;> simp [Access.ifPresent]
    | aborted | undefined => simp [Access.ifPresent, Access.bind]

theorem checkTables_eq_accepted_iff :
    view.lookups.checkTables names = .returned .accepted ↔ view.AllExist names := by
  unfold AllExist
  induction names with
  | nil => simp [Lookups.checkTables]
  | cons name names ih =>
    rw [forall_mem_cons, ← ih, Lookups.checkTables]
    cases view.lookups.table name with
    | returned entry => cases entry <;> simp [Access.ifPresent]
    | aborted | undefined => simp [Access.ifPresent, Access.bind]

theorem checkTables_cases (returned : view.lookups.checkTables names = .returned answer) :
    answer = .accepted ∨ ∃ table, answer = .invalidTable table := by
  induction names with
  | nil =>
    cases returned
    exact .inl rfl
  | cons name names ih =>
    rw [Lookups.checkTables] at returned
    cases found : view.lookups.table name with
    | returned entry =>
      cases entry with
      | none =>
        rw [found, Access.ifPresent_none] at returned
        cases returned
        exact .inr ⟨name, rfl⟩
      | some entry =>
        rw [found, Access.ifPresent_some] at returned
        exact ih returned
    | aborted | undefined =>
      rw [found] at returned
      cases returned

/-- The error for a table is a line exactly if the table's name is clean. -/
theorem errorsAreLines_checkTables_iff (lines : ErrorsAreLines (.returned res))
    (clean : ¬newLine <:+: res.raw) :
    ErrorsAreLines (view.checkTables names res) ↔
      ∀ table, view.FirstMissing names table → ¬newLine <:+: table := by
  simp only [← checkTables_eq_invalidTable_iff]
  rw [checkTables]
  cases outcome : view.lookups.checkTables names with
  | returned answer =>
    obtain rfl | ⟨table, rfl⟩ := checkTables_cases outcome
    · exact iff_of_true lines fun _ same => by cases same
    · rw [Access.map_returned, errorsAreLines_returned_iff]
      -- An empty name leaves the message that was there.
      have same : newLine <:+: (res.setResContent .kInvalidTable table).raw ↔
          newLine <:+: table := by
        cases table with
        | nil => exact iff_of_false clean (by simp [newLine])
        | cons byte table => rfl
      constructor
      · rintro lines other ⟨⟩
        exact same.not.mp (lines rfl rfl)
      · intro cleanName _ _
        exact same.not.mpr (cleanName table rfl)
  | aborted | undefined =>
    exact iff_of_true (by rintro _ ⟨⟩) (by rintro _ ⟨⟩)

end Tables

theorem errorsAreLines_infoKeyspace (argument : Bytes) :
    ErrorsAreLines (.returned (view.infoKeyspace argument)) ∧
      ¬newLine <:+: (view.infoKeyspace argument).raw := by
  have empty : ¬newLine <:+: ([] : Bytes) := not_newLine_infix_of_not_mem not_mem_nil
  unfold infoKeyspace
  split_ifs
  · refine ⟨errorsAreLines_fixedError _ _, ?_⟩
    rw [fixedError, raw_setResContent_create]
    exact FixedText.not_newLine_infix _
  · exact ⟨errorsAreLines_create, empty⟩
  · exact ⟨errorsAreLines_create, empty⟩
  · exact ⟨errorsAreLines_setRes _, empty⟩

theorem errorsAreLines_tables_iff (names : List Bytes) :
    ErrorsAreLines (view.checkTables names .create) ↔
      ∀ table, view.FirstMissing names table → ¬newLine <:+: table :=
  errorsAreLines_checkTables_iff errorsAreLines_create
    (not_newLine_infix_of_not_mem not_mem_nil)

theorem errorsAreLines_bgsaveInitial_iff (argv : List Bytes) :
    ErrorsAreLines (view.bgsaveInitial argv) ↔ view.CleanInitial argv .bgsaveCmd := by
  rw [bgsaveInitial, CleanInitial]
  split_ifs with number two
  · rw [errorsAreLines_tables_iff]
    exact ⟨fun clean _ => clean, fun clean => clean two⟩
  · exact iff_of_true errorsAreLines_create fun named => absurd named two
  · apply iff_of_true (errorsAreLines_fixedError _ _)
    intro two
    exact absurd (by rw [two]; rfl) number

theorem errorsAreLines_compactInitial_iff (argv : List Bytes) :
    ErrorsAreLines (view.compactInitial argv) ↔ view.CleanInitial argv .compactCmd := by
  rw [compactInitial, CleanInitial]
  split_ifs with number scanning three
  · apply iff_of_true (errorsAreLines_fixedError _ _)
    intro _ idle
    cases scanning.symm.trans idle
  · rw [errorsAreLines_tables_iff]
    exact ⟨fun clean _ _ => clean, fun clean => clean three (Bool.eq_false_of_not_eq_true scanning)⟩
  · exact iff_of_true errorsAreLines_create fun named => absurd named three
  · apply iff_of_true (errorsAreLines_fixedError _ _)
    intro three
    exact absurd (by rw [three]; rfl) number

theorem errorsAreLines_infoInitial_iff (argv : List Bytes) :
    ErrorsAreLines (view.infoInitial argv) ↔ view.CleanInitial argv .infoCmd := by
  obtain ⟨keyspaceLines, keyspaceClean⟩ := view.errorsAreLines_infoKeyspace (argument argv 2)
  rw [infoInitial, CleanInitial]
  split_ifs with many one keyspace two four two
  · exact iff_of_true (errorsAreLines_setRes _) fun four => by omega
  · exact iff_of_true errorsAreLines_create fun four => by omega
  · exact iff_of_true errorsAreLines_create fun four => by omega
  · rw [errorsAreLines_checkTables_iff keyspaceLines keyspaceClean]
    exact ⟨fun clean _ _ => clean, fun clean => clean four keyspace⟩
  · exact iff_of_true keyspaceLines fun named => absurd named four
  · exact iff_of_true errorsAreLines_create fun four => by omega
  · exact iff_of_true (errorsAreLines_setRes _) fun _ named => absurd named keyspace

theorem errorsAreLines_purgelogstoInitial_iff (argv : List Bytes) :
    ErrorsAreLines (view.purgelogstoInitial argv) ↔ view.CleanInitial argv .purgelogstoCmd := by
  rw [purgelogstoInitial, CleanInitial]
  split_ifs with number
  · have lengths : 2 ≤ argv.length ∧ argv.length ≤ 3 := by
      rwa [Bool.and_eq_true_iff, checkArg_iff_le rfl Nat.two_pos, decide_eq_true_iff] at number
    cases purgelogstoNumber (argument argv 1) with
    | none =>
      exact iff_of_true (errorsAreLines_setRes _) (by simp)
    | some _ =>
      simp only [lengths.1, lengths.2, Option.isSome_some, forall_const]
      cases view.lookups.table (view.purgelogstoTable argv) with
      | returned entry =>
        cases entry with
        | none =>
          simp only [Access.map_returned, Option.isSome_none, Bool.false_eq_true, if_false]
          rw [errorsAreLines_setResContent_iff]
          simp [CmdRes.Ret.isError, CmdRes.Ret.quotes]
        | some entry =>
          exact iff_of_true errorsAreLines_create (by simp)
      | aborted | undefined =>
        exact iff_of_true (by rintro _ ⟨⟩) (by simp)
  · apply iff_of_true (errorsAreLines_fixedError _ _)
    intro atLeast atMost
    rw [Bool.and_eq_true_iff, checkArg_iff_le rfl Nat.two_pos, decide_eq_true_iff] at number
    exact absurd ⟨atLeast, atMost⟩ number

theorem errorsAreLines_pubSubInitial_iff (argv : List Bytes) :
    ErrorsAreLines (.returned (pubSubInitial argv)) ↔ view.CleanInitial argv .pubSubCmd := by
  rw [pubSubInitial, CleanInitial]
  split_ifs with number known
  · exact iff_of_true errorsAreLines_create fun _ unknown => by
      cases known.symm.trans unknown
  · have atLeast := (checkArg_iff_le rfl Nat.two_pos _).mp number
    rw [pubSubText, errorsAreLines_quoting_iff
      (not_mem_ascii_ofList (by decide)) (not_mem_ascii_ofList (by decide))]
    exact ⟨fun clean _ _ => clean, fun clean => clean atLeast (Bool.eq_false_of_not_eq_true known)⟩
  · apply iff_of_true (errorsAreLines_fixedError _ _)
    intro atLeast
    exact absurd ((checkArg_iff_le rfl Nat.two_pos _).mpr atLeast) number

theorem errorsAreLines_doInitial_iff (argv : List Bytes) (command : CommandName) :
    ErrorsAreLines (view.doInitial argv command) ↔ view.CleanInitial argv command := by
  fun_cases doInitial view argv command with
  | case1 => exact view.errorsAreLines_bgsaveInitial_iff argv
  | case2 => exact view.errorsAreLines_compactInitial_iff argv
  | case3 => exact view.errorsAreLines_purgelogstoInitial_iff argv
  | case4 => exact view.errorsAreLines_infoInitial_iff argv
  | case5 => exact view.errorsAreLines_pubSubInitial_iff argv
  | case6 notBgsave notCompact notPurgelogsto notInfo notPubSub =>
    apply iff_of_true (errorsAreLines_fixedOutcome _)
    unfold CleanInitial
    split <;> simp_all

/-! ## Scores -/

section Scores

variable {append : Score → CmdRes → CmdRes}

/-- A step puts bytes with a line end behind the message. -/
def Appends (change : CmdRes → CmdRes) : Prop :=
  ∃ suffix, newLine <:+: suffix ∧ ∀ res, change res = { res with raw := res.raw ++ suffix }

theorem appends_appendLen (marker : UInt8) (ori : Int) :
    Appends (CmdRes.appendLen marker ori) := by
  refine ⟨lengthLine marker (decimalInt ori), ?_, fun res => rfl⟩
  exact ⟨marker :: decimalInt ori, [], by simp [lengthLine]⟩

theorem appends_appendContent (value : Bytes) : Appends (CmdRes.appendContent value) :=
  ⟨value ++ newLine, (suffix_append value newLine).isInfix, fun _ => rfl⟩

theorem Appends.trans (one : Appends first) (two : Appends second) :
    Appends (second ∘ first) := by
  obtain ⟨front, marked, firstEq⟩ := one
  obtain ⟨rest, -, secondEq⟩ := two
  refine ⟨front ++ rest, marked.trans (infix_append [] front rest), ?_⟩
  intro res
  simp [firstEq, secondEq]

theorem appends_appendScore (appends : ∀ score, Appends (append score))
    (read : ∀ other, answer ≠ .failed other) :
    Appends fun res => appendScore append res answer := by
  cases answer with
  | ok score => exact appends score
  | notFound => exact appends_appendLen bulkMarker (-1)
  | failed reported => exact absurd rfl (read reported)

/-- A score that could not be read leaves its error to the end. -/
theorem ret_foldl_appendScore (appends : ∀ score, Appends (append score))
    (answers : List (ScoreAnswer Score)) (start : CmdRes) :
    ((∃ reported, .failed reported ∈ answers) →
        (answers.foldl (appendScore append) start).ret = .kErrOther) ∧
      ((∀ reported, .failed reported ∉ answers) →
        (answers.foldl (appendScore append) start).ret = start.ret) := by
  induction answers using List.reverseRecOn with
  | nil => simp
  | append_singleton answers answer ih =>
    rw [foldl_append, foldl_cons, foldl_nil]
    cases answer with
    | failed reported =>
      refine ⟨fun _ => rfl, fun none => ?_⟩
      exact absurd (by simp) (none reported)
    | ok score =>
      obtain ⟨suffix, -, appended⟩ := appends score
      simpa [appendScore, appended] using ih
    | notFound => simpa [appendScore, CmdRes.appendStringLen, CmdRes.appendLen] using ih

/-- The reply of GEOPOS and GEOHASH, if it is an error, is a line exactly if
the last score is one that could not be read and its status is clean. -/
theorem errorsAreLines_scores_iff (appends : ∀ score, Appends (append score))
    (answers : List (ScoreAnswer Score)) (fine : start.ret = .kNone) :
    ErrorsAreLines (.returned (answers.foldl (appendScore append) start)) ↔
      CleanScores answers := by
  obtain ⟨ofFailed, ofRead⟩ := ret_foldl_appendScore appends answers start
  rw [errorsAreLines_returned_iff]
  by_cases failed : ∃ reported, .failed reported ∈ answers
  · rw [CleanScores, forall_prop_of_true failed, ofFailed failed]
    simp only [CmdRes.Ret.isError, CmdRes.Ret.quotes, forall_const]
    obtain rfl | ⟨before, last, rfl⟩ := eq_nil_or_concat' answers
    · simp at failed
    · rw [foldl_append, foldl_cons, foldl_nil, List.getLast?_concat]
      -- What is appended behind the error brings a line end with it.
      have splits (read : ∀ other, last ≠ .failed other) : newLine <:+:
          (appendScore append (before.foldl (appendScore append) start) last).raw := by
        obtain ⟨suffix, marked, appended⟩ := appends_appendScore appends read
        simp only at appended
        rw [appended]
        exact marked.trans (suffix_append _ suffix).isInfix
      cases last with
      | failed reported =>
        have raw : (appendScore append (before.foldl (appendScore append) start)
            (.failed reported)).raw = reported.text := by
          simp [appendScore, CmdRes.setResContent, reported.nonempty]
        rw [raw]
        simp
      | ok score => simpa using splits
      | notFound => simpa using splits
  · rw [ofRead (not_exists.mp failed), fine]
    apply iff_of_true
    · intro impossible
      cases impossible
    · exact fun some => absurd some failed

end Scores

theorem appends_appendString (value : Bytes) : Appends (CmdRes.appendString value) :=
  (appends_appendLen bulkMarker value.length).trans (appends_appendContent value)

theorem errorsAreLines_geoPosDo_iff (argv : List Bytes) :
    ErrorsAreLines (.returned (view.geoPosDo argv)) ↔ CleanScores (view.scores argv) := by
  apply errorsAreLines_scores_iff _ _ rfl
  intro score
  exact ((appends_appendLen arrayMarker 2).trans
    (appends_appendString (view.longitude score))).trans
      (appends_appendString (view.latitude score))

theorem errorsAreLines_geoHashDo_iff (argv : List Bytes) :
    ErrorsAreLines (.returned (view.geoHashDo argv)) ↔ CleanScores (view.scores argv) := by
  apply errorsAreLines_scores_iff _ _ rfl
  intro score
  exact (appends_appendLen bulkMarker 11).trans (appends_appendContent (view.geohash score))

theorem errorsAreLines_compactDo_iff (argv : List Bytes) :
    ErrorsAreLines (.returned (compactDo argv)) ↔ view.CleanDo argv .compactCmd := by
  rw [compactDo, CleanDo]
  split_ifs with known
  · apply iff_of_true (errorsAreLines_setRes _)
    intro unknown
    cases known.symm.trans unknown
  · rw [errorsAreLines_setResContent_iff]
    simp [known, CmdRes.Ret.isError, CmdRes.Ret.quotes]

theorem errorsAreLines_pubSubDo_iff (argv : List Bytes) :
    ErrorsAreLines (.returned (view.pubSubDo argv)) ↔ view.CleanDo argv .pubSubCmd := by
  rw [pubSubDo, CleanDo]
  split_ifs with channels
  · obtain ⟨named, many⟩ := Bool.and_eq_true_iff.mp channels
    rw [pubSubText, errorsAreLines_quoting_iff
      (not_mem_ascii_ofList (by decide)) (not_mem_ascii_ofList (by decide))]
    exact ⟨fun clean _ _ => clean, fun clean => clean named (of_decide_eq_true many)⟩
  · apply iff_of_true (errorsAreLines_fixedOutcome _)
    intro named many
    exact absurd (Bool.and_eq_true_iff.mpr ⟨named, decide_eq_true many⟩) channels

theorem errorsAreLines_doExecute_iff (argv : List Bytes) (command : CommandName) :
    ErrorsAreLines (.returned (view.doExecute argv command)) ↔ view.CleanDo argv command := by
  fun_cases doExecute view argv command with
  | case1 => exact view.errorsAreLines_compactDo_iff argv
  | case2 => exact view.errorsAreLines_pubSubDo_iff argv
  | case3 => exact view.errorsAreLines_geoPosDo_iff argv
  | case4 => exact view.errorsAreLines_geoHashDo_iff argv
  | case5 | case6 | case7 => exact iff_of_true (errorsAreLines_fixedOutcome _) trivial
  | case8 =>
    rw [errorsAreLines_outcome_iff]
    unfold CleanDo
    split <;> simp_all

theorem errorsAreLines_behindInitial_iff (request : ClientRequest) (command : CommandName) :
    ErrorsAreLines (.returned (view.behindInitial request command)) ↔
      (lateRefusal request command = none → view.beforeDo command request.argv = none →
          view.CleanDo request.argv command) := by
  unfold behindInitial
  cases lateRefusal request command with
  | some text =>
    exact iff_of_true (errorsAreLines_fixedError _ _) nofun
  | none =>
    unfold execution
    cases view.beforeDo command request.argv with
    | some text =>
      exact iff_of_true (errorsAreLines_fixedError _ _) nofun
    | none =>
      simp only [forall_const]
      exact view.errorsAreLines_doExecute_iff request.argv command

/-! ## Accepted arguments -/

theorem passes_returned_iff (res : CmdRes) : Passes (.returned res) ↔ res.ok = true := by
  constructor
  · rintro ⟨other, ⟨⟩, ok⟩
    exact ok
  · intro ok
    exact ⟨res, rfl, ok⟩

theorem passes_checkTables_iff (names : List Bytes) :
    Passes (view.checkTables names .create) ↔ view.AllExist names := by
  rw [← checkTables_eq_accepted_iff, checkTables]
  cases outcome : view.lookups.checkTables names with
  | returned answer =>
    rw [Access.map_returned, passes_returned_iff]
    obtain rfl | ⟨table, rfl⟩ := checkTables_cases outcome
    · exact iff_of_true rfl rfl
    · apply iff_of_false
      · simp [CmdRes.setResContent, CmdRes.ok]
      · rintro ⟨⟩
  | aborted | undefined =>
    apply iff_of_false
    · rintro ⟨res, same, -⟩
      cases same
    · rintro ⟨⟩

theorem passes_compactInitial_iff (argv : List Bytes) :
    Passes (view.compactInitial argv) ↔ view.Accepts argv .compactCmd := by
  have number : (CommandName.compactCmd.checkArg argv.length &&
      decide (argv.length ≤ 3)) = true ↔ 1 ≤ argv.length ∧ argv.length ≤ 3 := by
    rw [Bool.and_eq_true_iff, checkArg_iff_le rfl Nat.one_pos, decide_eq_true_iff]
  rw [compactInitial, Accepts]
  split_ifs with right scanning three
  · simp [passes_returned_iff, fixedError, CmdRes.setResContent, CmdRes.ok, scanning]
  · rw [passes_checkTables_iff]
    simp [three, scanning]
  · rw [number] at right
    simp [passes_returned_iff, CmdRes.create, CmdRes.ok, right, scanning, three]
  · rw [number] at right
    apply iff_of_false
    · simp [passes_returned_iff, wrongNum, fixedError, CmdRes.setResContent, CmdRes.ok]
    · exact fun accepted => right ⟨accepted.1, accepted.2.1⟩

theorem passes_pubSubInitial_iff (argv : List Bytes) :
    Passes (.returned (pubSubInitial argv)) ↔ view.Accepts argv .pubSubCmd := by
  have number := @checkArg_iff_le .pubSubCmd 2 rfl Nat.two_pos argv.length
  rw [passes_returned_iff, pubSubInitial, Accepts, ← number]
  split_ifs with right known
  · exact iff_of_true rfl ⟨right, known⟩
  · simp [CmdRes.setResContent, CmdRes.ok, known]
  · simp [wrongNum, fixedError, CmdRes.setResContent, CmdRes.ok, right]

/-- Whether `Do` is reached matters for the commands whose `Do` can echo. -/
theorem cleanDo_of_passes_iff (argv : List Bytes) (command : CommandName) (late : Prop) :
    (Passes (view.doInitial argv command) → late → view.CleanDo argv command) ↔
      (view.Accepts argv command → late → view.CleanDo argv command) := by
  fun_cases doInitial view argv command with
  | case1 | case3 | case4 => exact iff_of_true (fun _ _ => trivial) fun _ _ => trivial
  | case2 => rw [passes_compactInitial_iff]
  | case5 => rw [view.passes_pubSubInitial_iff]
  | case6 =>
    rw [passes_returned_iff]
    unfold Accepts
    split <;> simp_all

/-- The errors of `DoCmd` are lines exactly if nothing that they echo holds a
line end. -/
theorem errorsAreLines_doCmd_iff (stat : StatType) (request : ClientRequest) :
    ErrorsAreLines (view.doCmd stat request) ↔ view.EchoesClean stat request := by
  unfold doCmd EchoesClean
  cases getCmd request.argv with
  | none =>
    have lines := @errorsAreLines_quoting_iff "unknown or unsupported command \"" "\""
      (not_mem_ascii_ofList (by decide)) (not_mem_ascii_ofList (by decide))
      (argument request.argv 0)
    simpa using lines
  | some command =>
    simp only [reduceCtorEq, false_implies, true_and, Option.some.injEq, forall_eq']
    by_cases authed : stat.isAuthed request.blacklist command = true
    · rw [if_pos authed, errorsAreLines_bind_iff,
        errorsAreLines_doInitial_iff, errorsAreLines_behindInitial_iff, forall_prop_of_true authed]
      have reached := view.cleanDo_of_passes_iff request.argv command
        (lateRefusal request command = none ∧ view.beforeDo command request.argv = none)
      simp only [and_imp] at reached
      exact and_congr_right fun _ => reached
    · rw [if_neg authed]
      apply iff_of_true _ fun granted => absurd granted authed
      split_ifs <;> exact errorsAreLines_fixedError _ _

/-- A server without tables, members and other commands. -/
def bare : ServerView Unit Unit Unit where
  lookups := ({ partitions := fun _ => none, tables := fun _ => none } :
    Partition.LookupArrays Unit Unit).lookups
  defaultTable := ascii "db0"
  isKeyScaning := false
  isCompacting := false
  stringSplit text := [text]
  zScore _ _ := .notFound
  longitude _ := []
  latitude _ := []
  geohash _ := []
  initial _ _ := .succeeded .create rfl
  beforeDo _ _ := none
  serve _ _ := .succeeded .create rfl
  execute _ _ := .succeeded .create rfl

/-- A request to a server that takes everything. -/
def plainRequest (argv : List Bytes) : ClientRequest where
  argv := argv
  blacklist := []
  isPubSub := false
  binlogIoError := false
  readonly := false
  found := true

/-- The name of an unknown command, or of a table that does not exist, is sent
with a line end and a reply of the client's own in it. -/
theorem not_errorsAreLines_lineEndInName :
    (∃ res, bare.doCmd .kAdminAuthed (plainRequest [ascii "nosuch\r\n+OK"]) = .returned res ∧
      res.message = ascii "-ERR unknown or unsupported command \"nosuch\r\n" ++ ascii "+OK\"\r\n") ∧
      ¬ErrorsAreLines (bare.doCmd .kAdminAuthed (plainRequest [ascii "nosuch\r\n+OK"])) ∧
      ¬ErrorsAreLines (bare.doCmd .kAdminAuthed
        (plainRequest [ascii "bgsave", ascii "db5\r\n+OK"])) := by
  have unknown : getCmd [ascii "nosuch\r\n+OK"] = none := by decide +kernel
  have bgsave : getCmd [ascii "bgsave", ascii "db5\r\n+OK"] = some .bgsaveCmd := by decide +kernel
  refine ⟨?_, ?_, ?_⟩
  · refine ⟨_, by rw [doCmd]; simp only [plainRequest, unknown]; rfl, ?_⟩
    decide +kernel
  · rw [doCmd]
    simp only [plainRequest, unknown]
    rw [errorsAreLines_quoting_iff (not_mem_ascii_ofList (by decide))
      (not_mem_ascii_ofList (by decide))]
    exact not_not.mpr ⟨ascii "nosuch", ascii "+OK", by decide +kernel⟩
  · have missing : bare.FirstMissing [ascii "db5\r\n+OK"] (ascii "db5\r\n+OK") :=
      ⟨[], _, [], rfl, forall_mem_nil _, rfl, by decide +kernel⟩
    have authed : StatType.kAdminAuthed.isAuthed [] .bgsaveCmd = true := rfl
    rw [doCmd]
    simp only [plainRequest, bgsave, authed, if_true]
    rw [errorsAreLines_bind_iff, errorsAreLines_doInitial_iff]
    rintro ⟨clean, -⟩
    exact clean rfl _ missing ⟨ascii "db5", ascii "+OK", by decide +kernel⟩

end ServerView

end Pika.Command
