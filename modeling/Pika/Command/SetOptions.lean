import Mathlib.Data.List.Induction
import Mathlib.Logic.Function.Basic
import Pika.Command.SortedSet
import Pika.Command.Stability

/-!
# The options of SET

SET reads its options into one condition and one number of seconds and chooses
a function of the engine by the condition.  Read as a list, the options of each
of the two kinds overwrite each other, and options of different kinds do not
meet: what SET does is decided by the last condition and the last expiry.
Milliseconds are divided after they were checked, so that less than a second
becomes no time at all.
-/

namespace Pika

open Foundation List
open Binlog (Bytes)

namespace Command

/-! ## Strings in the engine -/

structure StringEntry where
  value : Bytes
  /-- The seconds after which it expires. -/
  expiry : Option Int
  deriving DecidableEq

/-- The strings of a partition. -/
abbrev StringDb := Bytes → Option StringEntry

/-- What the engine answers where nothing in the store depends on it. -/
structure StringEngine where
  /-- The text of the status with which `Setex` refuses a ttl. -/
  invalidTtl : TextLine
  /-- What `Setvx` reports of an entry it leaves as it is. -/
  unchanged : Option StringEntry → Int

/-- A status, the result of a conditional write and the strings behind it. -/
structure StringAnswer where
  status : EngineStatus
  /-- The value stored through the pointer argument. -/
  ret : Int
  /-- The strings after the call. -/
  db : StringDb

namespace StringDb

/-- Writes a value with a ttl, of which zero means that it does not expire. -/
def put (db : StringDb) (key value : Bytes) (ttl : Int) : StringDb :=
  Function.update db key (some { value := value, expiry := if ttl = 0 then none else some ttl })

/-- A write that needs a condition on the entry of its key. -/
def putIf (db : StringDb) (key value : Bytes) (ttl : Int) (holds : Bool)
    (missed : Int) : StringAnswer :=
  if holds then { status := .ok, ret := 1, db := db.put key value ttl }
  else { status := .ok, ret := missed, db := db }

/-- `Set`.  The calls of the engine are not in the sources; each is assumed to
write under the condition that it is named for. -/
def set (db : StringDb) (key value : Bytes) : StringAnswer := db.putIf key value 0 true 0

/-- `Setxx`. -/
def setxx (db : StringDb) (key value : Bytes) (ttl : Int) : StringAnswer :=
  db.putIf key value ttl (db key).isSome 0

/-- `Setnx`. -/
def setnx (db : StringDb) (key value : Bytes) (ttl : Int) : StringAnswer :=
  db.putIf key value ttl (db key).isNone 0

/-- `Setvx`. -/
def setvx (engine : StringEngine) (db : StringDb) (key target value : Bytes)
    (ttl : Int) : StringAnswer :=
  db.putIf key value ttl (decide ((db key).map StringEntry.value = some target))
    (engine.unchanged (db key))

/-- `Setex`. -/
def setex (engine : StringEngine) (db : StringDb) (key value : Bytes) (ttl : Int) : StringAnswer :=
  if ttl ≤ 0 then { status := .failed engine.invalidTtl, ret := 1, db := db }
  else db.putIf key value ttl true 0

end StringDb

/-- The call in `SetCmd::Do`. -/
def SetFields.call (engine : StringEngine) (fields : SetFields) (db : StringDb) : StringAnswer :=
  match fields.condition with
  | .kXX => db.setxx fields.key fields.value fields.sec
  | .kNX => db.setnx fields.key fields.value fields.sec
  | .kVX => db.setvx engine fields.key fields.target fields.value fields.sec
  | .kEXORPX => db.setex engine fields.key fields.value fields.sec
  | .kNONE => db.set fields.key fields.value

/-- `SetCmd::Do`: the strings it leaves and its reply. -/
def SetFields.run (engine : StringEngine) (fields : SetFields) (db : StringDb) :
    StringDb × CmdRes :=
  let answer := fields.call engine db
  (answer.db, match answer.status with
    | .ok | .notFound _ =>
      if fields.condition = .kVX then CmdRes.create.appendInteger answer.ret
      else if answer.ret = 1 then CmdRes.create.setRes .kOk
      else CmdRes.create.appendArrayLen (-1)
    | .failed text => CmdRes.create.setResContent .kErrOther text.text)

/-! ## Options as a list -/

inductive SetOption where
  | xx
  | nx
  | vx (target : Bytes)
  | ex (seconds : Int)
  | px (milliseconds : Int)
  deriving DecidableEq

namespace SetOption

def isExpiry : SetOption → Bool
  | .ex _ | .px _ => true
  | .xx | .nx | .vx _ => false

/-- What an option asks of the entry of the key. -/
def Holds (entry : Option StringEntry) : SetOption → Prop
  | .xx => entry.isSome
  | .nx => entry.isNone
  | .vx target => entry.map StringEntry.value = some target
  | .ex _ | .px _ => True

def seconds : SetOption → Int
  | .ex seconds => seconds
  | .px milliseconds => milliseconds.tdiv 1000
  | .xx | .nx | .vx _ => 0

/-- The number of an expiry is positive. -/
def Positive : SetOption → Prop
  | .ex number | .px number => 0 < number
  | .xx | .nx | .vx _ => True

end SetOption

/-- The options that words spell. -/
def setOptionList : List Bytes → List SetOption
  | [] => []
  | opt :: rest =>
    if sameWord opt "xx" then .xx :: setOptionList rest
    else if sameWord opt "nx" then .nx :: setOptionList rest
    else if sameWord opt "vx" then
      match rest with
      | [] => []
      | target :: rest => .vx target :: setOptionList rest
    else if sameWord opt "ex" || sameWord opt "px" then
      match rest with
      | [] => []
      | number :: rest =>
        match string2l number with
        | none => []
        | some number =>
          (if sameWord opt "px" then .px number else .ex number) :: setOptionList rest
    else []

/-- The condition that was given last. -/
def lastCondition (options : List SetOption) : Option SetOption :=
  (options.filter fun option => !option.isExpiry).getLast?

/-- The expiry that was given last. -/
def lastExpiry (options : List SetOption) : Option SetOption :=
  (options.filter SetOption.isExpiry).getLast?

/-- The condition given last, if there is one, holds of the entry. -/
def ConditionHolds (options : List SetOption) (entry : Option StringEntry) : Prop :=
  ∀ option, lastCondition options = some option → option.Holds entry

/-- The fields before the options are read. -/
def SetFields.fresh (key value : Bytes) : SetFields where
  key := key
  value := value
  target := []
  sec := 0
  condition := .kNONE

/-- What one option does to the fields. -/
def SetFields.take (fields : SetFields) (option : SetOption) : SetFields :=
  match option with
  | .xx => { fields with condition := .kXX }
  | .nx => { fields with condition := .kNX }
  | .vx target => { fields with condition := .kVX, target := target }
  | .ex _ | .px _ =>
    { fields with
      condition := if fields.condition = .kNONE then .kEXORPX else fields.condition
      sec := option.seconds }

/-- An accepted loop takes the options of its words one after the other, and
their numbers are positive. -/
theorem setOptions_eq_ok (accepted : setOptions words fields = .ok result) :
    result = (setOptionList words).foldl SetFields.take fields ∧
      ∀ option ∈ setOptionList words, option.Positive := by
  have step : ∀ {rest : List Bytes} {fields : SetFields} {option : SetOption}, option.Positive →
      (result = (setOptionList rest).foldl SetFields.take (fields.take option) ∧
        ∀ given ∈ setOptionList rest, given.Positive) →
      result = (option :: setOptionList rest).foldl SetFields.take fields ∧
        ∀ given ∈ option :: setOptionList rest, given.Positive :=
    fun positive taken => ⟨taken.1, forall_mem_cons.mpr ⟨positive, taken.2⟩⟩
  fun_induction setOptions words fields with
  | case1 fields =>
    cases accepted
    exact ⟨rfl, forall_mem_nil _⟩
  | case2 opt rest fields xx ih =>
    unfold setOptionList
    rw [if_pos xx]
    exact step trivial (ih accepted)
  | case3 opt rest fields xx nx ih =>
    unfold setOptionList
    rw [if_neg xx, if_pos nx]
    exact step trivial (ih accepted)
  | case5 opt fields xx nx vx target rest ih =>
    rw [setOptionList, if_neg xx, if_neg nx, if_pos vx]
    exact step trivial (ih accepted)
  | case9 opt fields xx nx vx expiry number rest sec read refused ih =>
    rw [setOptionList, if_neg xx, if_neg nx, if_neg vx, if_pos expiry]
    have positive := Int.not_le.mp refused
    have taken := ih accepted
    simp only [read]
    by_cases milliseconds : sameWord opt "px" = true
    · rw [if_pos milliseconds] at taken ⊢
      exact step positive taken
    · rw [if_neg milliseconds] at taken ⊢
      exact step positive taken
  | case4 | case6 | case7 | case8 | case10 => cases accepted

/-! ## The last condition and the last expiry -/

/-- The `condition_` that options lead to. -/
def conditionOf (condition expiry : Option SetOption) : SetCondition :=
  match condition with
  | some .xx => .kXX
  | some .nx => .kNX
  | some (.vx _) => .kVX
  | some (.ex _) | some (.px _) | none => if expiry.isSome then .kEXORPX else .kNONE

/-- Fields that hold what options say. -/
structure SetFields.Holds (fields : SetFields) (key value : Bytes)
    (options : List SetOption) : Prop where
  key_eq : fields.key = key
  value_eq : fields.value = value
  sec_eq : fields.sec = (lastExpiry options).elim 0 SetOption.seconds
  condition_eq : fields.condition = conditionOf (lastCondition options) (lastExpiry options)
  target_eq : ∀ target, lastCondition options = some (.vx target) → fields.target = target

theorem lastCondition_concat (options : List SetOption) (option : SetOption) :
    lastCondition (options ++ [option]) =
      if option.isExpiry then lastCondition options else some option := by
  unfold lastCondition
  cases expiry : option.isExpiry <;> simp [filter_append, expiry]

theorem lastExpiry_concat (options : List SetOption) (option : SetOption) :
    lastExpiry (options ++ [option]) =
      if option.isExpiry then some option else lastExpiry options := by
  unfold lastExpiry
  cases expiry : option.isExpiry <;> simp [filter_append, expiry]

theorem not_isExpiry_of_lastCondition (last : lastCondition options = some option) :
    option.isExpiry = false := by
  have member := mem_of_getLast? last
  simpa using (mem_filter.mp member).2

theorem isExpiry_of_lastExpiry (last : lastExpiry options = some option) :
    option ∈ options ∧ option.isExpiry = true :=
  mem_filter.mp (mem_of_getLast? last)

/-- Once there is a condition, an expiry keeps it. -/
theorem conditionOf_expiry (options : List SetOption) (option : SetOption) :
    (if conditionOf (lastCondition options) (lastExpiry options) = .kNONE then
        SetCondition.kEXORPX
      else conditionOf (lastCondition options) (lastExpiry options)) =
      conditionOf (lastCondition options) (some option) := by
  cases condition : lastCondition options with
  | none => cases lastExpiry options <;> rfl
  | some given =>
    have kind := not_isExpiry_of_lastCondition condition
    cases given with
    | xx | nx | vx => rfl
    | ex | px => cases kind

theorem SetFields.Holds.take {fields : SetFields} {key value : Bytes}
    (holds : fields.Holds key value options) (option : SetOption) :
    (fields.take option).Holds key value (options ++ [option]) := by
  cases option with
  | xx | nx | vx =>
    refine ⟨holds.key_eq, holds.value_eq, ?_, ?_, ?_⟩
    · rw [lastExpiry_concat]
      exact holds.sec_eq
    · rw [lastCondition_concat]
      rfl
    · intro target last
      rw [lastCondition_concat] at last
      cases last <;> rfl
  | ex number | px number =>
    refine ⟨holds.key_eq, holds.value_eq, ?_, ?_, ?_⟩
    · rw [lastExpiry_concat]
      rfl
    · rw [lastCondition_concat, lastExpiry_concat]
      refine Eq.trans ?_ (conditionOf_expiry options _)
      rw [← holds.condition_eq]
      rfl
    · intro target last
      rw [lastCondition_concat] at last
      exact holds.target_eq target last

theorem holds_foldl_take (key value : Bytes) (options : List SetOption) :
    (options.foldl SetFields.take (SetFields.fresh key value)).Holds key value
      options := by
  induction options using List.reverseRecOn with
  | nil => exact ⟨rfl, rfl, rfl, rfl, fun target last => by cases last⟩
  | append_singleton options option ih =>
    rw [foldl_append]
    exact ih.take option

/-! ## What SET does with its options -/

/-- The call that a condition and an expiry lead to. -/
def setAnswer (engine : StringEngine) (key value : Bytes)
    (condition expiry : Option SetOption) (db : StringDb) : StringAnswer :=
  let ttl := expiry.elim 0 SetOption.seconds
  match condition with
  | some .xx => db.setxx key value ttl
  | some .nx => db.setnx key value ttl
  | some (.vx target) => db.setvx engine key target value ttl
  | some (.ex _) | some (.px _) | none =>
    if expiry.isSome then db.setex engine key value ttl
    else db.set key value

/-- The time an entry gets: at least a second if an expiry was given, and none
if there was none. -/
def ExpiresAsGiven (options : List SetOption) (expiry : Option Int) : Prop :=
  if options.any SetOption.isExpiry then ∃ ttl, 1 ≤ ttl ∧ expiry = some ttl
  else expiry = none

/-- SET does what its options say, in whichever order the options of the two
kinds stand. -/
structure KeepsOptions (engine : StringEngine) (otherInitial : OtherInitial)
    (argv : List Bytes) (fields : SetFields) (db : StringDb) : Prop where
  stored :
    ConditionHolds (setOptionList (argv.drop 3)) (db (argument argv 1)) →
      (fields.call engine db).status = .ok ∧
      ∃ expiry, ExpiresAsGiven (setOptionList (argv.drop 3)) expiry ∧
        (fields.run engine db).1 = Function.update db (argument argv 1)
            (some { value := argument argv 2, expiry := expiry })
  kept :
    ¬ConditionHolds (setOptionList (argv.drop 3)) (db (argument argv 1)) →
      (fields.run engine db).1 = db
  inAnyOrder :
    ∀ (otherArgv : List Bytes) (otherFields : SetFields),
      initial otherInitial .setCmd otherArgv = .ok (.set otherArgv otherFields) →
      argument otherArgv 1 = argument argv 1 →
      argument otherArgv 2 = argument argv 2 →
      (setOptionList (otherArgv.drop 3)).filter SetOption.isExpiry =
        (setOptionList (argv.drop 3)).filter SetOption.isExpiry →
      ((setOptionList (otherArgv.drop 3)).filter fun option => !option.isExpiry) =
        ((setOptionList (argv.drop 3)).filter fun option => !option.isExpiry) →
      otherFields.run engine db = fields.run engine db

section Run

variable {engine : StringEngine} {otherInitial : OtherInitial}
variable {argv : List Bytes} {fields : SetFields} {key value : Bytes}
variable {db : StringDb}

/-- The fields of an accepted SET hold what its options say. -/
theorem holds_of_initial (accepted : initial otherInitial .setCmd argv = .ok (.set argv fields)) :
    fields.Holds (argument argv 1) (argument argv 2) (setOptionList (argv.drop 3)) ∧
      ∀ option ∈ setOptionList (argv.drop 3), option.Positive := by
  obtain ⟨-, parsed⟩ := checked_eq_ok_iff.mp accepted
  obtain ⟨result, read, same⟩ := Except.map_eq_ok_iff.mp parsed
  cases same
  obtain ⟨rfl, positive⟩ := setOptions_eq_ok read
  exact ⟨holds_foldl_take _ _ _, positive⟩

/-- The call depends on the last condition and the last expiry only. -/
theorem SetFields.Holds.call_eq (holds : fields.Holds key value options)
    (engine : StringEngine) (db : StringDb) :
    fields.call engine db = setAnswer engine key value (lastCondition options) (lastExpiry options)
        db := by
  have condition := holds.condition_eq
  unfold SetFields.call setAnswer
  rw [condition, holds.key_eq, holds.value_eq, holds.sec_eq]
  cases last : lastCondition options with
  | none => cases lastExpiry options <;> rfl
  | some given =>
    cases given with
    | xx | nx => rfl
    | vx target =>
      rw [holds.target_eq target last]
      rfl
    | ex | px => cases lastExpiry options <;> rfl

/-- With a condition the call writes if the condition holds, whatever the
ttl. -/
theorem setAnswer_some (kind : given.isExpiry = false) (expiry : Option SetOption) :
    ∃ (holds : Bool) (missed : Int), (holds = true ↔ given.Holds (db key)) ∧
      setAnswer engine key value (some given) expiry db =
        db.putIf key value (expiry.elim 0 SetOption.seconds) holds missed := by
  cases given with
  | xx => exact ⟨_, _, Iff.rfl, rfl⟩
  | nx => exact ⟨_, _, Iff.rfl, rfl⟩
  | vx target =>
    exact ⟨_, _, @decide_eq_true_iff ((db key).map StringEntry.value = some target) _, rfl⟩
  | ex | px => cases kind

theorem any_isExpiry_iff (options : List SetOption) :
    options.any SetOption.isExpiry = (lastExpiry options).isSome := by
  unfold lastExpiry
  rw [Bool.eq_iff_iff, List.getLast?_isSome, any_eq_true, ne_eq, filter_eq_nil_iff]
  simp only [not_forall, not_not, exists_prop]

/-- The time an expiry that was given leads to. -/
theorem expiresAsGiven_iff (positive : ∀ option ∈ options, option.Positive) :
    ExpiresAsGiven options (if (lastExpiry options).elim 0 SetOption.seconds = 0 then none
        else some ((lastExpiry options).elim 0 SetOption.seconds)) ↔
      ∀ milliseconds, lastExpiry options = some (.px milliseconds) → 1000 ≤ milliseconds := by
  unfold ExpiresAsGiven
  rw [any_isExpiry_iff]
  cases last : lastExpiry options with
  | none => simp
  | some expiry =>
    obtain ⟨member, kind⟩ := isExpiry_of_lastExpiry last
    have number := positive expiry member
    cases expiry with
    | xx | nx | vx => cases kind
    | ex seconds =>
      have given : 0 < seconds := number
      have some_ne : seconds ≠ 0 := by omega
      simp [SetOption.seconds, some_ne]
      omega
    | px milliseconds =>
      have given : 0 < milliseconds := number
      have whole : milliseconds.tdiv 1000 = milliseconds / 1000 :=
        Int.tdiv_eq_ediv_of_nonneg given.le
      by_cases short : milliseconds < 1000
      · have zero : milliseconds / 1000 = 0 := by omega
        simp [SetOption.seconds, whole, zero, short]
      · have some_ne : milliseconds / 1000 ≠ 0 := by omega
        simp [SetOption.seconds, whole, some_ne]
        omega

theorem SetFields.fst_run (engine : StringEngine) (fields : SetFields) (db : StringDb) :
    (fields.run engine db).1 = (fields.call engine db).db := rfl

/-- A write stores the time that its ttl stands for. -/
theorem exists_expiry_put_iff (ttl : Int) :
    (∃ expiry, ExpiresAsGiven options expiry ∧ db.put key value ttl =
        Function.update db key (some { value := value, expiry := expiry })) ↔
      ExpiresAsGiven options (if ttl = 0 then none else some ttl) := by
  constructor
  · rintro ⟨expiry, given, same⟩
    have entry := Function.update_injective db key same
    simp only [Option.some.injEq, StringEntry.mk.injEq, true_and] at entry
    rw [entry]
    exact given
  · intro given
    exact ⟨_, given, rfl⟩

/-- A ttl that is not positive is not the time of an expiry. -/
theorem not_expiresAsGiven_of_nonpos (last : lastExpiry options = some expiry) (nonpos : ttl ≤ 0) :
    ¬ExpiresAsGiven options (if ttl = 0 then none else some ttl) := by
  unfold ExpiresAsGiven
  rw [any_isExpiry_iff, last, Option.isSome_some, if_pos rfl]
  rintro ⟨seconds, positive, same⟩
  split_ifs at same
  cases same
  omega

/-- If the condition holds, the value is stored as the options say unless less
than a second was asked for. -/
theorem stored_setAnswer_iff (positive : ∀ option ∈ options, option.Positive)
    (holds : ConditionHolds options (db key)) :
    ((setAnswer engine key value (lastCondition options) (lastExpiry options) db).status = .ok ∧
      ∃ expiry, ExpiresAsGiven options expiry ∧
        (setAnswer engine key value (lastCondition options) (lastExpiry options) db).db =
          Function.update db key (some { value := value, expiry := expiry })) ↔
      ∀ milliseconds, lastExpiry options = some (.px milliseconds) → 1000 ≤ milliseconds := by
  rw [← expiresAsGiven_iff positive, ← exists_expiry_put_iff]
  cases condition : lastCondition options with
  | some given =>
    obtain ⟨written, missed, iff, answer⟩ := @setAnswer_some engine key value db given
        (not_isExpiry_of_lastCondition condition) (lastExpiry options)
    rw [answer, iff.mpr (holds given condition)]
    exact and_iff_right rfl
  | none =>
    cases last : lastExpiry options with
    | none => exact and_iff_right rfl
    | some expiry =>
      by_cases nonpos : expiry.seconds ≤ 0
      · have refused : setAnswer engine key value none (some expiry) db =
            { status := .failed engine.invalidTtl, ret := 1, db := db } :=
          if_pos nonpos
        rw [refused, exists_expiry_put_iff]
        exact iff_of_false (fun stored => by cases stored.1)
          (not_expiresAsGiven_of_nonpos last nonpos)
      · have written : setAnswer engine key value none (some expiry) db =
            db.putIf key value expiry.seconds true 0 :=
          if_neg nonpos
        rw [written]
        exact and_iff_right rfl

/-- If the condition does not hold, nothing is stored. -/
theorem db_setAnswer_of_not (fails : ¬ConditionHolds options (db key)) :
    (setAnswer engine key value (lastCondition options) (lastExpiry options) db).db = db := by
  unfold ConditionHolds at fails
  push Not at fails
  obtain ⟨given, condition, fails⟩ := fails
  obtain ⟨written, missed, iff, answer⟩ := @setAnswer_some engine key value db given
      (not_isExpiry_of_lastCondition condition) (lastExpiry options)
  have unwritten : written = false := Bool.eq_false_iff.mpr fun holds => fails (iff.mp holds)
  rw [condition, answer, unwritten]
  rfl

/-- What SET does is the same for the same last options. -/
theorem SetFields.Holds.run_eq {otherFields : SetFields} (holds : fields.Holds key value options)
    (otherHolds : otherFields.Holds key value otherOptions)
    (sameCondition : lastCondition otherOptions = lastCondition options)
    (sameExpiry : lastExpiry otherOptions = lastExpiry options) :
    otherFields.run engine db = fields.run engine db := by
  have call : otherFields.call engine db = fields.call engine db := by
    rw [holds.call_eq, otherHolds.call_eq, sameCondition, sameExpiry]
  have condition : otherFields.condition = fields.condition := by
    rw [holds.condition_eq, otherHolds.condition_eq, sameCondition, sameExpiry]
  unfold SetFields.run
  rw [call, condition]

/-- An accepted SET does what its options say exactly if it does not write
with a last expiry of less than a second. -/
theorem keepsOptions_iff (engine : StringEngine) (otherInitial : OtherInitial)
    {argv : List Bytes} {fields : SetFields}
    (accepted : initial otherInitial .setCmd argv = .ok (.set argv fields)) (db : StringDb) :
    KeepsOptions engine otherInitial argv fields db ↔
      (ConditionHolds (setOptionList (argv.drop 3)) (db (argument argv 1)) → ∀ milliseconds,
          lastExpiry (setOptionList (argv.drop 3)) = some (.px milliseconds) →
            1000 ≤ milliseconds) := by
  obtain ⟨holds, positive⟩ := holds_of_initial accepted
  have call := holds.call_eq engine db
  constructor
  · intro keeps condition
    apply (stored_setAnswer_iff positive condition).mp
    rw [← call]
    exact keeps.stored condition
  · intro enough
    refine ⟨?_, ?_, ?_⟩
    · intro condition
      rw [SetFields.fst_run, call]
      exact (stored_setAnswer_iff positive condition).mpr (enough condition)
    · intro fails
      rw [SetFields.fst_run, call]
      exact db_setAnswer_of_not fails
    · intro otherArgv otherFields otherAccepted key value expiries conditions
      have otherHolds := (holds_of_initial otherAccepted).1
      rw [key, value] at otherHolds
      apply holds.run_eq otherHolds
      · exact congrArg List.getLast? conditions
      · exact congrArg List.getLast? expiries

end Run

/-- `SET k v NX PX n`. -/
def setNxPx (milliseconds : String) : List Bytes :=
  [ascii "set", ascii "k", ascii "v", ascii "NX", ascii "PX", ascii milliseconds]

/-- The fields of `SET k v NX PX n` with a number of seconds. -/
def setNxPxFields (sec : Int) : SetFields :=
  { SetFields.fresh (ascii "k") (ascii "v") with sec := sec, condition := .kNX }

/-- An engine with empty texts. -/
def silentEngine : StringEngine where
  invalidTtl := { text := [], noReturn := by decide, noFeed := by decide }
  unchanged := fun _ => 0

/-- `SET k v NX PX 1000` of a new key is kept for a second. -/
theorem keepsOptions_wholeSecond :
    KeepsOptions silentEngine (fun _ _ => .ok ()) (setNxPx "1000")
      (setNxPxFields 1) fun _ => none := by
  have accepted : initial (fun _ _ => .ok ()) .setCmd (setNxPx "1000") =
      .ok (.set (setNxPx "1000") (setNxPxFields 1)) := by
    decide +kernel
  have last : lastExpiry (setOptionList ((setNxPx "1000").drop 3)) = some (.px 1000) := by
    decide +kernel
  apply (keepsOptions_iff silentEngine _ accepted _).mpr
  intro _ milliseconds same
  rw [last] at same
  cases same
  exact le_rfl

/-- `SET k v NX PX 500` of a new key is accepted and stores a key that never
expires. -/
theorem not_keepsOptions_halfSecond :
    initial (fun _ _ => .ok ()) .setCmd (setNxPx "500") =
        .ok (.set (setNxPx "500") (setNxPxFields 0)) ∧
      ((setNxPxFields 0).run silentEngine fun _ => none).1 (ascii "k") =
        some { value := ascii "v", expiry := none } ∧
      ¬KeepsOptions silentEngine (fun _ _ => .ok ()) (setNxPx "500")
        (setNxPxFields 0) fun _ => none := by
  have key : argument (setNxPx "500") 1 = ascii "k" := rfl
  have stored : ((setNxPxFields 0).run silentEngine fun _ => none).1
      (ascii "k") = some { value := ascii "v", expiry := none } := by
    decide +kernel
  have expires : (setOptionList ((setNxPx "500").drop 3)).any SetOption.isExpiry = true := by
    decide +kernel
  have condition : lastCondition (setOptionList ((setNxPx "500").drop 3)) = some .nx := by
    decide +kernel
  refine ⟨by decide +kernel, stored, ?_⟩
  intro keeps
  have holds : ConditionHolds (setOptionList ((setNxPx "500").drop 3)) none := by
    intro option last
    rw [condition] at last
    cases last
    rfl
  obtain ⟨-, expiry, given, written⟩ := keeps.stored holds
  rw [ExpiresAsGiven, if_pos expires] at given
  obtain ⟨ttl, -, rfl⟩ := given
  rw [written, key, Function.update_self] at stored
  cases stored

end Command

end Pika
