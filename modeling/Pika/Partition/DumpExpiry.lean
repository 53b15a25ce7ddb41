import Mathlib.Data.List.Nodup
import Pika.Command.Keys
import Pika.Foundation.Calendar
import Pika.Foundation.MachineInt
import Pika.Foundation.Strtol

/-!
# Expired dumps

`AutoDeleteExpiredDump` reads a date from the name of a dump and compares it
with the current date.  Both go through `mktime` with a year that is not
reduced by 1900 and a month that is not reduced by one, so that the days are
counted one month and 1900 years later.
-/

namespace Pika.Partition

open Foundation List
open Binlog (Bytes)
open Command (cString)

/-- The fields of a `struct tm` that `mktime` reads. -/
structure Tm where
  tmYear : Int
  tmMon : Int
  tmMday : Int
  tmHour : Int
  tmMin : Int
  tmSec : Int
  deriving DecidableEq, Repr

/-- `mktime` in a zone without daylight saving. -/
def mktime (zone : Int) (tm : Tm) : Int :=
  86400 * normalizedDay (tm.tmYear + 1900) tm.tmMon tm.tmMday +
    3600 * tm.tmHour + 60 * tm.tmMin + tm.tmSec - zone

/-- A date that `localtime` can give: its year is an `int`. -/
structure LocalDate extends Date where
  int_year : -2 ^ 31 ≤ year ∧ year < 2 ^ 31

structure DumpConf where
  bgsavePrefix : Bytes
  bgsavePath : Bytes
  expireDumpDays : Int
  deriving DecidableEq, Repr

/-- An entry of the directory, and what the loop reads when it comes to it. -/
structure DumpEntry where
  name : Bytes
  today : LocalDate
  syncSlaves : Nat

/-- The fields `dump_year`, `dump_month` and `dump_day`. -/
structure DumpFields where
  year : Int
  month : Int
  day : Int
  deriving DecidableEq, Repr

/-- The fields of a name that the loop does not skip. -/
def dumpFields (conf : DumpConf) (name : Bytes) : Option DumpFields :=
  if name.take conf.bgsavePrefix.length ≠ conf.bgsavePrefix ∨
      name.length ≠ conf.bgsavePrefix.length + 8 then
    none
  else
    let strDate := name.drop conf.bgsavePrefix.length
    if (strtol (cString strDate)).2 ≠ [] then none
    else
      some
        { year := atoi (cString (strDate.take 4))
          month := atoi (cString ((strDate.drop 4).take 2))
          day := atoi (cString ((strDate.drop 6).take 2)) }

/-- `dump_time` and `now_time`. -/
def midnight (year month day : Int) : Tm where
  tmYear := year
  tmMon := month
  tmMday := day
  tmHour := 0
  tmMin := 0
  tmSec := 0

/-- `interval_days`.  The current date has passed through `localtime`, with
`tm_year` counted from 1900 and `tm_mon` from zero. -/
def intervalDays (zone : Int) (fields : DumpFields) (today : LocalDate) : Int :=
  let dumpTimestamp := mktime zone (midnight fields.year fields.month fields.day)
  let nowTimestamp :=
    mktime zone (midnight (today.year - 1900 + 1900) (today.month - 1 + 1) today.day)
  castInt32 ((nowTimestamp - dumpTimestamp).tdiv 86400)

/-- The body of the loop deletes the entry. -/
def deletesDump (zone : Int) (conf : DumpConf) (entry : DumpEntry) : Bool :=
  (dumpFields conf entry.name).any fun fields =>
    conf.expireDumpDays ≤ intervalDays zone fields entry.today && entry.syncSlaves = 0

/-- One iteration on the directories deleted so far. -/
def dumpStep (zone : Int) (conf : DumpConf) (deleted : List Bytes)
    (entry : DumpEntry) : List Bytes :=
  if deletesDump zone conf entry then deleted ++ [conf.bgsavePath ++ entry.name]
  else deleted

/-- `AutoDeleteExpiredDump`: the directories it deletes.  There are no children
if `GetChildren` fails. -/
def autoDeleteExpiredDump (zone : Int) (conf : DumpConf) (fileExists : Bool)
    (children : Option (List DumpEntry)) : List Bytes :=
  if conf.expireDumpDays ≤ 0 then []
  else if fileExists = false then []
  else (children.getD []).foldl (dumpStep zone conf) []

theorem foldl_dumpStep (zone : Int) (conf : DumpConf) (entries : List DumpEntry)
    (deleted : List Bytes) :
    entries.foldl (dumpStep zone conf) deleted =
      deleted ++ (entries.filter (deletesDump zone conf)).map
        fun entry => conf.bgsavePath ++ entry.name := by
  induction entries generalizing deleted with
  | nil => exact (append_nil deleted).symm
  | cons entry entries ih =>
    rw [foldl_cons, ih, dumpStep, filter_cons]
    split_ifs with deletes
    · rw [map_cons, append_assoc, singleton_append]
    · rfl

/-! ## Dates in names -/

def dumpName (date : Date) : Bytes :=
  fixedDecimal 4 date.year.toNat ++ (fixedDecimal 2 date.month ++ fixedDecimal 2 date.day)

/-- The name is the prefix with a date. -/
structure Dated (conf : DumpConf) (date : Date) (name : Bytes) : Prop where
  year : 0 ≤ date.year ∧ date.year < 10000
  name_eq : name = conf.bgsavePrefix ++ dumpName date

theorem length_dumpName (date : Date) : (dumpName date).length = 8 := by
  simp [dumpName]

theorem cString_of_digits (digits : ∀ byte ∈ text, isDigit byte = true) :
    cString text = text := by
  apply takeWhile_eq_self_iff.mpr
  intro byte member
  rw [bne_iff_ne]
  rintro rfl
  exact absurd (digits _ member) (by decide)

theorem atoi_fixedDecimal (fits : number < 10 ^ (width + 1)) :
    atoi (cString (fixedDecimal (width + 1) number)) = number := by
  rw [cString_of_digits fun _ => isDigit_of_mem_fixedDecimal, atoi, strtol_fixedDecimal fits]

theorem isDigit_of_mem_dumpName (member : byte ∈ dumpName date) : isDigit byte = true := by
  rw [dumpName, mem_append, mem_append] at member
  rcases member with year | month | day
  · exact isDigit_of_mem_fixedDecimal year
  · exact isDigit_of_mem_fixedDecimal month
  · exact isDigit_of_mem_fixedDecimal day

theorem monthLength_le (year : Int) (month : Nat) : monthLength year month ≤ 31 := by
  unfold monthLength leapDay
  split <;> try omega
  split_ifs <;> omega

theorem dumpFields_of_dated (dated : Dated conf date name) :
    dumpFields conf name = some { year := date.year, month := date.month, day := date.day } := by
  obtain ⟨⟨lower, upper⟩, rfl⟩ := dated
  obtain ⟨-, months⟩ := date.month_range
  obtain ⟨-, days⟩ := date.day_range
  have long := monthLength_le date.year date.month
  have year : atoi (cString ((dumpName date).take 4)) = date.year := by
    rw [dumpName, take_left' (length_fixedDecimal _ _), atoi_fixedDecimal (by omega)]
    omega
  have month : atoi (cString (((dumpName date).drop 4).take 2)) = date.month := by
    rw [dumpName, drop_left' (length_fixedDecimal _ _),
      take_left' (length_fixedDecimal _ _), atoi_fixedDecimal (by omega)]
  have day : atoi (cString (((dumpName date).drop 6).take 2)) = date.day := by
    rw [dumpName, ← append_assoc, drop_left' (by simp),
      take_of_length_le (by simp), atoi_fixedDecimal (by omega)]
  have consumed : (strtol (cString (dumpName date))).2 = [] := by
    rw [cString_of_digits fun _ => isDigit_of_mem_dumpName]
    exact strtol_snd_of_digits fun _ => isDigit_of_mem_dumpName
  rw [dumpFields, if_neg]
  · simp only [drop_left, consumed, ne_eq, not_true_eq_false, if_false, year, month, day]
  · rintro (noPrefix | length)
    · exact noPrefix take_left
    · exact length (by rw [length_append, length_dumpName])

theorem Dated.unique (dated : Dated conf date name) (otherDated : Dated conf other name) :
    date = other := by
  have same := (dumpFields_of_dated dated).symm.trans (dumpFields_of_dated otherDated)
  rw [Option.some.injEq, DumpFields.mk.injEq] at same
  obtain ⟨year, month, day⟩ := same
  exact Date.ext year (by omega) (by omega)

/-! ## Days that are counted later -/

/-- What the days before a date grow by when they are counted one month and
1900 years later, up to a constant: the length of the month, and a leap day
that the later centuries have and the earlier ones do not. -/
def monthShift (date : Date) : Int :=
  monthLength date.year date.month +
    if 100 ≤ (if date.month = 1 then date.year - 1 else date.year) % 400 then 1
    else 0

/-- The leap days of 1900 years, from the first of January on. -/
theorem yearStart_add (year : Int) :
    yearStart (year + 1900) =
      yearStart year + 693960 + if 100 ≤ (year - 1) % 400 then 1 else 0 := by
  have fourth : (year + 1900 - 1) / 4 = (year - 1) / 4 + 475 := by omega
  have century : (year + 1900 - 1) / 100 = (year - 1) / 100 + 19 := by omega
  have cycle : (year + 1900 - 1) / 400 =
      (year - 1) / 400 + 4 + if 100 ≤ (year - 1) % 400 then 1 else 0 := by
    split_ifs <;> omega
  rw [yearStart, yearStart, fourth, century, cycle]
  omega

/-- The leap days of 1900 years, from the first of March on. -/
theorem yearStart_add_leapDay (year : Int) :
    yearStart (year + 1900) + leapDay (year + 1900) = yearStart year + leapDay year + 693960 +
        if 100 ≤ year % 400 then 1 else 0 := by
  have shift := yearStart_add (year + 1)
  have ends := yearStart_succ year
  have laterEnds := yearStart_succ (year + 1900)
  rw [Int.add_sub_cancel, Int.add_right_comm] at shift
  rw [daysBefore_twelve] at ends laterEnds
  omega

/-- A date counted one month and 1900 years later. -/
theorem normalizedDay_later (date : Date) :
    normalizedDay (date.year + 1900) date.month date.day =
      date.dayNumber + 693960 + monthShift date := by
  obtain ⟨positive, inYear⟩ := date.month_range
  have month := date.daysBefore_month
  rw [normalizedDay_natCast inYear, date.dayNumber_eq, monthShift]
  by_cases january : date.month = 1
  · have shift := yearStart_add date.year
    have later : daysBefore (date.year + 1900) date.month = daysBefore date.year date.month := by
      rw [january]
      rfl
    rw [if_pos january]
    omega
  · have shift := yearStart_add_leapDay date.year
    have before := daysBefore_eq date.year date.month
    have later := daysBefore_eq (date.year + 1900) date.month
    rw [if_pos (by omega)] at before later
    rw [if_neg january]
    omega

theorem intervalDays_eq (zone : Int) (fields : DumpFields) (today : LocalDate) :
    intervalDays zone fields today = castInt32
        (normalizedDay (today.year + 1900) today.month today.day -
          normalizedDay (fields.year + 1900) fields.month fields.day) := by
  have year : today.year - 1900 + 1900 = today.year := by omega
  have month : (today.month : Int) - 1 + 1 = today.month := by omega
  simp only [intervalDays, mktime, midnight, year, month]
  generalize normalizedDay (today.year + 1900) today.month today.day = later
  generalize normalizedDay (fields.year + 1900) fields.month fields.day = earlier
  have seconds :
      86400 * later + 3600 * 0 + 60 * 0 + 0 - zone -
          (86400 * earlier + 3600 * 0 + 60 * 0 + 0 - zone) = 86400 * (later - earlier) := by
    omega
  rw [seconds, Int.mul_tdiv_cancel_left _ (by decide)]

/-- The days that are counted for a date. -/
def countedDays (date : Date) (today : LocalDate) : Int :=
  castInt32 (today.dayNumber - date.dayNumber + (monthShift today.toDate - monthShift date))

theorem intervalDays_of_date (zone : Int) (date : Date) (today : LocalDate) :
    intervalDays zone
        { year := date.year, month := date.month, day := date.day } today =
      countedDays date today := by
  rw [intervalDays_eq, normalizedDay_later, normalizedDay_later, countedDays]
  congr 1
  omega

/-! ## Expiry -/

/-- The entries of a directory have different names. -/
structure DumpListing where
  entries : List DumpEntry
  nodup : (entries.map DumpEntry.name).Nodup

/-- An entry that has to be deleted: its date is some calendar days ago, and no
full sync is in flight. -/
def DumpEntry.Expired (conf : DumpConf) (entry : DumpEntry) : Prop :=
  entry.syncSlaves = 0 ∧ ∃ date, Dated conf date entry.name ∧
      date.AtLeastAfter conf.expireDumpDays entry.today.toDate

/-- Exactly the expired entries are deleted. -/
def ExpiresByDays (zone : Int) (conf : DumpConf) (listing : DumpListing) : Prop :=
  0 < conf.expireDumpDays → ∀ entry ∈ listing.entries, conf.bgsavePath ++ entry.name ∈
        autoDeleteExpiredDump zone conf true (some listing.entries) ↔ entry.Expired conf

/-- The days are counted right for an entry: those of its date expire when the
calendar has them expire, and without a date they do not. -/
structure CountsDays (conf : DumpConf) (entry : DumpEntry) : Prop where
  dated : ∀ date, Dated conf date entry.name →
    (conf.expireDumpDays ≤ countedDays date entry.today ↔
      conf.expireDumpDays ≤ entry.today.dayNumber - date.dayNumber)
  undated : (∀ date, ¬Dated conf date entry.name) →
    ∀ fields, dumpFields conf entry.name = some fields → castInt32
          (normalizedDay (entry.today.year + 1900) entry.today.month entry.today.day -
            normalizedDay (fields.year + 1900) fields.month fields.day) < conf.expireDumpDays

section Expiry

variable {zone : Int} {conf : DumpConf} {entry : DumpEntry}
variable {listing : DumpListing}

theorem deletesDump_iff :
    deletesDump zone conf entry = true ↔ entry.syncSlaves = 0 ∧
        ∃ fields, dumpFields conf entry.name = some fields ∧
          conf.expireDumpDays ≤ intervalDays zone fields entry.today := by
  rw [deletesDump, Option.any_eq_true]
  simp only [Bool.and_eq_true, decide_eq_true_eq]
  constructor
  · rintro ⟨fields, found, old, idle⟩
    exact ⟨idle, fields, found, old⟩
  · rintro ⟨idle, fields, found, old⟩
    exact ⟨fields, found, old, idle⟩

theorem deletesDump_iff_of_dated (dated : Dated conf date entry.name) :
    deletesDump zone conf entry = true ↔ entry.syncSlaves = 0 ∧
        conf.expireDumpDays ≤ countedDays date entry.today := by
  rw [deletesDump_iff, dumpFields_of_dated dated]
  simp only [Option.some.injEq, exists_eq_left', intervalDays_of_date]

theorem expired_iff_of_dated (positive : 0 < conf.expireDumpDays)
    (dated : Dated conf date entry.name) :
    entry.Expired conf ↔ entry.syncSlaves = 0 ∧
        conf.expireDumpDays ≤ entry.today.dayNumber - date.dayNumber := by
  rw [← Date.atLeastAfter_iff positive]
  constructor
  · rintro ⟨idle, other, otherDated, old⟩
    rw [dated.unique otherDated]
    exact ⟨idle, old⟩
  · rintro ⟨idle, old⟩
    exact ⟨idle, date, dated, old⟩

/-- One entry is treated right exactly if its days are counted right. -/
theorem deletesDump_iff_expired_iff (positive : 0 < conf.expireDumpDays) :
    (deletesDump zone conf entry = true ↔ entry.Expired conf) ↔
      (entry.syncSlaves = 0 → CountsDays conf entry) := by
  by_cases named : ∃ date, Dated conf date entry.name
  · obtain ⟨date, dated⟩ := named
    rw [deletesDump_iff_of_dated dated, expired_iff_of_dated positive dated, and_congr_right_iff]
    refine imp_congr_right fun idle => ⟨?_, ?_⟩
    · intro same
      refine ⟨?_, fun unnamed => absurd dated (unnamed date)⟩
      intro other otherDated
      rw [← dated.unique otherDated]
      exact same
    · exact fun counts => counts.dated date dated
  · have unnamed := not_exists.mp named
    have unexpired : ¬entry.Expired conf := by
      rintro ⟨-, date, dated, -⟩
      exact named ⟨date, dated⟩
    rw [iff_false_right unexpired, deletesDump_iff, not_and]
    refine imp_congr_right fun idle => ⟨?_, ?_⟩
    · intro kept
      refine ⟨fun date dated => absurd dated (unnamed date), ?_⟩
      intro _ fields found
      rw [← intervalDays_eq zone, ← not_le]
      exact fun old => kept ⟨fields, found, old⟩
    · rintro counts ⟨fields, found, old⟩
      rw [intervalDays_eq] at old
      exact absurd old (not_le.mpr (counts.undated unnamed fields found))

theorem mem_autoDeleteExpiredDump_iff (positive : 0 < conf.expireDumpDays)
    (member : entry ∈ listing.entries) :
    conf.bgsavePath ++ entry.name ∈ autoDeleteExpiredDump zone conf true (some listing.entries) ↔
      deletesDump zone conf entry = true := by
  rw [autoDeleteExpiredDump, if_neg (not_le.mpr positive),
    if_neg (by decide), Option.getD_some, foldl_dumpStep, nil_append, mem_map]
  constructor
  · rintro ⟨other, found, same⟩
    obtain ⟨otherMember, deletes⟩ := mem_filter.mp found
    have equal := inj_on_of_nodup_map listing.nodup otherMember member
      (append_cancel_left same)
    rwa [← equal]
  · exact fun deletes => ⟨entry, mem_filter.mpr ⟨member, deletes⟩, rfl⟩

/-- Dumps expire by calendar days exactly if the days of each entry that could
be deleted are counted right. -/
theorem expiresByDays_iff (zone : Int) (conf : DumpConf) (listing : DumpListing) :
    ExpiresByDays zone conf listing ↔ (0 < conf.expireDumpDays → ∀ entry ∈ listing.entries,
        entry.syncSlaves = 0 → CountsDays conf entry) := by
  refine imp_congr_right fun positive => forall₂_congr fun entry member => ?_
  rw [mem_autoDeleteExpiredDump_iff positive member]
  exact deletesDump_iff_expired_iff positive

end Expiry

/-- The last day of February 2021. -/
def februaryEnd : Date where
  year := 2021
  month := 2
  day := 28
  month_range := by decide
  day_range := by decide

/-- The first day of March 2021. -/
def marchStart : LocalDate where
  year := 2021
  month := 3
  day := 1
  month_range := by decide
  day_range := by decide
  int_year := by decide

/-- A dump of yesterday. -/
def yesterdaysDump : DumpEntry where
  name := ascii "dump-20210228"
  today := marchStart
  syncSlaves := 0

/-- A dump of yesterday is taken for one of four days ago. -/
theorem not_expiresByDays_marchStart :
    ¬ExpiresByDays 0
      { bgsavePrefix := ascii "dump-", bgsavePath := ascii "./dump/", expireDumpDays := 4 }
      { entries := [yesterdaysDump], nodup := nodup_singleton _ } := by
  intro expires
  have expired := (expires (by decide) yesterdaysDump
    (mem_singleton_self _)).mp (by decide +kernel)
  have dated : Dated
      { bgsavePrefix := ascii "dump-", bgsavePath := ascii "./dump/", expireDumpDays := 4 }
      februaryEnd yesterdaysDump.name := ⟨by decide, by decide +kernel⟩
  exact absurd ((expired_iff_of_dated (by decide) dated).mp expired).2 (by decide)

end Pika.Partition
