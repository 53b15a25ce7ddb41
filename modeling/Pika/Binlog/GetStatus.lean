import Pika.Binlog.Stream
import Pika.Binlog.Takeover

/-!
# What a status of `Get` says

`Get` should succeed only with a complete item: a full record, or the fragments
from a first to a last one.  It keeps no status of `Consume` but the end of a
file, so bad records, unknown types, truncated payloads and last fragments
without a first one are successes as well.  The statuses are right exactly
where reading meets a complete item or the end of the log before any of these.
-/

namespace Pika.Binlog

open Foundation

namespace Status

end Status

namespace Entry

/-- A first or a middle fragment: an item goes on behind it. -/
def continues : Entry → Bool
  | fragment _ type _ => type = RecordType.first.code ∨ type = RecordType.middle.code
  | blank | oversized => false

/-- An entry behind which a file holds nothing more. -/
def endsFile : Entry → Bool
  | fragment _ type _ => type = RecordType.eof.code ∨ type = RecordType.oldRecord.code
  | blank => true
  | oversized => false

end Entry

/-- Nothing but fragments of items that were never completed comes before the
end. -/
def Exhausted (entries : List Entry) : Prop :=
  ∀ entry ∈ (entries.dropWhile Entry.continues).head?, entry.endsFile = true

instance (entries : List Entry) : Decidable (Exhausted entries) :=
  inferInstanceAs (Decidable (∀ entry ∈ _, _))

/-! ## Assembling entries -/

theorem assemble_cons_of_continues (continues : entry.continues = true)
    (rest : List Entry) (scratch : Bytes) :
    ∃ assembled, assemble (entry :: rest) scratch = assemble rest assembled := by
  cases entry with
  | blank | oversized => simp [Entry.continues] at continues
  | fragment whole type payload =>
    simp only [Entry.continues, decide_eq_true_eq] at continues
    rcases continues with rfl | rfl
    · exact ⟨payload, by simp [assemble, RecordType.code]⟩
    · exact ⟨scratch ++ payload, by simp [assemble, RecordType.code]⟩

/-- The end of a file is reported exactly where it is reached without an
item. -/
theorem isEndFile_assemble_iff (entries : List Entry) (scratch : Bytes) :
    (assemble entries scratch).1.isEndFile = true ↔ Exhausted entries := by
  induction entries generalizing scratch with
  | nil => simp [assemble, Status.isEndFile, Exhausted]
  | cons entry entries ih =>
    by_cases continues : entry.continues = true
    · obtain ⟨assembled, assembledEq⟩ := assemble_cons_of_continues continues entries scratch
      rw [assembledEq, ih, Exhausted, Exhausted, List.dropWhile_cons_of_pos continues]
    · rw [Exhausted, List.dropWhile_cons_of_neg continues]
      cases entry with
      | blank | oversized => simp [assemble, Status.isEndFile, Entry.endsFile]
      | fragment whole type payload =>
        simp only [Entry.continues, decide_eq_true_eq, not_or] at continues
        simp only [assemble, if_neg continues.1, if_neg continues.2,
          List.head?_cons, Option.mem_some_iff, forall_eq', Entry.endsFile, decide_eq_true_eq]
        split_ifs <;> simp_all [Status.isEndFile, RecordType.code]

namespace Reader

/-! ## Reading over files -/

variable {log : Pika.Binlog} {reader : Reader}

/-- `Consume` on an open file, in terms of the entries in front of the
reader. -/
theorem consume_eq_assemble (opened : reader.queue ≠ none) (files : Files) (output : Output) :
    ((reader.consume files output).1, (reader.consume files output).2.1.scratch) =
          assemble (reader.entries files) output.scratch ∧
      (reader.consume files output).2.2.openNext = reader.openNext ∧
      (reader.consume files output).2.2.curFilenum = reader.curFilenum := by
  obtain ⟨file, openedFile⟩ := Option.ne_none_iff_exists'.mp opened
  have facing : Facing files reader _ _ := facing_of_queue openedFile
  obtain ⟨consumed, sameFile⟩ := facing.consume output
  refine ⟨consumed.trans (by rw [facing.entries_eq]), ?_, sameFile⟩
  simp only [openNext, sameFile]

theorem getLoop_succ (opened : reader.queue ≠ none)
    (notEnd : reader.readToTheEnd log = false) (fuel : Nat) (output : Output) :
    getLoop log (fuel + 1) output reader = if (reader.consume log.files output).1.isEndFile then
        if log.files.fileExists (castUInt32 (reader.curFilenum + 1)) then
          getLoop log fuel (reader.consume log.files output).2.1 reader.openNext
        else some (.ioError "File Does Not Exists", (reader.consume log.files output).2)
      else some (.ok, (reader.consume log.files output).2) := by
  obtain ⟨-, nextEq, sameFile⟩ := consume_eq_assemble opened log.files output
  simp only [getLoop, notEnd, Bool.false_eq_true, if_false, nextEq, sameFile]

/-- The end of a file is consumed exactly from a file without further
items. -/
theorem isEndFile_consume_iff (opened : reader.queue ≠ none) (files : Files) (output : Output) :
    (reader.consume files output).1.isEndFile = true ↔ Exhausted (reader.entries files) := by
  obtain ⟨consumed, -, -⟩ := consume_eq_assemble opened files output
  rw [← isEndFile_assemble_iff _ output.scratch, ← consumed]

end Reader
end Pika.Binlog
