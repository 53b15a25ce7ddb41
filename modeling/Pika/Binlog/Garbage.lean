import Pika.Binlog.FailedPut
import Pika.Binlog.GetStatus

/-!
# What a reader makes of the bytes left behind

The operations of a `Put` before the failing one leave fragments of the item,
the last of them possibly without its payload.  Up to the end of the file a
reader finds nothing in them exactly as long as the header of the item's last
fragment is missing.
-/

namespace Pika.Binlog

open Foundation
open List hiding length

/-- A reader at an offset skips the block tail of the layout. -/
theorem pastTail_eq (placed : BlockAt inBlock offset) (bytes : Bytes) :
    pastTail inBlock bytes =
      ((offset + skipAt offset) % kBlockSize, bytes.drop (skipAt offset)) := by
  obtain ⟨inside, sameMod⟩ := placed
  have skipped := skipAt_cases offset
  simp only [kBlockSize] at inside sameMod
  have tailEq : castUInt64 ((kBlockSize : Int) - inBlock) = 65536 - inBlock := by
    simp only [kBlockSize, castUInt64]
    omega
  simp only [pastTail, tailEq]
  by_cases short : 65536 - inBlock ≤ kHeaderSize
  · rw [if_pos short]
    simp only [kHeaderSize] at short
    have tail : 65536 - inBlock = skipAt offset := by omega
    rw [tail, Prod.mk.injEq, kBlockSize]
    exact ⟨by omega, rfl⟩
  · rw [if_neg short]
    simp only [kHeaderSize] at short
    have none : skipAt offset = 0 := by omega
    rw [none, Nat.add_zero, drop_zero, Prod.mk.injEq, kBlockSize]
    exact ⟨by omega, rfl⟩

theorem ofBytes_header (nonzero : type ≠ .zero) (positive : 0 < length)
    (bounded : length ≤ kBlockSize - kHeaderSize) (now : Nat) (behind : Bytes) :
    Entry.ofBytes (header type length now ++ behind) =
      some (.fragment (decide (length ≤ behind.length)) type.code (behind.take length)) := by
  have headerEq : (header type length now ++ behind).take kHeaderSize = header type length now := by
    rw [← length_header type length now, take_left]
  have behindEq : (header type length now ++ behind).drop kHeaderSize = behind := by
    rw [← length_header type length now, drop_left]
  have lengthEq : headerLength (header type length now) = length :=
    headerLength_header type now (by simp only [kBlockSize, kHeaderSize] at bounded; omega)
  have notZero : type.code ≠ RecordType.zero.code := by
    cases type <;> simp_all [RecordType.code]
  simp only [Entry.ofBytes, headerEq, behindEq, lengthEq, headerType_header,
    notZero, positive.ne', or_self, if_false]
  rw [if_neg (by simp), if_neg (Nat.not_lt.mpr bounded)]

theorem stream_congr (same : pastTail inBlock bytes = pastTail other more) :
    stream inBlock bytes = stream other more := by
  rw [stream, same, ← stream]

/-- A fragment with payload, as far as its payload is there, is the first entry
of a stream. -/
theorem stream_nextFragment (placed : BlockAt inBlock offset)
    (nonempty : left ≠ []) (room : 0 < roomAt offset) (now : Nat)
    (isBegin : Bool) (behind : Bytes) :
    stream inBlock (List.replicate (padAt offset) 0 ++
          (header (nextFragment now offset isBegin left).type
            (left.take (roomAt offset)).length now ++ behind)) =
      .fragment (decide ((left.take (roomAt offset)).length ≤ behind.length))
          (nextFragment now offset isBegin left).type.code
          (behind.take (left.take (roomAt offset)).length) ::
        stream ((offset + padAt offset) % kBlockSize +
            (kHeaderSize + (left.take (roomAt offset)).length))
          (behind.drop (left.take (roomAt offset)).length) := by
  have nonzero : (nextFragment now offset isBegin left).type ≠ .zero := by
    unfold nextFragment RecordType.ofPlace
    split_ifs <;> simp
  have positive : 0 < (left.take (roomAt offset)).length := by
    rw [length_take]
    exact Nat.lt_min.mpr ⟨room, length_pos_of_ne_nil nonempty⟩
  have bounded : (left.take (roomAt offset)).length ≤ kBlockSize - kHeaderSize :=
    (length_take_le _ _).trans (roomAt_le offset)
  generalize (left.take (roomAt offset)).length = size at positive bounded ⊢
  generalize (nextFragment now offset isBegin left).type = type at nonzero ⊢
  have place := pastTail_eq placed
    (List.replicate (padAt offset) 0 ++ (header type size now ++ behind))
  have padding : (List.replicate (padAt offset) (0 : UInt8)).length = padAt offset :=
    length_replicate
  rw [skipAt_of_room room, drop_append_of_le_length padding.ge,
    drop_of_length_le padding.le, nil_append] at place
  have found := ofBytes_header nonzero positive bounded now behind
  have headerEq : headerLength ((header type size now ++ behind).take kHeaderSize) = size := by
    rw [← length_header type size now, take_left]
    apply headerLength_header type now
    simp only [kBlockSize, kHeaderSize] at bounded
    omega
  have behindEq : (header type size now ++ behind).drop (kHeaderSize + size) =
      behind.drop size := by
    rw [← length_header type size now, drop_append]
    simp
  rw [stream_of_fragment (by rw [place]; exact found), place]
  simp only [headerEq, behindEq]

/-! ## Entries that end nowhere -/

theorem exhausted_nil : Exhausted [] := by
  simp [Exhausted]

theorem exhausted_cons_of_continues (continues : entry.continues = true) :
    Exhausted (entry :: rest) ↔ Exhausted rest := by
  simp [Exhausted, continues]

theorem not_exhausted_cons (stops : entry.continues = false) (holds : entry.endsFile = false) :
    ¬Exhausted (entry :: rest) := by
  simp [Exhausted, stops, holds]

/-- Bytes that a reader skips as a block tail hold nothing. -/
theorem stream_of_length_le (placed : BlockAt inBlock offset)
    (short : bytes.length ≤ skipAt offset) :
    stream inBlock bytes = [] := by
  apply stream_of_none
  rw [pastTail_eq placed, drop_of_length_le short]
  rfl

theorem stream_nil (inBlock : Nat) : stream inBlock [] = [] := by
  apply stream_of_none
  have nothing : (pastTail inBlock []).2 = [] := by
    simp only [pastTail]
    split_ifs <;> simp
  rw [nothing]
  rfl

/-- What the operations of a fragment append before one fails: at most the
padding, or the header, or the header and the payload. -/
theorem Fragment.take_operations_cases (fragment : Fragment)
    (failing : made < fragment.operations.length) :
    (made + 3 ≤ fragment.operations.length ∧ ∃ count ≤ fragment.pad,
          (fragment.operations.take made).flatten = List.replicate count 0) ∨
      (fragment.operations.length < made + 3 ∧ ∃ behind, (behind = [] ∨ behind = fragment.payload) ∧
            (fragment.operations.take made).flatten = List.replicate fragment.pad 0 ++
                (header fragment.type fragment.payload.length fragment.now ++ behind)) := by
  by_cases padded : 0 < fragment.pad
  · have lengthEq : fragment.operations.length = 4 := by simp [operations, appends, padded]
    rw [lengthEq] at failing ⊢
    have cases : made = 0 ∨ made = 1 ∨ made = 2 ∨ made = 3 := by omega
    rcases cases with rfl | rfl | rfl | rfl
    · exact .inl ⟨by omega, 0, Nat.zero_le _, by simp⟩
    · exact .inl ⟨by omega, _, le_rfl, by simp [operations, appends, padded]⟩
    · exact .inr ⟨by omega, [], .inl rfl, by simp [operations, appends, padded]⟩
    · exact .inr ⟨by omega, _, .inr rfl, by simp [operations, appends, padded]⟩
  · have none : fragment.pad = 0 := Nat.eq_zero_of_not_pos padded
    have lengthEq : fragment.operations.length = 3 := by simp [operations, appends, padded]
    rw [lengthEq] at failing ⊢
    have cases : made = 0 ∨ made = 1 ∨ made = 2 := by omega
    rcases cases with rfl | rfl | rfl
    · exact .inl ⟨by omega, 0, Nat.zero_le _, by simp⟩
    · exact .inr ⟨by omega, [], .inl rfl, by simp [operations, appends, none]⟩
    · exact .inr ⟨by omega, _, .inr rfl, by simp [operations, appends, none]⟩

theorem padAt_le_skipAt (offset : Nat) : padAt offset ≤ skipAt offset := by
  have place := padAt_roomAt_cases offset
  have skipped := skipAt_cases offset
  omega

/-- A first or middle fragment, whole or not, continues. -/
theorem continues_nextFragment (longer : roomAt offset < left.length)
    (now : Nat) (isBegin whole : Bool) (payload : Bytes) :
    Entry.continues (.fragment whole
      (nextFragment now offset isBegin left).type.code payload) = true := by
  cases isBegin <;>
    simp [nextFragment, RecordType.ofPlace, Nat.not_le.mpr longer, Entry.continues, RecordType.code]

/-- Within the operations of one fragment: nothing is found if the header is
missing, or if the item goes on behind the fragment. -/
theorem exhausted_take_nextFragment (placed : BlockAt inBlock offset)
    (nonempty : left ≠ []) (now : Nat) (isBegin : Bool) (failing : made <
      (nextFragment now offset isBegin left).operations.length) :
    Exhausted (stream inBlock ((nextFragment now offset isBegin left).operations.take
          made).flatten) ↔ made + 3 ≤ (nextFragment now offset isBegin left).operations.length ∨
        roomAt offset < left.length := by
  rcases Fragment.take_operations_cases _ failing with
    ⟨missing, count, short, flattened⟩ | ⟨headed, behind, cut, flattened⟩
  · rw [flattened, stream_of_length_le placed]
    · exact iff_of_true exhausted_nil (.inl missing)
    · rw [length_replicate]
      exact short.trans (padAt_le_skipAt offset)
  · have behindEmpty : behind.drop (left.take (roomAt offset)).length = [] := by
      rcases cut with rfl | rfl
      · exact drop_nil
      · exact drop_of_length_le le_rfl
    rw [flattened]
    by_cases room : 0 < roomAt offset
    · have entries := stream_nextFragment placed nonempty room now isBegin behind
      rw [behindEmpty, stream_nil] at entries
      change Exhausted (stream inBlock (List.replicate (padAt offset) 0 ++
        (header (nextFragment now offset isBegin left).type
          (left.take (roomAt offset)).length now ++ behind))) ↔ _
      rw [entries]
      by_cases longer : roomAt offset < left.length
      · refine iff_of_true ?_ (.inr longer)
        rw [exhausted_cons_of_continues (continues_nextFragment longer now isBegin _ _)]
        exact exhausted_nil
      · refine iff_of_false (not_exhausted_cons ?_ ?_) ?_
        · cases isBegin <;>
            simp [nextFragment, RecordType.ofPlace, Nat.le_of_not_lt longer,
              Entry.continues, RecordType.code]
        · cases isBegin <;>
            simp [nextFragment, RecordType.ofPlace, Nat.le_of_not_lt longer,
              Entry.endsFile, RecordType.code]
        · rintro (missing | longer')
          · omega
          · exact longer longer'
    · have noRoom : roomAt offset = 0 := Nat.eq_zero_of_not_pos room
      have longer : roomAt offset < left.length := by
        rw [noRoom]
        exact length_pos_of_ne_nil nonempty
      have none : behind = [] := by
        rcases cut with rfl | rfl
        · rfl
        · simp [nextFragment, noRoom]
      rw [stream_of_length_le placed]
      · exact iff_of_true exhausted_nil (.inr longer)
      · rw [skipAt_of_no_room noRoom, none]
        simp [nextFragment, noRoom]

theorem three_le_length_operations (now : Nat → Nat) (offset : Nat)
    (isBegin : Bool) (left : Bytes) :
    3 ≤ (operations now offset isBegin left).length := by
  have fragment : ∀ fragment : Fragment, 3 ≤ fragment.operations.length := by
    intro fragment
    simp [Fragment.operations, Fragment.appends]
  rw [operations, fragments]
  split_ifs
  · rw [flatMap_cons, length_append]
    exact (fragment _).trans (Nat.le_add_right _ _)
  · rw [flatMap_singleton]
    exact fragment _

/-- Behind a whole fragment that the item goes on behind, a reader finds what
follows. -/
theorem exhausted_bytes_append (placed : BlockAt inBlock offset)
    (longer : roomAt offset < left.length) (now : Nat) (isBegin : Bool) (behind : Bytes) :
    ∃ place, BlockAt place (offset + (padAt offset + (kHeaderSize + roomAt offset))) ∧
        (Exhausted (stream inBlock ((nextFragment now offset isBegin left).bytes ++ behind)) ↔
          Exhausted (stream place behind)) := by
  have taken : (left.take (roomAt offset)).length = roomAt offset := by simp [longer.le]
  by_cases room : 0 < roomAt offset
  · have nonempty : left ≠ [] := by
      rintro rfl
      simp at longer
    have entries := stream_nextFragment placed nonempty room now isBegin
      (left.take (roomAt offset) ++ behind)
    rw [drop_left, taken] at entries
    refine ⟨_, BlockAt.of_record le_rfl, ?_⟩
    rw [Fragment.bytes, append_assoc, append_assoc]
    change Exhausted (stream inBlock (List.replicate (padAt offset) 0 ++
      (header (nextFragment now offset isBegin left).type
        (left.take (roomAt offset)).length now ++ (left.take (roomAt offset) ++ behind)))) ↔ _
    rw [taken, entries]
    exact exhausted_cons_of_continues (continues_nextFragment longer now isBegin _ _)
  · -- A header without payload is skipped as a block tail.
    have noRoom : roomAt offset = 0 := Nat.eq_zero_of_not_pos room
    have skipped := skipAt_of_no_room noRoom
    have sizeEq : (nextFragment now offset isBegin left).bytes.length = skipAt offset := by
      rw [Fragment.length_bytes, skipped]
      simp [Fragment.size, nextFragment, noRoom]
    refine ⟨_, BlockAt.of_mod _, ?_⟩
    rw [stream_congr]
    rw [pastTail_eq placed, ← sizeEq, drop_left, sizeEq, skipped,
      pastTail_eq (BlockAt.of_mod _),
      skipAt_of_blockStart (blockStart_after_full offset), Nat.add_zero, drop_zero]

/-- The bytes left behind by a `Put` whose operation after the first `made`
fails hold nothing up to the end of the file exactly if the header of the last
fragment is not among them. -/
theorem exhausted_operations_iff (now : Nat → Nat) (offset : Nat)
    (isBegin : Bool) (left : Bytes) (nonempty : left ≠ []) (made inBlock : Nat)
    (placed : BlockAt inBlock offset)
    (failing : made < (operations now offset isBegin left).length) :
    Exhausted (stream inBlock ((operations now offset isBegin left).take made).flatten) ↔
      made + 3 ≤ (operations now offset isBegin left).length := by
  fun_induction fragments now offset isBegin left generalizing made inBlock with
  | case1 now offset isBegin left longer ih =>
    have restNonempty : left.drop (roomAt offset) ≠ [] := by simpa using longer
    rw [operations_of_lt longer] at failing ⊢
    rw [length_append] at failing ⊢
    by_cases here : made < (nextFragment (now 0) offset isBegin left).operations.length
    · rw [take_append_of_le_length here.le,
        exhausted_take_nextFragment placed nonempty _ _ here]
      have rest := three_le_length_operations (fun iteration => now (iteration + 1))
        (offset + (padAt offset + (kHeaderSize + roomAt offset))) false
        (left.drop (roomAt offset))
      exact iff_of_true (.inr longer) (by omega)
    · have whole : ((nextFragment (now 0) offset isBegin
          left).operations.take made).flatten =
          (nextFragment (now 0) offset isBegin left).bytes := by
        rw [take_of_length_le (Nat.le_of_not_lt here),
          Fragment.operations, flatten_append, Fragment.flatten_appends]
        simp
      rw [take_append, flatten_append, whole]
      obtain ⟨place, nextPlaced, sameEntries⟩ :=
        exhausted_bytes_append placed longer (now 0) isBegin
          ((operations (fun iteration => now (iteration + 1))
            (offset + (padAt offset + (kHeaderSize + roomAt offset))) false
            (left.drop (roomAt offset))).take (made - (nextFragment (now 0) offset isBegin
                left).operations.length)).flatten
      rw [sameEntries, ih restNonempty _ _ nextPlaced (by omega)]
      omega
  | case2 now offset isBegin left fits =>
    have fits := Nat.le_of_not_lt fits
    rw [operations_of_le fits] at failing ⊢
    rw [exhausted_take_nextFragment placed nonempty _ _ failing]
    exact or_iff_left (Nat.not_lt.mpr fits)

end Pika.Binlog
