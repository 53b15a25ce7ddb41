import Pika.Binlog.Record

/-!
# The block layout of a binlog file

An item written at a file offset becomes a sequence of fragments.  Only the
offset decides where a fragment is cut: a block tail shorter than a header is
filled with zeros, and a tail of exactly one header holds a header with no
payload.
-/

namespace Pika.Binlog

/-- Zero bytes between an offset and the next place for a header. -/
def padAt (offset : Nat) : Nat :=
  if kBlockSize - offset % kBlockSize < kHeaderSize then kBlockSize - offset % kBlockSize
  else 0

/-- Payload bytes that fit behind the next header. -/
def roomAt (offset : Nat) : Nat := kBlockSize - (offset + padAt offset) % kBlockSize - kHeaderSize

/-- The offset behind an item of `length` bytes that is written at `offset`:
its padding, its payload and one header for each block it reaches into. -/
@[irreducible] def recordEnd (offset length : Nat) : Nat :=
  offset + padAt offset + length + kHeaderSize *
    (1 + (length - roomAt offset + (kBlockSize - kHeaderSize - 1)) / (kBlockSize - kHeaderSize))

/-- One physical record with the padding before it. -/
structure Fragment where
  /-- Zero bytes before the header. -/
  pad : Nat
  type : RecordType
  /-- The bytes of the item it carries. -/
  payload : Bytes
  now : Nat

namespace Fragment

/-- The slices a writer appends for a fragment. -/
def appends (fragment : Fragment) : List Bytes :=
  (if 0 < fragment.pad then [List.replicate fragment.pad 0] else []) ++
    [header fragment.type fragment.payload.length fragment.now, fragment.payload]

/-- The bytes of a fragment in the file. -/
def bytes (fragment : Fragment) : Bytes :=
  List.replicate fragment.pad 0 ++
    (header fragment.type fragment.payload.length fragment.now ++ fragment.payload)

/-- The file space a fragment takes. -/
def size (fragment : Fragment) : Nat := fragment.pad + (kHeaderSize + fragment.payload.length)

@[simp] theorem length_bytes (fragment : Fragment) : fragment.bytes.length = fragment.size := by
  simp [bytes, size]

@[simp] theorem flatten_appends (fragment : Fragment) :
    fragment.appends.flatten = fragment.bytes := by
  unfold appends bytes
  by_cases padded : 0 < fragment.pad
  · simp [padded]
  · simp [Nat.eq_zero_of_not_pos padded]

end Fragment

/-- The fragment cut from the bytes `left` of an item at an offset. -/
def nextFragment (now offset : Nat) (isBegin : Bool) (left : Bytes) : Fragment :=
  { pad := padAt offset
    type := RecordType.ofPlace isBegin (decide (left.length ≤ roomAt offset))
    payload := left.take (roomAt offset)
    now := now }

/-! ## Block arithmetic -/

/-- The two places an offset can have in its block: a header fits, or only
padding does. -/
theorem padAt_roomAt_cases (offset : Nat) :
    (offset % 65536 ≤ 65528 ∧ padAt offset = 0 ∧ roomAt offset = 65528 - offset % 65536) ∨
      (65528 < offset % 65536 ∧ padAt offset = 65536 - offset % 65536 ∧
        roomAt offset = 65528) := by
  have room : roomAt offset = kBlockSize - (offset + padAt offset) % kBlockSize - kHeaderSize := rfl
  by_cases tail : kBlockSize - offset % kBlockSize < kHeaderSize
  · have pad : padAt offset = kBlockSize - offset % kBlockSize := if_pos tail
    simp only [kBlockSize, kHeaderSize] at tail pad room
    omega
  · have pad : padAt offset = 0 := if_neg tail
    simp only [kBlockSize, kHeaderSize] at tail pad room
    omega

theorem roomAt_le (offset : Nat) : roomAt offset ≤ kBlockSize - kHeaderSize := by
  unfold roomAt
  omega

/-- Behind a fragment that fills its block, the next block starts. -/
theorem blockStart_after_full (offset : Nat) :
    (offset + (padAt offset + (kHeaderSize + roomAt offset))) % kBlockSize = 0 := by
  have place := padAt_roomAt_cases offset
  simp only [kBlockSize, kHeaderSize]
  omega

theorem padAt_of_blockStart (blockStart : offset % kBlockSize = 0) : padAt offset = 0 := by
  rw [padAt, blockStart]
  decide

theorem roomAt_of_blockStart (blockStart : offset % kBlockSize = 0) :
    roomAt offset = kBlockSize - kHeaderSize := by
  simp [roomAt, padAt_of_blockStart blockStart, blockStart]

/-- A position in a block that stands for a file offset.  At a block boundary
it may still be the end of the block that was left. -/
structure BlockAt (blockOffset offset : Nat) : Prop where
  le : blockOffset ≤ kBlockSize
  mod : blockOffset % kBlockSize = offset % kBlockSize

theorem BlockAt.of_mod (offset : Nat) : BlockAt (offset % kBlockSize) offset where
  le := (Nat.mod_lt _ (by decide)).le
  mod := Nat.mod_mod _ _

/-- A record behind the padding ends in the block it starts in. -/
theorem BlockAt.of_record (fits : length ≤ roomAt offset) :
    BlockAt ((offset + padAt offset) % kBlockSize + (kHeaderSize + length))
      (offset + (padAt offset + (kHeaderSize + length))) where
  le := by
    have place := padAt_roomAt_cases offset
    simp only [kBlockSize, kHeaderSize]
    omega
  mod := by
    rw [Nat.mod_add_mod, Nat.add_assoc]

/-- Twice the bytes left, and one more where only a header fits. -/
def fragmentsMeasure (offset : Nat) (left : Bytes) : Nat :=
  2 * left.length + if roomAt offset = 0 then 1 else 0

theorem fragmentsMeasure_lt (longer : roomAt offset < left.length) :
    fragmentsMeasure (offset + (padAt offset + (kHeaderSize + roomAt offset)))
        (left.drop (roomAt offset)) < fragmentsMeasure offset left := by
  unfold fragmentsMeasure
  rw [roomAt_of_blockStart (blockStart_after_full offset), if_neg (by decide), List.length_drop]
  split_ifs <;> omega

/-- The fragments of an item written at an offset.  `now` gives the clock of
each fragment. -/
def fragments (now : Nat → Nat) (offset : Nat) (isBegin : Bool) (left : Bytes) : List Fragment :=
  if _longer : roomAt offset < left.length then
    nextFragment (now 0) offset isBegin left :: fragments (fun iteration => now (iteration + 1))
        (offset + (padAt offset + (kHeaderSize + roomAt offset))) false
        (left.drop (roomAt offset))
  else [nextFragment (now 0) offset isBegin left]
termination_by fragmentsMeasure offset left
decreasing_by exact fragmentsMeasure_lt _longer

/-- The bytes of an item written at an offset. -/
def frame (now : Nat → Nat) (offset : Nat) (item : Bytes) : Bytes :=
  (fragments now offset true item).flatMap Fragment.bytes

/-! ## Where an item ends -/

theorem recordEnd_of_le (fits : length ≤ roomAt offset) :
    recordEnd offset length = offset + (padAt offset + (kHeaderSize + length)) := by
  simp only [recordEnd, Nat.sub_eq_zero_of_le fits, kBlockSize, kHeaderSize]
  omega

/-- An item that does not fit ends where the part behind its first fragment
ends. -/
theorem recordEnd_of_lt (longer : roomAt offset < length) :
    recordEnd offset length = recordEnd (offset + (padAt offset + (kHeaderSize + roomAt offset)))
        (length - roomAt offset) := by
  have blockStart := blockStart_after_full offset
  unfold recordEnd
  rw [padAt_of_blockStart blockStart, roomAt_of_blockStart blockStart]
  simp only [kBlockSize, kHeaderSize]
  omega

/-- Fragments take the space from the offset to the end of the record. -/
theorem add_length_fragments (now : Nat → Nat) (offset : Nat) (isBegin : Bool) (left : Bytes) :
    offset + ((fragments now offset isBegin left).flatMap
      Fragment.bytes).length = recordEnd offset left.length := by
  fun_induction fragments now offset isBegin left with
  | case1 now offset isBegin left longer ih =>
    rw [recordEnd_of_lt longer, ← List.length_drop, ← ih]
    simp only [List.flatMap_cons, List.length_append, Fragment.length_bytes,
      Fragment.size, nextFragment, List.length_take, Nat.min_eq_left longer.le]
    omega
  | case2 now offset isBegin left fits =>
    rw [recordEnd_of_le (Nat.le_of_not_lt fits)]
    simp [Fragment.size, nextFragment, Nat.le_of_not_lt fits]

theorem add_length_frame (now : Nat → Nat) (offset : Nat) (item : Bytes) :
    offset + (frame now offset item).length = recordEnd offset item.length :=
  add_length_fragments now offset true item

theorem add_length_lt_recordEnd (offset length : Nat) :
    offset + length < recordEnd offset length := by
  unfold recordEnd
  simp only [kBlockSize, kHeaderSize]
  omega

/-- The space a record takes depends only on the place in the block. -/
theorem recordEnd_eq_add (offset length : Nat) :
    recordEnd offset length = offset + (recordEnd (offset % kBlockSize) length -
        offset % kBlockSize) := by
  have samePlace : offset % kBlockSize % kBlockSize = offset % kBlockSize := Nat.mod_mod _ _
  have pad : padAt (offset % kBlockSize) = padAt offset := by
    rw [padAt, padAt, samePlace]
  have room : roomAt (offset % kBlockSize) = roomAt offset := by
    rw [roomAt, roomAt, pad, Nat.mod_add_mod]
  unfold recordEnd
  rw [pad, room]
  omega

/-- Offsets that agree in their low 32 bits give ends that agree there. -/
theorem recordEnd_mod_eq (same : first % 2 ^ 32 = second % 2 ^ 32) (length : Nat) :
    recordEnd first length % 2 ^ 32 = recordEnd second length % 2 ^ 32 := by
  have samePlace : first % kBlockSize = second % kBlockSize := by
    simp only [kBlockSize]
    omega
  rw [recordEnd_eq_add first, recordEnd_eq_add second, samePlace]
  omega

/-- A record that ends inside a block leaves more than a header before its
end. -/
theorem recordEnd_mod_cases (offset : Nat) (nonempty : 0 < length) :
    recordEnd offset length % kBlockSize = 0 ∨
      kHeaderSize < recordEnd offset length % kBlockSize := by
  have place := padAt_roomAt_cases offset
  unfold recordEnd
  simp only [kBlockSize, kHeaderSize]
  omega

/-- Headers and padding at most double an item, up to a block. -/
theorem recordEnd_le (offset length : Nat) :
    recordEnd offset length ≤ offset + 2 * length + 65600 := by
  have place := padAt_roomAt_cases offset
  unfold recordEnd
  simp only [kBlockSize, kHeaderSize]
  omega

/-- An item whose length is an `int` takes less than 32 bits of space. -/
theorem recordEnd_lt_add (offset : Nat) (bounded : length < 2 ^ 31) :
    recordEnd offset length < offset + 2 ^ 32 := by
  have place := padAt_roomAt_cases offset
  unfold recordEnd
  simp only [kBlockSize, kHeaderSize]
  omega

end Pika.Binlog
