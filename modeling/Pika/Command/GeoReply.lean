import Pika.Command.GeoRadius

/-!
# One value for a radius query

The reply to a radius query that is not stored is made of tokens: the number of
entries, and for each entry the number of its values and the values.  Counting
the values that are announced and those that follow shows that the reply is one
value exactly if no entry is announced, or each option that asks for a value
was given once.
-/

namespace Pika.Command

open Foundation List
open Binlog (Bytes)

/-- The number of values an entry has behind its member. -/
def GeoRange.extras (range : GeoRange) : Nat :=
  range.withdist.toNat + range.withhash.toNat + range.withcoord.toNat

section

variable {Double : Type}
variable (library : GeoLibrary Double)
variable (range : GeoRange) (unit : Bytes) (position : GeoPosition Double)

/-! ## Entries -/

/-- The values of an entry behind its member. -/
def pointExtras (point : NeighborPoint Double) : List RespValue :=
  let coordinates := library.decode point.score
  (if range.withdist then [.bulk (library.distanceText position coordinates unit)]
  else []) ++ (if range.withhash then [.integer (library.hash point.score)] else []) ++
  (if range.withcoord then
    [.array [.bulk (library.d2string coordinates.1), .bulk (library.d2string coordinates.2)]]
  else [])

def pointTokens (point : NeighborPoint Double) : List RespToken :=
  (if range.optionNum ≠ 0 then [.header (range.optionNum + 1)] else []) ++
    .bulk point.member :: respTokens (pointExtras library range unit position point)

def pointValue (point : NeighborPoint Double) : RespValue :=
  if range.optionNum ≠ 0 then
    .array (.bulk point.member :: pointExtras library range unit position point)
  else .bulk point.member

@[simp] theorem length_pointExtras (point : NeighborPoint Double) :
    (pointExtras library range unit position point).length = range.extras := by
  unfold pointExtras GeoRange.extras
  cases range.withdist <;> cases range.withhash <;> cases range.withcoord <;> rfl

theorem appendPoint_ofTokens (tokens : List RespToken) (point : NeighborPoint Double) :
    appendPoint library range unit position (CmdRes.ofTokens tokens) point =
      CmdRes.ofTokens (tokens ++ pointTokens library range unit position point) := by
  unfold appendPoint pointTokens pointExtras
  by_cases announced : range.optionNum ≠ 0 <;>
    cases range.withdist <;> cases range.withhash <;> cases range.withcoord <;>
      simp [announced, respTokens, RespValue.tokens]

theorem foldl_appendPoint_ofTokens (tokens : List RespToken)
    (points : List (NeighborPoint Double)) :
    points.foldl (appendPoint library range unit position) (CmdRes.ofTokens tokens) =
      CmdRes.ofTokens (tokens ++ points.flatMap (pointTokens library range unit position)) := by
  induction points generalizing tokens with
  | nil => simp
  | cons point points ih =>
    rw [foldl_cons, appendPoint_ofTokens, ih, flatMap_cons, append_assoc]

/-- An entry announces a value for each option that was given and holds one for
each that is known to have been given. -/
theorem respWeight_pointTokens (point : NeighborPoint Double) :
    respWeight (pointTokens library range unit position point) =
      1 + range.extras - range.optionNum := by
  unfold pointTokens
  rw [respWeight_append, respWeight_cons, respWeight_respTokens, length_pointExtras]
  split_ifs with announced
  · simp only [respWeight_cons, respWeight_nil, RespToken.weight]
    omega
  · simp only [respWeight_nil, RespToken.weight]
    omega

theorem respWeight_flatMap_pointTokens (points : List (NeighborPoint Double)) :
    respWeight (points.flatMap (pointTokens library range unit position)) =
      points.length * (1 + range.extras - range.optionNum) := by
  induction points with
  | nil => simp
  | cons point points ih =>
    rw [flatMap_cons, respWeight_append, ih,
      respWeight_pointTokens, length_cons, Nat.cast_succ, add_mul, one_mul, add_comm]

variable {range}

/-- An entry that announces what it holds is a value. -/
theorem tokens_pointValue (honest : range.optionNum = range.extras) (point : NeighborPoint Double) :
    (pointValue library range unit position point).tokens =
      pointTokens library range unit position point := by
  have many := length_pointExtras library range unit position point
  unfold pointValue pointTokens
  split_ifs with announced
  · simp [RespValue.tokens, respTokens, many, honest]
  · have none : pointExtras library range unit position point = [] := by
      rw [← length_eq_zero_iff]
      omega
    simp [RespValue.tokens, none, respTokens]

/-- The entries behind their number are one value if there are none or they
announce what they hold. -/
theorem isRespValue_entries_iff {limit : Int} {points : List (NeighborPoint Double)}
    (many : points.length = limit.toNat) :
    IsRespValue (respBytes (.header limit ::
          points.flatMap (pointTokens library range unit position))) ↔
      0 ≤ limit ∧ (limit = 0 ∨ range.optionNum = range.extras) := by
  constructor
  · intro one
    have weight := respWeight_of_isRespValue one
    rw [respWeight_cons, respWeight_flatMap_pointTokens, RespToken.weight, many] at weight
    by_cases negative : limit < 0
    · rw [Int.toNat_of_nonpos (Int.le_of_lt negative)] at weight
      simp only [Nat.cast_zero, zero_mul] at weight
      omega
    have nonneg : 0 ≤ limit := Int.not_lt.mp negative
    rw [Int.toNat_of_nonneg nonneg] at weight
    have missing : limit * ((range.extras : Int) - range.optionNum) = 0 := by
      linarith
    refine ⟨nonneg, ?_⟩
    apply (Int.mul_eq_zero.mp missing).imp_right
    omega
  · rintro ⟨nonneg, decided⟩
    have length : (points.length : Int) = limit := by omega
    refine ⟨.array (points.map (pointValue library range unit position)), ?_⟩
    rw [RespValue.tokens, length_map, length, respTokens_eq_flatMap, flatMap_map]
    rcases decided with rfl | honest
    · rw [length_eq_zero_iff.mp (by omega : points.length = 0)]
      rfl
    · rw [funext (tokens_pointValue library unit position honest)]

end

/-! ## Counting -/

theorem castInt32_le_natCast (size : Nat) : castInt32 size ≤ size := by
  unfold castInt32
  rw [Int.bmod_def]
  omega

theorem countLimit_le (range : GeoRange) (size : Nat) : countLimit range size ≤ size := by
  have bound := castInt32_le_natCast size
  unfold countLimit
  split_ifs <;> omega

theorem countLimit_nonneg_iff (range : GeoRange) (size : Nat) :
    0 ≤ countLimit range size ↔ 0 ≤ castInt32 size := by
  unfold countLimit
  split_ifs <;> omega

section

variable {range : GeoRange}

/-- Nothing is announced if nothing was found or the last limit is 0. -/
theorem countLimit_eq_zero_iff (reflects : range.Reflects words) {size : Nat}
    (counted : 0 ≤ castInt32 size) :
    countLimit range size = 0 ↔ castInt32 size = 0 ∨ geoLimit words = some 0 := by
  rw [← reflects.limit]
  unfold countLimit
  by_cases limited : range.count
  · rw [if_pos limited, if_pos limited, Option.some.injEq]
    split_ifs <;> omega
  · rw [if_neg limited, if_neg limited]
    simp

/-- What is announced for an entry is what it holds if no option is
repeated. -/
theorem optionNum_eq_extras_iff (reflects : range.Reflects words) :
    range.optionNum = range.extras ↔ AsksOnce words := by
  have asked : ∀ word : GeoWord, (decide (word ∈ words)).toNat = min 1 (words.count word) := by
    intro word
    by_cases member : word ∈ words
    · have positive := count_pos_iff.mpr member
      simp only [member, decide_true, Bool.toNat_true]
      omega
    · rw [count_eq_zero.mpr member]
      simp [member]
  rw [GeoRange.extras, reflects.withdist, reflects.withhash, reflects.withcoord,
    reflects.optionNum, asked, asked, asked, AsksOnce]
  omega

end

/-! ## Replies -/

section

variable {Double : Type}
variable (library : GeoLibrary Double) (engine : GeoEngine Double)
variable (position : GeoPosition Double)
variable (command : CommandName) (argv : List Bytes)

/-- The position of a query with its radius in meters. -/
def meterPosition : GeoPosition Double :=
  inMeters library (argument argv (unitIndex command))
    (queryPosition library engine command argv position)

def areasOfQuery : List GeoHashBits :=
  queryAreas library (meterPosition library engine position command argv)

/-- The engine reads the areas of a query. -/
def Readable : Prop :=
  ∀ area ∈ areasOfQuery library engine position command argv,
    (areaRead library engine (argument argv 1) area).1.Found

/-- The points of the key that are within the radius. -/
def pointsOfQuery : List (NeighborPoint Double) :=
  areaPoints library engine (argument argv 1) (meterPosition library engine position command argv)
    (areasOfQuery library engine position command argv)

theorem geoFound_eq_ok_iff :
    geoFound library engine position command argv = .ok points ↔
      Readable library engine position command argv ∧
        pointsOfQuery library engine position command argv = points :=
  searchAreas_eq_ok_iff library engine

theorem isRespValue_answerPoints_iff {words : List GeoWord} {range : GeoRange}
    (reflects : range.Reflects words) (unit : Bytes) (result : List (NeighborPoint Double)) :
    IsRespValue (answerPoints library engine range unit position result).message ↔
      (words.any GeoWord.stores = false → 0 ≤ castInt32 result.length ∧
          (castInt32 result.length = 0 ∨ geoLimit words = some 0 ∨ AsksOnce words)) := by
  unfold answerPoints
  rw [← reflects.stores]
  by_cases stored : (range.store || range.storedist) = true
  · rw [if_pos stored]
    -- A stored answer is an integer or the error of the engine.
    apply iff_of_true
    · cases engine.zAdd range.storekey _ with
      | ok =>
        rw [CmdRes.create_eq_ofTokens, CmdRes.appendInteger_ofTokens]
        exact ⟨.integer _, rfl⟩
      | notFound text => exact CmdRes.isRespValue_errOther text
      | failed text => exact CmdRes.isRespValue_errOther text
    · intro notStored
      exact absurd stored (by simp [notStored])
  rw [if_neg stored, CmdRes.create_eq_ofTokens, CmdRes.appendArrayLen_ofTokens,
    foldl_appendPoint_ofTokens, CmdRes.message_ofTokens]
  have many : ((library.sort range.sort result).take
      (countLimit range result.length).toNat).length = (countLimit range result.length).toNat := by
    have bound := countLimit_le range result.length
    rw [length_take, (library.sort_perm _ _).length_eq]
    omega
  have counted := countLimit_nonneg_iff range result.length
  rw [nil_append, singleton_append,
    isRespValue_entries_iff library unit position many, counted,
    optionNum_eq_extras_iff reflects, Bool.eq_false_of_not_eq_true stored]
  simp only [true_imp_iff]
  apply and_congr_right
  intro fits
  rw [countLimit_eq_zero_iff reflects fits, or_assoc]

/-- Every query that is not stored announces what it holds: its points are
counted by an `int`, and there are none to announce or no option asks for a
value again. -/
def AnnouncesHonestly : Prop :=
  (queryWords command argv).any GeoWord.stores = false → 0 ≤ castInt32
      (pointsOfQuery library engine position command argv).length ∧
    (castInt32 (pointsOfQuery library engine position command argv).length = 0 ∨
      geoLimit (queryWords command argv) = some 0 ∨
      AsksOnce (queryWords command argv))

/-- The reply to an accepted query is one value exactly if its areas cannot be
read or it announces what it holds. -/
theorem isRespValue_geoReply_iff :
    (∀ res ∈ geoReply library engine position command argv, IsRespValue res.message) ↔
      ((acceptedRange command argv).isSome → Readable library engine position command argv →
          AnnouncesHonestly library engine position command argv) := by
  unfold geoReply
  cases accepted : acceptedRange command argv with
  | none => simp
  | some range =>
    have reflects := reflects_of_acceptedRange accepted
    simp only [Option.map_some, Option.mem_some_iff, forall_eq', Option.isSome_some, true_imp_iff]
    unfold getAllNeighbors
    rw [← geoFound]
    cases found : geoFound library engine position command argv with
    | error text =>
      apply iff_of_true (CmdRes.isRespValue_errOther text)
      intro readable
      have read := (geoFound_eq_ok_iff library engine position command argv).mpr ⟨readable, rfl⟩
      rw [found] at read
      cases read
    | ok result =>
      obtain ⟨readable, rfl⟩ := (geoFound_eq_ok_iff library engine position command argv).mp found
      simp only [readable, true_imp_iff]
      exact isRespValue_answerPoints_iff library engine _ reflects _ _

end

/-! ## An option given twice -/

/-- A library in which every point is within every radius. -/
def flatLibrary : GeoLibrary Nat where
  toMeters _ distance := distance
  lengthConverter distance _ := distance
  areas _ := [{ bits := 1, step := 1 }]
  align _ := 0
  decode _ := (0, 0)
  distanceIfInRadius _ _ := some 0
  distanceText _ _ _ := ascii "0.0000"
  hash score := score
  d2string _ := ascii "0"
  sort _ points := points
  sort_perm _ _ := List.Perm.refl _

/-- An engine whose keys hold one member. -/
def townEngine : GeoEngine Nat where
  zRangebyscore _ _ _ := (.ok, [{ score := 0, member := ascii "town" }])
  zAdd _ _ := .ok
  zScore _ _ := none

/-- GEORADIUS with WITHDIST given twice. -/
def twiceWithdist : List Bytes :=
  ["georadius", "places", "0", "0", "1", "m", "withdist", "withdist"].map ascii

/-- The entry of the member announces three values and holds two. -/
theorem not_isRespValue_twiceWithdist :
    ¬ ∀ res ∈ geoReply flatLibrary townEngine
        { longitude := 0, latitude := 0, distance := 1 } .geoRadiusCmd
        twiceWithdist, IsRespValue res.message := by
  intro one
  have reply : geoReply flatLibrary townEngine
      { longitude := 0, latitude := 0, distance := 1 } .geoRadiusCmd
      twiceWithdist = some (CmdRes.ofTokens [.header 1, .header 3, .bulk (ascii "town"),
          .bulk (ascii "0.0000")]) := by
    decide +kernel
  have weight := respWeight_of_isRespValue (one _ reply)
  exact absurd weight (by decide)

end Pika.Command
