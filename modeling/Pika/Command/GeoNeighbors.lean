import Mathlib.Data.List.Nodup
import Mathlib.Data.List.Perm.Subperm
import Mathlib.Order.Lattice
import Pika.Command.GeoRadius

/-!
# The search areas of a radius query

Each of the nine areas of a query is searched as a closed interval of scores.
An area whose bits follow those of another one shares an end with it, and an
area is compared only with the one that was searched last.  A member whose
score lies in two of the intervals is found twice.
-/

namespace Pika

open Foundation List
open Binlog (Bytes)

namespace Command

/-! ## Selections of one list -/

section Selections

variable {α β γ : Type} {elements : List β} {key : β → γ}
variable {selects : α → β → Bool}

/-- The keys of several selections are distinct exactly if no two of the
selections have an element in common. -/
theorem nodup_flatMap_filter_iff (distinct : (elements.map key).Nodup) (places : List α) :
    ((places.flatMap fun place => (elements.filter (selects place)).map key).Nodup) ↔
      places.Pairwise fun first second => ∀ element ∈ elements,
        ¬(selects first element = true ∧ selects second element = true) := by
  rw [nodup_flatMap]
  have each : ∀ place ∈ places, ((elements.filter (selects place)).map key).Nodup := fun place _ =>
    distinct.sublist (filter_sublist.map key)
  rw [and_iff_right each]
  apply List.Pairwise.iff
  intro first second
  constructor
  · intro disjoint element member both
    apply disjoint (a := key element)
    · exact mem_map_of_mem (mem_filter.mpr ⟨member, both.1⟩)
    · exact mem_map_of_mem (mem_filter.mpr ⟨member, both.2⟩)
  · intro never value inFirst inSecond
    obtain ⟨element, chosen, rfl⟩ := mem_map.mp inFirst
    obtain ⟨other, otherChosen, same⟩ := mem_map.mp inSecond
    obtain ⟨member, selected⟩ := mem_filter.mp chosen
    obtain ⟨otherMember, otherSelected⟩ := mem_filter.mp otherChosen
    cases inj_on_of_nodup_map distinct otherMember member same
    exact never element member ⟨selected, otherSelected⟩

/-- Distinct keys are as many as the elements that are selected at all. -/
theorem length_flatMap_filter (distinct : (elements.map key).Nodup) {places : List α}
    (once : (places.flatMap fun place => (elements.filter (selects place)).map key).Nodup) :
    (places.flatMap fun place => (elements.filter (selects place)).map key).length =
      (elements.filter fun element => places.any fun place => selects place element).length := by
  rw [← length_map (f := key)]
  apply List.Perm.length_eq
  apply (perm_ext_iff_of_nodup once (distinct.sublist (filter_sublist.map key))).mpr
  intro value
  simp only [mem_flatMap, mem_map, mem_filter, any_eq_true]
  constructor
  · rintro ⟨place, placed, element, ⟨member, selected⟩, rfl⟩
    exact ⟨element, ⟨member, place, placed, selected⟩, rfl⟩
  · rintro ⟨element, ⟨member, place, placed, selected⟩, rfl⟩
    exact ⟨place, placed, element, ⟨member, selected⟩, rfl⟩

theorem any_and (held : Bool) (test : α → Bool) (places : List α) :
    (places.any fun place => held && test place) = (held && places.any test) := by
  cases held <;> simp

end Selections

/-! ## Areas -/

section Areas

variable {Double : Type} [LinearOrder Double]
variable (library : GeoLibrary Double) (engine : GeoEngine Double)

/-- A score is in the closed interval that is searched for an area. -/
def InArea (area : GeoHashBits) (score : Double) : Prop :=
  library.align area ≤ score ∧ score ≤ library.align { area with bits := area.bits + 1 }

instance (area : GeoHashBits) (score : Double) : Decidable (InArea library area score) :=
  inferInstanceAs (Decidable (_ ∧ _))

/-- A score decodes to a point within the radius. -/
def InRadius (position : GeoPosition Double) (score : Double) : Prop :=
  (library.distanceIfInRadius position (library.decode score)).isSome = true

instance (position : GeoPosition Double) (score : Double) :
    Decidable (InRadius library position score) :=
  inferInstanceAs (Decidable (_ = _))

/-- The engine holds a sorted set under a key: no member has two scores, and a
range of scores is answered with exactly the members in it. -/
structure RangesOver (engine : GeoEngine Double) (key : Bytes)
    (zset : List (ScoreMember Double)) : Prop where
  distinct : (zset.map ScoreMember.member).Nodup
  ranges : ∀ min max, ∃ status : EngineStatus, status.Found ∧
    engine.zRangebyscore key min max = (status, zset.filter fun found =>
        decide (min ≤ found.score ∧ found.score ≤ max))

/-- A query finds each member within the radius that one of its areas holds,
and finds it once. -/
def FindsEachOnce (key unit : Bytes) (position : GeoPosition Double)
    (zset : List (ScoreMember Double)) : Prop :=
  ∃ points, searchNeighbors library engine key unit position = .ok points ∧
    (points.map NeighborPoint.member).Nodup ∧
    points.length = (zset.filter fun found =>
        decide (InRadius library (inMeters library unit position) found.score) &&
          (queryAreas library (inMeters library unit position)).any fun area =>
            decide (InArea library area found.score)).length

end Areas

section Search

variable {Double : Type} [LinearOrder Double]
variable {library : GeoLibrary Double} {engine : GeoEngine Double}
variable {key : Bytes} {zset : List (ScoreMember Double)}

theorem map_member_pointsInRadius (position : GeoPosition Double) (area : GeoHashBits) :
    (pointsInRadius library position (zset.filter fun found =>
        decide (InArea library area found.score))).map NeighborPoint.member =
      (zset.filter fun found =>
        decide (InRadius library position found.score) &&
          decide (InArea library area found.score)).map ScoreMember.member := by
  induction zset with
  | nil => rfl
  | cons found zset ih =>
    by_cases inArea : InArea library area found.score
    · cases distance : library.distanceIfInRadius position (library.decode found.score) with
      | none =>
        have outside : ¬InRadius library position found.score := by simp [InRadius, distance]
        rw [filter_cons_of_pos (by simp [inArea]), filter_cons_of_neg (by simp [outside]),
          ← ih]
        simp [pointsInRadius, distance]
      | some meters =>
        have inside : InRadius library position found.score := by simp [InRadius, distance]
        rw [filter_cons_of_pos (by simp [inArea]),
          filter_cons_of_pos (by simp [inside, inArea]), map_cons, ← ih]
        simp [pointsInRadius, distance]
    · rw [filter_cons_of_neg (by simp [inArea]),
        filter_cons_of_neg (by simp [inArea]), ih]

theorem map_member_areaPoints (ranges : RangesOver engine key zset)
    (position : GeoPosition Double) (areas : List GeoHashBits) :
    (areaPoints library engine key position areas).map NeighborPoint.member =
      areas.flatMap fun area =>
        (zset.filter fun found =>
          decide (InRadius library position found.score) &&
            decide (InArea library area found.score)).map
          ScoreMember.member := by
  unfold areaPoints
  rw [map_flatMap]
  congr 1
  funext area
  obtain ⟨status, -, read⟩ := ranges.ranges (library.align area)
    (library.align { area with bits := area.bits + 1 })
  rw [areaRead, read]
  exact map_member_pointsInRadius position area

theorem found_areaRead (ranges : RangesOver engine key zset) (area : GeoHashBits) :
    (areaRead library engine key area).1.Found := by
  obtain ⟨status, found, read⟩ := ranges.ranges (library.align area)
    (library.align { area with bits := area.bits + 1 })
  rw [areaRead, read]
  exact found

/-- A query finds each member once exactly if no member within the radius has a
score in the intervals of two of the areas that are searched. -/
theorem findsEachOnce_iff {Double : Type} [LinearOrder Double]
    (library : GeoLibrary Double) (engine : GeoEngine Double) (key unit : Bytes)
    (position : GeoPosition Double) (zset : List (ScoreMember Double))
    (ranges : RangesOver engine key zset) :
    FindsEachOnce library engine key unit position zset ↔
      (queryAreas library (inMeters library unit position)).Pairwise
        fun first second => ∀ found ∈ zset,
          InRadius library (inMeters library unit position) found.score →
            ¬(InArea library first found.score ∧ InArea library second found.score) := by
  let meters := inMeters library unit position
  let areas := queryAreas library meters
  have members := @map_member_areaPoints _ _ library _ _ _ ranges meters areas
  have selections := @nodup_flatMap_filter_iff _ _ _ zset ScoreMember.member
    (fun area found => decide (InRadius library meters found.score) &&
      decide (InArea library area found.score)) ranges.distinct areas
  have found : searchNeighbors library engine key unit position =
      .ok (areaPoints library engine key meters areas) :=
    (searchAreas_eq_ok_iff library engine).mpr ⟨fun area _ => found_areaRead ranges area, rfl⟩
  have condition : areas.Pairwise (fun first second => ∀ found ∈ zset,
        InRadius library meters found.score → ¬(InArea library first found.score ∧
            InArea library second found.score)) ↔
      ((areaPoints library engine key meters areas).map NeighborPoint.member).Nodup := by
    rw [members, selections]
    apply List.Pairwise.iff
    intro first second
    apply forall_congr'
    intro found
    simp only [Bool.and_eq_true, decide_eq_true_eq]
    tauto
  rw [condition]
  constructor
  · rintro ⟨points, same, once, -⟩
    rw [found] at same
    cases same
    exact once
  · intro once
    refine ⟨_, found, once, ?_⟩
    rw [members] at once
    have number := length_flatMap_filter ranges.distinct once
    rw [← members, length_map] at number
    rw [number]
    congr 2
    funext element
    exact any_and _ _ areas

end Search

/-! ## A point on the border of two cells -/

def geohashAlign52Bits (hash : GeoHashBits) : Nat :=
  (hash.bits <<< (52 - 2 * hash.step.toNat)).toNat

/-- Integer scores, given areas, and every point within the radius. -/
def cellLibrary (cells : List GeoHashBits) : GeoLibrary Int where
  toMeters := fun _ distance => distance
  lengthConverter := fun distance _ => distance
  areas := fun _ => cells
  align := fun hash => geohashAlign52Bits hash
  decode := fun score => (score, score)
  distanceIfInRadius := fun _ _ => some 0
  distanceText := fun _ _ _ => []
  hash := id
  d2string := fun _ => []
  sort := fun _ points => points
  sort_perm := fun _ points => List.Perm.refl points

/-- An engine with one sorted set. -/
def zsetEngine (zset : List (ScoreMember Int)) : GeoEngine Int where
  zRangebyscore := fun _ min max =>
    (.ok, zset.filter fun found => decide (min ≤ found.score ∧ found.score ≤ max))
  zAdd := fun _ _ => .ok
  zScore := fun _ _ => none

/-- The areas of `GEORADIUS k 4.0016 4.4075 0.5 m`. -/
def halfMeterAreas : List GeoHashBits :=
  [⟨844921436155649, 25⟩, ⟨0, 0⟩, ⟨844921436155648, 25⟩, ⟨0, 0⟩,
    ⟨844921436155307, 25⟩, ⟨0, 0⟩, ⟨0, 0⟩, ⟨0, 0⟩, ⟨844921436155306, 25⟩]

/-- A sorted set with one member. -/
def oneMember (score : Int) : List (ScoreMember Int) := [{ score := score, member := ascii "m" }]

/-- The position is not looked at. -/
def somewhere : GeoPosition Int where
  longitude := 0
  latitude := 0
  distance := 0

theorem rangesOver_oneMember (score : Int) :
    RangesOver (zsetEngine (oneMember score)) (ascii "k") (oneMember score) where
  distinct := nodup_singleton _
  ranges _ _ := ⟨.ok, trivial, rfl⟩

/-- A point inside of its cell is found once. -/
theorem findsEachOnce_inside :
    FindsEachOnce (cellLibrary halfMeterAreas)
      (zsetEngine (oneMember 3379685744622597)) (ascii "k") (ascii "m")
      somewhere (oneMember 3379685744622597) :=
  (findsEachOnce_iff _ _ _ _ _ _ (rangesOver_oneMember _)).mpr (by decide +kernel)

/-- The point 4.0016 4.4075 has the score 3379685744622596, the end of one of
the cells and the beginning of the next: it is found twice. -/
theorem not_findsEachOnce_border :
    RangesOver (zsetEngine (oneMember 3379685744622596)) (ascii "k")
        (oneMember 3379685744622596) ∧
      ¬FindsEachOnce (cellLibrary halfMeterAreas)
        (zsetEngine (oneMember 3379685744622596)) (ascii "k") (ascii "m")
        somewhere (oneMember 3379685744622596) := by
  refine ⟨rangesOver_oneMember _, ?_⟩
  rintro ⟨points, found, once, -⟩
  have twice : searchNeighbors (cellLibrary halfMeterAreas)
      (zsetEngine (oneMember 3379685744622596)) (ascii "k") (ascii "m")
      somewhere = .ok [⟨ascii "m", 3379685744622596, 0⟩, ⟨ascii "m", 3379685744622596, 0⟩] :=
    rfl
  rw [twice] at found
  cases found
  exact absurd once (by decide)

end Command

end Pika
