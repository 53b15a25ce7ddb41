import Pika.Command.Effects
import Pika.Command.SortedSet

/-!
# The reply of a radius query

GEORADIUS and GEORADIUSBYMEMBER answer with an array that has an entry for
every member found.  An entry announces as many values as WITHDIST, WITHHASH
and WITHCOORD were given, and holds a value for each of them that was given at
all.

What the geohash library and the engine do is left open, as are the numbers
`string2d` has read: it is not asked whether it succeeded.
-/

namespace Pika.Command

open Foundation
open Binlog (Bytes)

structure GeoHashBits where
  bits : BitVec 64
  step : BitVec 8
  deriving DecidableEq

structure NeighborPoint (Double : Type) where
  member : Bytes
  score : Double
  distance : Double

/-- The numbers of a radius query. -/
structure GeoPosition (Double : Type) where
  longitude : Double
  latitude : Double
  distance : Double

/-- The functions on floating-point numbers. -/
structure GeoLibrary (Double : Type) where
  /-- The conversion of a distance in a unit to meters. -/
  toMeters : Bytes → Double → Double
  lengthConverter : Double → Bytes → Double
  /-- `geohashGetAreasByRadiusWGS84`: the nine areas. -/
  areas : GeoPosition Double → List GeoHashBits
  align : GeoHashBits → Double
  /-- `geohashDecodeToLongLatWGS84` of a score. -/
  decode : Double → Double × Double
  /-- `geohashGetDistanceIfInRadiusWGS84` of the coordinates of a point. -/
  distanceIfInRadius : GeoPosition Double → Double × Double → Option Double
  distanceText : GeoPosition Double → Double × Double → Bytes → Bytes
  hash : Double → Int
  d2string : Double → Bytes
  /-- `std::sort` by distance. -/
  sort : GeoSort → List (NeighborPoint Double) → List (NeighborPoint Double)
  /-- Sorting loses and adds nothing. -/
  sort_perm : ∀ order points, (sort order points).Perm points

structure GeoEngine (Double : Type) where
  /-- `ZRangebyscore` between two scores. -/
  zRangebyscore : Bytes → Double → Double → EngineStatus × List (ScoreMember Double)
  zAdd : Bytes → List (ScoreMember Double) → EngineStatus
  /-- `ZScore`, where it succeeds. -/
  zScore : Bytes → Bytes → Option Double

section

variable {Double : Type}
variable (library : GeoLibrary Double) (engine : GeoEngine Double)

/-- The points of an area that are within the radius. -/
def pointsInRadius (position : GeoPosition Double)
    (members : List (ScoreMember Double)) : List (NeighborPoint Double) :=
  members.filterMap fun found =>
    (library.distanceIfInRadius position (library.decode found.score)).map fun distance =>
        { member := found.member, score := found.score, distance := distance }

/-- The loop over the areas.  `last_processed` is an index, and the index 0 of
the first area counts as none. -/
def searchAreas (key : Bytes) (position : GeoPosition Double) :
    List GeoHashBits → Nat → Option GeoHashBits → List (NeighborPoint Double) →
      Except TextLine (List (NeighborPoint Double))
  | [], _, _, result => .ok result
  | area :: areas, index, lastProcessed, result =>
    if area.bits = 0 ∧ area.step = 0 then
      searchAreas key position areas (index + 1) lastProcessed result
    else
      let next := { area with bits := area.bits + 1 }
      if lastProcessed = some next then
        searchAreas key position areas (index + 1) lastProcessed result
      else
        match engine.zRangebyscore key (library.align area) (library.align next) with
        | (.failed text, _) => .error text
        | (_, members) =>
          searchAreas key position areas (index + 1) (if index = 0 then none else some next)
            (result ++ pointsInRadius library position members)

/-- The position of a query with its distance in meters. -/
def inMeters (unit : Bytes) (position : GeoPosition Double) : GeoPosition Double :=
  { position with distance := library.toMeters unit position.distance }

/-- The points `GetAllNeighbors` finds. -/
def searchNeighbors (key unit : Bytes) (position : GeoPosition Double) :
    Except TextLine (List (NeighborPoint Double)) :=
  let position := inMeters library unit position
  searchAreas library engine key position (library.areas position) 0 none []

def countLimit (range : GeoRange) (size : Nat) : Int :=
  if range.count then
    if castInt32 size < range.countLimit then castInt32 size
    else range.countLimit
  else castInt32 size

def appendPoint (range : GeoRange) (unit : Bytes) (position : GeoPosition Double) (res : CmdRes)
    (point : NeighborPoint Double) : CmdRes :=
  let coordinates := library.decode point.score
  let res :=
    if range.optionNum ≠ 0 then res.appendArrayLen (range.optionNum + 1)
    else res
  let res := res.appendString point.member
  let res :=
    if range.withdist then res.appendString (library.distanceText position coordinates unit)
    else res
  let res := if range.withhash then res.appendInteger (library.hash point.score) else res
  if range.withcoord then
    ((res.appendArrayLen 2).appendString
      (library.d2string coordinates.1)).appendString (library.d2string coordinates.2)
  else res

/-- The members that are stored. -/
def storedMembers (range : GeoRange) (unit : Bytes)
    (points : List (NeighborPoint Double)) : List (ScoreMember Double) :=
  points.map fun point =>
    { score :=
        if range.store then point.score
        else library.lengthConverter point.distance unit
      member := point.member }

/-- `GetAllNeighbors` behind the search. -/
def answerPoints (range : GeoRange) (unit : Bytes)
    (position : GeoPosition Double) (result : List (NeighborPoint Double)) :
    CmdRes :=
  let limit := countLimit range result.length
  let points := (library.sort range.sort result).take limit.toNat
  if range.store || range.storedist then
    match engine.zAdd range.storekey (storedMembers library range unit points) with
    | .ok => CmdRes.create.appendInteger limit
    | .notFound text => CmdRes.create.setResContent .kErrOther text.text
    | .failed text => CmdRes.create.setResContent .kErrOther text.text
  else points.foldl (appendPoint library range unit position) (CmdRes.create.appendArrayLen limit)

def getAllNeighbors (range : GeoRange) (key unit : Bytes)
    (position : GeoPosition Double) : CmdRes :=
  match searchNeighbors library engine key unit position with
  | .error text => CmdRes.create.setResContent .kErrOther text.text
  | .ok result => answerPoints library engine range unit position result

/-- The position of a query; `Do` of GEORADIUSBYMEMBER takes it from the member,
if it is there. -/
def queryPosition (command : CommandName) (argv : List Bytes)
    (position : GeoPosition Double) : GeoPosition Double :=
  if command = .geoRadiusByMemberCmd then
    match engine.zScore (argument argv 1) (argument argv 2) with
    | none => position
    | some score =>
      { position with longitude := (library.decode score).1, latitude := (library.decode score).2 }
  else position

def unitIndex (command : CommandName) : Nat := if command = .geoRadiusByMemberCmd then 4 else 5

/-- The points that an accepted query finds. -/
def geoFound (position : GeoPosition Double) (command : CommandName)
    (argv : List Bytes) : Except TextLine (List (NeighborPoint Double)) :=
  searchNeighbors library engine (argument argv 1) (argument argv (unitIndex command))
    (queryPosition library engine command argv position)

/-- The reply to an accepted query. -/
def geoReply (position : GeoPosition Double) (command : CommandName)
    (argv : List Bytes) : Option CmdRes :=
  (acceptedRange command argv).map fun range =>
    getAllNeighbors library engine range (argument argv 1) (argument argv (unitIndex command))
      (queryPosition library engine command argv position)

end

/-! ## The options that were given -/

/-- An option of a radius query. -/
inductive GeoWord where
  | withdist | withhash | withcoord
  | count (limit : Nat)
  | store (key : Bytes)
  | storedist (key : Bytes)
  | asc | desc
  deriving DecidableEq

/-- The name of an option: of one that stands alone, or of one that is followed
by a value. -/
inductive GeoOption where
  | flag (word : GeoWord)
  | valued (word : Bytes → GeoWord)

/-- The option an argument names. -/
def geoOption (opt : Bytes) : Option GeoOption :=
  if sameWord opt "withdist" then some (.flag .withdist)
  else if sameWord opt "withhash" then some (.flag .withhash)
  else if sameWord opt "withcoord" then some (.flag .withcoord)
  else if sameWord opt "count" then some (.valued fun number => .count ((stoi number).getD 0))
  else if sameWord opt "store" then some (.valued .store)
  else if sameWord opt "storedist" then some (.valued .storedist)
  else if sameWord opt "asc" then some (.flag .asc)
  else if sameWord opt "desc" then some (.flag .desc)
  else none

/-- The options of a query, up to the first that is refused. -/
def geoWords : List Bytes → List GeoWord
  | [] => []
  | opt :: rest =>
    match geoOption opt with
    | none => []
    | some (.flag word) => word :: geoWords rest
    | some (.valued word) =>
      match rest with
      | [] => []
      | value :: rest => word value :: geoWords rest

/-- What an option does. -/
def GeoRange.give (range : GeoRange) : GeoWord → GeoRange
  | .withdist => { range with withdist := true, optionNum := range.optionNum + 1 }
  | .withhash => { range with withhash := true, optionNum := range.optionNum + 1 }
  | .withcoord => { range with withcoord := true, optionNum := range.optionNum + 1 }
  | .count limit => { range with count := true, countLimit := limit }
  | .store key => { range with store := true, storekey := key }
  | .storedist key => { range with storedist := true, storekey := key }
  | .asc => { range with sort := .asc }
  | .desc => { range with sort := .desc }

/-- One round of the loop over the options. -/
theorem geoOptions_cons (opt : Bytes) (rest : List Bytes) (range : GeoRange) :
    geoOptions (opt :: rest) range = match geoOption opt with
      | none => some (.error .kSyntaxErr)
      | some (.flag word) => geoOptions rest (range.give word)
      | some (.valued word) =>
        match rest with
        | [] => some (.error .kSyntaxErr)
        | value :: rest =>
          if sameWord opt "count" then
            if value.all fun byte => (byteDigit byte).isSome then
              (stoi value).bind fun limit => geoOptions rest (range.give (.count limit))
            else some (.error (.kErrOther "value is not an integer or out of range"))
          else geoOptions rest (range.give (word value)) := by
  -- The round is the chain of the tests of the words, once the list of the rest is known.
  cases rest <;>
    change ite _ _ (ite _ _ (ite _ _ (ite _ _ (ite _ _ (ite _ _ (ite _ _ (ite _ _ _))))))) = _ <;>
    rw [geoOption] <;> repeat first | rfl | generalize sameWord opt _ = same; cases same

theorem geoOption_eq_count (count : sameWord opt "count" = true)
    (named : geoOption opt = some (.valued word)) :
    word = fun number => .count ((stoi number).getD 0) := by
  unfold geoOption at named
  split_ifs at named <;> cases named
  rfl

/-- An accepted list of options does what its options do, one after the
other. -/
theorem foldl_give_of_geoOptions (accepted : geoOptions options range = some (.ok result)) :
    (geoWords options).foldl GeoRange.give range = result := by
  fun_induction geoWords options generalizing range with
  | case1 => exact Except.ok.inj (Option.some.inj accepted)
  | case2 opt rest named =>
    rw [geoOptions_cons, named] at accepted
    cases accepted
  | case3 opt rest word named ih =>
    rw [geoOptions_cons, named] at accepted
    exact ih accepted
  | case4 opt word named =>
    rw [geoOptions_cons, named] at accepted
    cases accepted
  | case5 opt word named value rest ih =>
    rw [geoOptions_cons, named] at accepted
    apply ih
    dsimp only at accepted
    split_ifs at accepted with count
    · obtain ⟨limit, read, accepted⟩ := Option.bind_eq_some_iff.mp accepted
      simp only [geoOption_eq_count count named, read]
      exact accepted
    · cases accepted
    · exact accepted

/-- An option that stores the answer. -/
def GeoWord.stores : GeoWord → Bool
  | .store _ | .storedist _ => true
  | _ => false

/-- The number that an option limits the answer to. -/
def GeoWord.limit : GeoWord → Option Nat
  | .count limit => some limit
  | _ => none

/-- The number that options limit the answer to. -/
def geoLimit (words : List GeoWord) : Option Nat := (words.filterMap GeoWord.limit).getLast?

/-- No option asks for a value that another option asks for. -/
def AsksOnce (words : List GeoWord) : Prop :=
  words.count .withdist ≤ 1 ∧ words.count .withhash ≤ 1 ∧ words.count .withcoord ≤ 1

instance (words : List GeoWord) : Decidable (AsksOnce words) :=
  inferInstanceAs (Decidable (_ ∧ _))

/-- A record is what the options make of a cleared one. -/
structure GeoRange.Reflects (words : List GeoWord) (range : GeoRange) : Prop where
  withdist : range.withdist = decide (.withdist ∈ words)
  withhash : range.withhash = decide (.withhash ∈ words)
  withcoord : range.withcoord = decide (.withcoord ∈ words)
  optionNum : range.optionNum = words.count .withdist +
    words.count .withhash + words.count .withcoord
  stores : (range.store || range.storedist) = words.any GeoWord.stores
  limit : (if range.count then some range.countLimit else none) = geoLimit words

theorem GeoRange.Reflects.clear : GeoRange.clear.Reflects [] where
  withdist := rfl
  withhash := rfl
  withcoord := rfl
  optionNum := rfl
  stores := rfl
  limit := rfl

/-- One more option is one more word. -/
theorem GeoRange.Reflects.give {range : GeoRange}
    (reflects : range.Reflects words) (word : GeoWord) :
    (range.give word).Reflects (words ++ [word]) := by
  obtain ⟨withdist, withhash, withcoord, optionNum, stores, limit⟩ := reflects
  cases word <;> constructor <;>
    simp_all [GeoRange.give, geoLimit, GeoWord.stores, GeoWord.limit] <;> omega

theorem GeoRange.Reflects.foldl_give {range : GeoRange}
    (reflects : range.Reflects words) (later : List GeoWord) :
    (later.foldl GeoRange.give range).Reflects (words ++ later) := by
  induction later generalizing words range with
  | nil =>
    rw [List.append_nil]
    exact reflects
  | cons word later ih =>
    have next := ih (reflects.give word)
    rw [List.append_assoc] at next
    exact next

def queryWords (command : CommandName) (argv : List Bytes) : List GeoWord :=
  geoWords (argv.drop (unitIndex command + 1))

theorem reflects_of_geoRadiusInitial
    (accepted : geoRadiusInitial command index argv = some (.ok range)) :
    range.Reflects (geoWords (argv.drop (index + 1))) := by
  unfold geoRadiusInitial at accepted
  split_ifs at accepted
  · obtain ⟨parsed, read, checked⟩ := Option.map_eq_some_iff.mp accepted
    cases parsed with
    | error code => cases checked
    | ok parsed =>
      have same : parsed = range := by
        simp only [Except.bind] at checked
        split_ifs at checked
        exact Except.ok.inj checked
      subst same
      rw [← foldl_give_of_geoOptions read]
      exact GeoRange.Reflects.clear.foldl_give _
  · cases accepted
  · cases accepted

theorem reflects_of_acceptedRange (accepted : acceptedRange command argv = some range) :
    range.Reflects (queryWords command argv) := by
  have initial : ∀ {index : Nat},
      (geoRadiusInitial command index argv).bind Except.toOption = some range →
        geoRadiusInitial command index argv = some (.ok range) := by
    intro index read
    obtain ⟨parsed, same, kept⟩ := Option.bind_eq_some_iff.mp read
    cases parsed with
    | error code => cases kept
    | ok parsed =>
      cases kept
      exact same
  unfold acceptedRange at accepted
  split at accepted
  · exact reflects_of_geoRadiusInitial (initial accepted)
  · exact reflects_of_geoRadiusInitial (initial accepted)
  · cases accepted

/-! ## The points of a query -/

/-- The areas that are read: those that are there, where each differs from the
one read before it. -/
def searchedAreas : List GeoHashBits → Nat → Option GeoHashBits → List GeoHashBits
  | [], _, _ => []
  | area :: areas, index, lastProcessed =>
    let next := { area with bits := area.bits + 1 }
    if area.bits = 0 ∧ area.step = 0 ∨ lastProcessed = some next then
      searchedAreas areas (index + 1) lastProcessed
    else area :: searchedAreas areas (index + 1) (if index = 0 then none else some next)

section

variable {Double : Type}
variable (library : GeoLibrary Double) (engine : GeoEngine Double)

/-- What the engine has in an area. -/
def areaRead (key : Bytes) (area : GeoHashBits) : EngineStatus × List (ScoreMember Double) :=
  engine.zRangebyscore key (library.align area)
    (library.align { area with bits := area.bits + 1 })

def queryAreas (position : GeoPosition Double) : List GeoHashBits :=
  searchedAreas (library.areas position) 0 none

/-- The points of a key that are within the radius. -/
def areaPoints (key : Bytes) (position : GeoPosition Double)
    (areas : List GeoHashBits) : List (NeighborPoint Double) :=
  areas.flatMap fun area => pointsInRadius library position (areaRead library engine key area).2

/-- The search fails at an area that cannot be read, and otherwise finds the
points of the areas that are read. -/
theorem searchAreas_eq_ok_iff :
    searchAreas library engine key position areas index lastProcessed result = .ok points ↔
      (∀ area ∈ searchedAreas areas index lastProcessed,
        (areaRead library engine key area).1.Found) ∧
      result ++ areaPoints library engine key position
        (searchedAreas areas index lastProcessed) = points := by
  induction areas generalizing index lastProcessed result with
  | nil => simp [searchAreas, searchedAreas, areaPoints]
  | cons area areas ih =>
    simp only [searchAreas, searchedAreas]
    by_cases empty : area.bits = 0 ∧ area.step = 0
    · rw [if_pos empty, if_pos (Or.inl empty)]
      exact ih
    rw [if_neg empty]
    by_cases again : lastProcessed = some { area with bits := area.bits + 1 }
    · rw [if_pos again, if_pos (Or.inr again)]
      exact ih
    rw [if_neg again, if_neg (not_or.mpr ⟨empty, again⟩)]
    have read : areaRead library engine key area = engine.zRangebyscore key (library.align area)
          (library.align { area with bits := area.bits + 1 }) := rfl
    rw [← read]
    rcases found : areaRead library engine key area with ⟨status, members⟩
    cases status with
    | failed text => simp [found, EngineStatus.Found]
    | ok => simp [ih, found, EngineStatus.Found, areaPoints]
    | notFound text => simp [ih, found, EngineStatus.Found, areaPoints]

end

end Pika.Command
