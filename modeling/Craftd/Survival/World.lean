import Mathlib.Data.BitVec
import Mathlib.Data.Int.Bitwise
import Mathlib.Data.Nat.Digits.Defs
import Mathlib.Data.Rat.Init

/-!
# Worlds and players

A translation of the parts of `World.c` and `Player.c` that create a player and
put it into a world or take it out.  Players live in a heap and are named by
pointers; a world keeps them in `players` by username and in `entities` by id.

`CD_HashGet`, `CD_HashPut` and `CD_HashDelete` are those of a partial function
on C strings: a key ends at its first NUL.  `CDMap` is the same over ids.

An operation that does not come to an end, fails an assertion or goes through a
missing pointer has no outcome, and `Fault` says which.
-/

namespace Craftd.Survival

/-- A byte of a string. -/
abbrev Byte := BitVec 8

/-- `SVInteger`, where its size does not matter. -/
abbrev SVInteger := ℤ

/-- `SVEntityId`, an `SVInteger`. -/
abbrev SVEntityId := BitVec 32

/-- `SVDouble`; a finite one is a rational number. -/
inductive SVDouble
  | finite (value : ℚ)
  | infinite (negative : Bool)
  | nan
  deriving DecidableEq, Repr

/-- Why an operation has no outcome. -/
inductive Fault
  /-- `Client.player` is NULL and is followed -/
  | missingPlayer
  /-- the world of a player is NULL and is followed -/
  | missingWorld
  /-- an assertion fails -/
  | assertion
  /-- a loop does not end -/
  | endless
  /-- another undefined behaviour -/
  | undefined
  deriving DecidableEq, Repr

/-- `SVPrecisePosition`. -/
structure SVPrecisePosition where
  x : SVDouble
  y : SVDouble
  z : SVDouble
  deriving DecidableEq, Repr

/-- `SVChunkPosition`. -/
structure SVChunkPosition where
  x : SVInteger
  z : SVInteger
  deriving DecidableEq, Repr

/-- The conversion of a double to an `SVInteger`, towards zero; where the result does not fit it
is up to the machine. -/
def SVDouble.toInteger (machine : SVDouble → SVInteger) : SVDouble → SVInteger
  | .finite value =>
      let whole := value.num.tdiv value.den
      if -2 ^ 31 ≤ whole ∧ whole < 2 ^ 31 then whole else machine (.finite value)
  | value => machine value

/-- `SV_PrecisePositionToChunkPosition`. -/
def precisePositionToChunkPosition (machine : SVDouble → SVInteger)
    (position : SVPrecisePosition) : SVChunkPosition :=
  { x := SVDouble.toInteger machine position.x >>> 4
    z := SVDouble.toInteger machine position.z >>> 4 }

/-- `SVPlayer`, with its dynamic property `Player.seenPlayers`. -/
structure SVPlayer (Client Player World : Type*) where
  client : Client
  id : SVEntityId
  position : SVPrecisePosition
  username : Option (List Byte)
  world : Option World
  seenPlayers : Option (List Player)

/-- `SVWorldError`. -/
inductive SVWorldError
  | unknown
  | usernameTaken
  deriving DecidableEq, Repr

/-- `SVWorld`. -/
structure SVWorld (Player : Type*) where
  players : List Byte → Option Player
  entities : SVEntityId → Option Player
  lastGeneratedEntityId : SVEntityId
  error : Option SVWorldError

/-- The players, the worlds, whether the server is in standard mode, and what the machine makes of
doubles that do not fit into an `SVInteger`. -/
structure Game (Client Player World : Type*) where
  player : Player → SVPlayer Client Player World
  world : World → SVWorld Player
  standard : Bool
  machine : SVDouble → SVInteger

variable {Client Player World : Type*}

/-- `SV_CreatePlayer`. -/
def createPlayer (client : Client) : SVPlayer Client Player World where
  client := client
  id := 0
  position := ⟨.finite 0, .finite 0, .finite 0⟩
  username := none
  world := none
  seenPlayers := none

/-- `SV_CreateWorld`. -/
def createWorld : SVWorld Player where
  players := fun _ => none
  entities := fun _ => none
  lastGeneratedEntityId := 0
  error := none

/-! ## Strings -/

/-- The C string at the start of a content. -/
def stringContent (content : List Byte) : List Byte := content.takeWhile (· ≠ 0)

/-- `%d` of a positive number. -/
def decimal (value : ℕ) : List Byte :=
  (Nat.digits 10 value).reverse.map fun digit => BitVec.ofNat 8 (48 + digit)

/-- The bound that `CD_CreateStringFromFormatList` gives `bvcformata`. -/
def formatLimit : ℕ := 9001

/-- `CD_CreateStringFromFormat`, by what the format prints: `bvcformata` leaves the string empty
where it would not fit. -/
def createStringFromFormat (printed : List Byte) : List Byte :=
  if printed.length ≤ formatLimit then printed else []

/-- The format `%s^%d`. -/
def uniqueUsername (baseUsername : List Byte) (count : ℕ) : List Byte :=
  createStringFromFormat (stringContent baseUsername ++ 0x5E :: decimal count)

/-! ## Operations -/

/-- The largest `SVInteger`. -/
def integerMax : ℕ := 2 ^ 31 - 1

/-- `SV_WorldGenerateEntityId`; a counter at its end cannot be raised. -/
def generateEntityId (self : SVWorld Player) : Option SVEntityId :=
  if self.lastGeneratedEntityId = 0 then some 10
  else if self.lastGeneratedEntityId.toNat = integerMax then none
  else some (self.lastGeneratedEntityId + 1)

/-- `CD_HashHasKey` on the players of a world. -/
def SVWorld.hasPlayer (self : SVWorld Player) (username : List Byte) : Bool :=
  (self.players (stringContent username)).isSome

/-- The loop of `SV_WorldAddPlayer` that adds an increment on the username; `count` is an `int`,
which ends the loop's rounds if nothing else does. -/
def renameLoop (self : SVWorld Player) (baseUsername : List Byte) : ℕ → ℕ → Option (List Byte)
  | 0, _ => none
  | rounds + 1, count =>
      let username := uniqueUsername baseUsername count
      if self.hasPlayer username then renameLoop self baseUsername rounds (count + 1)
      else some username

section Operations

variable [DecidableEq Player] [DecidableEq World]

namespace Game

/-- Replace one player. -/
def setPlayer (self : Game Client Player World) (player : Player)
    (value : SVPlayer Client Player World) : Game Client Player World :=
  { self with player := Function.update self.player player value }

omit [DecidableEq Player] in
/-- Replace one world. -/
def setWorld (self : Game Client Player World) (world : World) (value : SVWorld Player) :
    Game Client Player World :=
  { self with world := Function.update self.world world value }

end Game

/-- The end of `SV_WorldAddPlayer`: the player gets the world and an id, and is put into both
maps. -/
def putPlayer (self : Game Client Player World) (world : World) (player : Player)
    (username : List Byte) : Except Fault (Game Client Player World × Bool) :=
  match generateEntityId (self.world world) with
  | none => .error .undefined
  | some id =>
      let self := self.setPlayer player
        { self.player player with username := some username, world := some world, id := id }
      let self := self.setWorld world { self.world world with
        players := Function.update (self.world world).players (stringContent username) (some player)
        entities := Function.update (self.world world).entities id (some player)
        lastGeneratedEntityId := id }
      .ok (self, true)

/-- `SV_WorldAddPlayer`. -/
def worldAddPlayer (self : Game Client Player World) (world : World) (player : Player) :
    Except Fault (Game Client Player World × Bool) :=
  if (self.player player).id ≠ 0 then .error .assertion
  else
    match (self.player player).username with
    | none => .error .undefined
    | some username =>
        if (self.world world).hasPlayer username then
          if self.standard then
            .ok (self.setWorld world { self.world world with error := some .usernameTaken }, false)
          else
            match renameLoop (self.world world) username (integerMax - 1) 1 with
            | none => .error .endless
            | some username => putPlayer self world player username
        else putPlayer self world player username

/-- `SV_WorldRemovePlayer`. -/
def worldRemovePlayer (self : Game Client Player World) (world : World) (player : Player) :
    Except Fault (Game Client Player World) :=
  if (self.player player).world ≠ some world then .error .assertion
  else
    match (self.player player).username with
    | none => .error .undefined
    | some username =>
        .ok (self.setWorld world { self.world world with
          players := Function.update (self.world world).players (stringContent username) none
          entities := Function.update (self.world world).entities (self.player player).id none })

end Operations

end Craftd.Survival
