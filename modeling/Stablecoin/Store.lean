import Stablecoin.Params
import Stablecoin.Records
import Stablecoin.Table

/-!
# The store

All records of the engine, each under the denomination, or the owner and denomination, that it
names itself.
-/
namespace Stablecoin

structure Store where
  params : Params
  /-- The block in which the backing ratio was last adjusted. -/
  ratioAdjustedAt : Height
  backingParams : Table Denom BackingParams
  collateralParams : Table Denom CollateralParams
  backingPools : Table Denom BackingPool
  backingTotal : Option BackingTotal
  collateralPools : Table Denom CollateralPool
  collateralTotal : Option CollateralTotal
  positions : Table (Principal × Denom) Position
  deriving DecidableEq

/-- The records that a swap touches. -/
structure BackingRecords where
  total : BackingTotal
  pool : BackingPool
  deriving DecidableEq, Repr

/-- The records that a transaction writes. -/
inductive RecordUpdate where
  | backing (records : BackingRecords)
  | position (records : PositionRecords)
  deriving DecidableEq, Repr

namespace Store

/-- A store with parameters and nothing else. -/
def new (params : Params) : Store where
  params := params
  ratioAdjustedAt := 0
  backingParams := .empty
  collateralParams := .empty
  backingPools := .empty
  backingTotal := none
  collateralPools := .empty
  collateralTotal := none
  positions := .empty

def setBackingParams (s : Store) (params : BackingParams) : Store :=
  { s with backingParams := s.backingParams.insert params.denom params }

def setCollateralParams (s : Store) (params : CollateralParams) : Store :=
  { s with collateralParams := s.collateralParams.insert params.denom params }

def setBackingPool (s : Store) (pool : BackingPool) : Store :=
  { s with backingPools := s.backingPools.insert pool.backing.denom pool }

def setCollateralPool (s : Store) (pool : CollateralPool) : Store :=
  { s with collateralPools := s.collateralPools.insert pool.collateral.denom pool }

def setPosition (s : Store) (position : Position) : Store :=
  { s with
    positions := s.positions.insert (position.owner, position.collateral.denom) position }

/-- The store after a transaction's writes. -/
def update (s : Store) : RecordUpdate → Store
  | .backing records => { s.setBackingPool records.pool with backingTotal := some records.total }
  | .position records =>
    ({ s with collateralTotal := some records.total }.setCollateralPool records.pool).setPosition
      records.position

end Store

end Stablecoin
