import FamiliarAi.Core.Reservation
import FamiliarAi.Relational.Query
import FamiliarAi.Relational.Table
import Mathlib.Data.List.Sort

/-!
# The typed resource reservation ledger

The tables of migration 042 and the operations of the reservation repository over them, statement
by statement. Amounts that come from a caller are `u64` in the source and natural numbers here;
`sqlAmount` refuses what does not fit a durable integer, as the source does.

Columns that only hold the wall clock (`acquired_at`, `resolved_at`, `recorded_at`, `occurred_at`)
are written and never read by the ledger and are left out. The ledger carries one component the
database does not have: `credits`, the record of every amount an operation asked a pool to take
back. It is written where the `UPDATE` that returns capacity runs and read by no operation.
-/

namespace FamiliarAi

open Relational

/-! ### Tables -/

/-- The primary key of a pool. -/
structure PoolKey where
  poolId : String
  resourceType : String
  deriving DecidableEq

/-- The order in which the items of a reservation are read. -/
def PoolKey.Before (k k' : PoolKey) : Prop :=
  k.poolId < k'.poolId ∨ k.poolId = k'.poolId ∧ k.resourceType ≤ k'.resourceType

instance : DecidableRel PoolKey.Before :=
  fun k k' ↦ inferInstanceAs
    (Decidable (k.poolId < k'.poolId ∨ k.poolId = k'.poolId ∧ k.resourceType ≤ k'.resourceType))

/-- A row of `resource_pools`. -/
structure PoolRow where
  key : PoolKey
  capacity : ℤ
  available : ℤ
  renewable : Bool
  deriving DecidableEq

/-- `resource_pools`: nothing is negative, and no more is available than there is. -/
def poolSchema : Schema PoolRow where
  check p := decide (0 ≤ p.capacity) && decide (0 ≤ p.available) && decide (p.available ≤ p.capacity)
  clash p p' := decide (p.key = p'.key)

/-- The states of `resource_reservations`. -/
inductive ReservationState
  | held
  | committed
  | released
  | expired
  | recovered
  deriving DecidableEq

/-- The durable spelling of a state, which is also the type of the event it is entered with. -/
def ReservationState.asStr : ReservationState → String
  | held => "held"
  | committed => "committed"
  | released => "released"
  | expired => "expired"
  | recovered => "recovered"

/-- A row of `resource_reservations`. -/
structure ReservationRow where
  reservationId : String
  owner : ReservationOwnerIdentity
  state : ReservationState
  arrivalSequence : ℕ
  expiresAt : Option String
  unknownConsumption : Bool := false
  overrun : Bool := false
  deriving DecidableEq

/-- `resource_reservations`: the id, the owner instance and the arrival number are each unique. -/
def reservationSchema : Schema ReservationRow where
  clash r r' := decide (r.reservationId = r'.reservationId) ||
    decide (r.owner.ownerInstanceId = r'.owner.ownerInstanceId) ||
    decide (r.arrivalSequence = r'.arrivalSequence)

/-- A row of `resource_reservation_items`. -/
structure ItemRow where
  reservationId : String
  pool : PoolKey
  requestedAmount : ℕ
  grantedAmount : ℕ
  observedAmount : Option ℕ := none
  overrunAmount : ℕ := 0
  deriving DecidableEq

/-- `resource_reservation_items`: amounts are positive, one item for each reservation and pool. -/
def itemSchema : Schema ItemRow where
  check i := decide (0 < i.requestedAmount) && decide (0 < i.grantedAmount)
  clash i i' := decide (i.reservationId = i'.reservationId) && decide (i.pool = i'.pool)

/-- A row of `reservation_liveness_evidence`. -/
structure LivenessRow where
  reservationId : String
  ownerInstanceId : String
  nonceOrGeneration : String
  resolution : OwnerLiveness
  provenance : String
  observedAt : String
  deriving DecidableEq

structure EventRow where
  reservationId : String
  eventType : String
  actor : String
  detail : String
  deriving DecidableEq

/-- An amount that an operation asked a pool to take back on behalf of a reservation. -/
structure Credit where
  reservationId : String
  pool : PoolKey
  amount : ℕ
  deriving DecidableEq

/-- The durable ledger, and the record of the returned amounts. -/
structure Ledger where
  pools : Table poolSchema
  reservations : Table reservationSchema
  items : Table itemSchema
  evidence : List LivenessRow
  events : List EventRow
  /-- Ghost: what has been returned so far. No operation reads it. -/
  credits : List Credit
  deriving DecidableEq

abbrev LedgerQuery (α : Type) := Query Ledger FamiliarError α

namespace Ledger

/-- The ledger the migration creates. -/
def empty : Ledger where
  pools := Table.empty
  reservations := Table.empty
  items := Table.empty
  evidence := []
  events := []
  credits := []

def reservation (L : Ledger) (id : String) : Option ReservationRow :=
  L.reservations.find fun r ↦ r.reservationId = id

def stateOf (L : Ledger) (id : String) : Option ReservationState :=
  (L.reservation id).map (·.state)

/-- What the ledger has asked a pool to take back on behalf of a reservation. -/
def returned (L : Ledger) (id : String) (key : PoolKey) : ℕ :=
  (L.credits.map fun c ↦ if c.reservationId = id ∧ c.pool = key then c.amount else 0).sum

end Ledger

/-- The engine's answer to a write that violates a constraint. -/
def constraintFailed : FamiliarError := .database "constraint failed"

/-- `INT64_MAX`. -/
def maxSqlAmount : ℕ := 2 ^ 63 - 1

/-- An amount as a durable integer. -/
def sqlAmount (value : ℕ) : Except FamiliarError ℕ :=
  if value ≤ maxSqlAmount then .ok value
  else .error (.config "resource amount exceeds durable integer range")

/-- A row of `event`s refers to a reservation. -/
def event (id kind actor detail : String) : LedgerQuery Unit :=
  .write constraintFailed fun L ↦
    if (L.reservation id).isSome then
      some { L with events := L.events ++ [⟨id, kind, actor, detail⟩] }
    else
      none

/-- Only a reservation in the state `held` may be resolved, retained or renewed. -/
def requireHeld (id : String) : LedgerQuery Unit := do
  let state ← .read fun L ↦ L.stateOf id
  match state with
  | some .held => pure ()
  | some _ => .fail (.database "reservation is already terminal")
  | none => .fail (.database "reservation does not exist")

/-- A granted amount, as `acquire` reports it and as `reservation_items` reads it back. -/
structure ReservationGrantItem where
  poolId : String
  resourceType : ResourceType
  requestedAmount : ℕ
  grantedAmount : ℕ
  deriving DecidableEq

def ReservationGrantItem.key (g : ReservationGrantItem) : PoolKey :=
  ⟨g.poolId, g.resourceType.asStr⟩

/-- The items of a reservation, ordered by pool and resource type. -/
def Ledger.reservationItems (L : Ledger) (id : String) : List ReservationGrantItem :=
  ((L.items.rows.filter fun i ↦ i.reservationId = id).insertionSort
      fun i i' ↦ i.pool.Before i'.pool).map fun i ↦
    { poolId := i.pool.poolId
      resourceType := .parse i.pool.resourceType
      requestedAmount := i.requestedAmount
      grantedAmount := i.grantedAmount }

/-- `UPDATE resource_pools SET available=available+?1`, on behalf of a reservation. -/
def creditPool (id : String) (key : PoolKey) (amount : ℕ) : LedgerQuery Unit := do
  let amount ← .ofExcept (sqlAmount amount)
  .write constraintFailed fun L ↦
    (L.pools.update (fun p ↦ p.key = key)
      fun p ↦ { p with available := p.available + amount }).map fun pools ↦
        { L with pools := pools, credits := L.credits ++ [⟨id, key, amount⟩] }

/-- `UPDATE resource_reservations … WHERE reservation_id=?`. -/
def updateReservation (id : String) (f : ReservationRow → ReservationRow) : LedgerQuery Unit :=
  .write constraintFailed fun L ↦
    (L.reservations.update (fun r ↦ r.reservationId = id) f).map fun reservations ↦
      { L with reservations := reservations }

/-! ### Operations -/

/-- `INSERT … ON CONFLICT DO UPDATE`: the available amount moves with the capacity, and the row is
left as it was when that would make it negative. -/
def upsertPool (pools : Table poolSchema) (key : PoolKey) (capacity : ℤ) (renewable : Bool) :
    Option (Table poolSchema) :=
  match pools.find fun p ↦ p.key = key with
  | none => pools.insert ⟨key, capacity, capacity, renewable⟩
  | some _ => pools.update
      (fun p ↦ decide (p.key = key) && decide (0 ≤ p.available + (capacity - p.capacity)))
      fun p ↦ ⟨key, capacity, p.available + (capacity - p.capacity), renewable⟩

def definePool (poolId : String) (resourceType : ResourceType) (capacity : ℕ) (renewable : Bool) :
    LedgerQuery Unit := do
  let capacity ← .ofExcept (sqlAmount capacity)
  .write constraintFailed fun L ↦
    (upsertPool L.pools ⟨poolId, resourceType.asStr⟩ capacity renewable).map fun pools ↦
      { L with pools := pools }

/-- Requests must be non-empty, positive and unique by pool and resource. -/
def validateRequests (requests : List ResourceRequest) : Except FamiliarError Unit :=
  if requests.isEmpty || requests.any (·.amount == 0) ||
      !decide (requests.map fun r ↦ (r.poolId, r.resourceType)).Nodup then
    .error (.config "reservation requests must be non-empty, positive, and unique by pool/resource")
  else
    .ok ()

/-- What `acquire` answers when it does not fail. -/
inductive AcquireOutcome
  | granted (reservationId : String) (arrivalSequence : ℕ) (items : List ReservationGrantItem)
  | refused (unavailable : List ResourceRequest)
  deriving DecidableEq

def assess (mode : GrantMode) : List ResourceRequest →
    LedgerQuery (List ResourceRequest × List ReservationGrantItem)
  | [] => pure ([], [])
  | request :: requests => do
    let available ← .read fun L ↦ L.pools.find fun p ↦
      p.key = ⟨request.poolId, request.resourceType.asStr⟩
    -- `unwrap_or(0).max(0) as u64`: no pool counts as an exhausted one
    let available := (available.elim 0 (·.available)).toNat
    let granted := match mode with
      | .allOrNothing => request.amount
      | .partialGrant => min request.amount available
    let (unavailable, grants) ← assess mode requests
    pure (if available < request.amount then request :: unavailable else unavailable,
      if 0 < granted then
        ⟨request.poolId, request.resourceType, request.amount, granted⟩ :: grants
      else grants)

def PoolRow.covers (p : PoolRow) (key : PoolKey) (amount : ℕ) : Bool :=
  decide (p.key = key) && decide ((amount : ℤ) ≤ p.available)

def takeGrant (reservationId : String) (grant : ReservationGrantItem) : LedgerQuery Unit := do
  let amount ← .ofExcept (sqlAmount grant.grantedAmount)
  let changed ← .change constraintFailed fun L ↦
    (L.pools.update (·.covers grant.key amount)
      fun p ↦ { p with available := p.available - amount }).map fun pools ↦
        (L.pools.count (·.covers grant.key amount), { L with pools := pools })
  .ensure (changed = 1) (.database "resource capacity changed during atomic acquisition")
  let requested ← .ofExcept (sqlAmount grant.requestedAmount)
  .write constraintFailed fun L ↦
    -- the two foreign keys of an item
    if (L.reservation reservationId).isSome ∧ 0 < L.pools.count (fun p ↦ p.key = grant.key) then
      (L.items.insert
        { reservationId := reservationId, pool := grant.key, requestedAmount := requested,
          grantedAmount := amount }).map fun items ↦ { L with items := items }
    else
      none

/-- The detail text of an acquisition event. -/
def GrantMode.detail : GrantMode → String
  | allOrNothing => "all-or-nothing"
  | partialGrant => "partial"

/-- Grant every request, or none; in partial mode, whatever positive remainder there is. `random`
is the random suffix of the reservation id, or `none` when the generator fails. -/
def acquire (random : Option String) (owner : ReservationOwnerIdentity)
    (requests : List ResourceRequest) (mode : GrantMode) (expiresAt : Option String) :
    LedgerQuery AcquireOutcome := do
  .ofExcept owner.validate
  .ofExcept (validateRequests requests)
  .transactionWith do
    let (unavailable, grants) ← assess mode requests
    if (unavailable ≠ [] ∧ mode = .allOrNothing) ∨ grants = [] then
      pure (.rollback (.refused unavailable))
    else
      let hex ← .ofExcept (match random with
        | some hex => .ok hex
        | none => .error (.database "secure random generation failed"))
      let reservationId := "res_" ++ hex
      let sequence ← .read fun L ↦
        (L.reservations.rows.map (·.arrivalSequence)).foldr max 0 + 1
      .write constraintFailed fun L ↦
        (L.reservations.insert
          { reservationId := reservationId, owner := owner, state := .held,
            arrivalSequence := sequence, expiresAt := expiresAt }).map fun reservations ↦
              { L with reservations := reservations }
      .forEach grants (takeGrant reservationId)
      event reservationId "acquired" owner.ownerInstanceId mode.detail
      pure (.commit (.granted reservationId sequence grants))

/-- What was observed about the consumption of a reservation. -/
inductive SettlementObservation
  | known (amounts : List ResourceRequest)
  | unknown (policy : UnknownConsumptionPolicy)
  deriving DecidableEq

/-- What `settle` answers. -/
structure SettlementResult where
  state : String
  unknownConsumption : Bool
  overrun : Bool
  deriving DecidableEq

def SettlementObservation.observed (observation : SettlementObservation)
    (item : ReservationGrantItem) : ℕ :=
  match observation with
  | .known amounts => ((amounts.find? fun v ↦
      decide (v.poolId = item.poolId) && decide (v.resourceType = item.resourceType)).map
        (·.amount)).getD item.grantedAmount
  | .unknown _ => item.grantedAmount

/-- Settle the items one by one: return what was not consumed and record what was. The result says
whether any item was overrun. -/
def settleItems (id : String) (observation : SettlementObservation) :
    List ReservationGrantItem → LedgerQuery Bool
  | [] => pure false
  | item :: items => do
    let observed := observation.observed item
    let overrun := observed - item.grantedAmount
    let returned := item.grantedAmount - observed
    creditPool id item.key returned
    let observed ← .ofExcept (sqlAmount observed)
    let overrun ← .ofExcept (sqlAmount overrun)
    .write constraintFailed fun L ↦
      (L.items.update (fun i ↦ i.reservationId = id ∧ i.pool = item.key)
        fun i ↦ { i with observedAmount := some observed, overrunAmount := overrun }).map
          fun items ↦ { L with items := items }
    let rest ← settleItems id observation items
    pure (decide (0 < overrun) || rest)

/-- Settle a reservation. Unknown consumption either keeps it held or counts as consumed in
full. -/
def settle (id : String) (observation : SettlementObservation) (actor : String) :
    LedgerQuery SettlementResult :=
  .transaction do
    requireHeld id
    if observation = .unknown .holdReservation then
      updateReservation id fun r ↦ { r with unknownConsumption := true }
      event id "unknown-consumption-held" actor "reservation retained conservatively"
      pure ⟨"held", true, false⟩
    else
      have unknown := match observation with
        | .unknown _ => true
        | .known _ => false
      let items ← .read fun L ↦ L.reservationItems id
      let anyOverrun ← settleItems id observation items
      updateReservation id fun r ↦
        { r with state := .committed, unknownConsumption := unknown, overrun := anyOverrun }
      event id "committed" actor
        (if anyOverrun then "observed consumption overran reservation"
        else if unknown then "unknown consumption settled at reserved amount"
        else "observed consumption settled")
      pure ⟨"committed", unknown, anyOverrun⟩

/-- `commit`: settle at the observed amounts. -/
def commit (id : String) (observed : List ResourceRequest) (actor : String) :
    LedgerQuery SettlementResult :=
  settle id (.known observed) actor

/-- Move a held reservation to a terminal state and return everything it was granted. -/
def resolveReturning (id : String) (state : ReservationState) (actor detail : String) :
    LedgerQuery Unit :=
  .transaction do
    requireHeld id
    let items ← .read fun L ↦ L.reservationItems id
    .forEach items fun item ↦ creditPool id item.key item.grantedAmount
    updateReservation id fun r ↦ { r with state := state }
    event id state.asStr actor detail

def release (id actor : String) : LedgerQuery Unit :=
  resolveReturning id .released actor "explicit release"

/-- The held reservations whose deadline has passed, in the order in which they expire. -/
def Ledger.dueIds (L : Ledger) (now : String) : List String :=
  ((L.reservations.rows.filter fun r ↦
      decide (r.state = .held) && r.expiresAt.any fun deadline ↦ decide (deadline ≤ now)).insertionSort
    fun r r' ↦ r.expiresAt.getD "" < r'.expiresAt.getD "" ∨
      r.expiresAt.getD "" = r'.expiresAt.getD "" ∧ r.arrivalSequence ≤ r'.arrivalSequence).map
    (·.reservationId)

/-- Expire one due reservation. -/
def expireOne (id : String) : LedgerQuery Unit :=
  resolveReturning id .expired "expiry" "deadline passed"

def expireDue (now : String) : LedgerQuery (List String) := do
  let ids ← .read fun L ↦ L.dueIds now
  .forEach ids expireOne
  pure ids

/-- The Unicode `White_Space` property, by which `str::trim` trims. -/
def isWhiteSpace (c : Char) : Bool :=
  let n := c.toNat
  (9 ≤ n && n ≤ 13) || n == 0x20 || n == 0x85 || n == 0xA0 || n == 0x1680 ||
    (0x2000 ≤ n && n ≤ 0x200A) || n == 0x2028 || n == 0x2029 || n == 0x202F || n == 0x205F ||
    n == 0x3000

/-- Nothing is left of the text once it is trimmed. -/
def isBlank (s : String) : Bool :=
  s.toList.all isWhiteSpace

/-- Push the deadline of a reservation back. It needs renewable pools throughout and a reason. -/
def renew (id newExpiry actor justification : String) : LedgerQuery Unit :=
  .transaction do
    requireHeld id
    let nonrenewable ← .read fun L ↦ L.items.count fun i ↦
      decide (i.reservationId = id) && L.pools.rows.any fun p ↦ decide (p.key = i.pool) && !p.renewable
    .ensure (¬(nonrenewable ≠ 0 ∨ isBlank justification)) (.config
      "renewal requires renewable resources and an explicit justification")
    updateReservation id fun r ↦
      if r.expiresAt.all fun deadline ↦ decide (deadline < newExpiry) then
        { r with expiresAt := some newExpiry }
      else r
    event id "renewed" actor justification

def observeLiveness (id : String) (evidence : OwnerLivenessEvidence) : LedgerQuery Unit :=
  .transaction do
    let row ← .read fun L ↦ L.reservation id
    match row with
    | none => .fail (.database "Query returned no rows")
    | some row =>
      .ensure (row.owner.ownerInstanceId = evidence.ownerInstanceId ∧
          row.owner.nonceOrGeneration = evidence.nonceOrGeneration)
        (.config "liveness evidence does not identify the exact reservation owner instance")
      .write constraintFailed fun L ↦ some { L with
        evidence := L.evidence ++ [⟨id, evidence.ownerInstanceId, evidence.nonceOrGeneration,
          evidence.resolution, evidence.provenance, evidence.observedAt⟩] }
      event id "liveness-observed" evidence.provenance evidence.resolution.asStr

/-- Recover a reservation from its owner. The observation is committed first; only then, and only
if the owner is provably dead, is the reservation returned. -/
def recover (id : String) (evidence : OwnerLivenessEvidence) : LedgerQuery Bool := do
  observeLiveness id evidence
  if evidence.resolution = .provablyDead then
    resolveReturning id .recovered evidence.provenance "exact owner instance provably dead"
    pure true
  else
    pure false

/-- One call of a ledger operation. -/
inductive LedgerCall
  | definePool (poolId : String) (resourceType : ResourceType) (capacity : ℕ) (renewable : Bool)
  | acquire (random : Option String) (owner : ReservationOwnerIdentity)
      (requests : List ResourceRequest) (mode : GrantMode) (expiresAt : Option String)
  | settle (id : String) (observation : SettlementObservation) (actor : String)
  | commit (id : String) (observed : List ResourceRequest) (actor : String)
  | release (id actor : String)
  | expireDue (now : String)
  | renew (id newExpiry actor justification : String)
  | recover (id : String) (evidence : OwnerLivenessEvidence)

/-- What a successful call answers. -/
inductive LedgerAnswer
  | done
  | acquired (outcome : AcquireOutcome)
  | settled (result : SettlementResult)
  | expired (ids : List String)
  | recovered (returned : Bool)
  deriving DecidableEq

/-- The operation a call names. -/
def LedgerCall.query : LedgerCall → LedgerQuery LedgerAnswer
  | .definePool poolId resourceType capacity renewable => do
    FamiliarAi.definePool poolId resourceType capacity renewable
    pure .done
  | .acquire random owner requests mode expiresAt => do
    pure (.acquired (← FamiliarAi.acquire random owner requests mode expiresAt))
  | .settle id observation actor => do
    pure (.settled (← FamiliarAi.settle id observation actor))
  | .commit id observed actor => do
    pure (.settled (← FamiliarAi.commit id observed actor))
  | .release id actor => do
    FamiliarAi.release id actor
    pure .done
  | .expireDue now => do
    pure (.expired (← FamiliarAi.expireDue now))
  | .renew id newExpiry actor justification => do
    FamiliarAi.renew id newExpiry actor justification
    pure .done
  | .recover id evidence => do
    pure (.recovered (← FamiliarAi.recover id evidence))

/-- The ledger after a call, whether the call succeeds or fails. `faults` are the engine faults it
meets. -/
def Ledger.step (L : Ledger) (call : LedgerCall × List (Option FamiliarError)) : Ledger :=
  (call.1.query.run ⟨L, call.2⟩).2.store

def Ledger.run (L : Ledger) (calls : List (LedgerCall × List (Option FamiliarError))) : Ledger :=
  calls.foldl Ledger.step L

/-- The ledgers that some sequence of calls leaves. -/
def Ledger.Reachable (L : Ledger) : Prop :=
  ∃ calls, Ledger.run .empty calls = L

end FamiliarAi
