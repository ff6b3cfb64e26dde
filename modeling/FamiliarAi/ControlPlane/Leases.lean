import FamiliarAi.Core.Reservation
import FamiliarAi.Relational.Query
import FamiliarAi.Relational.Table

/-!
# Driver leases

The lease of a repository: one row that names the host and the process that drive it, under a token that
only they know, until it expires. The store keeps the time: a lease is granted from its clock, and a
lease that has expired may be taken over. Beside the row there is a log of what has become of the lease.

Times of the store are milliseconds, and the timestamps of a row are seconds.
-/

namespace FamiliarAi

open Relational

/-! ### Tables -/

/-- A row of `control_plane_leases`. -/
structure LeaseRow where
  repositoryKey : String
  hostIdentity : String
  processIdentity : String
  holderToken : String
  acquiredAt : ℕ
  renewedAt : ℕ
  expiresAt : ℕ
  leaseGeneration : ℕ

/-- `control_plane_leases`: a repository has one lease. -/
def leaseSchema : Schema LeaseRow where
  clash r r' := decide (r.repositoryKey = r'.repositoryKey)

inductive LeaseEventKind
  | acquired
  | takeover
  | renewed
  | released
  | lost
  deriving DecidableEq

structure LeaseHolder where
  hostIdentity : String
  processIdentity : String
  deriving DecidableEq

/-- A row of `control_plane_lease_events`; both columns of a holder are written together. -/
structure LeaseEventRow where
  repositoryKey : String
  kind : LeaseEventKind
  prior : Option LeaseHolder
  new : Option LeaseHolder
  recordedAt : ℕ

structure LeaseStore where
  leases : Table leaseSchema
  events : List LeaseEventRow

/-- A program over the tables of the leases. -/
abbrev LeaseQuery (α : Type) := Query LeaseStore FamiliarError α

namespace LeaseStore

def empty : LeaseStore :=
  ⟨Table.empty, []⟩

def lease (S : LeaseStore) (repository : String) : Option LeaseRow :=
  S.leases.find fun r ↦ r.repositoryKey = repository

end LeaseStore

def LeaseRow.holder (r : LeaseRow) : LeaseHolder :=
  ⟨r.hostIdentity, r.processIdentity⟩

def LeaseRow.live (now : ℕ) (r : LeaseRow) : Bool :=
  decide (now < r.expiresAt * 1000)

/-- `datetime('now', '+N seconds')`: there is none for a negative number, and none after the year
9999. -/
def leaseExpiry (now : ℕ) (ttlSecs : ℤ) : Option ℕ :=
  if 0 ≤ ttlSecs ∧ now / 1000 + ttlSecs.toNat ≤ 253402300799 then some (now / 1000 + ttlSecs.toNat)
  else none

/-- A write that the columns refuse. -/
def leaseRefused : FamiliarError :=
  .database "NOT NULL constraint failed: control_plane_leases.expires_at"

def insertLeaseRow (now : ℕ) (repository host process token : String) (ttlSecs : ℤ)
    (generation : ℕ) : LeaseQuery Unit :=
  .write leaseRefused fun S ↦ (leaseExpiry now ttlSecs).bind fun expiresAt ↦
    let row : LeaseRow :=
      ⟨repository, host, process, token, now / 1000, now / 1000, expiresAt, generation⟩
    (S.leases.upsert (·.repositoryKey = repository)
      (fun r ↦ { row with repositoryKey := r.repositoryKey }) row).map fun leases ↦ { S with leases }

def insertLeaseEvent (now : ℕ) (repository : String) (kind : LeaseEventKind)
    (prior new : Option LeaseHolder) : LeaseQuery Unit :=
  .write leaseRefused fun S ↦
    some { S with events := S.events ++ [⟨repository, kind, prior, new, now / 1000⟩] }

/-- `read_lease`, where the row has just been written. -/
def readLease (repository : String) : LeaseQuery LeaseRow := do
  let row ← .read fun S ↦ S.lease repository
  .ofExcept (match row with
    | some row => .ok row
    | none => .error (.database "lease just inserted"))

/-- What an acquisition is answered with. -/
inductive LeaseAcquireOutcome
  | acquired (row : LeaseRow)
  | refused (holder : LeaseHolder) (remainingMs : ℕ)

/-- What a renewal is answered with. -/
inductive LeaseRenewOutcome
  | renewed (row : LeaseRow)
  | lost (currentHolder : Option LeaseHolder)

def acquireLease (now : ℕ) (repository host process token : String) (ttlSecs : ℤ) :
    LeaseQuery LeaseAcquireOutcome :=
  .transaction do
    let existing ← .read fun S ↦ S.lease repository
    match existing with
    | none =>
      insertLeaseRow now repository host process token ttlSecs 1
      insertLeaseEvent now repository .acquired none (some ⟨host, process⟩)
      let row ← readLease repository
      pure (.acquired row)
    | some prior =>
      if prior.live now then pure (.refused prior.holder (prior.expiresAt * 1000 - now))
      else
        insertLeaseRow now repository host process token ttlSecs (prior.leaseGeneration + 1)
        insertLeaseEvent now repository .takeover (some prior.holder) (some ⟨host, process⟩)
        let row ← readLease repository
        pure (.acquired row)

/-- Extend a lease that is held. Anything else is a loss, which is recorded. -/
def renewLease (now : ℕ) (repository host process token : String) (ttlSecs : ℤ) :
    LeaseQuery LeaseRenewOutcome :=
  .transaction do
    let existing ← .read fun S ↦ S.lease repository
    match existing with
    | some current =>
      if current.holderToken = token ∧ current.live now then
        .write leaseRefused fun S ↦ (leaseExpiry now ttlSecs).bind fun expiresAt ↦
          (S.leases.update (·.repositoryKey = repository) fun r ↦
            { r with
              renewedAt := now / 1000
              expiresAt
              leaseGeneration := r.leaseGeneration + 1 }).map fun leases ↦ { S with leases }
        let row ← readLease repository
        pure (.renewed row)
      else
        let currentHolder := if current.holderToken = token then none else some current.holder
        insertLeaseEvent now repository .lost (some ⟨host, process⟩) currentHolder
        pure (.lost currentHolder)
    | none =>
      insertLeaseEvent now repository .lost (some ⟨host, process⟩) none
      pure (.lost none)

/-- Release a lease. The answer says whether it was held. -/
def releaseLease (now : ℕ) (repository token : String) : LeaseQuery Bool :=
  .transaction do
    let held ← .read fun S ↦ S.leases.find fun r ↦
      r.repositoryKey = repository ∧ r.holderToken = token
    match held with
    | none => pure false
    | some held =>
      .write leaseRefused fun S ↦
        some { S with
          leases := S.leases.delete fun r ↦ r.repositoryKey = repository ∧ r.holderToken = token }
      insertLeaseEvent now repository .released (some held.holder) none
      pure true

end FamiliarAi
