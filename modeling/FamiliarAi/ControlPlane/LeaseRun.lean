import FamiliarAi.ControlPlane.Leases

/-!
# Runs of the driver leases

Any number of hosts and processes acquire, renew and release leases in one store, whose clock never goes
back. A lease that was granted is the one of its repository until it expires or is released, so at no
instant do two tokens have an unexpired lease on one repository. The log of a repository accounts for
its holder.

The generation of a lease grows with every takeover and every renewal. It does not outlive the lease: a
release deletes the row, and the next lease of the repository is a fresh one, of the first generation.
-/

namespace FamiliarAi

open Relational List Option

/-! ### What the operations do -/

section Operations

variable {S : LeaseStore} {c c' : Connection LeaseStore FamiliarError} {now generation : ℕ}
  {repository host process token : String} {ttlSecs : ℤ} {row : LeaseRow} {u : Unit}

theorem LeaseStore.key_of_lease (h : S.lease repository = some row) :
    row.repositoryKey = repository :=
  of_decide_eq_true (Table.find_some h).2

theorem LeaseStore.lease_eq_update {S' : LeaseStore} {x : Option LeaseRow}
    (hself : S'.lease repository = x) (hothers : ∀ k ≠ repository, S'.lease k = S.lease k) :
    S'.lease = Function.update S.lease repository x := by
  funext k
  by_cases hk : k = repository
  · subst hk
    rw [Function.update_self]
    exact hself
  · rw [Function.update_of_ne hk]
    exact hothers k hk

theorem insertLeaseRow_runs
    (h : (insertLeaseRow now repository host process token ttlSecs generation).Runs c u c') :
    ∃ expiresAt, c'.store.lease = Function.update c.store.lease repository
        (some ⟨repository, host, process, token, now / 1000, now / 1000, expiresAt, generation⟩) ∧
      c'.store.events = c.store.events := by
  obtain ⟨expiresAt, -, hwrite⟩ := bind_eq_some_iff.1 h.of_write
  obtain ⟨leases, hupsert, hstore⟩ := map_eq_some_iff.1 hwrite
  refine ⟨expiresAt, ?_, by rw [← hstore]⟩
  rw [← hstore]
  refine LeaseStore.lease_eq_update ?_ fun k hk ↦ ?_
  · refine (Table.find_upsert hupsert (fun r ↦ rfl) (by simp)).trans ?_
    rcases hfind : c.store.leases.find fun r ↦ decide (r.repositoryKey = repository) with _ | r
    · rfl
    -- the upsert keeps the key of the row that it finds
    obtain rfl : r.repositoryKey = repository := LeaseStore.key_of_lease hfind
    rfl
  · refine Table.find_upsert_of_ne hupsert (fun r ↦ rfl) (by simp) fun r hr ↦ ?_
    simpa [of_decide_eq_true hr] using Ne.symm hk

theorem insertLeaseEvent_runs {kind : LeaseEventKind} {prior new : Option LeaseHolder}
    (h : (insertLeaseEvent now repository kind prior new).Runs c u c') :
    c'.store.lease = c.store.lease ∧
      c'.store.events = c.store.events ++ [⟨repository, kind, prior, new, now / 1000⟩] := by
  rw [← some.inj h.of_write]
  exact ⟨rfl, rfl⟩

theorem readLease_runs (h : (readLease repository).Runs c row c') :
    c.store.lease repository = some row ∧ c'.store = c.store := by
  obtain ⟨c₁, hc₁, hrest⟩ := h.of_read_bind
  obtain ⟨hrow, rfl⟩ := hrest.of_ofExcept
  refine ⟨?_, hc₁⟩
  cases hlease : c.store.lease repository with
  | none => rw [hlease] at hrow; cases hrow
  | some r => rw [hlease] at hrow; cases hrow; rfl

theorem acquireLease_runs {outcome : LeaseAcquireOutcome}
    (h : (acquireLease now repository host process token ttlSecs).Runs c outcome c') :
    (∃ prior, c.store.lease repository = some prior ∧ prior.live now = true ∧
        outcome = .refused prior.holder (prior.expiresAt * 1000 - now) ∧ c'.store = c.store) ∨
      ∃ row kind prior, outcome = .acquired row ∧ row.repositoryKey = repository ∧
        row.holder = ⟨host, process⟩ ∧ row.holderToken = token ∧
        c'.store.lease = Function.update c.store.lease repository (some row) ∧
        c'.store.events = c.store.events ++
          [⟨repository, kind, prior, some row.holder, now / 1000⟩] ∧
        (c.store.lease repository = none ∧ kind = .acquired ∧ prior = none ∧
            row.leaseGeneration = 1 ∨
          ∃ expired, c.store.lease repository = some expired ∧ expired.live now = false ∧
            kind = .takeover ∧ prior = some expired.holder ∧
            row.leaseGeneration = expired.leaseGeneration + 1) := by
  obtain ⟨c₁, c₂, hc₁, hbody, hc'⟩ := h.of_transaction
  obtain ⟨c₃, hc₃, h₃⟩ := hbody.of_read_bind
  rw [← hc₁, hc']
  split at h₃
  · rename_i hnone
    obtain ⟨_, c₄, hinsert, h₄⟩ := h₃.of_bind
    obtain ⟨_, c₅, hevent, h₅⟩ := h₄.of_bind
    obtain ⟨row, rfl, hrow⟩ := h₅.of_bind_pure
    obtain ⟨expiresAt, hlease, hevents⟩ := insertLeaseRow_runs hinsert
    obtain ⟨hlease', hevents'⟩ := insertLeaseEvent_runs hevent
    obtain ⟨hfound, hc₆⟩ := readLease_runs hrow
    rw [hlease', hlease, Function.update_self] at hfound
    obtain rfl := some.inj hfound
    refine .inr ⟨_, .acquired, none, rfl, rfl, rfl, rfl, ?_, ?_, .inl ⟨hnone, rfl, rfl, rfl⟩⟩
    · rw [hc₆, hlease', hlease, hc₃]
    · rw [hc₆, hevents', hevents, hc₃]
      rfl
  · rename_i prior hprior
    split at h₃
    · rename_i hlive
      obtain ⟨rfl, rfl⟩ := h₃.of_pure
      exact .inl ⟨prior, hprior, hlive, rfl, hc₃⟩
    · rename_i hlive
      obtain ⟨_, c₄, hinsert, h₄⟩ := h₃.of_bind
      obtain ⟨_, c₅, hevent, h₅⟩ := h₄.of_bind
      obtain ⟨row, rfl, hrow⟩ := h₅.of_bind_pure
      obtain ⟨expiresAt, hlease, hevents⟩ := insertLeaseRow_runs hinsert
      obtain ⟨hlease', hevents'⟩ := insertLeaseEvent_runs hevent
      obtain ⟨hfound, hc₆⟩ := readLease_runs hrow
      rw [hlease', hlease, Function.update_self] at hfound
      obtain rfl := some.inj hfound
      refine .inr ⟨_, .takeover, some prior.holder, rfl, rfl, rfl, rfl, ?_, ?_,
        .inr ⟨prior, hprior, by simpa using hlive, rfl, rfl, rfl⟩⟩
      · rw [hc₆, hlease', hlease, hc₃]
      · rw [hc₆, hevents', hevents, hc₃]
        rfl

theorem renewLease_runs {outcome : LeaseRenewOutcome}
    (h : (renewLease now repository host process token ttlSecs).Runs c outcome c') :
    (∃ current row, c.store.lease repository = some current ∧ current.holderToken = token ∧
        current.live now = true ∧ outcome = .renewed row ∧ row.repositoryKey = repository ∧
        row.holder = current.holder ∧ row.holderToken = token ∧
        row.leaseGeneration = current.leaseGeneration + 1 ∧
        c'.store.lease = Function.update c.store.lease repository (some row) ∧
        c'.store.events = c.store.events) ∨
      ∃ currentHolder, outcome = .lost currentHolder ∧ c'.store.lease = c.store.lease ∧
        c'.store.events = c.store.events ++
          [⟨repository, .lost, some ⟨host, process⟩, currentHolder, now / 1000⟩] := by
  obtain ⟨c₁, c₂, hc₁, hbody, hc'⟩ := h.of_transaction
  obtain ⟨c₃, hc₃, h₃⟩ := hbody.of_read_bind
  rw [← hc₁, hc']
  split at h₃
  · rename_i current hcurrent
    split at h₃
    · rename_i hheld
      obtain ⟨_, c₄, hwrite, h₄⟩ := h₃.of_bind
      obtain ⟨row, rfl, hrow⟩ := h₄.of_bind_pure
      obtain ⟨expiresAt, -, hupdate⟩ := bind_eq_some_iff.1 hwrite.of_write
      obtain ⟨leases, hleases, hstore⟩ := map_eq_some_iff.1 hupdate
      obtain ⟨hfound, hc₅⟩ := readLease_runs hrow
      have hkey : current.repositoryKey = repository := LeaseStore.key_of_lease hcurrent
      have hrenewed : c₄.store.lease repository = some { current with
          renewedAt := now / 1000
          expiresAt
          leaseGeneration := current.leaseGeneration + 1 } := by
        rw [← hstore]
        refine (Table.find_update hleases fun r ↦ rfl).trans ?_
        have hcurrent' : c₃.store.leases.find (fun r ↦ decide (r.repositoryKey = repository)) =
            some current := by rw [hc₃]; exact hcurrent
        rw [hcurrent', map_some, if_pos (decide_eq_true hkey)]
      rw [hrenewed] at hfound
      obtain rfl := some.inj hfound
      refine .inl ⟨current, _, hcurrent, hheld.1, hheld.2, rfl, hkey, rfl, hheld.1, rfl, ?_, ?_⟩
      · rw [hc₅]
        refine LeaseStore.lease_eq_update hrenewed fun k hk ↦ ?_
        rw [← hstore, ← hc₃]
        refine Table.find_update_of_ne hleases (fun r ↦ rfl) fun r hr ↦ ?_
        simpa [of_decide_eq_true hr] using Ne.symm hk
      · rw [hc₅, ← hstore, ← hc₃]
    · obtain ⟨_, rfl, hevent⟩ := h₃.of_bind_pure
      obtain ⟨hlease, hevents⟩ := insertLeaseEvent_runs hevent
      exact .inr ⟨_, rfl, by rw [hlease, hc₃], by rw [hevents, hc₃]⟩
  · obtain ⟨_, rfl, hevent⟩ := h₃.of_bind_pure
    obtain ⟨hlease, hevents⟩ := insertLeaseEvent_runs hevent
    exact .inr ⟨_, rfl, by rw [hlease, hc₃], by rw [hevents, hc₃]⟩

theorem releaseLease_runs {released : Bool} (h : (releaseLease now repository token).Runs c released c') :
    (released = false ∧ c'.store = c.store) ∨
      released = true ∧ ∃ held, c.store.lease repository = some held ∧ held.holderToken = token ∧
        c'.store.lease = Function.update c.store.lease repository none ∧
        c'.store.events = c.store.events ++
          [⟨repository, .released, some held.holder, none, now / 1000⟩] := by
  obtain ⟨c₁, c₂, hc₁, hbody, hc'⟩ := h.of_transaction
  obtain ⟨c₃, hc₃, h₃⟩ := hbody.of_read_bind
  rw [← hc₁, hc']
  split at h₃
  · obtain ⟨rfl, rfl⟩ := h₃.of_pure
    exact .inl ⟨rfl, hc₃⟩
  · rename_i held hheld
    obtain ⟨_, c₄, hwrite, h₄⟩ := h₃.of_bind
    obtain ⟨_, rfl, hevent⟩ := h₄.of_bind_pure
    obtain ⟨hlease, hevents⟩ := insertLeaseEvent_runs hevent
    have hstore := some.inj hwrite.of_write
    obtain ⟨hmem, hp⟩ := Table.find_some hheld
    obtain ⟨hkey, htoken⟩ := of_decide_eq_true hp
    -- the key is unique, so the lease of the token is the lease of the repository
    have hclash {r : LeaseRow} (hr : decide (r.repositoryKey = repository) = true) :
        leaseSchema.clash r held = true := decide_eq_true ((of_decide_eq_true hr).trans hkey.symm)
    refine .inr ⟨rfl, held, ?_, htoken, ?_, ?_⟩
    · exact Table.find_eq_of_key hmem (decide_eq_true hkey) fun r _ hr ↦ hclash hr
    · rw [hlease]
      refine LeaseStore.lease_eq_update ?_ fun k hk ↦ ?_
      · rw [← hstore, hc₃]
        refine find?_eq_none.2 fun r hr hrepository ↦ ?_
        obtain ⟨hr, hkept⟩ := mem_filter.1 hr
        obtain rfl := Table.eq_of_clash hr hmem (hclash hrepository)
        simp [hkey, htoken] at hkept
      · rw [← hstore, hc₃]
        refine Table.find_delete_of_ne fun r hr ↦ ?_
        have hr : r.repositoryKey = repository := (of_decide_eq_true hr).1
        simpa [hr] using Ne.symm hk
    · rw [hevents, ← hstore, hc₃]

end Operations

def LeaseEventKind.fits : LeaseEventKind → Option LeaseHolder → Option LeaseHolder → Bool
  | .acquired, none, some _ => true
  | .takeover, some _, some _ => true
  | .renewed, some prior, some new => decide (prior = new)
  | .released, some _, none => true
  | _, _, _ => false

def replayLeaseEvent (holder : Option LeaseHolder) (e : LeaseEventRow) :
    Option (Option LeaseHolder) :=
  if e.kind = .lost then some holder
  else if e.prior = holder ∧ e.kind.fits e.prior e.new = true then some e.new
  else none

def LeaseStore.eventsOf (S : LeaseStore) (repository : String) : List LeaseEventRow :=
  S.events.filter fun e ↦ e.repositoryKey = repository

def LeaseStore.replay (S : LeaseStore) (repository : String) : Option (Option LeaseHolder) :=
  (S.eventsOf repository).foldlM replayLeaseEvent none

inductive LeaseCall
  | acquire (repository host process token : String) (ttlSecs : ℤ)
  | renew (repository host process token : String) (ttlSecs : ℤ)
  | release (repository token : String)

/-- The store with its clock, and the leases that callers hold by what they were answered. -/
structure LeaseWorld where
  now : ℕ
  store : LeaseStore
  /-- The last grant of each caller that it has not released. It may have expired. -/
  granted : List LeaseRow

/-- A call, the time that passes before it, and what goes wrong with its statements. -/
structure LeaseStep where
  elapsed : ℕ
  call : LeaseCall
  faults : List (Option FamiliarError)

def withoutGrant (repository token : String) (granted : List LeaseRow) : List LeaseRow :=
  granted.filter fun g ↦ ¬(g.repositoryKey = repository ∧ g.holderToken = token)

namespace LeaseWorld

def initial (now : ℕ) : LeaseWorld :=
  ⟨now, LeaseStore.empty, []⟩

/-- A caller keeps the newest grant of its token. -/
def grant (row : LeaseRow) (granted : List LeaseRow) : List LeaseRow :=
  row :: withoutGrant row.repositoryKey row.holderToken granted

/-- What callers hold after an answer. -/
def step (w : LeaseWorld) (s : LeaseStep) : LeaseWorld :=
  let now := w.now + s.elapsed
  match s.call with
  | .acquire repository host process token ttlSecs =>
    match (acquireLease now repository host process token ttlSecs).run ⟨w.store, s.faults⟩ with
    | (.ok (.acquired row), c) => ⟨now, c.store, grant row w.granted⟩
    | (_, c) => ⟨now, c.store, w.granted⟩
  | .renew repository host process token ttlSecs =>
    match (renewLease now repository host process token ttlSecs).run ⟨w.store, s.faults⟩ with
    | (.ok (.renewed row), c) => ⟨now, c.store, grant row w.granted⟩
    | (_, c) => ⟨now, c.store, w.granted⟩
  | .release repository token =>
    match (releaseLease now repository token).run ⟨w.store, s.faults⟩ with
    | (.ok true, c) => ⟨now, c.store, withoutGrant repository token w.granted⟩
    | (_, c) => ⟨now, c.store, w.granted⟩

def run (w : LeaseWorld) (steps : List LeaseStep) : LeaseWorld :=
  steps.foldl step w

end LeaseWorld

/-! ### What a step can do -/

def grantEvent (now : ℕ) (row : LeaseRow) : Option LeaseRow → List LeaseEventRow
  | none => [⟨row.repositoryKey, .acquired, none, some row.holder, now / 1000⟩]
  | some prior =>
    if prior.live now then []
    else [⟨row.repositoryKey, .takeover, some prior.holder, some row.holder, now / 1000⟩]

/-- What may become of the leases at an instant. -/
inductive LeaseWorld.Moves (w : LeaseWorld) (now : ℕ) : LeaseWorld → Prop
  /-- Nothing, but perhaps the record of a loss. -/
  | idle {S : LeaseStore} {losses : List LeaseEventRow} (hlease : S.lease = w.store.lease)
      (hevents : S.events = w.store.events ++ losses) (hlost : ∀ e ∈ losses, e.kind = .lost) :
      Moves w now ⟨now, S, w.granted⟩
  | grant {S : LeaseStore} (row : LeaseRow)
      (hlease : S.lease = Function.update w.store.lease row.repositoryKey (some row))
      (hevents : S.events = w.store.events ++ grantEvent now row (w.store.lease row.repositoryKey))
      (hgeneration : ∀ prior, w.store.lease row.repositoryKey = some prior →
        row.leaseGeneration = prior.leaseGeneration + 1)
      (hsame : ∀ prior, w.store.lease row.repositoryKey = some prior → prior.live now = true →
        row.holderToken = prior.holderToken ∧ row.holder = prior.holder) :
      Moves w now ⟨now, S, LeaseWorld.grant row w.granted⟩
  | release {S : LeaseStore} {repository : String} (held : LeaseRow)
      (hheld : w.store.lease repository = some held)
      (hlease : S.lease = Function.update w.store.lease repository none)
      (hevents : S.events = w.store.events ++
        [⟨repository, .released, some held.holder, none, now / 1000⟩]) :
      Moves w now ⟨now, S, withoutGrant repository held.holderToken w.granted⟩

namespace LeaseWorld

variable {w w' : LeaseWorld} {now : ℕ} {events : List LeaseEventRow} {k : String}
  {prior : Option LeaseRow} {S S' : LeaseStore} {row : LeaseRow} {g : LeaseRow}

theorem Moves.of_eq {S : LeaseStore} (hS : S = w.store) : w.Moves now ⟨now, S, w.granted⟩ :=
  .idle (by rw [hS]) (by rw [hS, append_nil]) (forall_mem_nil _)

theorem step_moves (w : LeaseWorld) (s : LeaseStep) : w.Moves (w.now + s.elapsed) (w.step s) := by
  obtain ⟨elapsed, call, faults⟩ := s
  cases call with
  | acquire repository host process token ttlSecs =>
    rcases hrun : (acquireLease (w.now + elapsed) repository host process token ttlSecs).run
        ⟨w.store, faults⟩ with ⟨e | outcome, c⟩
    · simp only [step, hrun]
      exact .of_eq (Query.Atomic.transaction _ e c hrun)
    · rcases acquireLease_runs hrun with ⟨prior, -, -, rfl, hstore⟩ |
        ⟨row, kind, prior, rfl, rfl, -, -, hlease, hevents, hfresh⟩
      · simp only [step, hrun]
        exact .of_eq hstore
      · simp only [step, hrun]
        rcases hfresh with ⟨hnone, rfl, rfl, -⟩ | ⟨expired, hexpired, hdead, rfl, rfl, hnext⟩
        · refine .grant row hlease ?_ (fun prior hprior ↦ ?_) fun prior hprior _ ↦ ?_
          · rw [hevents, show w.store.lease row.repositoryKey = none from hnone]
            rfl
          · cases hnone.symm.trans hprior
          · cases hnone.symm.trans hprior
        · refine .grant row hlease ?_ (fun prior hprior ↦ ?_) fun prior hprior hlive ↦ ?_
          · rw [hevents, show w.store.lease row.repositoryKey = some expired from hexpired,
              grantEvent, if_neg (by simp [hdead])]
          · cases hexpired.symm.trans hprior
            exact hnext
          · cases hexpired.symm.trans hprior
            cases hdead.symm.trans hlive
  | renew repository host process token ttlSecs =>
    rcases hrun : (renewLease (w.now + elapsed) repository host process token ttlSecs).run
        ⟨w.store, faults⟩ with ⟨e | outcome, c⟩
    · simp only [step, hrun]
      exact .of_eq (Query.Atomic.transaction _ e c hrun)
    · rcases renewLease_runs hrun with ⟨current, row, hcurrent, htoken, hlive, rfl, rfl, hholder,
        hrow, hnext, hlease, hevents⟩ | ⟨currentHolder, rfl, hlease, hevents⟩
      · simp only [step, hrun]
        refine .grant row hlease ?_ (fun prior hprior ↦ ?_) fun prior hprior _ ↦ ?_
        · rw [hevents, show w.store.lease row.repositoryKey = some current from hcurrent, grantEvent,
            if_pos hlive, append_nil]
        · cases hcurrent.symm.trans hprior
          exact hnext
        · cases hcurrent.symm.trans hprior
          exact ⟨hrow.trans htoken.symm, hholder⟩
      · simp only [step, hrun]
        exact .idle hlease hevents (by simp)
  | release repository token =>
    rcases hrun : (releaseLease (w.now + elapsed) repository token).run ⟨w.store, faults⟩ with
      ⟨e | released, c⟩
    · simp only [step, hrun]
      exact .of_eq (Query.Atomic.transaction _ e c hrun)
    · rcases releaseLease_runs hrun with ⟨rfl, hstore⟩ | ⟨rfl, held, hheld, rfl, hlease, hevents⟩
      · simp only [step, hrun]
        exact .of_eq hstore
      · simp only [step, hrun]
        exact .release held hheld hlease hevents

/-- A grant that has not expired is the lease of its repository. -/
def Held (w : LeaseWorld) : Prop :=
  ∀ g ∈ w.granted, g.live w.now = true → w.store.lease g.repositoryKey = some g

theorem mem_withoutGrant {repository token : String} {granted : List LeaseRow} :
    g ∈ withoutGrant repository token granted ↔
      g ∈ granted ∧ ¬(g.repositoryKey = repository ∧ g.holderToken = token) := by
  rw [withoutGrant, mem_filter, decide_eq_true_iff]

theorem live_of_le {t : ℕ} (ht : now ≤ t) (h : g.live t = true) : g.live now = true := by
  have hlt : t < g.expiresAt * 1000 := of_decide_eq_true h
  exact decide_eq_true (by omega)

theorem Held.moves (h : w.Held) (hnow : w.now ≤ now) (hmoves : w.Moves now w') : w'.Held := by
  have hbefore {g : LeaseRow} (hg : g ∈ w.granted) (hlive : g.live now = true) :
      w.store.lease g.repositoryKey = some g := h g hg (live_of_le hnow hlive)
  intro g hg hlive
  cases hmoves with
  | idle hlease =>
    show LeaseStore.lease _ _ = _
    rw [hlease]
    exact hbefore hg hlive
  | grant row hlease _ _ hsame =>
    show LeaseStore.lease _ _ = _
    rw [hlease]
    rcases mem_cons.1 hg with rfl | hg
    · exact Function.update_self ..
    · obtain ⟨hg, hother⟩ := mem_withoutGrant.1 hg
      have hheld := hbefore hg hlive
      by_cases hkey : g.repositoryKey = row.repositoryKey
      · -- a live lease is only granted anew to its own token
        rw [hkey] at hheld
        exact absurd ⟨hkey, (hsame g hheld hlive).1.symm⟩ hother
      · rw [Function.update_of_ne hkey]
        exact hheld
  | @release S repository held hheld hlease hevents =>
    show LeaseStore.lease _ _ = _
    rw [hlease]
    obtain ⟨hg, hother⟩ := mem_withoutGrant.1 hg
    have hgranted := hbefore hg hlive
    by_cases hkey : g.repositoryKey = repository
    · rw [hkey] at hgranted
      cases hheld.symm.trans hgranted
      exact absurd ⟨hkey, rfl⟩ hother
    · rw [Function.update_of_ne hkey]
      exact hgranted

/-! ### The log accounts for the holder -/

/-- The log of each repository ends with its holder. -/
def Logged (w : LeaseWorld) : Prop :=
  ∀ k, w.store.replay k = some ((w.store.lease k).map LeaseRow.holder)

theorem Logged.of_append (h : S.replay k = some ((S.lease k).map LeaseRow.holder))
    (hevents : S'.events = S.events ++ events)
    (hreplay : (events.filter fun e ↦ e.repositoryKey = k).foldlM replayLeaseEvent ((S.lease k).map LeaseRow.holder) = some ((S'.lease k).map LeaseRow.holder))
    :
    S'.replay k = some ((S'.lease k).map LeaseRow.holder) := by
  show (S'.events.filter _).foldlM replayLeaseEvent none = _
  rw [hevents, filter_append, foldlM_append]
  show (S.replay k).bind _ = _
  rw [h]
  exact hreplay

theorem replay_lost (h : ∀ e ∈ events, e.kind = .lost) (holder : Option LeaseHolder) :
    events.foldlM replayLeaseEvent holder = some holder := by
  induction events with
  | nil => rfl
  | cons e es ih =>
    have he : replayLeaseEvent holder e = some holder := if_pos (h e mem_cons_self)
    rw [foldlM_cons, he]
    exact ih fun e he ↦ h e (mem_cons_of_mem _ he)

theorem key_of_grantEvent {e : LeaseEventRow} (he : e ∈ grantEvent now row prior) :
    e.repositoryKey = row.repositoryKey := by
  rcases prior with _ | prior
  · rw [mem_singleton.1 he]
  rw [grantEvent] at he
  split_ifs at he
  · cases he
  · rw [mem_singleton.1 he]

theorem replay_grantEvent (hsame : ∀ p, prior = some p → p.live now = true → row.holder = p.holder)
    :
    (grantEvent now row prior).foldlM replayLeaseEvent (prior.map LeaseRow.holder) =
      some (some row.holder) := by
  rcases prior with _ | p
  · rfl
  rw [grantEvent]
  split_ifs with hlive
  · rw [hsame p rfl hlive]
    rfl
  · simp [replayLeaseEvent, LeaseEventKind.fits]

theorem Logged.moves (h : w.Logged) (hmoves : w.Moves now w') : w'.Logged := by
  intro k
  cases hmoves with
  | @idle S losses hlease hevents hlost =>
    refine Logged.of_append (h k) hevents ?_
    rw [replay_lost fun e he ↦ hlost e (mem_filter.1 he).1, hlease]
  | grant row hlease hevents _ hsame =>
    refine Logged.of_append (h k) hevents ?_
    rw [hlease]
    by_cases hk : k = row.repositoryKey
    · subst hk
      rw [Function.update_self, filter_eq_self.2 fun e he ↦ decide_eq_true (key_of_grantEvent he)]
      exact replay_grantEvent fun prior hprior hlive ↦ (hsame prior hprior hlive).2
    · have hnone : (grantEvent now row (w.store.lease row.repositoryKey)).filter
          (fun e ↦ e.repositoryKey = k) = [] :=
        filter_eq_nil_iff.2 fun e he hek ↦
          hk ((of_decide_eq_true hek).symm.trans (key_of_grantEvent he))
      rw [Function.update_of_ne hk, hnone]
      rfl
  | @release S repository held hheld hlease hevents =>
    refine Logged.of_append (h k) hevents ?_
    rw [hlease]
    by_cases hk : k = repository
    · subst hk
      rw [Function.update_self, hheld]
      simp [replayLeaseEvent, LeaseEventKind.fits]
    · rw [Function.update_of_ne hk]
      simp [Ne.symm hk]

/-- Unless a lease of the repository is released, its lease stays as it is or grows in generation. -/
def Grows (k : String) (S S' : LeaseStore) : Prop :=
  ∃ events, S'.events = S.events ++ events ∧
    ((∀ e ∈ events, e.repositoryKey = k → e.kind ≠ .released) → ∀ r, S.lease k = some r →
      ∃ r', S'.lease k = some r' ∧ (r' = r ∨ r.leaseGeneration < r'.leaseGeneration))

theorem Grows.of_lease_eq (hevents : S'.events = S.events ++ events)
    (hlease : S'.lease k = S.lease k) : Grows k S S' :=
  ⟨events, hevents, fun _ r hr ↦ ⟨r, hlease.trans hr, .inl rfl⟩⟩

theorem Grows.trans {S S' S'' : LeaseStore} (h : Grows k S S') (h' : Grows k S' S'') :
    Grows k S S'' := by
  obtain ⟨events, hevents, hgrows⟩ := h
  obtain ⟨events', hevents', hgrows'⟩ := h'
  refine ⟨events ++ events', by rw [hevents', hevents, append_assoc], fun hkept r hr ↦ ?_⟩
  obtain ⟨r₁, hr₁, hle⟩ := hgrows (fun e he ↦ hkept e (mem_append_left _ he)) r hr
  obtain ⟨r₂, hr₂, hle'⟩ := hgrows' (fun e he ↦ hkept e (mem_append_right _ he)) r₁ hr₁
  refine ⟨r₂, hr₂, ?_⟩
  rcases hle with rfl | hlt
  · exact hle'
  · rcases hle' with rfl | hlt'
    · exact .inr hlt
    · exact .inr (hlt.trans hlt')

theorem Moves.grows (hmoves : w.Moves now w') (k : String) : Grows k w.store w'.store := by
  cases hmoves with
  | idle hlease hevents _ => exact .of_lease_eq hevents (congrFun hlease k)
  | grant row hlease hevents hgeneration _ =>
    by_cases hk : k = row.repositoryKey
    · subst hk
      refine ⟨_, hevents, fun _ prior hprior ↦ ⟨row, ?_, .inr ?_⟩⟩
      · rw [hlease]
        exact Function.update_self ..
      · rw [hgeneration prior hprior]
        exact Nat.lt_succ_self _
    · refine .of_lease_eq hevents ?_
      rw [hlease]
      exact Function.update_of_ne hk ..
  | @release S repository held hheld hlease hevents =>
    by_cases hk : k = repository
    · exact ⟨_, hevents, fun hkept ↦ absurd rfl (hkept _ (mem_singleton.2 rfl) hk.symm)⟩
    · refine .of_lease_eq hevents ?_
      rw [hlease]
      exact Function.update_of_ne hk ..

theorem run_invariant {I : LeaseWorld → Prop} (hstep : ∀ w s, I w → I (w.step s)) {steps : List LeaseStep}
    (h : I w) : I (w.run steps) := by
  induction steps generalizing w with
  | nil => exact h
  | cons s steps ih => exact ih (hstep w s h)

theorem run_held (start : ℕ) (steps : List LeaseStep) : ((initial start).run steps).Held :=
  run_invariant (fun w s h ↦ h.moves (Nat.le_add_right _ _) (w.step_moves s)) fun g hg ↦ by cases hg

theorem run_logged (start : ℕ) (steps : List LeaseStep) : ((initial start).run steps).Logged :=
  run_invariant (fun w s h ↦ h.moves (w.step_moves s)) fun _ ↦ rfl

theorem run_grows (w : LeaseWorld) (steps : List LeaseStep) (k : String) :
    Grows k w.store (w.run steps).store := by
  induction steps generalizing w with
  | nil => exact .of_lease_eq (append_nil _).symm rfl
  | cons s steps ih => exact ((w.step_moves s).grows k).trans (ih (w.step s))

/-- **The leases of every run.** At any instant the unexpired grants on a repository are of one token,
and only that token can renew. The log of a repository, in which each takeover and each release names
the holder that it ends, ends with the holder. From one holder to the next the generation grows, unless
a lease of the repository is released in between: a release leaves no lease, and a lease that is
acquired where there is none is of the first generation. -/
theorem run_leases (start : ℕ) (steps : List LeaseStep) :
    let w := (initial start).run steps
    (∀ g ∈ w.granted, ∀ g' ∈ w.granted, g.repositoryKey = g'.repositoryKey → ∀ t ≥ w.now,
      g.live t = true → g'.live t = true → g.holderToken = g'.holderToken) ∧
    (∀ now ≥ w.now, ∀ repository host process token ttlSecs faults row c',
      (renewLease now repository host process token ttlSecs).Runs ⟨w.store, faults⟩ (.renewed row) c' →
        (∃ current, w.store.lease repository = some current ∧ current.live now = true ∧
          current.holderToken = token) ∧
        ∀ g ∈ w.granted, g.repositoryKey = repository → g.live now = true → g.holderToken = token) ∧
    (∀ k, w.store.replay k = some ((w.store.lease k).map LeaseRow.holder)) ∧
    (∀ later k r r', w.store.lease k = some r → (w.run later).store.lease k = some r' →
      (∀ e ∈ (w.run later).store.events.drop w.store.events.length,
        e.repositoryKey = k → e.kind ≠ .released) →
      r' = r ∨ r.leaseGeneration < r'.leaseGeneration) ∧
    (∀ now repository token faults c',
      (releaseLease now repository token).Runs ⟨w.store, faults⟩ true c' →
        c'.store.lease repository = none) ∧
    ∀ now repository host process token ttlSecs faults row c', w.store.lease repository = none →
      (acquireLease now repository host process token ttlSecs).Runs ⟨w.store, faults⟩
        (.acquired row) c' → row.leaseGeneration = 1 := by
  intro w
  have hheld : w.Held := run_held start steps
  have hlive {g : LeaseRow} (hg : g ∈ w.granted) {t : ℕ} (ht : w.now ≤ t) (hl : g.live t = true) :
      w.store.lease g.repositoryKey = some g := hheld g hg (live_of_le ht hl)
  refine ⟨fun g hg g' hg' hkey t ht hl hl' ↦ ?_, fun now hnow repository host process token ttlSecs
    faults row c' hrun ↦ ?_, run_logged start steps, fun later k r r' hr hr' hkept ↦ ?_,
    fun now repository token faults c' hrun ↦ ?_, fun now repository host process token ttlSecs faults
    row c' hnone hrun ↦ ?_⟩
  · have hg := hlive hg ht hl
    rw [hkey, hlive hg' ht hl'] at hg
    rw [some.inj hg]
  · rcases renewLease_runs hrun with ⟨current, _, hcurrent, htoken, hcurrentLive, -⟩ | ⟨_, hno, -⟩
    · refine ⟨⟨current, hcurrent, hcurrentLive, htoken⟩, fun g hg hkey hl ↦ ?_⟩
      have hg := hlive hg hnow hl
      rw [hkey] at hg
      cases hcurrent.symm.trans hg
      exact htoken
    · cases hno
  · obtain ⟨events, hevents, hgrows⟩ := run_grows w later k
    rw [hevents, drop_left] at hkept
    obtain ⟨r₁, hr₁, hle⟩ := hgrows hkept r hr
    cases hr₁.symm.trans hr'
    exact hle
  · rcases releaseLease_runs hrun with ⟨hno, -⟩ | ⟨-, held, -, -, hlease, -⟩
    · cases hno
    · rw [hlease]
      exact Function.update_self ..
  · rcases acquireLease_runs hrun with ⟨_, _, _, hno, _⟩ | ⟨_, _, _, hrow, -, -, -, -, -, hfresh⟩
    · cases hno
    · cases hrow
      rcases hfresh with ⟨-, -, -, hfirst⟩ | ⟨expired, hexpired, -⟩
      · exact hfirst
      · cases hnone.symm.trans hexpired

def acquireTwice : List LeaseStep :=
  [⟨0, .acquire "r" "h1" "p1" "t1" 60, []⟩, ⟨1000, .release "r" "t1", []⟩,
    ⟨1000, .acquire "r" "h2" "p2" "t2" 60, []⟩]

theorem acquireTwice_generation :
    ((((initial 0).run (acquireTwice.take 1)).store.lease "r").map fun r ↦
        (r.holderToken, r.leaseGeneration)) = some ("t1", 1) ∧
      ((((initial 0).run acquireTwice).store.lease "r").map fun r ↦
        (r.holderToken, r.leaseGeneration)) = some ("t2", 1) := by
  decide +kernel

end LeaseWorld

end FamiliarAi
