import Mathlib.Order.Defs.Unbundled

/-!
# Queries, statement faults and transactions

A program over a store that issues statements to a database engine. Any statement may fail for a
reason outside the store (a full disk, a locked file), so a run is fed a list of **faults**: the
answer the engine gives to each coming statement before looking at the store. A property proved for
every list of faults holds at every failure point of the program.

A `transaction` puts the store back unless its body ran to the end and the commit went through.
The rest of the module is the calculus that programs over this engine are verified with.

* `Runs` is a successful run, and the `runs_` lemmas take such a run apart statement by statement.
* `Atomic` says that a failing query leaves the store alone. A transaction is atomic whatever its
  body does.
* `Returns` is a successful run on an engine without faults, and its lemmas put such a run together.
* `Respects R` says that the store before and the store after are related by `R` however the query
  ends. Invariants are the case `Preserves`.
* `Inspects` says that the query only looks at the store, so that what it answers is told by the store.
-/

namespace Relational

/-- A connection: the store as the statements so far have left it, and what the engine answers to
the coming statements before it looks at the store. `some e` fails the statement with `e`; past the
end of the list nothing fails. -/
structure Connection (σ ε : Type*) where
  /-- The store the next statement reads. -/
  store : σ
  /-- The engine faults still to come. -/
  faults : List (Option ε)

/-- How the body of a transaction asks for it to end. -/
inductive Verdict (α : Type*)
  | commit (a : α)
  /-- Drop what was written, and report the value all the same. -/
  | rollback (a : α)

/-- A program over a connection: it may fail, and either way it leaves a connection behind. -/
def Query (σ ε α : Type*) := Connection σ ε → Except ε α × Connection σ ε

namespace Query

variable {σ ε : Type*} {α β : Type}

def run (m : Query σ ε α) (c : Connection σ ε) : Except ε α × Connection σ ε :=
  m c

/-- Fail without touching the store. -/
def fail (e : ε) : Query σ ε α :=
  fun c ↦ (.error e, c)

/-- Run `m`, then what it asks for; the first failure ends the run. -/
def andThen (m : Query σ ε α) (f : α → Query σ ε β) : Query σ ε β :=
  fun c ↦ match m.run c with
    | (.ok a, c') => (f a).run c'
    | (.error e, c') => (.error e, c')

instance : Monad (Query σ ε) where
  pure a := fun c ↦ (.ok a, c)
  bind := andThen

/-- A fallible value that needs no statement. -/
def ofExcept : Except ε α → Query σ ε α
  | .ok a => pure a
  | .error e => fail e

/-- Fail with `e` unless the condition holds. -/
def ensure (p : Prop) [Decidable p] (e : ε) : Query σ ε Unit :=
  if p then pure () else fail e

/-- Run the query only if the condition holds. -/
def when (p : Prop) [Decidable p] (m : Query σ ε Unit) : Query σ ε Unit :=
  if p then m else pure ()

/-- One statement: the engine may fault, else `f` gives the answer and the store it leaves, or the
constraint error, which leaves the store alone. -/
def statement (f : σ → Except ε (α × σ)) : Query σ ε α :=
  fun c ↦ match c.faults.head?.join with
    | some e => (.error e, ⟨c.store, c.faults.tail⟩)
    | none => match f c.store with
      | .ok (a, s) => (.ok a, ⟨s, c.faults.tail⟩)
      | .error e => (.error e, ⟨c.store, c.faults.tail⟩)

/-- A statement that reads: its answer is computed from the store. -/
def read (f : σ → α) : Query σ ε α :=
  statement fun s ↦ .ok (f s, s)

/-- A statement that writes and reports, as an `UPDATE` reports how many rows it changed: the
constraint error `e` when the store does not admit the write. -/
def change (e : ε) (f : σ → Option (α × σ)) : Query σ ε α :=
  statement fun s ↦ match f s with
    | some r => .ok r
    | none => .error e

def write (e : ε) (f : σ → Option σ) : Query σ ε Unit :=
  change e fun s ↦ (f s).map fun s' ↦ ((), s')

/-- A statement that writes one part of the store, such as a table, and reports. -/
def changePart {τ : Type} (e : ε) (get : σ → τ) (set : σ → τ → σ) (f : τ → Option (α × τ)) :
    Query σ ε α :=
  change e fun s ↦ (f (get s)).map fun r ↦ (r.1, set s r.2)

def writePart {τ : Type} (e : ε) (get : σ → τ) (set : σ → τ → σ) (f : τ → Option τ) :
    Query σ ε Unit :=
  changePart e get set fun t ↦ (f t).map fun t' ↦ ((), t')

/-- A statement that neither reads nor writes a row: `BEGIN`, `COMMIT`, `ROLLBACK`. -/
def control : Query σ ε Unit :=
  read fun _ ↦ ()

/-- Begin a transaction, run the body and end it as the body asks. When the body or the commit
fails, and on a rollback, the store is put back as it was at the beginning. -/
def transactionWith (body : Query σ ε (Verdict α)) : Query σ ε α :=
  fun c ↦ match (control.andThen fun _ ↦ body).run c with
    | (.error e, c') => (.error e, ⟨c.store, c'.faults⟩)
    | (.ok (.rollback a), c') => (control.andThen fun _ ↦ pure a).run ⟨c.store, c'.faults⟩
    | (.ok (.commit a), c') => match control.run c' with
      | (.ok _, c'') => (.ok a, c'')
      | (.error e, c'') => (.error e, ⟨c.store, c''.faults⟩)

/-- A transaction that is committed whenever its body runs to the end. -/
def transaction (body : Query σ ε α) : Query σ ε α :=
  transactionWith do
    let a ← body
    pure (.commit a)

/-- Run a query for each element of a list, up to the first failure. -/
def forEach : List β → (β → Query σ ε Unit) → Query σ ε Unit
  | [], _ => pure ()
  | b :: bs, f => do
    f b
    forEach bs f

/-- Run a query and go on whether it failed or not. -/
def ignoring (m : Query σ ε α) : Query σ ε Unit :=
  fun c ↦ (.ok (), (m.run c).2)

/-- The query ran to its end on `c`, with the answer `a`, and left `c'`. -/
def Runs (m : Query σ ε α) (c : Connection σ ε) (a : α) (c' : Connection σ ε) : Prop :=
  m.run c = (.ok a, c')

/-- The query failed on `c` with `e` and left `c'`. -/
def Fails (m : Query σ ε α) (c : Connection σ ε) (e : ε) (c' : Connection σ ε) : Prop :=
  m.run c = (.error e, c')

/-! ### Taking a successful run apart -/

variable {m : Query σ ε α} {f : α → Query σ ε β} {c c' : Connection σ ε} {a : α} {b : β} {e : ε}

@[simp] theorem runs_pure {a' : α} :
    (pure a : Query σ ε α).Runs c a' c' ↔ a = a' ∧ c = c' := by
  show ((Except.ok a, c) : Except ε α × Connection σ ε) = (.ok a', c') ↔ _
  simp only [Prod.mk.injEq, Except.ok.injEq]

@[simp] theorem not_runs_fail : ¬(fail e : Query σ ε α).Runs c a c' := by
  intro h
  cases h

theorem runs_bind :
    (m >>= f).Runs c b c' ↔ ∃ a c₁, m.Runs c a c₁ ∧ (f a).Runs c₁ b c' := by
  show andThen m f c = _ ↔ _
  unfold andThen Runs
  constructor
  · intro h
    split at h
    · exact ⟨_, _, ‹_›, h⟩
    · cases h
  · rintro ⟨a, c₁, hm, hf⟩
    rw [hm]
    exact hf

theorem runs_andThen :
    (m.andThen f).Runs c b c' ↔ ∃ a c₁, m.Runs c a c₁ ∧ (f a).Runs c₁ b c' :=
  runs_bind

@[simp] theorem runs_ensure {p : Prop} [Decidable p] {u : Unit} :
    (ensure p e : Query σ ε Unit).Runs c u c' ↔ p ∧ c = c' := by
  unfold ensure
  split
  · simp [*]
  · simp [*]

theorem runs_when {p : Prop} [Decidable p] {m : Query σ ε Unit} {u : Unit} :
    (when p m).Runs c u c' ↔ p ∧ m.Runs c u c' ∨ ¬p ∧ c = c' := by
  unfold when
  split
  · simp [*]
  · simp [*]

@[simp] theorem runs_ofExcept {x : Except ε α} :
    (ofExcept x : Query σ ε α).Runs c a c' ↔ x = .ok a ∧ c = c' := by
  cases x with
  | ok a' => simp [ofExcept]
  | error e => simp [ofExcept]

theorem runs_statement {f : σ → Except ε (α × σ)} :
    (statement f).Runs c a c' ↔
      c.faults.head?.join = none ∧ f c.store = .ok (a, c'.store) ∧ c'.faults = c.faults.tail := by
  unfold Runs run statement
  cases hfault : c.faults.head?.join with
  | some e => simp
  | none =>
    rcases hf : f c.store with e | r
    · simp
    obtain ⟨a', s⟩ := r
    obtain ⟨s', fs⟩ := c'
    simp only [Prod.mk.injEq, Except.ok.injEq, Connection.mk.injEq, true_and]
    constructor
    · rintro ⟨rfl, rfl, rfl⟩
      exact ⟨⟨rfl, rfl⟩, rfl⟩
    · rintro ⟨⟨rfl, rfl⟩, rfl⟩
      exact ⟨rfl, rfl, rfl⟩

theorem Runs.of_read {f : σ → α} (h : (read f : Query σ ε α).Runs c a c') :
    a = f c.store ∧ c'.store = c.store := by
  obtain ⟨-, h, -⟩ := runs_statement.1 h
  simp only [Except.ok.injEq, Prod.mk.injEq] at h
  exact ⟨h.1.symm, h.2.symm⟩

theorem Runs.of_change {f : σ → Option (α × σ)} (h : (change e f).Runs c a c') :
    f c.store = some (a, c'.store) := by
  obtain ⟨-, h, -⟩ := runs_statement.1 h
  split at h
  · rename_i r hr
    rw [hr, Except.ok.inj h]
  · cases h

theorem Runs.of_write {f : σ → Option σ} {u : Unit} (h : (write e f).Runs c u c') :
    f c.store = some c'.store := by
  have hchange : (change e fun s ↦ (f s).map fun s' ↦ ((), s')).Runs c u c' := h
  obtain ⟨s, hs, hr⟩ := Option.map_eq_some_iff.1 hchange.of_change
  rw [hs, (Prod.mk.inj hr).2]

theorem Runs.of_changePart {τ : Type} {get : σ → τ} {set : σ → τ → σ} {f : τ → Option (α × τ)}
    (h : (changePart e get set f).Runs c a c') :
    ∃ t, f (get c.store) = some (a, t) ∧ c'.store = set c.store t := by
  have hchange : (change e fun s ↦ (f (get s)).map fun r ↦ (r.1, set s r.2)).Runs c a c' := h
  obtain ⟨⟨a', t⟩, ht, hr⟩ := Option.map_eq_some_iff.1 hchange.of_change
  obtain ⟨rfl, hstore⟩ := Prod.mk.inj hr
  exact ⟨t, ht, hstore.symm⟩

theorem Runs.of_writePart {τ : Type} {get : σ → τ} {set : σ → τ → σ} {f : τ → Option τ} {u : Unit}
    (h : (writePart e get set f).Runs c u c') :
    ∃ t, f (get c.store) = some t ∧ c'.store = set c.store t := by
  have hchange : (changePart e get set fun t ↦ (f t).map fun t' ↦ ((), t')).Runs c u c' := h
  obtain ⟨t, ht, hstore⟩ := hchange.of_changePart
  obtain ⟨t', ht', hr⟩ := Option.map_eq_some_iff.1 ht
  exact ⟨t, by rw [ht', (Prod.mk.inj hr).2], hstore⟩

@[simp] theorem runs_forEach_nil {f : β → Query σ ε Unit} {u : Unit} :
    (forEach [] f).Runs c u c' ↔ c = c' := by
  simp [forEach]

theorem runs_forEach_cons {bs : List β} {f : β → Query σ ε Unit} {u : Unit} :
    (forEach (b :: bs) f).Runs c u c' ↔
      ∃ c₁, (f b).Runs c () c₁ ∧ (forEach bs f).Runs c₁ () c' := by
  rw [forEach, runs_bind]
  exact ⟨fun ⟨_, c₁, h, h'⟩ ↦ ⟨c₁, h, h'⟩, fun ⟨c₁, h, h'⟩ ↦ ⟨_, c₁, h, h'⟩⟩

theorem Runs.of_bind (h : (m >>= f).Runs c b c') : ∃ a c₁, m.Runs c a c₁ ∧ (f a).Runs c₁ b c' :=
  runs_bind.1 h

theorem Runs.of_pure {a' : α} (h : (pure a : Query σ ε α).Runs c a' c') : a = a' ∧ c = c' :=
  runs_pure.1 h

theorem Runs.of_ensure {p : Prop} [Decidable p] {u : Unit}
    (h : (ensure p e : Query σ ε Unit).Runs c u c') : p ∧ c = c' :=
  runs_ensure.1 h

theorem Runs.of_ofExcept {x : Except ε α} (h : (ofExcept x : Query σ ε α).Runs c a c') :
    x = .ok a ∧ c = c' :=
  runs_ofExcept.1 h

/-! A check, a conversion or a reading that begins a run, and an answer that ends it. -/

theorem Runs.of_ensure_bind {p : Prop} [Decidable p] {g : Unit → Query σ ε β}
    (h : (ensure p e >>= g).Runs c b c') : p ∧ (g ()).Runs c b c' := by
  obtain ⟨_, c₁, hensure, h⟩ := h.of_bind
  obtain ⟨hp, rfl⟩ := hensure.of_ensure
  exact ⟨hp, h⟩

theorem Runs.of_ofExcept_bind {x : Except ε α} (h : (ofExcept x >>= f).Runs c b c') :
    ∃ a, x = .ok a ∧ (f a).Runs c b c' := by
  obtain ⟨a, c₁, hof, h⟩ := h.of_bind
  obtain ⟨hx, rfl⟩ := hof.of_ofExcept
  exact ⟨a, hx, h⟩

theorem Runs.of_read_bind {g : σ → α} (h : (read g >>= f).Runs c b c') :
    ∃ c₁, c₁.store = c.store ∧ (f (g c.store)).Runs c₁ b c' := by
  obtain ⟨a, c₁, hread, h⟩ := h.of_bind
  obtain ⟨rfl, hc₁⟩ := hread.of_read
  exact ⟨c₁, hc₁, h⟩

theorem Runs.of_bind_pure {g : α → β} (h : (m >>= fun a ↦ pure (g a)).Runs c b c') :
    ∃ a, g a = b ∧ m.Runs c a c' := by
  obtain ⟨a, c₁, hm, h⟩ := h.of_bind
  obtain ⟨hb, rfl⟩ := h.of_pure
  exact ⟨a, hb, hm⟩

theorem Runs.of_transactionWith {body : Query σ ε (Verdict α)}
    (h : (transactionWith body).Runs c a c') :
    (∃ c₁ c₂, c₁.store = c.store ∧ body.Runs c₁ (.commit a) c₂ ∧ c'.store = c₂.store) ∨
      ∃ c₁ c₂, c₁.store = c.store ∧ body.Runs c₁ (.rollback a) c₂ ∧ c'.store = c.store := by
  unfold Runs run transactionWith at h
  split at h
  · cases h
  · rename_i a' c₂ hbody
    obtain ⟨_, c₁, hbegin, hbody⟩ := runs_andThen.1 hbody
    obtain ⟨_, c₃, hend, hpure⟩ := runs_andThen.1 h
    obtain ⟨rfl, rfl⟩ := runs_pure.1 hpure
    exact .inr ⟨c₁, c₂, hbegin.of_read.2, hbody, hend.of_read.2⟩
  · rename_i a' c₂ hbody
    obtain ⟨_, c₁, hbegin, hbody⟩ := runs_andThen.1 hbody
    split at h
    · rename_i u c₃ hend
      cases h
      exact .inl ⟨c₁, c₂, hbegin.of_read.2, hbody, (Runs.of_read hend).2⟩
    · cases h

theorem Runs.of_transaction {body : Query σ ε α} (h : (transaction body).Runs c a c') :
    ∃ c₁ c₂, c₁.store = c.store ∧ body.Runs c₁ a c₂ ∧ c'.store = c₂.store := by
  rcases Runs.of_transactionWith h with ⟨c₁, c₂, hc₁, hbody, hc'⟩ | ⟨c₁, c₂, -, hbody, -⟩
  · obtain ⟨a', c₃, hrun, hpure⟩ := runs_bind.1 hbody
    obtain ⟨ha, rfl⟩ := runs_pure.1 hpure
    cases ha
    exact ⟨c₁, c₃, hc₁, hrun, hc'⟩
  · obtain ⟨a', c₃, -, hpure⟩ := runs_bind.1 hbody
    cases (runs_pure.1 hpure).1

/-- On an engine without faults, the query runs to its end on `s` with the answer `a` and leaves
`s'`. -/
def Returns (m : Query σ ε α) (s : σ) (a : α) (s' : σ) : Prop :=
  m.Runs ⟨s, []⟩ a ⟨s', []⟩

section Returns

variable {s s₁ s' : σ}

theorem Returns.pure : (pure a : Query σ ε α).Returns s a s :=
  rfl

theorem Returns.bind (hm : m.Returns s a s₁) (hf : (f a).Returns s₁ b s') :
    (m >>= f).Returns s b s' :=
  runs_bind.2 ⟨a, ⟨s₁, []⟩, hm, hf⟩

theorem Returns.read {f : σ → α} : (read f : Query σ ε α).Returns s (f s) s :=
  rfl

theorem Returns.ensure {p : Prop} [Decidable p] (hp : p) :
    (ensure p e : Query σ ε Unit).Returns s () s :=
  runs_ensure.2 ⟨hp, rfl⟩

theorem Returns.change {f : σ → Option (α × σ)} (h : f s = some (a, s')) :
    (change e f).Returns s a s' := by
  refine runs_statement.2 ⟨rfl, ?_, rfl⟩
  show (match f s with
    | some r => Except.ok r
    | none => Except.error e) = _
  rw [h]

theorem Returns.write {f : σ → Option σ} (h : f s = some s') : (write e f).Returns s () s' :=
  Returns.change (by rw [h]; rfl)

theorem Returns.changePart {τ : Type} {get : σ → τ} {set : σ → τ → σ} {f : τ → Option (α × τ)}
    {t : τ} (h : f (get s) = some (a, t)) : (changePart e get set f).Returns s a (set s t) :=
  Returns.change (by rw [h]; rfl)

/-- A loop runs to its end when its body does wherever the invariant holds, and keeps it. -/
theorem Returns.forEach {I : σ → Prop} {g : β → Query σ ε Unit} (bs : List β) (hs : I s)
    (hg : ∀ b ∈ bs, ∀ s, I s → ∃ s', (g b).Returns s () s' ∧ I s') :
    ∃ s', (forEach bs g).Returns s () s' ∧ I s' := by
  induction bs generalizing s with
  | nil => exact ⟨s, Returns.pure, hs⟩
  | cons b bs ih =>
    obtain ⟨s₁, hb, hs₁⟩ := hg b List.mem_cons_self s hs
    obtain ⟨s', hbs, hs'⟩ := ih hs₁ fun b' hb' ↦ hg b' (List.mem_cons_of_mem _ hb')
    exact ⟨s', hb.bind hbs, hs'⟩

theorem Returns.transaction {body : Query σ ε α} (h : body.Returns s a s') :
    (transaction body).Returns s a s' := by
  have hbody : (control.andThen fun _ ↦ body >>= fun a ↦ Pure.pure (Verdict.commit a)).Returns
      s (.commit a) s' := Returns.bind Returns.read (h.bind Returns.pure)
  unfold Returns Runs run Query.transaction transactionWith
  rw [hbody]
  rfl

end Returns

/-! ### Atomic queries -/

/-- The query leaves the store alone, whether it fails or not. -/
def ReadOnly (m : Query σ ε α) : Prop :=
  ∀ c, (m.run c).2.store = c.store

/-- A failing query leaves the store alone. -/
def Atomic (m : Query σ ε α) : Prop :=
  ∀ c e c', m.Fails c e c' → c'.store = c.store

theorem ReadOnly.atomic (h : m.ReadOnly) : m.Atomic := by
  intro c e c' hm
  have hstore := h c
  rw [hm] at hstore
  exact hstore

theorem ReadOnly.store_eq (h : m.ReadOnly) (hm : m.Runs c a c') : c'.store = c.store := by
  have hstore := h c
  rw [hm] at hstore
  exact hstore

theorem ReadOnly.pure : (pure a : Query σ ε α).ReadOnly :=
  fun _ ↦ rfl

theorem ReadOnly.fail : (fail e : Query σ ε α).ReadOnly :=
  fun _ ↦ rfl

theorem ReadOnly.ensure {p : Prop} [Decidable p] : (ensure p e : Query σ ε Unit).ReadOnly := by
  unfold Query.ensure
  split
  · exact ReadOnly.pure
  · exact ReadOnly.fail

theorem ReadOnly.ofExcept {x : Except ε α} : (ofExcept x : Query σ ε α).ReadOnly := by
  cases x with
  | ok a => exact ReadOnly.pure
  | error e => exact ReadOnly.fail

theorem ReadOnly.read {f : σ → α} : (read f : Query σ ε α).ReadOnly := by
  intro c
  unfold Query.read Query.statement Query.run
  dsimp only
  split
  · rfl
  · rfl

theorem fails_bind (h : (m >>= f).Fails c e c') :
    m.Fails c e c' ∨ ∃ a c₁, m.Runs c a c₁ ∧ (f a).Fails c₁ e c' := by
  change andThen m f c = _ at h
  unfold andThen at h
  split at h
  · exact .inr ⟨_, _, ‹_›, h⟩
  · cases h
    exact .inl ‹_›

theorem ReadOnly.bind (hm : m.ReadOnly) (hf : ∀ a, (f a).ReadOnly) : (m >>= f).ReadOnly := by
  intro c
  change (andThen m f c).2.store = _
  unfold andThen
  split
  · rename_i a c₁ hrun
    exact (hf a c₁).trans (hm.store_eq hrun)
  · rename_i e c₁ hrun
    exact hm.atomic c e c₁ hrun

theorem Atomic.fail : (fail e : Query σ ε α).Atomic :=
  ReadOnly.fail.atomic

theorem Atomic.bind (hm : m.ReadOnly) (hf : ∀ a, (f a).Atomic) : (m >>= f).Atomic := by
  intro c e c' h
  rcases fails_bind h with h | ⟨a, c₁, hrun, h⟩
  · exact hm.atomic c e c' h
  · exact (hf a c₁ e c' h).trans (hm.store_eq hrun)

theorem Atomic.bind_pure {g : α → β} (hm : m.Atomic) : (m >>= fun a ↦ pure (g a)).Atomic := by
  intro c e c' h
  rcases fails_bind h with h | ⟨a, c₁, -, h⟩
  · exact hm c e c' h
  · cases h

theorem Atomic.statement {f : σ → Except ε (α × σ)} : (statement f).Atomic := by
  intro c e c' h
  unfold Fails Query.run Query.statement at h
  split at h
  · cases h
    rfl
  · split at h
    · cases h
    · cases h
      rfl

theorem Atomic.change {f : σ → Option (α × σ)} : (change e f).Atomic :=
  Atomic.statement

theorem Atomic.changePart {τ : Type} {get : σ → τ} {set : σ → τ → σ} {f : τ → Option (α × τ)} :
    (changePart e get set f).Atomic :=
  Atomic.change

theorem Atomic.writePart {τ : Type} {get : σ → τ} {set : σ → τ → σ} {f : τ → Option τ} :
    (writePart e get set f).Atomic :=
  Atomic.changePart

theorem Atomic.write {f : σ → Option σ} : (write e f).Atomic :=
  Atomic.change

theorem Atomic.transactionWith {body : Query σ ε (Verdict α)} :
    (transactionWith body).Atomic := by
  intro c e c' h
  unfold Fails Query.run Query.transactionWith at h
  split at h
  · cases h
    rfl
  · rename_i a c₁ hbody
    have hend : (control >>= fun _ ↦ pure a : Query σ ε α).Fails ⟨c.store, c₁.faults⟩ e c' := h
    have hread : (control >>= fun _ ↦ pure a : Query σ ε α).ReadOnly :=
      ReadOnly.read.bind fun _ ↦ ReadOnly.pure
    have hstore := hread.atomic _ e c' hend
    exact hstore
  · split at h
    · cases h
    · cases h
      rfl

theorem Atomic.transaction {body : Query σ ε α} : (transaction body).Atomic :=
  Atomic.transactionWith

/-! ### Relations between the store before and the store after -/

/-- However the query ends, the store before and the store after are related. -/
def Respects (R : σ → σ → Prop) (m : Query σ ε α) : Prop :=
  ∀ c, R c.store (m.run c).2.store

/-- However the query ends, it keeps the invariant. -/
def Preserves (I : σ → Prop) (m : Query σ ε α) : Prop :=
  m.Respects fun s s' ↦ I s → I s'

section Respects

variable {R : σ → σ → Prop}

theorem Respects.of_runs (h : m.Respects R) (hm : m.Runs c a c') : R c.store c'.store := by
  have hR := h c
  rw [hm] at hR
  exact hR

theorem Respects.mono {R' : σ → σ → Prop} (h : m.Respects R) (hR : ∀ s s', R s s' → R' s s') :
    m.Respects R' :=
  fun c ↦ hR _ _ (h c)

theorem Atomic.relates [Std.Refl R] (hm : m.Atomic)
    (h : ∀ a c', m.Runs c a c' → R c.store c'.store) : R c.store (m.run c).2.store := by
  cases hrun : m.run c with
  | mk r c' =>
    cases r with
    | ok a => exact h a c' hrun
    | error e =>
      rw [hm c e c' hrun]
      exact Std.Refl.refl _

theorem Respects.of_atomic [Std.Refl R] (hm : m.Atomic)
    (h : ∀ c a c', m.Runs c a c' → R c.store c'.store) : m.Respects R :=
  fun c ↦ hm.relates (h c)

theorem Respects.of_readOnly [Std.Refl R] (h : m.ReadOnly) : m.Respects R := by
  intro c
  rw [h c]
  exact Std.Refl.refl _

theorem Respects.bind [IsTrans σ R] (hm : m.Respects R) (hf : ∀ a, (f a).Respects R) :
    (m >>= f).Respects R := by
  intro c
  have hR := hm c
  change R c.store (andThen m f c).2.store
  unfold andThen
  split
  · rename_i a c₁ hrun
    rw [hrun] at hR
    exact IsTrans.trans _ _ _ hR (hf a c₁)
  · rename_i e c₁ hrun
    rw [hrun] at hR
    exact hR

/-- What follows a check may rely on it. -/
theorem relates_ensure_bind [Std.Refl R] {p : Prop} [Decidable p] {f : Unit → Query σ ε β}
    (hf : p → R c.store ((f ()).run c).2.store) : R c.store ((ensure p e >>= f).run c).2.store := by
  by_cases hp : p
  · have hrun : (ensure p e >>= f).run c = (f ()).run c := by
      unfold Query.ensure
      rw [if_pos hp]
      rfl
    rw [hrun]
    exact hf hp
  · have hrun : ((ensure p e >>= f).run c).2 = c := by
      unfold Query.ensure
      rw [if_neg hp]
      rfl
    rw [hrun]
    exact Std.Refl.refl _

theorem Respects.ensure_bind [Std.Refl R] {p : Prop} [Decidable p] {f : Unit → Query σ ε β}
    (hf : p → (f ()).Respects R) : (ensure p e >>= f).Respects R :=
  fun c ↦ relates_ensure_bind fun hp ↦ hf hp c

theorem relates_read_bind [Std.Refl R] {g : σ → α} {f : α → Query σ ε β}
    (hf : ∀ c', c'.store = c.store → R c.store ((f (g c.store)).run c').2.store) :
    R c.store ((read g >>= f).run c).2.store := by
  have hstore : ((read g : Query σ ε α).run c).2.store = c.store := ReadOnly.read c
  show R c.store (andThen (read g) f c).2.store
  unfold andThen
  split
  · rename_i a c₁ hrun
    obtain ⟨rfl, hc₁⟩ := Runs.of_read hrun
    exact hf c₁ hc₁
  · rename_i e c₁ hrun
    rw [hrun] at hstore
    show R c.store c₁.store
    rw [hstore]
    exact Std.Refl.refl _

theorem Respects.forEach [Std.Refl R] [IsTrans σ R] {g : β → Query σ ε Unit}
    (hg : ∀ b, (g b).Respects R) (bs : List β) : (forEach bs g).Respects R := by
  induction bs with
  | nil => exact Respects.of_readOnly ReadOnly.pure
  | cons b bs ih => exact (hg b).bind fun _ ↦ ih

theorem Respects.change [Std.Refl R] {f : σ → Option (α × σ)}
    (h : ∀ s a s', f s = some (a, s') → R s s') : (change e f).Respects R :=
  Respects.of_atomic Atomic.change fun _ _ _ hrun ↦ h _ _ _ hrun.of_change

theorem Respects.write [Std.Refl R] {f : σ → Option σ} (h : ∀ s s', f s = some s' → R s s') :
    (write e f).Respects R :=
  Respects.of_atomic Atomic.write fun _ _ _ hrun ↦ h _ _ hrun.of_write

theorem Respects.changePart [Std.Refl R] {τ : Type} {get : σ → τ} {set : σ → τ → σ}
    {f : τ → Option (α × τ)} (h : ∀ s t, R s (set s t)) : (changePart e get set f).Respects R :=
  Respects.of_atomic Atomic.change fun _ _ _ hrun ↦ by
    obtain ⟨t, -, hstore⟩ := Runs.of_changePart hrun
    rw [hstore]
    exact h _ t

theorem Respects.when [Std.Refl R] {p : Prop} [Decidable p] {m : Query σ ε Unit}
    (h : m.Respects R) : (when p m).Respects R := by
  show (if p then m else pure ()).Respects R
  split
  · exact h
  · exact Respects.of_readOnly ReadOnly.pure

theorem Respects.transactionWith [Std.Refl R] {body : Query σ ε (Verdict α)}
    (h : ∀ c a c', body.Runs c (.commit a) c' → R c.store c'.store) :
    (transactionWith body).Respects R := by
  refine Respects.of_atomic Atomic.transactionWith fun c a c' hrun ↦ ?_
  rcases hrun.of_transactionWith with ⟨c₁, c₂, hc₁, hbody, hc'⟩ | ⟨c₁, c₂, -, -, hc'⟩
  · rw [hc', ← hc₁]
    exact h c₁ a c₂ hbody
  · rw [hc']
    exact Std.Refl.refl _

theorem Respects.transaction [Std.Refl R] {body : Query σ ε α}
    (h : ∀ c a c', body.Runs c a c' → R c.store c'.store) : (transaction body).Respects R := by
  refine Respects.of_atomic Atomic.transaction fun c a c' hrun ↦ ?_
  obtain ⟨c₁, c₂, hc₁, hbody, hc'⟩ := hrun.of_transaction
  rw [hc', ← hc₁]
  exact h c₁ a c₂ hbody

end Respects

/-- When the query runs to its end, the store before and the store after are related. The body of a
transaction needs no more, since the transaction undoes what a failed one has written. -/
def Carries (R : σ → σ → Prop) (m : Query σ ε α) : Prop :=
  ∀ c a c', m.Runs c a c' → R c.store c'.store

section Carries

variable {R : σ → σ → Prop}

theorem Respects.carries (h : m.Respects R) : m.Carries R :=
  fun _ _ _ hm ↦ h.of_runs hm

theorem Carries.of_readOnly [Std.Refl R] (h : m.ReadOnly) : m.Carries R :=
  (Respects.of_readOnly h).carries

theorem Carries.bind [IsTrans σ R] (hm : m.Carries R) (hf : ∀ a, (f a).Carries R) :
    (m >>= f).Carries R := by
  intro c b c' h
  obtain ⟨a, c₁, hrun, hrest⟩ := runs_bind.1 h
  exact IsTrans.trans _ _ _ (hm c a c₁ hrun) (hf a c₁ b c' hrest)

theorem Carries.readOnly_bind (hm : m.ReadOnly) (hf : ∀ a, (f a).Carries R) :
    (m >>= f).Carries R := by
  intro c b c' h
  obtain ⟨a, c₁, hrun, hrest⟩ := runs_bind.1 h
  rw [← hm.store_eq hrun]
  exact hf a c₁ b c' hrest

theorem Carries.forEach [Std.Refl R] [IsTrans σ R] {g : β → Query σ ε Unit}
    (hg : ∀ b, (g b).Carries R) (bs : List β) : (forEach bs g).Carries R := by
  induction bs with
  | nil => exact Carries.of_readOnly ReadOnly.pure
  | cons b bs ih => exact (hg b).bind fun _ ↦ ih

theorem Carries.transaction [Std.Refl R] {body : Query σ ε α} (h : body.Carries R) :
    (transaction body).Respects R :=
  Respects.transaction h

end Carries

/-- The two stores agree on what `g` tells of them. -/
def Agree {γ : Type*} (g : σ → γ) (s s' : σ) : Prop :=
  g s' = g s

instance {γ : Type*} (g : σ → γ) : Std.Refl (Agree g) :=
  ⟨fun _ ↦ rfl⟩

instance {γ : Type*} (g : σ → γ) : IsTrans σ (Agree g) :=
  ⟨fun _ _ _ h h' ↦ h'.trans h⟩

/-! ### Queries that only look -/

/-- The query only looks at the store. On an engine without faults it leaves the connection as it is,
and faults may keep it from answering, but they never change what it answers. -/
structure Inspects (m : Query σ ε α) : Prop where
  quiet : ∀ s, (m.run ⟨s, []⟩).2 = ⟨s, []⟩
  readOnly : m.ReadOnly
  returns : ∀ c a c', m.Runs c a c' → m.Returns c.store a c.store

section Inspects

variable {s s' : σ}

theorem Inspects.pure : (pure a : Query σ ε α).Inspects where
  quiet _ := rfl
  readOnly := ReadOnly.pure
  returns _ _ _ h := by
    obtain ⟨rfl, -⟩ := runs_pure.1 h
    exact Returns.pure

theorem Inspects.fail : (fail e : Query σ ε α).Inspects where
  quiet _ := rfl
  readOnly := ReadOnly.fail
  returns _ _ _ h := absurd h not_runs_fail

theorem Inspects.ensure {p : Prop} [Decidable p] : (ensure p e : Query σ ε Unit).Inspects := by
  unfold Query.ensure
  split
  · exact Inspects.pure
  · exact Inspects.fail

theorem Inspects.ofExcept {x : Except ε α} : (ofExcept x : Query σ ε α).Inspects := by
  cases x with
  | ok a => exact Inspects.pure
  | error e => exact Inspects.fail

theorem Inspects.read {f : σ → α} : (read f : Query σ ε α).Inspects where
  quiet _ := rfl
  readOnly := ReadOnly.read
  returns _ _ _ h := by
    rw [h.of_read.1]
    exact Returns.read

theorem Inspects.bind (hm : m.Inspects) (hf : ∀ a, (f a).Inspects) : (m >>= f).Inspects where
  quiet s := by
    have hquiet := hm.quiet s
    show (andThen m f ⟨s, []⟩).2 = _
    unfold andThen
    split
    · rename_i a c₁ hrun
      rw [hrun] at hquiet
      obtain rfl : c₁ = ⟨s, []⟩ := hquiet
      exact (hf a).quiet s
    · rename_i e c₁ hrun
      rw [hrun] at hquiet
      exact hquiet
  readOnly := hm.readOnly.bind fun a ↦ (hf a).readOnly
  returns c b c' h := by
    obtain ⟨a, c₁, hrun, hrest⟩ := runs_bind.1 h
    have hrest := (hf a).returns _ _ _ hrest
    rw [hm.readOnly.store_eq hrun] at hrest
    exact (hm.returns _ _ _ hrun).bind hrest

theorem Inspects.forEach {g : β → Query σ ε Unit} (hg : ∀ b, (g b).Inspects) (bs : List β) :
    (forEach bs g).Inspects := by
  induction bs with
  | nil => exact Inspects.pure
  | cons b bs ih => exact (hg b).bind fun _ ↦ ih

@[simp] theorem returns_pure {a' : α} :
    (pure a : Query σ ε α).Returns s a' s' ↔ a = a' ∧ s = s' := by
  rw [Returns, runs_pure, Connection.mk.injEq]
  simp only [and_true]

@[simp] theorem not_returns_fail : ¬(fail e : Query σ ε α).Returns s a s' :=
  not_runs_fail

@[simp] theorem returns_ensure {p : Prop} [Decidable p] {u : Unit} :
    (ensure p e : Query σ ε Unit).Returns s u s' ↔ p ∧ s = s' := by
  rw [Returns, runs_ensure, Connection.mk.injEq]
  simp only [and_true]

@[simp] theorem returns_ofExcept {x : Except ε α} :
    (ofExcept x : Query σ ε α).Returns s a s' ↔ x = .ok a ∧ s = s' := by
  rw [Returns, runs_ofExcept, Connection.mk.injEq]
  simp only [and_true]

/-- What a query answers after one that only looks. -/
theorem Inspects.returns_bind (hm : m.Inspects) :
    (m >>= f).Returns s b s' ↔ ∃ a, m.Returns s a s ∧ (f a).Returns s b s' := by
  constructor
  · intro h
    obtain ⟨a, c₁, hrun, hrest⟩ := runs_bind.1 h
    have hquiet := hm.quiet s
    rw [hrun] at hquiet
    obtain rfl : c₁ = ⟨s, []⟩ := hquiet
    exact ⟨a, hrun, hrest⟩
  · rintro ⟨a, hrun, hrest⟩
    exact hrun.bind hrest

theorem returns_read_bind {g : σ → α} :
    (read g >>= f : Query σ ε β).Returns s b s' ↔ (f (g s)).Returns s b s' := by
  rw [Inspects.read.returns_bind]
  constructor
  · rintro ⟨a, hread, h⟩
    rw [(Runs.of_read hread).1] at h
    exact h
  · exact fun h ↦ ⟨_, Returns.read, h⟩

theorem returns_ensure_bind {p : Prop} [Decidable p] {g : Unit → Query σ ε β} :
    (ensure p e >>= g).Returns s b s' ↔ p ∧ (g ()).Returns s b s' := by
  rw [Inspects.ensure.returns_bind]
  constructor
  · rintro ⟨_, hensure, hrest⟩
    exact ⟨(returns_ensure.1 hensure).1, hrest⟩
  · rintro ⟨hp, hrest⟩
    exact ⟨(), Returns.ensure hp, hrest⟩

theorem returns_ofExcept_bind {x : Except ε α} :
    (ofExcept x >>= f).Returns s b s' ↔ ∃ a, x = .ok a ∧ (f a).Returns s b s' := by
  rw [Inspects.ofExcept.returns_bind]
  simp only [returns_ofExcept, and_true]

/-- A loop that only looks runs to its end when its body does for every element. -/
theorem returns_forEach {g : β → Query σ ε Unit} (hg : ∀ b, (g b).Inspects) {bs : List β} :
    (forEach bs g).Returns s () s ↔ ∀ b ∈ bs, (g b).Returns s () s := by
  induction bs with
  | nil => simp [Query.forEach]
  | cons b bs ih =>
    rw [Query.forEach, (hg b).returns_bind, List.forall_mem_cons, ← ih]
    exact ⟨fun ⟨_, h⟩ ↦ h, fun h ↦ ⟨(), h⟩⟩

end Inspects

end Query

end Relational
