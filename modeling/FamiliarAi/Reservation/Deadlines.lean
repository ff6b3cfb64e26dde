import FamiliarAi.Reservation.Atomicity
import FamiliarAi.Text.Timestamps

/-!
# Deadlines of reservations

A deadline is a text, and so is the time at which reservations expire. Both are compared as texts: a
renewal writes its deadline where that is the later text, or where there is none, and what expires
are the held reservations whose deadline is not after the time as a text.

Texts of one form are in the order of their instants, so **among these no renewal moves a deadline
to an earlier instant, and exactly the held reservations expire whose deadline has passed.** Texts
of different forms are not, and a reservation without a deadline gets one when it is renewed.
-/

namespace FamiliarAi

open Relational Text Option

/-- The reservation is held, and its deadline is not after the time. -/
def ReservationRow.Due (now : String) (row : ReservationRow) : Prop :=
  row.state = .held ∧ ∃ deadline ∈ row.expiresAt, deadline ≤ now

instance (now : String) (row : ReservationRow) : Decidable (row.Due now) :=
  inferInstanceAs (Decidable (row.state = .held ∧ ∃ deadline ∈ row.expiresAt, deadline ≤ now))

/-- What a renewal leaves of the reservations. -/
structure Ledger.Renews (id newExpiry : String) (L L' : Ledger) : Prop where
  others : ∀ other, other ≠ id → L'.reservation other = L.reservation other
  /-- A reservation without a deadline gets the new one. -/
  undated : ∀ row, L.reservation id = some row → row.expiresAt = none →
    L'.reservation id = some { row with expiresAt := some newExpiry }
  /-- Of two deadlines, the later text stays. -/
  dated : ∀ row deadline, L.reservation id = some row → row.expiresAt = some deadline →
    L'.reservation id = some { row with expiresAt := some (max deadline newExpiry) }
  /-- Of two deadlines of one form, the later instant stays. -/
  later : ∀ (row : ReservationRow) (t t' : Timestamp), L.reservation id = some row →
    row.expiresAt = some t.text → newExpiry = t'.text → t.SameForm t' → ∃ t'' : Timestamp,
      L'.reservation id = some { row with expiresAt := some t''.text } ∧
        t''.instant = max t.instant t'.instant

/-- What an expiry leaves of the reservations. -/
structure Ledger.Expires (now : String) (ids : List String) (L L' : Ledger) : Prop where
  expired : ∀ id, id ∈ ids ↔ ∃ row, L.reservation id = some row ∧ row.Due now
  rows : ∀ id, L'.reservation id = (L.reservation id).map fun row ↦
    if row.Due now then { row with state := .expired } else row
  due_iff : ∀ (row : ReservationRow) (t t' : Timestamp), row.expiresAt = some t.text →
    now = t'.text → t.SameForm t' → (row.Due now ↔ row.state = .held ∧ t.instant ≤ t'.instant)

section Deadlines

variable {c c' : Connection Ledger FamiliarError} {id now : String} {ids : List String} {u : Unit}
  {L : Ledger}

theorem mem_dueIds :
    id ∈ L.dueIds now ↔ ∃ row, L.reservation id = some row ∧ row.Due now := by
  have hdue (row : ReservationRow) : (decide (row.state = .held) &&
      row.expiresAt.any fun deadline ↦ decide (deadline ≤ now)) = true ↔ row.Due now := by
    rw [Bool.and_eq_true, decide_eq_true_eq, any_eq_true, ReservationRow.Due]
    simp only [decide_eq_true_eq, mem_def]
  rw [Ledger.dueIds, List.mem_map]
  simp only [List.mem_insertionSort, List.mem_filter, hdue]
  constructor
  · rintro ⟨row, ⟨hmem, hdue⟩, rfl⟩
    refine ⟨row, Table.find_eq_of_key hmem (decide_eq_true rfl) fun other _ hother ↦ ?_, hdue⟩
    simp only [reservationSchema, of_decide_eq_true hother, decide_true, Bool.true_or]
  · rintro ⟨row, hrow, hdue⟩
    obtain ⟨hmem, hid⟩ := Ledger.reservation_some hrow
    exact ⟨row, ⟨hmem, hdue⟩, hid⟩

theorem reservation_of_update {f : ReservationRow → ReservationRow}
    (h : (updateReservation id f).Runs c u c') (hf : ∀ r, (f r).reservationId = r.reservationId)
    (other : String) :
    c'.store.reservation other = (c.store.reservation other).map fun r ↦
      if r.reservationId = id then f r else r := by
  obtain ⟨T, hupdate, hstore⟩ := updateReservation_runs h
  have hfound := Table.find_update (q := fun r ↦ r.reservationId = other) hupdate fun r ↦ by
    rw [hf]
  rw [hstore]
  show T.find _ = _
  rw [hfound]
  simp only [decide_eq_true_eq]
  rfl

theorem expireOne_reservation (h : (expireOne id).Runs c u c') (other : String) :
    c'.store.reservation other = (c.store.reservation other).map fun r ↦
      if r.reservationId = id then { r with state := .expired } else r := by
  obtain ⟨c₁, c₂, hbegin, hbody, hend⟩ := Query.Runs.of_transaction h
  obtain ⟨_, c₃, hheld, hbody⟩ := hbody.of_bind
  obtain ⟨-, hstore₃⟩ := requireHeld_runs hheld
  obtain ⟨items, c₄, hitems, hbody⟩ := hbody.of_bind
  obtain ⟨-, hstore₄⟩ := hitems.of_read
  obtain ⟨_, c₅, hcredits, hbody⟩ := hbody.of_bind
  obtain ⟨_, c₆, hupdate, hevent⟩ := hbody.of_bind
  have hrow := reservation_of_update hupdate (fun _ ↦ rfl) other
  have hdrains := (Ledger.Drains.of_forEach hcredits).reservations
  rw [Ledger.reservation, Ledger.reservation, hdrains, hstore₄, hstore₃, hbegin] at hrow
  rw [hend, event_runs hevent]
  exact hrow

theorem expiresAll_reservation {L L' : Ledger} (h : Ledger.ExpiresAll ids L L') (other : String) :
    L'.reservation other = (L.reservation other).map fun r ↦
      if r.reservationId ∈ ids then { r with state := .expired } else r := by
  induction ids generalizing L with
  | nil =>
    rw [show L' = L from h]
    simp only [List.not_mem_nil, if_false, map_id']
  | cons id ids ih =>
    obtain ⟨c, c', rfl, hone, hrest⟩ := h
    rw [ih hrest, expireOne_reservation hone, map_map]
    congr 1
    funext r
    show (if _ then _ else _) = _
    by_cases hid : r.reservationId = id
    · simp only [hid, if_true, List.mem_cons, true_or]
      split <;> rfl
    · simp only [hid, if_false, List.mem_cons, false_or]

theorem forEach_expireOne_runs (h : (Query.forEach ids expireOne).Runs c u c') :
    Ledger.ExpiresAll ids c.store c'.store := by
  induction ids generalizing c with
  | nil =>
    rw [Query.runs_forEach_nil.1 h]
    exact rfl
  | cons id ids ih =>
    obtain ⟨c₁, hid, hrest⟩ := Query.runs_forEach_cons.1 h
    exact ⟨c, c₁, rfl, hid, ih hrest⟩

theorem mem_dueIds_of_reservation {row : ReservationRow} (h : L.reservation id = some row) :
    row.reservationId ∈ L.dueIds now ↔ row.Due now := by
  rw [(Ledger.reservation_some h).2, mem_dueIds, h]
  simp only [some.injEq, exists_eq_left']

theorem expireDue_expires (h : (expireDue now).Runs c ids c') :
    c.store.Expires now ids c'.store := by
  obtain ⟨c₁, hstore, h⟩ := h.of_read_bind
  obtain ⟨_, rfl, hexpire⟩ := h.of_bind_pure
  have hall := forEach_expireOne_runs hexpire
  rw [hstore] at hall
  refine ⟨fun id ↦ mem_dueIds, fun id ↦ ?_, fun row t t' hrow hnow hform ↦ ?_⟩
  · rw [expiresAll_reservation hall]
    rcases hfound : c.store.reservation id with _ | row
    · rfl
    · simp only [map_some, mem_dueIds_of_reservation hfound]
  · simp only [ReservationRow.Due, hrow, mem_some_iff, exists_eq_left', hnow,
      hform.text_le_iff]

theorem expireDue_fails_reservation {e : FamiliarError} (h : (expireDue now).Fails c e c')
    (id : String) :
    c'.store.reservation id = c.store.reservation id ∨ ∃ row, c.store.reservation id = some row ∧
      row.Due now ∧ c'.store.reservation id = some { row with state := .expired } := by
  obtain ⟨done, rest, hdue, hall⟩ := expireDue_fails h
  rw [expiresAll_reservation hall]
  rcases hfound : c.store.reservation id with _ | row
  · exact .inl rfl
  · rw [map_some]
    split
    · rename_i hdone
      refine .inr ⟨row, rfl, ?_, rfl⟩
      rw [← mem_dueIds_of_reservation hfound, hdue]
      exact List.mem_append_left _ hdone
    · exact .inl rfl

theorem renew_renews {newExpiry actor justification : String}
    (h : (renew id newExpiry actor justification).Runs c u c') :
    c.store.Renews id newExpiry c'.store := by
  obtain ⟨c₁, c₂, hbegin, hbody, hend⟩ := h.of_transaction
  obtain ⟨_, c₃, hheld, hbody⟩ := hbody.of_bind
  obtain ⟨-, hstore₃⟩ := requireHeld_runs hheld
  obtain ⟨nonrenewable, c₄, hcount, hbody⟩ := hbody.of_bind
  obtain ⟨-, hstore₄⟩ := hcount.of_read
  obtain ⟨-, hbody⟩ := hbody.of_ensure_bind
  obtain ⟨_, c₆, hupdate, hevent⟩ := hbody.of_bind
  have hrows (other : String) := reservation_of_update hupdate (fun r ↦ by split <;> rfl) other
  rw [hstore₄, hstore₃, hbegin] at hrows
  have hreservation (other : String) :
      c'.store.reservation other = c₆.store.reservation other := by
    rw [hend, event_runs hevent]
    rfl
  have hrow {row : ReservationRow} (hrow : c.store.reservation id = some row) :
      c'.store.reservation id = some
        (if row.expiresAt.all fun deadline ↦ decide (deadline < newExpiry) then
          { row with expiresAt := some newExpiry }
        else row) := by
    rw [hreservation, hrows, hrow, map_some, if_pos (Ledger.reservation_some hrow).2]
  have hdated (row : ReservationRow) (deadline : String)
      (hfound : c.store.reservation id = some row) (hdeadline : row.expiresAt = some deadline) :
      c'.store.reservation id = some { row with expiresAt := some (max deadline newExpiry) } := by
    rw [hrow hfound, hdeadline, all_some]
    split
    · rename_i hlt
      rw [max_eq_right (of_decide_eq_true hlt).le]
    · rename_i hge
      rw [max_eq_left (not_lt.1 fun hlt ↦ hge (decide_eq_true hlt)), ← hdeadline]
  refine ⟨fun other hother ↦ ?_, fun row hfound hnone ↦ ?_, hdated,
    fun row t t' hfound hdeadline hnew hform ↦ ?_⟩
  · rw [hreservation, hrows]
    rcases hfound : c.store.reservation other with _ | row
    · rfl
    · have hid := (Ledger.reservation_some hfound).2
      rw [map_some, if_neg fun hsame ↦ hother (hid.symm.trans hsame)]
  · rw [hrow hfound, hnone, all_none, if_pos rfl]
  · rw [hdated row t.text hfound hdeadline, hnew]
    rcases le_total t.text t'.text with hle | hle
    · exact ⟨t', by rw [max_eq_right hle], (max_eq_right (hform.text_le_iff.1 hle)).symm⟩
    · exact ⟨t, by rw [max_eq_left hle], (max_eq_left (hform.symm.text_le_iff.1 hle)).symm⟩

end Deadlines

/-- **The deadlines of reservations.** In every ledger, a renewal keeps the later text of two
deadlines and writes one where there is none, and what expires are the held reservations whose
deadline is not after the time as a text; among texts of one form these are the later instant and
the instants that have come. A renewal that fails leaves the ledger, and an expiry that fails has
expired due reservations only. -/
theorem deadlines_in_order (L : Ledger) (faults : List (Option FamiliarError)) :
    (∀ id newExpiry actor justification c',
      ((renew id newExpiry actor justification).Runs ⟨L, faults⟩ () c' →
        L.Renews id newExpiry c'.store) ∧
      ∀ e, (renew id newExpiry actor justification).Fails ⟨L, faults⟩ e c' → c'.store = L) ∧
    ∀ now c',
      (∀ ids, (expireDue now).Runs ⟨L, faults⟩ ids c' → L.Expires now ids c'.store) ∧
      ∀ e, (expireDue now).Fails ⟨L, faults⟩ e c' → ∀ id,
        c'.store.reservation id = L.reservation id ∨ ∃ row, L.reservation id = some row ∧
          row.Due now ∧ c'.store.reservation id = some { row with state := .expired } :=
  ⟨fun _ _ _ _ _ ↦ ⟨renew_renews, fun _ h ↦ Query.Atomic.transaction _ _ _ h⟩,
    fun _ _ ↦ ⟨fun _ ↦ expireDue_expires, fun _ ↦ expireDue_fails_reservation⟩⟩

namespace Spelling

/-- The first instant of a year, by the clock of UTC. -/
def midnight : Timestamp :=
  ⟨2026, 1, 1, 0, 0, 0, [], 'T', .zulu true, by decide, by decide, by decide, by decide, by decide,
    by decide⟩

/-- Half an hour before it, where the clock is an hour ahead. -/
def before : Timestamp :=
  ⟨2026, 1, 1, 0, 30, 0, [], 'T', .numeric false 1 0, by decide, by decide, by decide, by decide,
    by decide, by decide⟩

theorem text_midnight : midnight.text = "2026-01-01T00:00:00Z" := by
  decide

theorem text_before : before.text = "2026-01-01T00:30:00+01:00" := by
  decide

theorem before_lt_midnight : before.instant < midnight.instant := by
  have hday : dayNumber before.year before.month before.day =
      dayNumber midnight.year midnight.month midnight.day := rfl
  have hhour : before.hour = midnight.hour := rfl
  have hminute : before.minute = midnight.minute + 30 := rfl
  have hahead : before.offset.minutesAhead = 60 := rfl
  have hutc : midnight.offset.minutesAhead = 0 := rfl
  rw [Timestamp.instant, Timestamp.instant, Prod.Lex.toLex_lt_toLex, Timestamp.localMinute,
    Timestamp.localMinute, hday, hhour, hminute, hahead, hutc]
  omega

/-- A ledger with one reservation, which is held. -/
def ledger (expiresAt : Option String) : Ledger :=
  { Ledger.empty with
    reservations := ⟨[⟨"r", ⟨"o", none, "n", "k", "p", "e", "c"⟩, .held, 1, expiresAt, false,
        false⟩],
      List.forall_mem_singleton.2 rfl, List.pairwise_singleton _ _⟩ }

def after {α : Type} (operation : LedgerQuery α) (expiresAt : Option String) :
    Option (Option String × ReservationState) :=
  ((operation.run ⟨ledger expiresAt, []⟩).2.store.reservation "r").map fun row ↦
    (row.expiresAt, row.state)

end Spelling

theorem deadline_spelled_apart :
    Spelling.before.instant < Spelling.midnight.instant ∧
      Spelling.after (renew "r" Spelling.before.text "a" "more") (some Spelling.midnight.text) =
        some (some Spelling.before.text, .held) ∧
      Spelling.after (expireDue Spelling.midnight.text) (some Spelling.before.text) =
        some (some Spelling.before.text, .held) ∧
      Spelling.after (renew "r" Spelling.midnight.text "a" "more" >>= fun _ ↦
          expireDue Spelling.midnight.text) none =
        some (some Spelling.midnight.text, .expired) := by
  rw [Spelling.text_midnight, Spelling.text_before]
  exact ⟨Spelling.before_lt_midnight, by decide +kernel, by decide +kernel, by decide +kernel⟩

end FamiliarAi
