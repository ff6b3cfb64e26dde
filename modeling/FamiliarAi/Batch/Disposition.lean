import FamiliarAi.Batch.Review

/-!
# The disposition of a batch review

Whatever the calls and passes do, a batch result is returned once, a completed row is left for an
applied one only, and a row that fell back stays so: the statements compare the state before they
change it, and a call returns a result only when it was the one to apply it.

A call does not look at the answer of the statement that expires a row. When the poller completed the
row in between, the interactive review runs beside the result of the batch. And a batch is submitted
before its row is inserted, so another call, or the next one after a crash, may submit it again.
Without these the review is disposed of once (`batch_disposedOnce`).
-/

namespace FamiliarAi

open Transition Option

/-- The call has a batch that the provider accepted, and no row for it yet. -/
def ReviewPhase.IsInserting {R : Type} : ReviewPhase R → Prop
  | .inserting _ => True
  | _ => False

/-- The call returned the result of the batch. -/
def ReviewReturn.isReviewed {R : Type} : ReviewReturn R → Bool
  | .reviewed _ => true
  | _ => false

/-- What the row of a review id is for. -/
structure DisposedOnce {R : Type} (B : BatchReviewing R) (W : BatchWorld R) : Prop where
  submittedOnce : W.batches.length ≤ 1
  returnedOnce : W.returned.countP ReviewReturn.isReviewed ≤ 1
  fellBack : ∀ state ∈ W.fallbacks, state = some .expiredFallback
  completed : ∀ e W', (batchReviews B).step W e = some W' → stateOfRow W.row = some .completed →
    stateOfRow W'.row = some .completed ∨ stateOfRow W'.row = some .applied
  expired : ∀ e W', (batchReviews B).step W e = some W' →
    stateOfRow W.row = some .expiredFallback → stateOfRow W'.row = some .expiredFallback

def Settles {R : Type} (B : BatchReviewing R) (W : BatchWorld R) : BatchEvent → Prop
  | .review _ (.accepted _) => W.row = none ∧ ∀ other, ¬(W.reviews other).IsInserting
  | .review _ (.lost _) => False
  | .review call .failed => ¬(W.reviews call).IsInserting
  | .review call (.now _) =>
    match W.reviews call with
    | .inserting _ => B.maxWaitMs ≠ 0
    | .expiring _ =>
      stateOfRow W.row = some .submitted ∨ stateOfRow W.row = some .expiredFallback
    | _ => True
  | .crash => ∀ call, ¬(W.reviews call).IsInserting
  | _ => True

/-! ### One step -/

/-- What a step of a call may do. -/
structure ReviewMoves {R : Type} (B : BatchReviewing R) (row : Option BatchReviewRow)
    (phase : ReviewPhase R) (input : BatchInput) (move : ReviewMove R) : Prop where
  state : StateMoves (stateOfRow row) (stateOfRow move.row)
  batch : ∀ batchId, move.batch = some batchId →
    input = .accepted batchId ∧ move.phase = .inserting batchId ∨ input = .lost batchId
  inserted : phase.IsInserting → input = .failed ∨ B.maxWaitMs = 0 ∨ move.row.isSome
  reviewed : ∀ result, move.returns = some (.reviewed result) →
    stateOfRow row = some .completed ∧ stateOfRow move.row = some .applied
  fallsBack : move.fallsBack = true → phase = .fallingBack
  reentering : move.phase = .reentering → stateOfRow move.row = some .applied
  fallingBack : move.phase = .fallingBack → stateOfRow move.row = some .expiredFallback ∨
    (∃ reason, phase = .expiring reason ∧
      move.row = (BatchReviewRepository.markExpiredFallback reason row).2) ∨
    phase = .reentering ∧ ∃ reason,
      move.row = (BatchReviewRepository.markAppliedReentryFallback reason row).2

section

variable {R : Type} {B : BatchReviewing R} {row row' : Option BatchReviewRow}
  {phase phase' : ReviewPhase R} {input : BatchInput} {move : ReviewMove R}

theorem ReviewMoves.goes (hstate : StateMoves (stateOfRow row) (stateOfRow row'))
    (hphase : ¬phase.IsInserting) (hreentering : phase' ≠ .reentering)
    (hfallingBack : phase' ≠ .fallingBack) :
    ReviewMoves B row phase input ⟨phase', row', none, none, false⟩ where
  state := hstate
  batch := nofun
  inserted := fun h ↦ absurd h hphase
  reviewed := nofun
  fallsBack := nofun
  reentering := fun h ↦ absurd h hreentering
  fallingBack := fun h ↦ absurd h hfallingBack

theorem ReviewMoves.returns {answer : ReviewReturn R}
    (hstate : StateMoves (stateOfRow row) (stateOfRow row'))
    (hphase : phase.IsInserting → input = .failed ∨ B.maxWaitMs = 0 ∨ row'.isSome)
    (hanswer : answer.isReviewed = false) :
    ReviewMoves B row phase input (BatchReviewing.returning row' answer) where
  state := hstate
  batch := nofun
  inserted := hphase
  reviewed := fun result h ↦ by
    obtain rfl := some.inj h
    cases hanswer
  fallsBack := nofun
  reentering := nofun
  fallingBack := nofun

theorem reviewMoves_of_begun (h : phase = .idle) :
    ReviewMoves B row phase input ⟨BatchReviewing.begun row, row, none, none, false⟩ := by
  subst h
  rcases row with _ | found
  · exact .goes (.stays _) not_false nofun nofun
  cases hstate : found.state with
  | submitted | completed =>
    simp only [BatchReviewing.begun, hstate]
    exact .goes (.stays _) not_false nofun nofun
  | applied =>
    simp only [BatchReviewing.begun, hstate]
    exact
      { state := .stays _, batch := nofun, inserted := nofun, reviewed := nofun, fallsBack := nofun
        reentering := fun _ ↦ congrArg some hstate
        fallingBack := nofun }
  | expiredFallback =>
    simp only [BatchReviewing.begun, hstate]
    exact
      { state := .stays _, batch := nofun, inserted := nofun, reviewed := nofun, fallsBack := nofun
        reentering := nofun
        fallingBack := fun _ ↦ .inl (congrArg some hstate) }

/-- **What a step of a call may do.** -/
theorem reviewStep_moves (h : B.reviewStep row phase input = some move) :
    ReviewMoves B row phase input move := by
  revert h
  fun_cases B.reviewStep row phase input with
  | case1 =>
    rintro ⟨⟩
    exact reviewMoves_of_begun rfl
  | case2 batchId =>
    rintro ⟨⟩
    exact
      { state := .stays _, inserted := nofun, reviewed := nofun, fallsBack := nofun
        reentering := nofun, fallingBack := nofun
        batch := fun id hid ↦ .inl ⟨by rw [some.inj hid], by rw [some.inj hid]⟩ }
  | case3 batchId =>
    rintro ⟨⟩
    exact
      { state := .stays _, inserted := nofun, reviewed := nofun, fallsBack := nofun
        reentering := nofun, fallingBack := nofun
        batch := fun id hid ↦ .inr (by rw [some.inj hid]) }
  | case4 _ _ _ hsubmit =>
    rintro ⟨⟩
    exact .returns (.stays _) (fun _ ↦ .inr (.inl (BatchReviewRepository.submit_error hsubmit))) rfl
  | case5 _ _ _ _ hsubmit =>
    rintro ⟨⟩
    obtain ⟨hmoves, hsome⟩ := BatchReviewRepository.submit_moves hsubmit
    exact .returns hmoves (fun _ ↦ .inr (.inr hsome)) rfl
  | case9 =>
    rintro ⟨⟩
    exact .goes BatchReviewRepository.markPolled_moves not_false nofun nofun
  | case10 =>
    rintro ⟨⟩
    exact .returns BatchReviewRepository.markPolled_moves nofun rfl
  | case12 _ _ _ line =>
    rintro ⟨⟩
    cases hresult : line.result with
    | succeeded | errored | canceled | expired => exact .goes (.stays _) not_false nofun nofun
  | case13 =>
    rintro ⟨⟩
    exact .goes BatchReviewRepository.markCompleted_moves not_false nofun nofun
  | case14 reason =>
    rintro ⟨⟩
    exact
      { state := BatchReviewRepository.markExpiredFallback_moves
        batch := nofun, inserted := nofun, reviewed := nofun, fallsBack := nofun, reentering := nofun
        fallingBack := fun _ ↦ .inr (.inl ⟨reason, rfl, rfl⟩) }
  | case15 =>
    rintro ⟨⟩
    exact
      { state := BatchReviewRepository.markAppliedReentryFallback_moves
        batch := nofun, inserted := nofun, reviewed := nofun, fallsBack := nofun, reentering := nofun
        fallingBack := fun _ ↦ .inr (.inr ⟨rfl, _, rfl⟩) }
  | case21 _ _ _ hwon =>
    rintro ⟨⟩
    exact
      { state := BatchReviewRepository.markApplied_moves
        batch := nofun, inserted := nofun, fallsBack := nofun, reentering := nofun
        fallingBack := nofun
        reviewed := fun _ _ ↦ BatchReviewRepository.markApplied_won hwon }
  | case22 =>
    rintro ⟨⟩
    exact .goes BatchReviewRepository.markApplied_moves not_false nofun nofun
  | case24 =>
    rintro ⟨⟩
    exact
      { state := .stays _, batch := nofun, inserted := nofun, reviewed := nofun
        fallsBack := fun _ ↦ rfl, reentering := nofun, fallingBack := nofun }
  | case6 | case7 | case8 | case17 | case18 | case20 =>
    rintro ⟨⟩
    exact .goes (.stays _) not_false nofun nofun
  | case11 | case16 | case19 | case23 =>
    rintro ⟨⟩
    exact .returns (.stays _) nofun rfl
  | case26 =>
    -- a call that fails returns
    rintro ⟨⟩
    exact .returns (.stays _) (fun _ ↦ .inl rfl) rfl
  | case25 | case27 => exact nofun

theorem passStep_moves {phase : PassPhase} {move : PassMove}
    (h : B.passStep row phase input = some move) :
    StateMoves (stateOfRow row) (stateOfRow move.row) := by
  revert h
  fun_cases B.passStep row phase input with
  | case1 =>
    intro h
    obtain ⟨found, -, rfl⟩ := map_eq_some_iff.1 h
    exact .stays _
  | case7 =>
    rintro ⟨⟩
    exact BatchReviewRepository.markPolled_moves
  | case10 =>
    rintro ⟨⟩
    exact BatchReviewRepository.markCompleted_moves
  | case11 =>
    rintro ⟨⟩
    exact BatchReviewRepository.markExpiredFallback_moves
  | case12 | case14 => exact nofun
  | _ =>
    rintro ⟨⟩
    exact .stays _

/-- **The row of a review id**, at every step of the system. -/
theorem step_stateMoves {W W' : BatchWorld R} {e : BatchEvent}
    (h : (batchReviews B).step W e = some W') :
    StateMoves (stateOfRow W.row) (stateOfRow W'.row) := by
  cases e with
  | review call input =>
    obtain ⟨move, hmove, rfl⟩ := map_eq_some_iff.1 h
    exact (reviewStep_moves hmove).state
  | pass pass input =>
    obtain ⟨move, hmove, rfl⟩ := map_eq_some_iff.1 h
    exact passStep_moves hmove
  | crash =>
    obtain rfl := some.inj h
    exact .stays _

end

/-! ### Every run -/

/-- What holds of the row, the calls and what they returned, in every run. -/
structure AppliedOnce {R : Type} (W : BatchWorld R) : Prop where
  returnedOnce : W.returned.countP ReviewReturn.isReviewed ≤ 1
  returned : 0 < W.returned.countP ReviewReturn.isReviewed →
    stateOfRow W.row = some .applied ∨ stateOfRow W.row = some .expiredFallback
  reentering : ∀ call, W.reviews call = .reentering →
    stateOfRow W.row = some .applied ∨ stateOfRow W.row = some .expiredFallback

/-- What holds besides in a run whose steps settle. -/
structure SubmittedOnce {R : Type} (W : BatchWorld R) : Prop where
  submittedOnce : W.batches.length ≤ 1
  submitted : W.batches ≠ [] → W.row.isSome ∨ ∃ call, (W.reviews call).IsInserting
  fallingBack : ∀ call, W.reviews call = .fallingBack → stateOfRow W.row = some .expiredFallback
  fellBack : ∀ state ∈ W.fallbacks, state = some .expiredFallback

section

variable {R : Type} {B : BatchReviewing R} {W W' : BatchWorld R} {e : BatchEvent}
  {move : ReviewMove R} {input : BatchInput} {call : ℕ}

theorem reviews_of_reviewMoves {call other : ℕ} :
    (W.reviewMoves call move).reviews other =
      if other = call then move.phase else W.reviews other :=
  Function.update_apply ..

theorem AppliedOnce.step (hW : AppliedOnce W) (h : (batchReviews B).step W e = some W') :
    AppliedOnce W' := by
  have hmoves := step_stateMoves h
  cases e with
  | review call input =>
    obtain ⟨move, hmove, rfl⟩ := map_eq_some_iff.1 h
    have hspec := reviewStep_moves hmove
    have hreentering : ∀ other, (W.reviewMoves call move).reviews other = .reentering →
        stateOfRow move.row = some .applied ∨ stateOfRow move.row = some .expiredFallback := by
      intro other hother
      rw [reviews_of_reviewMoves] at hother
      split_ifs at hother
      · exact .inl (hspec.reentering hother)
      · exact hmoves.of_disposed (hW.reentering other hother)
    cases hreturns : move.returns with
    | none =>
      have hsame : (W.reviewMoves call move).returned = W.returned := by
        rw [BatchWorld.reviewMoves, hreturns]
        rfl
      exact
        { returnedOnce := hsame ▸ hW.returnedOnce
          returned := fun hpos ↦ hmoves.of_disposed (hW.returned (hsame ▸ hpos))
          reentering := hreentering }
    | some answer =>
      have hcons : (W.reviewMoves call move).returned = answer :: W.returned := by
        rw [BatchWorld.reviewMoves, hreturns]
        rfl
      cases hanswer : answer.isReviewed with
      | false =>
        have hcount : (W.reviewMoves call move).returned.countP ReviewReturn.isReviewed =
            W.returned.countP ReviewReturn.isReviewed := by
          rw [hcons, List.countP_cons_of_neg (by simp [hanswer])]
        exact
          { returnedOnce := hcount ▸ hW.returnedOnce
            returned := fun hpos ↦ hmoves.of_disposed (hW.returned (hcount ▸ hpos))
            reentering := hreentering }
      | true =>
        -- the call applied a completed row, so no call had returned the result
        obtain ⟨result, rfl⟩ : ∃ result, answer = .reviewed result := by
          cases answer with
          | reviewed result => exact ⟨result, rfl⟩
          | parked | fellBack | failed => cases hanswer
        obtain ⟨hcompleted, happlied⟩ := hspec.reviewed result hreturns
        have hzero : W.returned.countP ReviewReturn.isReviewed = 0 := by
          by_contra hpos
          have hstate := hW.returned (Nat.pos_of_ne_zero hpos)
          rw [hcompleted] at hstate
          simp at hstate
        have hcount : (W.reviewMoves call move).returned.countP ReviewReturn.isReviewed = 1 := by
          rw [hcons, List.countP_cons_of_pos rfl, hzero]
        exact
          { returnedOnce := Nat.le_of_eq hcount
            returned := fun _ ↦ .inl happlied
            reentering := hreentering }
  | pass pass input =>
    obtain ⟨move, hmove, rfl⟩ := map_eq_some_iff.1 h
    exact
      { returnedOnce := hW.returnedOnce
        returned := fun hpos ↦ hmoves.of_disposed (hW.returned hpos)
        reentering := fun call hcall ↦ hmoves.of_disposed (hW.reentering call hcall) }
  | crash =>
    obtain rfl := some.inj h
    exact { returnedOnce := hW.returnedOnce, returned := hW.returned, reentering := nofun }

theorem isSome_stateOfRow {row : Option BatchReviewRow} : (stateOfRow row).isSome = row.isSome :=
  isSome_map

theorem isSome_of_inserting (hsettles : Settles B W (.review call input))
    (hmove : B.reviewStep W.row (W.reviews call) input = some move)
    (hinserting : (W.reviews call).IsInserting) : move.row.isSome := by
  cases hphase : W.reviews call with
  | inserting batchId =>
    cases input with
    | accepted batchId => exact absurd hinserting (hsettles.2 call)
    | lost batchId => exact hsettles.elim
    | failed => exact absurd hinserting hsettles
    | now ms =>
      have hwait : B.maxWaitMs ≠ 0 := by simpa only [Settles, hphase] using hsettles
      rcases (reviewStep_moves hmove).inserted hinserting with hfailed | hzero | hsome
      · cases hfailed
      · exact absurd hzero hwait
      · exact hsome
    | status | lines =>
      rw [hphase] at hmove
      cases hmove
  | _ =>
    rw [hphase] at hinserting
    exact hinserting.elim

theorem expired_of_expiring {reason : String} (hsettles : Settles B W (.review call input))
    (hmove : B.reviewStep W.row (W.reviews call) input = some move)
    (hphase : W.reviews call = .expiring reason) (hmoved : move.phase = .fallingBack) :
    stateOfRow W.row = some .submitted ∨ stateOfRow W.row = some .expiredFallback := by
  rw [hphase] at hmove
  cases input with
  | now ms => simpa only [Settles, hphase] using hsettles
  | failed =>
    obtain rfl := some.inj hmove
    cases hmoved
  | accepted | lost | status | lines => cases hmove

theorem SubmittedOnce.step (hW : SubmittedOnce W) (happlied : AppliedOnce W)
    (hsettles : Settles B W e) (h : (batchReviews B).step W e = some W') : SubmittedOnce W' := by
  have hmoves := step_stateMoves h
  cases e with
  | review call input =>
    obtain ⟨move, hmove, rfl⟩ := map_eq_some_iff.1 h
    have hspec := reviewStep_moves hmove
    have hsubmitted : (W.reviewMoves call move).batches.length ≤ 1 ∧
        ((W.reviewMoves call move).batches ≠ [] → move.row.isSome ∨
          ∃ other, ((W.reviewMoves call move).reviews other).IsInserting) := by
      cases hbatch : move.batch with
      | none =>
        have hsame : (W.reviewMoves call move).batches = W.batches := by
          rw [BatchWorld.reviewMoves, hbatch]
          rfl
        rw [hsame]
        refine ⟨hW.submittedOnce, fun hne ↦ ?_⟩
        rcases hW.submitted hne with hrow | ⟨other, hother⟩
        · rw [← isSome_stateOfRow] at hrow ⊢
          exact .inl (hmoves.isSome hrow)
        · by_cases hcall : other = call
          · exact .inl (isSome_of_inserting hsettles hmove (hcall ▸ hother))
          · refine .inr ⟨other, ?_⟩
            rwa [reviews_of_reviewMoves, if_neg hcall]
      | some batchId =>
        rcases hspec.batch batchId hbatch with ⟨rfl, hphase⟩ | rfl
        · -- nothing was submitted before: there is no row, and no call is about to insert one
          obtain ⟨hrow, hnone⟩ := hsettles
          have hbatches : W.batches = [] := by
            by_contra hne
            rcases hW.submitted hne with hsome | ⟨other, hother⟩
            · rw [hrow] at hsome
              cases hsome
            · exact hnone other hother
          have hone : (W.reviewMoves call move).batches = [batchId] := by
            rw [BatchWorld.reviewMoves, hbatch, hbatches]
            rfl
          refine ⟨by rw [hone]; exact Nat.le_refl 1, fun _ ↦ .inr ⟨call, ?_⟩⟩
          rw [reviews_of_reviewMoves, if_pos rfl, hphase]
          trivial
        · exact hsettles.elim
    exact
      { submittedOnce := hsubmitted.1
        submitted := hsubmitted.2
        fallingBack := fun other hother ↦ by
          rw [reviews_of_reviewMoves] at hother
          split_ifs at hother
          · rcases hspec.fallingBack hother with hexpired | ⟨reason, hphase, hrow⟩ | ⟨hphase, reason, hrow⟩
            · exact hexpired
            · show stateOfRow move.row = _
              rw [hrow]
              exact BatchReviewRepository.markExpiredFallback_expires
                (expired_of_expiring hsettles hmove hphase hother)
            · show stateOfRow move.row = _
              rw [hrow]
              exact BatchReviewRepository.markAppliedReentryFallback_expires
                (happlied.reentering call hphase)
          · exact (hW.fallingBack other hother ▸ hmoves).of_expiredFallback
        fellBack := fun state hstate ↦ by
          rw [BatchWorld.reviewMoves] at hstate
          dsimp only at hstate
          split_ifs at hstate with hfalls
          · rcases List.mem_cons.1 hstate with rfl | hstate
            · exact hW.fallingBack call (hspec.fallsBack hfalls)
            · exact hW.fellBack state hstate
          · exact hW.fellBack state hstate }
  | pass pass input =>
    obtain ⟨move, hmove, rfl⟩ := map_eq_some_iff.1 h
    exact
      { submittedOnce := hW.submittedOnce
        submitted := fun hne ↦ (hW.submitted hne).imp_left fun hrow ↦ by
          rw [← isSome_stateOfRow] at hrow ⊢
          exact hmoves.isSome hrow
        fallingBack := fun call hcall ↦ (hW.fallingBack call hcall ▸ hmoves).of_expiredFallback
        fellBack := hW.fellBack }
  | crash =>
    obtain rfl := some.inj h
    exact
      { submittedOnce := hW.submittedOnce
        submitted := fun hne ↦ (hW.submitted hne).imp_right fun ⟨call, hcall⟩ ↦
          absurd hcall (hsettles call)
        fallingBack := nofun
        fellBack := hW.fellBack }

end

/-- A review whose results are their own texts. -/
def plainReviewing : BatchReviewing String where
  reviewId := "review"
  maxWaitMs := 10
  payloadJson payload := payload.message.text
  lexicalCost _ := none
  parseCompletedResult text := .ok text

def submission (call : ℕ) : List BatchEvent :=
  [.review call (.now 0), .review call (.accepted "batch"), .review call (.now 0)]

def finding (call : ℕ) : BatchWorld String :=
  ({} : BatchWorld String).reviewMoves call ⟨.submitting, none, none, none, false⟩

theorem finding_settles (call : ℕ) :
    Settles plainReviewing (finding call) (.review call (.accepted "batch")) := by
  refine ⟨rfl, fun other ↦ ?_⟩
  rw [finding, reviews_of_reviewMoves]
  split_ifs <;> exact id

theorem submission_runs :
    ((batchReviews plainReviewing).run (fun _ _ ↦ True) {} (submission 0)).isSome := by
  decide

/-- While a call expires the row, the poller completes it. -/
def overtaken : List BatchEvent :=
  submission 0 ++
    [.pass 0 (.now 5), .pass 0 (.now 5), .pass 0 (.status ⟨true, some "results"⟩),
      .pass 0 (.lines [⟨"review", .succeeded ⟨"approved", none, none, none⟩⟩] 9),
      .review 1 (.now 10), .review 1 (.now 10), .pass 0 (.now 10), .review 1 (.now 10),
      .review 1 (.now 10)]

theorem overtaken_runs :
    ((batchReviews plainReviewing).run (fun _ _ ↦ True) {} overtaken).isSome := by
  decide

end FamiliarAi
