import FamiliarAi.Delivery.Order

/-!
# The migration gate

Delivery looks for migrations among the names that are staged, and leaves everything to a commit of its
own. So the gate guards what is committed by delivery, and nothing that was committed before it.

The repository is seen as four trees: the base, the head of the branch, the index and the worktree.
-/

namespace FamiliarAi

open List

namespace Delivery

open Interaction Program

variable {paths : List String}

/-- The trees of a repository with a worktree. -/
structure GitState (Tree : Type) where
  base : Tree
  head : Tree
  index : Tree
  worktree : Tree

def isMigration (path : String) : Bool :=
  textContains (asciiLower path) "migration"

/-- A text with one name a line. -/
def listing (paths : List String) : String :=
  String.ofList (paths.flatMap fun path ↦ path.toList ++ ['\n'])

/-- What git knows of trees: the names of the paths in which two of them differ. Git quotes a name that has
the end of a line in it. -/
structure Git (Tree : Type) where
  names : Tree → Tree → List String
  quoted : ∀ before after, ∀ path ∈ names before after, '\n' ∉ path.toList ∧ '\r' ∉ path.toList

theorem lines_listing (hquoted : ∀ path ∈ paths, '\n' ∉ path.toList ∧ '\r' ∉ path.toList) :
    Text.lines (listing paths).toList = paths.map String.toList := by
  rw [listing, String.toList_ofList]
  induction paths with
  | nil => rfl
  | cons path paths ih =>
    obtain ⟨⟨hfeed, hreturn⟩, hquoted⟩ := forall_mem_cons.1 hquoted
    rw [flatMap_cons, append_assoc, singleton_append, Text.lines_append hfeed hreturn,
      ih hquoted, map_cons]

theorem stagedMigration_listing (hquoted : ∀ path ∈ paths, '\n' ∉ path.toList ∧ '\r' ∉ path.toList)
    :
    stagedMigration (listing paths) = paths.find? isMigration := by
  have hpaths : (paths.map String.toList).map String.ofList = paths := by
    rw [List.map_map]
    exact (map_congr_left fun path _ ↦ String.ofList_toList).trans (List.map_id paths)
  rw [stagedMigration, lines_listing hquoted, hpaths]
  rfl

variable {Tree : Type}

/-- Between two trees, a migration differs. -/
def Git.Touches (git : Git Tree) (before after : Tree) : Prop :=
  (git.names before after).any isMigration = true

instance (git : Git Tree) (before after : Tree) : Decidable (git.Touches before after) :=
  inferInstanceAs (Decidable (_ = true))

theorem Git.isSome_stagedMigration (git : Git Tree) (before after : Tree) :
    (stagedMigration (listing (git.names before after))).isSome = true ↔ git.Touches before after := by
  rw [stagedMigration_listing (git.quoted before after), find?_isSome, Git.Touches, List.any_eq_true]

/-- A command has done what it does. Of a command that did not come to its end, `interrupted` tells. -/
def applied (interrupted : Bool) : CommandAnswer → Bool
  | .exited output => output.success
  | .failed _ | .stopped => interrupted

/-- What an event does to the trees: `git add -A` and `git commit` change them. -/
def GitState.after (s : GitState Tree) (interrupted : Bool) : DeliveryEvent → GitState Tree
  | ⟨.command .addAll _ _ _, answer⟩ =>
    if applied interrupted answer then { s with index := s.worktree } else s
  | ⟨.command .commit _ _ _, answer⟩ =>
    if applied interrupted answer then { s with head := s.index } else s
  | _ => s

def stateAt (s : GitState Tree) (interrupted : DeliveryHistory → Bool) : DeliveryHistory → GitState Tree
  | [] => s
  | e :: h => (stateAt s interrupted h).after (interrupted h) e

/-- Git lists what is staged, and commits nothing where nothing is staged. Any command may fail. -/
structure Standard (git : Git Tree) (s : GitState Tree) (interrupted : DeliveryHistory → Bool)
    (env : Environment DeliveryOp DeliveryAnswer) : Prop where
  staged : ∀ h directory argv vars output,
    env h (.command .stagedNames directory argv vars) = .exited output → output.success = true →
      output.stdout = listing
        (git.names (stateAt s interrupted h).head (stateAt s interrupted h).index)
  commit : ∀ h directory argv vars output,
    env h (.command .commit directory argv vars) = .exited output → output.success = true →
      (stateAt s interrupted h).index ≠ (stateAt s interrupted h).head

/-! ### What delivery does to the trees -/

section Trees

variable {git : Git Tree} {s : GitState Tree} {interrupted : DeliveryHistory → Bool}
  {env : Environment DeliveryOp DeliveryAnswer} {h : DeliveryHistory} {step : DeliveryStep}
  {e : DeliveryEvent} {vars : List (String × String)} {answer : CommandAnswer} {directory : String}
  {argv : List String}

/-- The trees as delivery leaves them. The head is the one of the beginning until it is the worktree, and
what was listed of the one is listed against the other. -/
structure Trees (git : Git Tree) (s : GitState Tree) (interrupted : DeliveryHistory → Bool)
    (h : DeliveryHistory) : Prop where
  base : (stateAt s interrupted h).base = s.base
  worktree : (stateAt s interrupted h).worktree = s.worktree
  index : Did .addAll h → (stateAt s interrupted h).index = s.worktree
  head : (stateAt s interrupted h).head = s.head ∨ (stateAt s interrupted h).head = s.worktree
  listed : ∀ e before output, e :: before <:+ h → succeeded e = some (.stagedNames, output) →
    Did .addAll before → (stateAt s interrupted h).head = s.worktree ∨
      output.stdout = listing (git.names s.head s.worktree)
  committed : Did .commit h → (stateAt s interrupted h).head = s.worktree ∧ s.head ≠ s.worktree ∧
    (git.Touches s.head s.worktree → Did .migrationGate h)

theorem not_did_nil : ¬Did step [] := by
  rintro ⟨e, he, -⟩
  cases he

theorem trees_nil : Trees git s interrupted [] where
  base := rfl
  worktree := rfl
  index hdid := absurd hdid not_did_nil
  head := .inl rfl
  listed e before output he := by
    have hlength := he.length_le
    simp at hlength
  committed hdid := absurd hdid not_did_nil

theorem succeeded_eq_some {output : CommandOutput} (he : succeeded e = some (step, output)) :
    ∃ directory argv vars, e = ⟨.command step directory argv vars, .exited output⟩ ∧
      output.success = true := by
  obtain ⟨op, answer⟩ := e
  cases op with
  | load => cases he
  | persist journal => cases he
  | command step' directory argv vars =>
    cases answer with
    | failed error => cases he
    | stopped => cases he
    | exited output' =>
      have he : (if output'.success then some (step', output') else none) = some (step, output) := he
      split_ifs at he with hsuccess
      cases he
      exact ⟨directory, argv, vars, rfl, hsuccess⟩

theorem Did.of_cons (hdid : Did step (e :: h)) :
    (∃ directory argv vars output, e = ⟨.command step directory argv vars, .exited output⟩ ∧
      output.success = true) ∨ Did step h := by
  obtain ⟨e', he', output, hsucceeded⟩ := hdid
  rcases mem_cons.1 he' with rfl | he'
  · obtain ⟨directory, argv, vars, heq, hsuccess⟩ := succeeded_eq_some hsucceeded
    exact .inl ⟨directory, argv, vars, output, heq, hsuccess⟩
  · exact .inr ⟨e', he', output, hsucceeded⟩

theorem Did.of_suffix {before : DeliveryHistory} (hdid : Did step before) (hbefore : before <:+ h) :
    Did step h := by
  obtain ⟨e, he, hsucceeded⟩ := hdid
  exact ⟨e, hbefore.subset he, hsucceeded⟩

theorem after_of_ne {b : Bool} (hadd : stepOf e ≠ some .addAll) (hcommit : stepOf e ≠ some .commit) :
    s.after b e = s := by
  obtain ⟨op, answer⟩ := e
  cases op with
  | load => rfl
  | persist journal => rfl
  | command step directory argv vars =>
    cases step with
    | addAll => exact absurd rfl hadd
    | commit => exact absurd rfl hcommit
    | _ => rfl

theorem Trees.other (htrees : Trees git s interrupted h)
    (hstandard : Standard git s interrupted env) (hanswer : e.answer = env h e.op)
    (hadd : stepOf e ≠ some .addAll) (hcommit : stepOf e ≠ some .commit) :
    Trees git s interrupted (e :: h) := by
  have hsame : stateAt s interrupted (e :: h) = stateAt s interrupted h := after_of_ne hadd hcommit
  have hdid {step : DeliveryStep} (hstep : stepOf e ≠ some step) (hdid : Did step (e :: h)) :
      Did step h := by
    rcases hdid.of_cons with ⟨_, _, _, _, rfl, -⟩ | hdid
    · exact absurd rfl hstep
    · exact hdid
  refine ⟨?_, ?_, fun hadded ↦ ?_, ?_, fun e' before output he' hnames hadded ↦ ?_, fun hcommitted ↦ ?_⟩
  · rw [hsame]
    exact htrees.base
  · rw [hsame]
    exact htrees.worktree
  · rw [hsame]
    exact htrees.index (hdid hadd hadded)
  · rw [hsame]
    exact htrees.head
  · rw [hsame]
    rcases suffix_cons_iff.1 he' with heq | he'
    · -- the names are listed now, of the head as it is against the worktree
      obtain ⟨rfl, rfl⟩ := List.cons.inj heq
      obtain ⟨directory, argv, vars, rfl, hsuccess⟩ := succeeded_eq_some hnames
      have hlisted := hstandard.staged _ directory argv vars output hanswer.symm hsuccess
      rw [htrees.index hadded] at hlisted
      rcases htrees.head with hhead | hhead
      · rw [hhead] at hlisted
        exact .inr hlisted
      · exact .inl hhead
    · exact htrees.listed e' before output he' hnames hadded
  · rw [hsame]
    obtain ⟨hhead, hne, hgate⟩ := htrees.committed (hdid hcommit hcommitted)
    exact ⟨hhead, hne, fun htouches ↦ (hgate htouches).cons⟩

theorem Trees.add (htrees : Trees git s interrupted h) :
    Trees git s interrupted (⟨.command .addAll directory argv vars, answer⟩ :: h) := by
  have hstate : stateAt s interrupted (⟨.command .addAll directory argv vars, answer⟩ :: h) =
      if applied (interrupted h) answer then
        { stateAt s interrupted h with index := (stateAt s interrupted h).worktree }
      else stateAt s interrupted h := rfl
  have hhead : (stateAt s interrupted (⟨.command .addAll directory argv vars, answer⟩ :: h)).head =
      (stateAt s interrupted h).head := by
    rw [hstate]
    split <;> rfl
  refine ⟨?_, ?_, fun hadded ↦ ?_, ?_, fun e' before output he' hnames hadded ↦ ?_, fun hcommitted ↦ ?_⟩
  · rw [hstate]
    split <;> exact htrees.base
  · rw [hstate]
    split <;> exact htrees.worktree
  · rw [hstate]
    split
    · exact htrees.worktree
    · rename_i hskipped
      rcases hadded.of_cons with ⟨_, _, _, output, heq, hsuccess⟩ | hadded
      · cases heq
        exact absurd hsuccess hskipped
      · exact htrees.index hadded
  · rw [hhead]
    exact htrees.head
  · rw [hhead]
    rcases suffix_cons_iff.1 he' with heq | he'
    · obtain ⟨rfl, rfl⟩ := List.cons.inj heq
      obtain ⟨_, _, _, heq, -⟩ := succeeded_eq_some hnames
      cases heq
    · exact htrees.listed e' before output he' hnames hadded
  · rw [hhead]
    rcases hcommitted.of_cons with ⟨_, _, _, _, heq, -⟩ | hcommitted
    · cases heq
    · obtain ⟨hhead, hne, hgate⟩ := htrees.committed hcommitted
      exact ⟨hhead, hne, fun htouches ↦ (hgate htouches).cons⟩

theorem Trees.commit (htrees : Trees git s interrupted h)
    (hstandard : Standard git s interrupted env)
    (hanswer : env h (.command .commit directory argv vars) = answer)
    (hpermitted : Permitted h .commit) :
    Trees git s interrupted (⟨.command .commit directory argv vars, answer⟩ :: h) := by
  have hstate : stateAt s interrupted (⟨.command .commit directory argv vars, answer⟩ :: h) =
      if applied (interrupted h) answer then
        { stateAt s interrupted h with head := (stateAt s interrupted h).index }
      else stateAt s interrupted h := rfl
  obtain ⟨-, eₗ, beforeₗ, outputₗ, hsuffix, hlisted, hadded, hgate⟩ := hpermitted
  have hindex : (stateAt s interrupted h).index = s.worktree :=
    htrees.index (hadded.of_suffix ((suffix_cons _ _).trans hsuffix))
  have hworktree (hhead : (stateAt s interrupted h).head = s.worktree) :
      (stateAt s interrupted (⟨.command .commit directory argv vars, answer⟩ :: h)).head =
        s.worktree := by
    rw [hstate]
    split
    · exact hindex
    · exact hhead
  refine ⟨?_, ?_, fun _ ↦ ?_, ?_, fun e' before output he' hnames hadded ↦ ?_, fun hcommitted ↦ ?_⟩
  · rw [hstate]
    split <;> exact htrees.base
  · rw [hstate]
    split <;> exact htrees.worktree
  · rw [hstate]
    split <;> exact hindex
  · rw [hstate]
    split
    · exact .inr hindex
    · exact htrees.head
  · rcases suffix_cons_iff.1 he' with heq | he'
    · obtain ⟨rfl, rfl⟩ := List.cons.inj heq
      obtain ⟨_, _, _, heq, -⟩ := succeeded_eq_some hnames
      cases heq
    · rcases htrees.listed e' before output he' hnames hadded with hhead | hprinted
      · exact .inl (hworktree hhead)
      · exact .inr hprinted
  · rcases hcommitted.of_cons with ⟨_, _, _, output, heq, hsuccess⟩ | hcommitted
    · cases heq
      have hne := hstandard.commit _ directory argv vars output hanswer hsuccess
      rw [hindex] at hne
      have hhead : (stateAt s interrupted h).head = s.head :=
        htrees.head.resolve_right fun hhead ↦ hne hhead.symm
      refine ⟨?_, fun heq ↦ hne (heq ▸ hhead).symm, fun htouches ↦ ?_⟩
      · rw [hstate, if_pos (show applied (interrupted h) (.exited output) = true from hsuccess)]
        exact hindex
      · have hprinted := (htrees.listed eₗ beforeₗ outputₗ hsuffix hlisted hadded).resolve_left
          fun hhead ↦ hne hhead.symm
        refine (hgate ?_).cons
        rw [hprinted, git.isSome_stagedMigration]
        exact htouches
    · obtain ⟨hhead, hne, hgate⟩ := htrees.committed hcommitted
      exact ⟨hworktree hhead, hne, fun htouches ↦ (hgate htouches).cons⟩

theorem Trees.grows {h' : DeliveryHistory} (htrees : Trees git s interrupted h)
    (hstandard : Standard git s interrupted env)
    (hgrows : Grows (fun h e ↦ e.answer = env h e.op ∧ ∀ step, stepOf e = some step → Permitted h step)
      h h') : Trees git s interrupted h' := by
  refine hgrows.invariant htrees fun before e _ he htrees ↦ ?_
  obtain ⟨hanswer, hpermitted⟩ := he
  by_cases hadd : stepOf e = some .addAll
  · obtain ⟨op, answer⟩ := e
    cases op with
    | load => cases hadd
    | persist journal => cases hadd
    | command step directory argv vars =>
      cases hadd
      exact htrees.add
  by_cases hcommit : stepOf e = some .commit
  · have hcan := hpermitted .commit hcommit
    obtain ⟨op, answer⟩ := e
    cases op with
    | load => cases hcommit
    | persist journal => cases hcommit
    | command step directory argv vars =>
      cases hcommit
      exact htrees.commit hstandard hanswer.symm hcan
  exact htrees.other hstandard hanswer hadd hcommit

end Trees

/-! ### Deliveries -/

section Deliveries

variable {host : DeliveryHost} {repository : String} {git : Git Tree} {s : GitState Tree}
  {interrupted : DeliveryHistory → Bool} {env : Environment DeliveryOp DeliveryAnswer}
  {E : DeliveryEnd → DeliveryHistory → Prop} {h : DeliveryHistory} {step : DeliveryStep}
  {e : DeliveryEvent}

/-- A branch that touches a migration is only pushed once the migration gate has passed. -/
def PushesGated (git : Git Tree) (s : GitState Tree) (interrupted : DeliveryHistory → Bool)
    (h : DeliveryHistory) : Prop :=
  ∀ e before, e :: before <:+ h → stepOf e = some .push →
    git.Touches (stateAt s interrupted before).base (stateAt s interrupted before).head →
      Did .migrationGate before

variable (host repository) in
theorem deliverAll_trees (hstandard : Standard git s interrupted env) (calls : List DeliveryCall) :
    Grows (fun h e ↦ e.answer = env h e.op ∧ ∀ step, stepOf e = some step → Permitted h step) []
      (deliverAll host repository env [] calls) ∧
    ∀ before, before <:+ deliverAll host repository env [] calls → Trees git s interrupted before := by
  have hgrows : Grows (fun h e ↦ e.answer = env h e.op ∧ ∀ step, stepOf e = some step → Permitted h step)
      [] (deliverAll host repository env [] calls) := deliverAll_permitted backed_nil calls
  exact ⟨hgrows, fun before hbefore ↦
    trees_nil.grows hstandard (hgrows.of_suffix nil_suffix hbefore)⟩

theorem push_trees (hstandard : Standard git s interrupted env) {calls : List DeliveryCall}
    {before : DeliveryHistory} (he : e :: before <:+ deliverAll host repository env [] calls)
    (hpush : stepOf e = some .push) :
    (stateAt s interrupted before).base = s.base ∧ (stateAt s interrupted before).head = s.worktree ∧
      s.head ≠ s.worktree ∧ (git.Touches s.head s.worktree → Did .migrationGate before) := by
  obtain ⟨hgrows, htrees⟩ := deliverAll_trees host repository hstandard calls
  have hbefore := htrees before ((suffix_cons _ _).trans he)
  have hcommitted : Did .commit before := ((hgrows.allowed he nil_suffix).2 .push hpush).2
  exact ⟨hbefore.base, hbefore.committed hcommitted⟩

def CanPush (host : DeliveryHost) (repository : String) (git : Git Tree) (s : GitState Tree) : Prop :=
  ∃ interrupted env, Standard git s interrupted env ∧
    ∃ calls, ∃ e ∈ deliverAll host repository env [] calls, stepOf e = some .push

/-- Every delivery of a repository in this state pushes migrations gated only, and where everything is
committed and there is something to deliver, some delivery comes to its push. -/
structure Gated (host : DeliveryHost) (repository : String) (git : Git Tree) (s : GitState Tree) :
    Prop where
  pushes : ∀ interrupted env, Standard git s interrupted env → ∀ calls,
    PushesGated git s interrupted (deliverAll host repository env [] calls)
  clean : s.index = s.head ∧ s.worktree = s.head → s.head ≠ s.base → CanPush host repository git s

theorem not_gated_of_clean (hsame : s.index = s.head ∧ s.worktree = s.head)
    (hcandidate : s.head ≠ s.base) : ¬Gated host repository git s := by
  intro hgated
  obtain ⟨interrupted, env, hstandard, calls, e, he, hpush⟩ := hgated.clean hsame hcandidate
  obtain ⟨later, before, hsplit⟩ := append_of_mem he
  have hsuffix : e :: before <:+ deliverAll host repository env [] calls := ⟨later, hsplit.symm⟩
  exact (push_trees hstandard hsuffix hpush).2.2.1 hsame.2.symm

variable [DecidableEq Tree]

/-- A host on which every command succeeds, except a commit of nothing. -/
def gitHost (git : Git Tree) (s : GitState Tree) : Environment DeliveryOp DeliveryAnswer :=
  fun h op ↦ match op with
    | .load => none
    | .persist _ => .written
    | .command step _ _ _ =>
      let t := stateAt s (fun _ ↦ false) h
      let success := step != .commit || decide (t.index ≠ t.head)
      .exited
        { success
          code := some (if success then 0 else 1)
          stdout := if step = .stagedNames then listing (git.names t.head t.index) else ""
          stderr := "" }

theorem gitHost_standard (git : Git Tree) (s : GitState Tree) :
    Standard git s (fun _ ↦ false) (gitHost git s) where
  staged h directory argv vars output hanswer _ := by
    cases hanswer
    rfl
  commit h directory argv vars output hanswer hsuccess := by
    cases hanswer
    exact of_decide_eq_true hsuccess

/-- A manual policy without a forge. -/
def manualCall : DeliveryCall :=
  { stagingCall with policy := { stagingPolicy with mode := .reviewedPrManual, forge := .none } }

theorem after_gitHost {directory : String} {argv : List String}
    {Q : CommandOutput → DeliveryHistory → Prop}
    (hstep : step ≠ .commit ∨ (stateAt s (fun _ ↦ false) h).index ≠ (stateAt s (fun _ ↦ false) h).head)
    (hQ : ∀ output, output.success = true → (step = .stagedNames → output.stdout = listing (git.names (stateAt s (fun _ ↦ false) h).head (stateAt s (fun _ ↦ false) h).index)) → Q output (⟨.command step directory argv [], .exited output⟩ :: h))
    :
    After (gitHost git s) (checkedOwned host step directory argv) h Q E := by
  have hsuccess : (step != .commit ||
      decide ((stateAt s (fun _ ↦ false) h).index ≠ (stateAt s (fun _ ↦ false) h).head)) = true := by
    rcases hstep with hne | hne
    · rw [bne_iff_ne.2 hne]
      rfl
    · rw [decide_eq_true hne, Bool.or_true]
  rw [checkedOwned, after_bind, checkedOwnedEnv, after_bind, runCommand, after_perform]
  generalize hanswer : gitHost git s h (.command step directory argv []) = answer
  cases hanswer
  show After _ (if (step != .commit || decide _) = true then _ else _) _ _ _
  rw [if_pos hsuccess]
  refine hQ _ hsuccess fun hnames ↦ ?_
  rw [if_pos hnames]

theorem not_did_cons (he : stepOf e ≠ some step) (hdid : ¬Did step h) : ¬Did step (e :: h) := by
  intro hcons
  rcases hcons.of_cons with ⟨_, _, _, _, rfl, -⟩ | hbefore
  · exact he rfl
  · exact hdid hbefore

theorem admitPolicy_manualCall (host : DeliveryHost) (repository : String) :
    admitPolicy host manualCall repository =
      .ok ⟨"Familiar", "familiar@example.invalid", "steward-bot", [],
        ["gh", "api", "user", "--jq", ".login"]⟩ := by
  rfl

theorem after_orFail_bind {α β : Type} {result : Except String α} {a : α} {f : α → Delivering β}
    {R : β → DeliveryHistory → Prop} (hresult : result = .ok a) :
    After env (orFail result >>= f) h R E ↔ After env (f a) h R E := by
  rw [hresult]
  rfl

theorem after_gitHost_persist {β : Type} {journal : DeliveryJournal} {f : Unit → Delivering β}
    {R : β → DeliveryHistory → Prop} :
    After (gitHost git s) (persist journal >>= f) h R E ↔
      After (gitHost git s) (f ()) (⟨.persist journal, .written⟩ :: h) R E :=
  Iff.rfl

theorem gitHost_pushes (host : DeliveryHost) (repository : String) (hchange : s.head ≠ s.worktree)
    (hnone : ¬git.Touches s.head s.worktree) :
    ∃ e before, e :: before <:+ deliverAll host repository (gitHost git s) [] [manualCall] ∧
      stepOf e = some .push ∧ ¬Did .migrationGate before := by
  have hrun : After (gitHost git s) (deliverWith host manualCall repository none) []
      (fun _ h ↦ ∃ e before, e :: before <:+ h ∧ stepOf e = some .push ∧ ¬Did .migrationGate before)
      fun _ h ↦ ∃ e before, e :: before <:+ h ∧ stepOf e = some .push ∧ ¬Did .migrationGate before := by
    rw [deliverWith, after_orFail_bind (admitPolicy_manualCall host repository),
      after_orFail_bind (show manualCall.ownership = .ok _ from rfl),
      after_orFail_bind (show ready _ = .ok () from rfl), after_bind, loadJournal, after_perform,
      after_orFail_bind (show resume _ _ none _ = .ok _ from rfl), after_gitHost_persist, after_bind,
      commitStage, if_pos (by rfl), after_bind]
    refine after_gitHost (.inl (by decide)) fun _ _ _ ↦ ?_
    rw [after_bind]
    refine after_gitHost (.inl (by decide)) fun added hadded _ ↦ ?_
    rw [after_bind]
    refine after_gitHost (.inl (by decide)) fun staged _ hstaged ↦ ?_
    -- everything was added, so the names are those of the worktree
    have hindex : applied false (.exited added) = true := hadded
    have hlisted : staged.stdout = listing (git.names s.head s.worktree) := by
      rw [hstaged rfl]
      simp [stateAt, GitState.after, hindex]
    have hquiet : stagedMigration staged.stdout = none := by
      rw [← Option.not_isSome_iff_eq_none, hlisted, git.isSome_stagedMigration]
      exact hnone
    rw [after_bind, checkMigration, hquiet, after_pure, after_bind]
    refine after_gitHost (.inr ?_) fun _ _ _ ↦ ?_
    · simp [stateAt, GitState.after, hindex, Ne.symm hchange]
    rw [enter, after_gitHost_persist, after_pure, after_bind, pushStage, if_pos (by rfl), after_bind]
    refine after_gitHost (.inl (by decide)) fun _ _ _ ↦ ?_
    rw [enter, after_gitHost_persist, after_pure, after_bind, manualPublication, if_pos (by rfl),
      if_pos (by rfl), after_gitHost_persist]
    refine ⟨_, _, (suffix_cons _ _).trans (suffix_cons _ _), rfl, ?_⟩
    -- what was performed before the push: reading, writing, and git
    repeat refine not_did_cons (fun hstep ↦ by cases hstep) ?_
    exact not_did_nil
  rcases hrun.result with ⟨_, _, h⟩ | ⟨_, _, h⟩ <;> exact h

theorem not_gated_of_landed (hchange : s.head ≠ s.worktree) (htouches : git.Touches s.base s.worktree)
    (hnone : ¬git.Touches s.head s.worktree) : ¬Gated host repository git s := by
  intro hgated
  obtain ⟨e, before, hsuffix, hpush, hungated⟩ := gitHost_pushes host repository hchange hnone
  have hstandard := gitHost_standard git s
  obtain ⟨hbase, hhead, -, -⟩ := push_trees hstandard hsuffix hpush
  refine hungated (hgated.pushes _ _ hstandard [manualCall] e before hsuffix hpush ?_)
  rw [hbase, hhead]
  exact htouches

/-- **The migration gate.** Delivery is as it should be exactly when nothing is amiss with what was
committed before: not everything is committed, and where something is not committed and the delivery
touches a migration, what is not committed touches one. -/
theorem gated_iff (host : DeliveryHost) (repository : String) (git : Git Tree) (s : GitState Tree) :
    Gated host repository git s ↔
      ¬((s.index = s.head ∧ s.worktree = s.head) ∧ s.head ≠ s.base) ∧
        (s.head ≠ s.worktree → git.Touches s.base s.worktree → git.Touches s.head s.worktree) := by
  constructor
  · refine fun hgated ↦ ⟨fun ⟨hsame, hcandidate⟩ ↦ not_gated_of_clean hsame hcandidate hgated,
      fun hchange htouches ↦ ?_⟩
    by_contra hnone
    exact not_gated_of_landed hchange htouches hnone hgated
  · rintro ⟨hcommitted, hlisted⟩
    refine ⟨fun interrupted env hstandard calls e before hsuffix hpush htouches ↦ ?_,
      fun hsame hcandidate ↦ absurd ⟨hsame, hcandidate⟩ hcommitted⟩
    obtain ⟨hbase, hhead, hchange, hgate⟩ := push_trees hstandard hsuffix hpush
    rw [hbase, hhead] at htouches
    exact hgate (hlisted hchange htouches)

def pathGit : Git (List String) where
  names before after := ((before ++ after).filter fun path ↦
    decide (path ∈ before) != decide (path ∈ after)).filter fun path ↦
      decide ('\n' ∉ path.toList ∧ '\r' ∉ path.toList)
  quoted _ _ _ hpath := of_decide_eq_true (mem_filter.1 hpath).2

/-- The candidate is committed, a migration with it, and a file has changed since. -/
def landedState : GitState (List String) where
  base := []
  head := ["migrations/046.sql"]
  index := ["migrations/046.sql"]
  worktree := ["migrations/046.sql", "src/lib.rs"]

/-- The candidate is committed, and nothing has changed since. -/
def cleanState : GitState (List String) :=
  { landedState with worktree := landedState.head }

theorem landed_not_gated :
    (((deliverAll plainDeliveryHost "repo" (gitHost pathGit landedState) [] [manualCall]).reverse.filterMap
          stepOf = [.switchBranch, .addAll, .stagedNames, .commit, .push] ∧
        (deliverAll plainDeliveryHost "repo" (gitHost pathGit cleanState) [] [manualCall]).reverse.filterMap
          stepOf = [.switchBranch, .addAll, .stagedNames, .commit]) ∧
      ¬Gated plainDeliveryHost "repo" pathGit landedState) ∧
    ¬Gated plainDeliveryHost "repo" pathGit cleanState := by
  refine ⟨⟨⟨?_, ?_⟩, ?_⟩, ?_⟩
  · decide +kernel
  · decide +kernel
  · exact not_gated_of_landed (by decide) (by decide +kernel) (by decide +kernel)
  · exact not_gated_of_clean (by decide) (by decide)

end Deliveries

end Delivery

end FamiliarAi
