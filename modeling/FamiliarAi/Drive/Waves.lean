import FamiliarAi.Text.Basic
import Mathlib.Data.Fintype.EquivFin

/-!
# Waves of resumed work

Work that was interrupted is resumed in waves. What the valid candidates of a wave depend on is
completed, or was resumed in an earlier wave; no two of them change the same files; and a wave has
as many as may run at once. Candidates that no wave takes are blocked.

We show that **every candidate is in one wave or blocked, and that a valid one is blocked exactly if
it depends on something that is neither completed nor can be planned.** Neither conflicts nor the
limit block a candidate: they only move it to a later wave.
-/

namespace FamiliarAi

open Text List

/-- A checkpoint that may be resumed. -/
structure ResumeCandidate where
  prdId : String
  changedFiles : List String
  valid : Bool
  reason : Option String

/-- `conflicts`: some file is in both lists, or a directory above one of the other. -/
def conflicts (left right : List String) : Bool :=
  left.any fun a ↦ right.any fun b ↦
    a = b ∨ StartsWith a (b ++ "/") ∨ StartsWith b (a ++ "/")

theorem conflicts_comm (left right : List String) :
    conflicts left right = conflicts right left := by
  rw [Bool.eq_iff_iff]
  simp only [conflicts, any_eq_true, decide_eq_true_eq]
  constructor
  · rintro ⟨a, ha, b, hb, h⟩
    exact ⟨b, hb, a, ha, h.imp Eq.symm Or.symm⟩
  · rintro ⟨a, ha, b, hb, h⟩
    exact ⟨b, hb, a, ha, h.imp Eq.symm Or.symm⟩

section Waves

variable (candidates : List ResumeCandidate) (dependencies : String → Option (List String))
  {wave ready : List (Fin candidates.length)} {ceiling : ℕ} {done : Finset String}

def dependenciesOf (index : Fin candidates.length) : List String :=
  (dependencies candidates[index].prdId).getD []

def gatherWave (ceiling : ℕ) :
    List (Fin candidates.length) → List (Fin candidates.length) → List (Fin candidates.length)
  | wave, [] => wave
  | wave, index :: ready =>
    if wave.length = ceiling then wave
    else if wave.all fun other ↦
        !conflicts candidates[index].changedFiles candidates[other].changedFiles then
      gatherWave ceiling (wave ++ [index]) ready
    else gatherWave ceiling wave ready

def readyOf (remaining : List (Fin candidates.length)) (done : Finset String) :
    List (Fin candidates.length) :=
  remaining.filter fun index ↦
    (dependenciesOf candidates dependencies index).all fun dependency ↦ dependency ∈ done

def remainingAfter (remaining wave : List (Fin candidates.length)) : List (Fin candidates.length) :=
  remaining.filter (· ∉ wave)

def doneAfter (done : Finset String) (wave : List (Fin candidates.length)) : Finset String :=
  wave.foldl (fun done index ↦ insert candidates[index].prdId done) done

variable {candidates}

theorem mem_doneAfter {wave : List (Fin candidates.length)} {id : String} :
    id ∈ doneAfter candidates done wave ↔
      id ∈ done ∨ ∃ index ∈ wave, candidates[index].prdId = id := by
  induction wave generalizing done with
  | nil => simp [doneAfter]
  | cons index wave ih =>
    rw [doneAfter, foldl_cons, ← doneAfter, ih, Finset.mem_insert]
    simp only [mem_cons, exists_eq_or_imp, eq_comm (a := id)]
    tauto

attribute [local grind =] gatherWave

theorem gatherWave_sublist :
    (gatherWave candidates ceiling wave ready).Sublist (wave ++ ready) := by
  induction ready generalizing wave with
  | nil => rw [gatherWave, append_nil]
  | cons index ready ih =>
    rw [gatherWave]
    split
    · exact sublist_append_left _ _
    split
    · exact ih.trans (by rw [append_assoc]; rfl)
    · exact ih.trans ((Sublist.refl wave).append (sublist_cons_self _ _))

theorem prefix_gatherWave :
    wave <+: gatherWave candidates ceiling wave ready := by
  induction ready generalizing wave with
  | nil => exact prefix_refl _
  | cons index ready ih =>
    rw [gatherWave]
    split
    · exact prefix_refl _
    split
    · exact (prefix_append _ _).trans ih
    · exact ih

theorem gatherWave_ne_nil {ready : List (Fin candidates.length)} (h : 0 < ceiling)
    (hready : ready ≠ []) : gatherWave candidates ceiling [] ready ≠ [] := by
  obtain ⟨index, ready, rfl⟩ := exists_cons_of_ne_nil hready
  have hfirst : [index] <+: gatherWave candidates ceiling [] (index :: ready) := by
    rw [gatherWave, length_nil, if_neg h.ne, if_pos all_nil]
    exact prefix_gatherWave
  intro hnil
  rw [hnil] at hfirst
  cases prefix_nil.1 hfirst

theorem length_gatherWave (h : wave.length ≤ ceiling) :
    (gatherWave candidates ceiling wave ready).length ≤ ceiling := by
  induction ready generalizing wave with
  | nil => exact h
  | cons index ready ih =>
    rw [gatherWave]
    split
    · exact h
    split
    · refine ih ?_
      rw [length_append, length_singleton]
      omega
    · exact ih h

def ChangesApart (candidates : List ResumeCandidate) (index other : Fin candidates.length) : Prop :=
  conflicts candidates[index].changedFiles candidates[other].changedFiles = false

theorem pairwise_gatherWave (h : wave.Pairwise (ChangesApart candidates)) :
    (gatherWave candidates ceiling wave ready).Pairwise (ChangesApart candidates) := by
  induction ready generalizing wave with
  | nil => exact h
  | cons index ready ih =>
    rw [gatherWave]
    split
    · exact h
    split
    · rename_i hall
      refine ih (pairwise_append.2 ⟨h, pairwise_singleton _ _, ?_⟩)
      intro other hother last hlast
      rw [mem_singleton.1 hlast, ChangesApart, conflicts_comm]
      simpa using all_eq_true.1 hall other hother
    · exact ih h

variable (candidates)

def planRounds (ceiling : ℕ) (remaining : List (Fin candidates.length)) (done : Finset String) :
    List (List (Fin candidates.length)) × List (Fin candidates.length) × Finset String :=
  let ready := readyOf candidates dependencies remaining done
  if ready = [] then ([], remaining, done)
  else
    let wave := gatherWave candidates ceiling [] ready
    if wave = [] then ([], remaining, done)
    else
      let (waves, rest) := planRounds ceiling (remainingAfter candidates remaining wave)
        (doneAfter candidates done wave)
      (wave :: waves, rest)
  termination_by remaining.length
  decreasing_by
    rename_i hwave
    obtain ⟨index, hindex⟩ := exists_mem_of_ne_nil _ hwave
    have hmem : index ∈ remaining := (mem_filter.1 (gatherWave_sublist.subset hindex)).1
    exact length_filter_lt_length_iff_exists.2 ⟨index, hmem, fun hnot ↦
      of_decide_eq_true hnot hindex⟩

def unmetOf (done : Finset String) (index : Fin candidates.length) : List String :=
  (dependenciesOf candidates dependencies index).filter (· ∉ done)

/-- `plan_waves`: the waves, and the candidates that are blocked, each with the reason. -/
def planWaves (completed : Finset String) (maxConcurrency : ℕ) :
    List (List (Fin candidates.length)) × List (Fin candidates.length × String) :=
  let remaining := (finRange candidates.length).filter fun index ↦ candidates[index].valid
  let invalid := (finRange candidates.length).filter fun index ↦ !candidates[index].valid
  let (waves, rest, done) := planRounds candidates dependencies (max maxConcurrency 1) remaining
    completed
  let blocked :=
    (invalid.map fun index ↦ (index, candidates[index].reason.getD "invalid_checkpoint")) ++
      rest.map fun index ↦
        let unmet := unmetOf candidates dependencies done index
        (index,
          if unmet.isEmpty then "conflict_planning_stalled"
          else "dependency_blocked: " ++ ",".intercalate unmet)
  (waves, blocked.insertionSort fun entry other ↦ entry.1 ≤ other.1)

variable {candidates dependencies}

/-- Waves that can run one after another, when something is done already. -/
inductive RunsFrom (candidates : List ResumeCandidate)
    (dependencies : String → Option (List String)) (ceiling : ℕ) :
    Finset String → List (List (Fin candidates.length)) → Prop
  | nil {done : Finset String} : RunsFrom candidates dependencies ceiling done []
  | cons {done : Finset String} {wave : List (Fin candidates.length)}
      {waves : List (List (Fin candidates.length))}
      (ready : ∀ index ∈ wave, ∀ id ∈ dependenciesOf candidates dependencies index, id ∈ done)
      (apart : wave.Pairwise (ChangesApart candidates))
      (nonempty : wave ≠ [])
      (length_le : wave.length ≤ ceiling)
      (rest : RunsFrom candidates dependencies ceiling (doneAfter candidates done wave) waves) :
      RunsFrom candidates dependencies ceiling done (wave :: waves)

/-- What the rounds of the planning leave. -/
structure Rounds (candidates : List ResumeCandidate)
    (dependencies : String → Option (List String)) (ceiling : ℕ)
    (remaining : List (Fin candidates.length)) (done : Finset String)
    (planned : List (List (Fin candidates.length)) × List (Fin candidates.length) × Finset String) :
    Prop where
  runs : RunsFrom candidates dependencies ceiling done planned.1
  placed : (planned.1.flatten ++ planned.2.1).Perm remaining
  done_eq : planned.2.2 = doneAfter candidates done planned.1.flatten
  stalled : ∀ index ∈ planned.2.1, ∃ id ∈ dependenciesOf candidates dependencies index,
    id ∉ planned.2.2

theorem readyOf_eq_nil {remaining : List (Fin candidates.length)}
    (h : readyOf candidates dependencies remaining done = []) :
    ∀ index ∈ remaining, ∃ id ∈ dependenciesOf candidates dependencies index, id ∉ done := by
  intro index hindex
  have hnot := filter_eq_nil_iff.1 h index hindex
  simpa only [all_eq_true, decide_eq_true_eq, not_forall, exists_prop] using hnot

theorem perm_of_sublist {α : Type} [DecidableEq α] {part l : List α} (h : part.Sublist l)
    (hl : l.Nodup) : (part ++ l.filter (· ∉ part)).Perm l := by
  have hdisjoint : part.Disjoint (l.filter (· ∉ part)) := fun a hpart hrest ↦
    of_decide_eq_true (mem_filter.1 hrest).2 hpart
  have hnodup := (h.nodup hl).append (hl.filter _) hdisjoint
  refine (perm_ext_iff_of_nodup hnodup hl).2 fun a ↦ ?_
  rw [mem_append, mem_filter, decide_eq_true_eq]
  constructor
  · rintro (hpart | ⟨hmem, -⟩)
    · exact h.subset hpart
    · exact hmem
  · intro hmem
    by_cases hpart : a ∈ part
    · exact .inl hpart
    · exact .inr ⟨hmem, hpart⟩

/-- **The rounds.** Each one takes a wave out of what remains, until nothing is ready. -/
theorem rounds_planRounds (hceiling : 0 < ceiling) (remaining : List (Fin candidates.length))
    (hnodup : remaining.Nodup) (done : Finset String) :
    Rounds candidates dependencies ceiling remaining done
      (planRounds candidates dependencies ceiling remaining done) := by
  induction remaining, done using planRounds.induct candidates dependencies ceiling with
  | case1 remaining done ready hready =>
    rw [planRounds, if_pos hready]
    exact ⟨.nil, Perm.refl _, rfl, readyOf_eq_nil hready⟩
  | case2 remaining done ready hready wave hwave =>
    exact absurd hwave (gatherWave_ne_nil hceiling hready)
  | case3 remaining done ready hready wave hwave waves rest hrest ih =>
    have hround : planRounds candidates dependencies ceiling remaining done =
        (wave :: waves, rest) := by
      rw [planRounds, if_neg hready, if_neg hwave, hrest]
    rw [hrest] at ih
    obtain ⟨hruns, hplaced, hdone, hstalled⟩ := ih (hnodup.filter _)
    have hsublist : wave.Sublist ready := gatherWave_sublist
    have hsub : wave.Sublist remaining := hsublist.trans filter_sublist
    rw [hround]
    refine ⟨.cons (fun index hindex id hid ↦ ?_) (pairwise_gatherWave .nil) hwave
      (length_gatherWave (Nat.zero_le _)) hruns, ?_, ?_, hstalled⟩
    · have hready := (mem_filter.1 (hsublist.subset hindex)).2
      exact of_decide_eq_true (all_eq_true.1 hready id hid)
    · rw [flatten_cons, append_assoc]
      exact (hplaced.append_left wave).trans (perm_of_sublist hsub hnodup)
    · rw [hdone, flatten_cons, doneAfter, doneAfter, doneAfter, foldl_append]

variable (candidates dependencies)

inductive Attainable (completed : Finset String) : String → Prop
  | completed {id : String} (h : id ∈ completed) : Attainable completed id
  | planned (index : Fin candidates.length) (hvalid : candidates[index].valid = true)
      (h : ∀ id ∈ dependenciesOf candidates dependencies index, Attainable completed id) :
      Attainable completed candidates[index].prdId

/-- What a plan promises of its waves and of the blocked candidates. -/
structure WavePlan (completed : Finset String) (maxConcurrency : ℕ)
    (waves : List (List (Fin candidates.length)))
    (blocked : List (Fin candidates.length × String)) : Prop where
  placed : (waves.flatten ++ blocked.map Prod.fst).Perm (finRange candidates.length)
  valid : ∀ wave ∈ waves, ∀ index ∈ wave, candidates[index].valid = true
  ordered : ∀ (k : ℕ) (hk : k < waves.length), ∀ index ∈ waves[k],
    ∀ id ∈ dependenciesOf candidates dependencies index,
      id ∈ completed ∨ ∃ j, ∃ hj : j < k, ∃ other ∈ waves[j], candidates[other].prdId = id
  apart : ∀ wave ∈ waves, wave.Pairwise (ChangesApart candidates)
  sized : ∀ wave ∈ waves, wave ≠ [] ∧ wave.length ≤ max 1 maxConcurrency
  blocked_iff : ∀ index, index ∈ blocked.map Prod.fst ↔ candidates[index].valid = false ∨
    ∃ id ∈ dependenciesOf candidates dependencies index,
      ¬Attainable candidates dependencies completed id

variable {candidates dependencies}

namespace RunsFrom

variable {ceiling : ℕ} {done : Finset String} {waves : List (List (Fin candidates.length))}

theorem forall_mem (h : RunsFrom candidates dependencies ceiling done waves) :
    ∀ wave ∈ waves,
      wave.Pairwise (ChangesApart candidates) ∧ wave ≠ [] ∧ wave.length ≤ ceiling := by
  induction h with
  | nil => exact fun _ hwave ↦ absurd hwave not_mem_nil
  | cons ready apart nonempty length_le rest ih =>
    exact forall_mem_cons.2 ⟨⟨apart, nonempty, length_le⟩, ih⟩

theorem ordered (h : RunsFrom candidates dependencies ceiling done waves) (k : ℕ)
    (hk : k < waves.length) {index : Fin candidates.length} (hindex : index ∈ waves[k])
    {id : String} (hid : id ∈ dependenciesOf candidates dependencies index) :
    id ∈ done ∨ ∃ j, ∃ hj : j < k, ∃ other ∈ waves[j], candidates[other].prdId = id := by
  induction h generalizing k with
  | nil => cases hk
  | cons ready apart nonempty length_le rest ih =>
    rcases k with _ | k
    · exact .inl (ready index hindex id hid)
    rcases ih k (Nat.lt_of_succ_lt_succ hk) hindex with hdone | ⟨j, hj, hother⟩
    · rcases mem_doneAfter.1 hdone with hbefore | hwave
      · exact .inl hbefore
      · exact .inr ⟨0, Nat.succ_pos k, hwave⟩
    · exact .inr ⟨j + 1, Nat.succ_lt_succ hj, hother⟩

theorem attainable {completed : Finset String}
    (h : RunsFrom candidates dependencies ceiling done waves)
    (hvalid : ∀ wave ∈ waves, ∀ index ∈ wave, candidates[index].valid = true)
    (hdone : ∀ id ∈ done, Attainable candidates dependencies completed id) :
    ∀ wave ∈ waves, ∀ index ∈ wave, ∀ id ∈ dependenciesOf candidates dependencies index,
      Attainable candidates dependencies completed id := by
  induction h with
  | nil => exact fun _ hwave ↦ absurd hwave not_mem_nil
  | cons ready apart nonempty length_le rest ih =>
    obtain ⟨hfirst, hothers⟩ := forall_mem_cons.1 hvalid
    have hwave := fun index hindex id hid ↦ hdone id (ready index hindex id hid)
    refine forall_mem_cons.2 ⟨hwave, ih hothers fun id hid ↦ ?_⟩
    rcases mem_doneAfter.1 hid with hbefore | ⟨index, hindex, rfl⟩
    · exact hdone id hbefore
    · exact .planned index (hfirst index hindex) (hwave index hindex)

end RunsFrom

namespace Rounds

variable {ceiling : ℕ} {remaining : List (Fin candidates.length)} {completed : Finset String}
  {planned : List (List (Fin candidates.length)) × List (Fin candidates.length) × Finset String}
  {index : Fin candidates.length}

theorem mem_remaining (h : Rounds candidates dependencies ceiling remaining completed planned) :
    index ∈ remaining ↔ index ∈ planned.1.flatten ∨ index ∈ planned.2.1 := by
  rw [← h.placed.mem_iff, mem_append]

theorem done_of_attainable
    (h : Rounds candidates dependencies ceiling remaining completed planned)
    (hvalid : ∀ index : Fin candidates.length, candidates[index].valid = true → index ∈ remaining)
    {id : String} (hid : Attainable candidates dependencies completed id) : id ∈ planned.2.2 := by
  induction hid with
  | completed hid =>
    rw [h.done_eq]
    exact mem_doneAfter.2 (.inl hid)
  | planned index hindex _ ih =>
    rcases h.mem_remaining.1 (hvalid index hindex) with hmem | hmem
    · rw [h.done_eq]
      exact mem_doneAfter.2 (.inr ⟨index, hmem, rfl⟩)
    · obtain ⟨id, hid, hnot⟩ := h.stalled index hmem
      exact absurd (ih id hid) hnot

theorem mem_rest_iff (h : Rounds candidates dependencies ceiling remaining completed planned)
    (hvalid : ∀ index : Fin candidates.length, candidates[index].valid = true ↔ index ∈ remaining) :
    index ∈ planned.2.1 ↔ candidates[index].valid = true ∧
      ∃ id ∈ dependenciesOf candidates dependencies index,
        ¬Attainable candidates dependencies completed id := by
  constructor
  · intro hrest
    refine ⟨(hvalid index).2 (h.mem_remaining.2 (.inr hrest)), ?_⟩
    obtain ⟨id, hid, hnot⟩ := h.stalled index hrest
    exact ⟨id, hid, fun hattainable ↦
      hnot (h.done_of_attainable (fun other ↦ (hvalid other).1) hattainable)⟩
  · rintro ⟨hindex, id, hid, hnot⟩
    refine (h.mem_remaining.1 ((hvalid index).1 hindex)).resolve_left fun hplanned ↦ ?_
    obtain ⟨wave, hwave, hmem⟩ := mem_flatten.1 hplanned
    refine hnot (h.runs.attainable (fun wave hwave other hother ↦ ?_) (fun id ↦ .completed)
      wave hwave index hmem id hid)
    exact (hvalid other).2 (h.mem_remaining.2 (.inl (mem_flatten.2 ⟨wave, hwave, hother⟩)))

end Rounds

end Waves

/-- **The waves of resumed work.** -/
theorem planWaves_wavePlan (candidates : List ResumeCandidate)
    (dependencies : String → Option (List String)) (completed : Finset String)
    (maxConcurrency : ℕ) :
    WavePlan candidates dependencies completed maxConcurrency
      (planWaves candidates dependencies completed maxConcurrency).1
      (planWaves candidates dependencies completed maxConcurrency).2 := by
  let indexes := finRange candidates.length
  let remaining := indexes.filter fun index ↦ candidates[index].valid
  let invalid := indexes.filter fun index ↦ !candidates[index].valid
  let planned := planRounds candidates dependencies (max maxConcurrency 1) remaining completed
  have hrounds :
      Rounds candidates dependencies (max maxConcurrency 1) remaining completed planned :=
    rounds_planRounds (lt_max_of_lt_right Nat.one_pos) remaining
      ((nodup_finRange _).filter _) completed
  have hvalid (index : Fin candidates.length) :
      candidates[index].valid = true ↔ index ∈ remaining := by
    rw [mem_filter]
    exact (and_iff_right (mem_finRange index)).symm
  have hblocked : ((planWaves candidates dependencies completed maxConcurrency).2.map
      Prod.fst).Perm (invalid ++ planned.2.1) := by
    refine ((perm_insertionSort _ _).map _).trans ?_
    rw [map_append, map_map, map_map]
    exact Perm.of_eq (congrArg₂ _ (map_id _) (map_id _))
  have hinvalid (index : Fin candidates.length) :
      index ∈ invalid ↔ candidates[index].valid = false := by
    rw [mem_filter, Bool.not_eq_true']
    exact and_iff_right (mem_finRange index)
  refine ⟨?_, fun wave hwave index hindex ↦ ?_, fun k hk index hindex id hid ↦ ?_,
    fun wave hwave ↦ ?_, fun wave hwave ↦ ?_, fun index ↦ ?_⟩
  · have hsplit : (remaining ++ invalid).Perm indexes := filter_append_perm _ _
    refine ((hblocked.trans perm_append_comm).append_left _).trans ?_
    rw [← append_assoc]
    exact (hrounds.placed.append_right _).trans hsplit
  · refine (hvalid index).2 (hrounds.mem_remaining.2 (.inl ?_))
    exact mem_flatten.2 ⟨wave, hwave, hindex⟩
  · exact hrounds.runs.ordered k hk hindex hid
  · exact (hrounds.runs.forall_mem wave hwave).1
  · rw [max_comm]
    exact (hrounds.runs.forall_mem wave hwave).2
  · rw [hblocked.mem_iff, mem_append, hinvalid, hrounds.mem_rest_iff hvalid]
    cases candidates[index].valid <;> simp

/-- **Nothing is left behind**, where all candidates are valid and no chain of dependencies is
closed: if what they depend on is completed or among them, each is in one wave. -/
theorem planWaves_places_all (candidates : List ResumeCandidate)
    (dependencies : String → Option (List String)) (completed : Finset String) (maxConcurrency : ℕ)
    (hvalid : ∀ index : Fin candidates.length, candidates[index].valid = true)
    (hknown : ∀ index, ∀ id ∈ dependenciesOf candidates dependencies index,
      id ∈ completed ∨ ∃ other : Fin candidates.length, candidates[other].prdId = id)
    (hacyclic : ∀ index, ¬Relation.TransGen (fun other index : Fin candidates.length ↦
      candidates[other].prdId ∈ dependenciesOf candidates dependencies index) index index) :
    (planWaves candidates dependencies completed maxConcurrency).1.flatten.Perm
      (finRange candidates.length) := by
  let remaining := (finRange candidates.length).filter fun index ↦ candidates[index].valid
  let planned := planRounds candidates dependencies (max maxConcurrency 1) remaining completed
  have hrounds :
      Rounds candidates dependencies (max maxConcurrency 1) remaining completed planned :=
    rounds_planRounds (lt_max_of_lt_right Nat.one_pos) remaining
      ((nodup_finRange _).filter _) completed
  have hall : remaining = finRange candidates.length :=
    filter_eq_self.2 fun index _ ↦ hvalid index
  have hwf := @Finite.wellFounded_of_trans_of_irrefl _ _ _ _ ⟨hacyclic⟩
  -- what is left waits for something else that is left
  have hnone (index : Fin candidates.length) : index ∉ planned.2.1 := by
    induction index using hwf.induction with
    | h index ih =>
      intro hindex
      obtain ⟨id, hid, hnot⟩ := hrounds.stalled index hindex
      rw [hrounds.done_eq, mem_doneAfter, not_or] at hnot
      obtain ⟨other, rfl⟩ := (hknown index id hid).resolve_left hnot.1
      have hother : other ∈ remaining := hall ▸ mem_finRange other
      rcases hrounds.mem_remaining.1 hother with hplaced | hleft
      · exact hnot.2 ⟨other, hplaced, rfl⟩
      · exact ih other (.single hid) hleft
  have hplaced := hrounds.placed
  rw [eq_nil_iff_forall_not_mem.2 hnone, append_nil, hall] at hplaced
  exact hplaced

/-- The second candidate depends on the first. -/
theorem planWaves_places_all_chain :
    let candidates : List ResumeCandidate :=
      [⟨"PRD-2", [], true, none⟩, ⟨"PRD-1", [], true, none⟩]
    let dependencies : String → Option (List String) := fun id ↦
      if id = "PRD-2" then some ["PRD-1"] else none
    (planWaves candidates dependencies ∅ 2).1.flatten.Perm (finRange candidates.length) := by
  intro candidates dependencies
  refine planWaves_places_all _ _ _ _ (by decide) (by decide) fun index hcycle ↦ ?_
  have hless : ∀ other index,
      candidates[other].prdId ∈ dependenciesOf candidates dependencies index → other > index := by
    decide
  exact lt_irrefl index (Relation.transGen_minimal hless _ _ hcycle)

end FamiliarAi
