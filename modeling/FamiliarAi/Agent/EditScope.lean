import FamiliarAi.Agent.ScopeTests

/-!
# Edits stay in scope

When does a write of a worker stay in the worktree and among the files that the PRD declares? It
does but for three things. A path that ends in a slash hides from the executor a link that leads
nowhere, and the write goes through it. The other two are those in which the executor's test of a
path differs from the matcher's.

`EditRecord.Plain` says of a call that it meets none of these, and every plain call of every run
stays in scope (`plain_edits_inScope`).
-/

namespace FamiliarAi

open Files Tree Text List Except

section Resolution

variable {P : EditPlatform} {executor : SandboxedToolExecutor} {cwd : FileLocation}
  {tree tree' : FileTree} {path : FilePath} {l root resolved : FileLocation} {relative : String}
  {steps : List (Step FileName)} {w : FileLocation}

/-! ### Resolution -/

theorem canonicalizeFrom_step (h : P.canonicalizeFrom cwd tree path steps = .ok l) :
    tree.canonicalize cwd path = .ok l ∨
      tree.canonicalize cwd path = .error .notFound ∧ tree.symlinkMetadata cwd path = none ∧
        ∃ n above l', steps = .name n :: above ∧ l = n :: l' ∧
          P.canonicalizeFrom cwd tree ⟨path.absolute, above.reverse, false⟩ above = .ok l' := by
  unfold EditPlatform.canonicalizeFrom at h
  split at h
  · exact .inl (‹_ = ok _›.trans h)
  · rename_i hmissing
    split_ifs at h with hdangling
    split at h
    · rename_i n above
      rcases habove : P.canonicalizeFrom cwd tree ⟨path.absolute, above.reverse, false⟩ above with e | l'
      · rw [habove] at h
        cases h
      rw [habove] at h
      exact .inr ⟨hmissing, by simpa using hdangling, n, above, l', rfl, (ok.inj h).symm, habove⟩
    · cases h
  · cases h

/-- **Where the canonicalisation ends.** A path that is there leads to what is settled. Below one
that is not, no link stands on the way to the last name, and nothing has this name, or the path ends
in a slash and a link that leads nowhere has it. -/
theorem canonicalizeFrom_cases (hsteps : steps = path.steps.reverse)
    (h : P.canonicalizeFrom cwd tree path steps = .ok l) :
    tree.canonicalize cwd path = .ok l ∨ ∃ n above, l = n :: above ∧ tree.Linkless above ∧
      (tree.node (n :: above) = none ∨ path.directory = true ∧ tree.IsLink (n :: above)) := by
  induction steps generalizing path l with
  | nil =>
    rcases canonicalizeFrom_step h with h | ⟨-, -, n, above, l', hcons, -⟩
    · exact .inl h
    · cases hcons
  | cons step above ih =>
    rcases canonicalizeFrom_step h with h | ⟨hmissing, hnothing, n, above', l', hcons, rfl, habove⟩
    · exact .inl h
    obtain ⟨rfl, rfl⟩ := cons.inj hcons
    have hpath : path = ⟨path.absolute, above.reverse ++ [.name n], path.directory⟩ := by
      have hreverse : path.steps = above.reverse ++ [.name n] := by
        rw [← reverse_reverse path.steps, ← hsteps, reverse_cons]
      rw [← hreverse]
    refine .inr ⟨n, l', rfl, ?_⟩
    rcases canonicalizeFrom_step habove with hthere | ⟨hgone, -, m, -, k, -, rfl, -⟩
    · -- the directory above is there
      rw [hpath] at hmissing hnothing
      exact ⟨(lookup_settled hthere).linkless, node_eq_none_of_notFound hthere hmissing hnothing⟩
    · -- it is missing too
      rcases ih (reverse_reverse above).symm habove with
        hthere | ⟨m', k', hk, hlinkless, hnone⟩
      · exact absurd (hgone.symm.trans hthere) nofun
      · obtain ⟨rfl, rfl⟩ := cons.inj hk
        have hnone := hnone.resolve_right fun h ↦ Bool.false_ne_true h.1
        exact ⟨hlinkless.cons (not_isLink_of_none hnone),
          .inl (node_eq_none_of_suffix hnone (suffix_cons n _))⟩

theorem destinationFrom_of_canonicalizeFrom (h : P.canonicalizeFrom cwd tree path steps = .ok l) :
    tree.destinationFrom cwd path steps = .ok l := by
  induction steps generalizing path l with
  | nil =>
    rcases canonicalizeFrom_step h with h | ⟨-, -, n, above, l', hcons, -⟩
    · unfold destinationFrom
      rw [h]
    · cases hcons
  | cons step above ih =>
    unfold destinationFrom
    rcases canonicalizeFrom_step h with h | ⟨hmissing, -, n, above', l', hcons, rfl, habove⟩
    · rw [h]
    · obtain ⟨rfl, rfl⟩ := cons.inj hcons
      rw [hmissing]
      dsimp only
      rw [ih habove]
      rfl

theorem resolveWithinWorktree_ok
    (h : P.resolveWithinWorktree executor cwd tree relative = .ok resolved) :
    ∃ path root, pathOf relative.toList = some path ∧
      tree.canonicalize cwd executor.worktreeRoot = .ok root ∧
      P.canonicalizePartial cwd tree (executor.worktreeRoot.join path) = .ok resolved ∧
      root <:+ resolved ∧ P.refuseUnprovableHardLink cwd tree resolved relative = .ok () := by
  obtain ⟨-, h⟩ := passed_check h
  rcases hroot : tree.canonicalize cwd executor.worktreeRoot with e | root
  · simp only [EditPlatform.canonicalRoot, hroot] at h
    cases h
  simp only [EditPlatform.canonicalRoot, hroot] at h
  dsimp only [bind, Except.bind] at h
  rcases hpath : pathOf relative.toList with _ | path
  · simp only [EditPlatform.resolveJoined, hpath] at h
    cases h
  rcases hresolved : P.canonicalizePartial cwd tree (executor.worktreeRoot.join path) with e | l
  · simp only [EditPlatform.resolveJoined, hpath, hresolved] at h
    cases h
  simp only [EditPlatform.resolveJoined, hpath, hresolved] at h
  change (if ¬root <:+ l then _ else _) = _ at h
  split_ifs at h with hinside
  rcases hrefuse : P.refuseUnprovableHardLink cwd tree l relative with e | _
  · rw [hrefuse] at h
    cases h
  rw [hrefuse] at h
  obtain rfl : l = resolved := ok.inj h
  exact ⟨path, root, rfl, rfl, hresolved, hinside, hrefuse⟩

theorem resolvedWriteAllowed_ok {allowedWritePaths : List String}
    (h : P.resolvedWriteAllowed executor cwd tree allowedWritePaths relative = .ok true) :
    ∃ resolved root text, P.resolveWithinWorktree executor cwd tree relative = .ok resolved ∧
      tree.canonicalize cwd executor.worktreeRoot = .ok root ∧ root <:+ resolved ∧
      relativeText root resolved = some text ∧
      allowedWritePaths.any (resolvedEntryAllows (replaceBackslashes text) ·) = true := by
  rw [EditPlatform.resolvedWriteAllowed] at h
  rcases hresolved : P.resolveWithinWorktree executor cwd tree relative with e | resolved
  · rw [hresolved] at h
    cases h
  rcases hroot : tree.canonicalize cwd executor.worktreeRoot with e | root
  · simp only [hresolved, EditPlatform.canonicalRoot, hroot] at h
    cases h
  simp only [hresolved, EditPlatform.canonicalRoot, hroot] at h
  change (if ¬root <:+ resolved then _ else _) = _ at h
  split_ifs at h with hinside
  rcases htext : relativeText root resolved with _ | text
  · rw [htext] at h
    cases h
  rw [htext] at h
  exact ⟨resolved, root, text, rfl, rfl, hinside, htext, ok.inj h⟩

variable {content changeKind : String}

theorem lookup_of_writeFile {c : FileContent} (h : tree.writeFile l c = (.ok w, tree')) :
    ∃ w, tree.lookup true [] (Path.ofLocation l) = .ok w := by
  rw [writeFile] at h
  split at h
  · exact absurd (Prod.mk.inj h).1 nofun
  · exact ⟨_, ‹_›⟩

theorem names_le_one (hlinkless : tree.Linkless l) (hgrown : Grown l.tail tree tree')
    (hrefuse : P.refuseUnprovableHardLink cwd tree l relative = .ok ())
    (hlookup : tree'.lookup true [] (Path.ofLocation l) = .ok w) :
    ∀ i, tree'.node l = some (.file i) → (tree'.inode i).names ≤ 1 := by
  intro i hfile
  have hnode : tree.node l = some (.file i) := by
    rcases hgrown.node l with heq | ⟨-, -, access, hdirectory⟩
    · exact heq ▸ hfile
    · exact absurd (hdirectory.symm.trans hfile) nofun
  rcases l with _ | ⟨n, above⟩
  · obtain ⟨access, hroot⟩ := tree.root_directory
    exact absurd (hroot.symm.trans hnode) nofun
  -- the file is there before, so the directories above it are as they were
  have hsearch : ∀ k, k <:+ above → tree.Searchable k := fun k hk ↦ by
    have hk' : k <:+ n :: above := hk.trans (suffix_cons n above)
    have hne : k ≠ n :: above := fun heq ↦ absurd (heq ▸ hk).length_le (by simp)
    have hthere : tree.node (n :: above) ≠ none := by simp [hnode]
    have hdirectory := isDirectory_of_suffix hthere hk' hne
    obtain ⟨access, haccess, hsearch⟩ :=
      searchable_of_lookup (hgrown.linkless hlinkless) hlookup hk' hne
    rcases hgrown.node k with heq | ⟨hnone, -⟩
    · exact ⟨access, heq ▸ haccess, hsearch⟩
    · exact absurd hnone hdirectory.settled.1
  rw [EditPlatform.refuseUnprovableHardLink, symlinkMetadata_ofLocation hsearch, hnode] at hrefuse
  dsimp only at hrefuse
  rw [hgrown.inode]
  by_contra hmany
  rw [if_pos (Nat.lt_of_not_le hmany)] at hrefuse
  cases hrefuse

theorem createParent_grown (hlinkless : tree.Linkless l) :
    Grown l.tail tree (EditPlatform.createParent tree l).2 := by
  cases l with
  | nil => exact .refl
  | cons n above => exact createDirectories_grown hlinkless.tail

theorem writeEdit_changedOnlyAt (hlinkless : tree.Linkless l)
    (hrefuse : P.refuseUnprovableHardLink cwd tree l relative = .ok ()) (path : String) :
    ChangedOnlyAt l tree (P.writeEdit executor tree path changeKind l content).after ∧
      ∀ w ∈ (P.writeEdit executor tree path changeKind l content).written, w = l := by
  have hgrown := createParent_grown hlinkless
  rw [EditPlatform.writeEdit]
  generalize EditPlatform.createParent tree l = created at hgrown
  obtain ⟨result, tree'⟩ := created
  rcases result with e | _
  · exact ⟨hgrown.changed, nofun⟩
  rcases hwrite : tree'.writeFile l (.text content) with ⟨result, tree''⟩
  simp only [hwrite]
  rcases result with e | w
  · obtain rfl := writeFile_error hwrite
    exact ⟨hgrown.changed, nofun⟩
  obtain ⟨w', hlookup⟩ := lookup_of_writeFile hwrite
  obtain ⟨rfl, hchanged⟩ := writeFile_changedOnlyAt (hgrown.linkless hlinkless)
    (names_le_one hlinkless hgrown hrefuse hlookup) hwrite
  exact ⟨hgrown.changedOnlyAt hchanged, fun w' hw' ↦ (Option.some.inj hw').symm⟩

/-- **What an edit does.** It changes nothing, or it writes where the path was resolved to. -/
theorem applyEdit_cases (call : ValidatedCall) :
    (P.applyEdit executor cwd tree call).after = tree ∧
        (P.applyEdit executor cwd tree call).written = none ∨
      ∃ resolved changeKind content,
        P.resolveWithinWorktree executor cwd tree (call.strOrDefault "path") = .ok resolved ∧
          P.applyEdit executor cwd tree call =
            P.writeEdit executor tree (call.strOrDefault "path") changeKind resolved content := by
  rw [EditPlatform.applyEdit]
  dsimp only
  split
  · exact .inl ⟨rfl, rfl⟩
  · split
    · exact .inl ⟨rfl, rfl⟩
    · rename_i resolved hresolved
      split_ifs
      · exact .inl ⟨rfl, rfl⟩
      · split
        · exact .inl ⟨rfl, rfl⟩
        · exact .inl ⟨rfl, rfl⟩
        · split_ifs
          · exact .inl ⟨rfl, rfl⟩
          · exact .inr ⟨resolved, _, _, hresolved, rfl⟩

end Resolution

/-! ### Calls in scope -/

def AuthorisedFor (prd path : String) : Prop :=
  ∃ entries, parseExpectedFiles prd = .ok entries ∧ ∃ entry ∈ entries, entry.Matches path

namespace EditRecord

variable (record : EditRecord)

/-- The path of the call, below the worktree. -/
def joined (worker : EditWorker) : Option FilePath :=
  (pathOf (record.call.strOrDefault "path").toList).map worker.executor.worktreeRoot.join

/-- The call changed nothing, or it wrote and changed one location only, which lies inside the
worktree and which the matcher authorises; whatever else is new lies on the way to it, inside the
worktree too, and is a directory. -/
def InScope (worker : EditWorker) (prd : String) : Prop :=
  record.effect.after = record.before ∧ record.effect.written = none ∨
    ∃ root l text, record.before.canonicalize worker.cwd worker.executor.worktreeRoot = .ok root ∧
      root <:+ l ∧ relativeText root l = some text ∧ AuthorisedFor prd (String.ofList text) ∧
      ChangedOnlyAt l record.before record.effect.after ∧
      (∀ k, record.effect.after.node k ≠ record.before.node k → root <:+ k) ∧
      ∀ w ∈ record.effect.written, w = l

/-- No link that leads nowhere stands where the path of the call leads, and below the worktree that
place has a plain path. -/
def Plain (worker : EditWorker) (prd : String) : Prop :=
  ∀ path ∈ record.joined worker, ∀ l, record.before.destination worker.cwd path = .ok l →
    ¬record.before.IsLink l ∧
      ∀ root, record.before.canonicalize worker.cwd worker.executor.worktreeRoot = .ok root →
        ∀ text ∈ relativeText root l, ∀ entries, parseExpectedFiles prd = .ok entries →
          PlainPath entries text

end EditRecord

section Calls

variable {worker : EditWorker} {prd : String} {granted : List CapabilityId}
  {sandbox : AgentRuntimeSandboxConfig} {tree : FileTree} {call : ValidatedCall}

theorem execute_cases :
    (worker.execute tree call).after = tree ∧ (worker.execute tree call).written = none ∨
      ∃ path root resolved text changeKind content,
        pathOf (call.strOrDefault "path").toList = some path ∧
        tree.canonicalize worker.cwd worker.executor.worktreeRoot = .ok root ∧
        worker.platform.canonicalizePartial worker.cwd tree
          (worker.executor.worktreeRoot.join path) = .ok resolved ∧
        root <:+ resolved ∧ relativeText root resolved = some text ∧
        worker.platform.refuseUnprovableHardLink worker.cwd tree resolved
          (call.strOrDefault "path") = .ok () ∧
        worker.authorizer.allowedWritePaths.any
          (resolvedEntryAllows (replaceBackslashes text) ·) = true ∧
        worker.execute tree call = worker.platform.writeEdit worker.executor tree
          (call.strOrDefault "path") changeKind resolved content := by
  rw [EditWorker.execute, EditPlatform.executeEdit]
  split
  · exact .inl ⟨rfl, rfl⟩
  · exact .inl ⟨rfl, rfl⟩
  · rename_i hallowed
    obtain ⟨resolved, root, text, hresolved, hroot, hinside, htext, hany⟩ :=
      resolvedWriteAllowed_ok hallowed
    rcases applyEdit_cases call with hsame | ⟨resolved', changeKind, content, hresolved', heffect⟩
    · exact .inl hsame
    · obtain rfl := ok.inj (hresolved.symm.trans hresolved')
      obtain ⟨path, root', hpath, -, hcanonical, -, hrefuse⟩ := resolveWithinWorktree_ok hresolved
      exact .inr ⟨path, root, resolved, text, changeKind, content, hpath, hroot, hcanonical,
        hinside, htext, hrefuse, hany, heffect⟩

/-- **A plain call stays in scope.** -/
theorem execute_inScope
    (hauthorizer : writeScopeAuthorizerFromPrd prd granted sandbox = .ok worker.authorizer)
    (hplain : (EditRecord.mk call tree (worker.execute tree call)).Plain worker prd) :
    (EditRecord.mk call tree (worker.execute tree call)).InScope worker prd := by
  rcases execute_cases with hsame | ⟨path, root, resolved, text, changeKind, content, hpath, hroot,
    hcanonical, hinside, htext, hrefuse, hany, heffect⟩
  · exact .inl hsame
  rw [writeScopeAuthorizerFromPrd] at hauthorizer
  rcases hentries : parseExpectedFiles prd with e | entries
  · rw [hentries] at hauthorizer
    cases hauthorizer
  rw [hentries] at hauthorizer
  have hallowed : worker.authorizer.allowedWritePaths = entries.map (·.normalized) := by
    rw [← ok.inj hauthorizer]
  have hjoined : worker.executor.worktreeRoot.join path ∈
      (EditRecord.mk call tree (worker.execute tree call)).joined worker := by
    rw [EditRecord.joined, hpath]
    rfl
  obtain ⟨hlink, hplain⟩ :=
    hplain _ hjoined resolved (destinationFrom_of_canonicalizeFrom hcanonical)
  have hlinkless : tree.Linkless resolved := by
    rcases canonicalizeFrom_cases rfl hcanonical with hthere | ⟨n, above, rfl, habove, -⟩
    · exact (lookup_settled hthere).linkless
    · exact habove.cons hlink
  obtain ⟨hchanged, hwritten⟩ := writeEdit_changedOnlyAt hlinkless hrefuse _
  have hmatches := matches_of_allowed (parseExpectedFiles_declared hentries)
    (relativeText_getLast_ne htext) (hplain root hroot text htext entries hentries)
    (hallowed ▸ hany)
  have hall := hchanged.inside (lookup_settled hroot) hinside
  exact .inr ⟨root, resolved, text, hroot, hinside, htext, ⟨entries, hentries, hmatches⟩,
    heffect ▸ hchanged, heffect ▸ hall, heffect ▸ hwritten⟩

theorem effect_of_mem_run {events : List WorktreeEvent} {record : EditRecord}
    (h : record ∈ worker.run tree events) :
    record.effect = worker.execute record.before record.call := by
  induction events generalizing tree with
  | nil => exact absurd h not_mem_nil
  | cons event events ih =>
    cases event with
    | other after => exact ih h
    | applyEdit callId arguments argumentHash =>
      rw [EditWorker.run] at h
      dsimp only at h
      split at h
      · exact ih h
      · rcases mem_cons.1 h with rfl | h
        · rfl
        · exact ih h

/-- **Plain calls stay in scope.** Whatever the calls of `apply-edit` and whatever happens to the
worktree between them, a call whose path leads to a plain place changes one location inside the
worktree that the matcher authorises for the PRD, or nothing. -/
theorem plain_edits_inScope (worker : EditWorker)
    (hauthorizer : writeScopeAuthorizerFromPrd prd granted sandbox = .ok worker.authorizer)
    (tree : FileTree) (events : List WorktreeEvent) :
    ∀ record ∈ worker.run tree events, record.Plain worker prd → record.InScope worker prd := by
  intro record hrecord hplain
  obtain ⟨call, before, effect⟩ := record
  obtain rfl : effect = worker.execute before call := effect_of_mem_run hrecord
  exact execute_inScope hauthorizer hplain

end Calls

/-! ### Calls out of scope -/

/-- A platform whose printing says nothing. -/
def plainEditPlatform : EditPlatform where
  parseJson _ := none
  printJson _ := ""
  sha256Hex text := text
  debugStr text := text
  displayPath _ := ""
  debugPath _ := ""
  jsonError _ := ""

/-- A PRD that declares everything below `src`. -/
def srcPrd : String := "## Expected Files\n\n- `src/`\n"

def srcAuthorizer : ScopeAuthorizer :=
  ⟨[.applyEdit], ["src/"], [], false⟩

def worktreeName : FileName := .utf8 ['w'] (by decide)

def srcName : FileName := .utf8 ['s', 'r', 'c'] (by decide)

def linkName : FileName := .utf8 ['l'] (by decide)

def outsideName : FileName := .utf8 ['x'] (by decide)

/-- A worker in the worktree `/w`. -/
def srcWorker : EditWorker :=
  ⟨plainEditPlatform, srcAuthorizer, ⟨⟨true, [.name worktreeName], false⟩, false⟩, []⟩

def emptyWorktree : FileTree :=
  (Tree.root (.text "")).addDirectory worktreeName [] (by decide) rfl

/-- A worktree with a directory `src`, and in it a link to a file outside that is missing. -/
def linkedWorktree : FileTree :=
  (emptyWorktree.addDirectory srcName [worktreeName] (by decide) rfl).addEntry linkName
    [srcName, worktreeName] (.link ⟨true, [.name outsideName], false⟩) nofun (by decide) rfl

/-- The call that writes `text` to the path. -/
def textCall (path : String) : ValidatedCall :=
  ⟨"c", .applyEdit, .object [("path", .string path), ("content", .string "text")], "h"⟩

/-- The run of this call alone. -/
def textRun (tree : FileTree) (path : String) : List EditRecord :=
  srcWorker.run tree [.applyEdit (textCall path).callId (textCall path).arguments
    (textCall path).argumentHash]

theorem srcAuthorizer_of_prd :
    writeScopeAuthorizerFromPrd srcPrd [.applyEdit] ⟨[], false⟩ = .ok srcAuthorizer := by
  decide

theorem textRun_eq {tree : FileTree} {path : String}
    (hauthorized : srcAuthorizer.authorize (textCall path) = .authorized) :
    textRun tree path = [⟨textCall path, tree, srcWorker.execute tree (textCall path)⟩] := by
  have hsrc : srcWorker.authorizer.authorize (textCall path) = .authorized := hauthorized
  rw [textRun, EditWorker.run]
  dsimp only
  split
  · rename_i hrefused
    cases hsrc.symm.trans hrefused
  · rfl

/-- The path `src/l/` goes through the link, and a file outside the worktree is written. -/
theorem link_written :
    (srcWorker.execute linkedWorktree (textCall "src/l/")).written = some [outsideName] := by
  decide +kernel

/-- Not every call stays in scope. -/
theorem not_edits_inScope :
    ¬∀ (prd : String) (granted : List CapabilityId) (sandbox : AgentRuntimeSandboxConfig)
      (worker : EditWorker),
      writeScopeAuthorizerFromPrd prd granted sandbox = .ok worker.authorizer →
        ∀ (tree : FileTree) (events : List WorktreeEvent),
          ∀ record ∈ worker.run tree events, record.InScope worker prd := by
  intro h
  have hrun : textRun linkedWorktree "src/l/" = _ := textRun_eq (by decide +kernel)
  have hscope := h srcPrd [.applyEdit] ⟨[], false⟩ srcWorker srcAuthorizer_of_prd linkedWorktree
    [.applyEdit (textCall "src/l/").callId (textCall "src/l/").arguments
      (textCall "src/l/").argumentHash] _ (hrun ▸ mem_singleton_self _)
  rcases hscope with ⟨-, hnone⟩ | ⟨root, l, text, hroot, hinside, -, -, -, -, hwritten⟩
  · exact absurd (link_written.symm.trans hnone) nofun
  · have hcanonical : linkedWorktree.canonicalize [] srcWorker.executor.worktreeRoot =
        .ok [worktreeName] := by
      decide +kernel
    obtain rfl := ok.inj (hcanonical.symm.trans hroot)
    obtain rfl := hwritten [outsideName] link_written
    revert hinside
    decide +kernel

theorem plain_edits_inScope_src :
    ∃ record, textRun emptyWorktree "src/l" = [record] ∧
      record.effect.written = some [linkName, srcName, worktreeName] ∧
      record.InScope srcWorker srcPrd := by
  have hrun : textRun emptyWorktree "src/l" = _ := textRun_eq (by decide +kernel)
  refine ⟨_, hrun, by decide +kernel, ?_⟩
  refine plain_edits_inScope srcWorker srcAuthorizer_of_prd emptyWorktree _ _
    (hrun ▸ mem_singleton_self _) ?_
  intro path hpath l hl
  have hjoined : path = ⟨true, [.name worktreeName, .name srcName, .name linkName], false⟩ := by
    have hcomputed : (pathOf "src/l".toList).map srcWorker.executor.worktreeRoot.join =
        some ⟨true, [.name worktreeName, .name srcName, .name linkName], false⟩ := by
      decide +kernel
    exact Option.some.inj (hpath.symm.trans hcomputed)
  have hdestination : emptyWorktree.destination [] path =
      .ok [linkName, srcName, worktreeName] := by
    rw [hjoined]
    decide +kernel
  obtain rfl := ok.inj (hdestination.symm.trans hl)
  refine ⟨not_isLink_of_none rfl, fun root hroot text htext entries hentries ↦ ?_⟩
  have hcanonical : emptyWorktree.canonicalize [] srcWorker.executor.worktreeRoot =
      .ok [worktreeName] := by
    decide +kernel
  obtain rfl := ok.inj (hcanonical.symm.trans hroot)
  have hrelative : relativeText [worktreeName] [linkName, srcName, worktreeName] =
      some "src/l".toList := by
    decide +kernel
  obtain rfl := Option.some.inj (hrelative.symm.trans htext)
  have hparsed : parseExpectedFiles srcPrd = .ok [⟨3, "- `src/`", "src/", .directory⟩] := by
    decide +kernel
  obtain rfl := ok.inj (hparsed.symm.trans hentries)
  decide +kernel

end FamiliarAi
