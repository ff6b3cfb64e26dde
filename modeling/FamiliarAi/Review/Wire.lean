import FamiliarAi.Json.Basic
import FamiliarAi.Review.Types

/-!
# Records as JSON

What the records of the review crate are serialised to, as far as a record is hashed, measured or
disclosed: the scope findings and the scope policy, the review request, and the parts of it that are
searched for secrets. A content hash is the digest of such a text.
-/

namespace FamiliarAi

/-- The digest function: the digest of a text is the one of its UTF-8 bytes. -/
abbrev Sha256 := List Char → Vector UInt8 32

/-- Two lower case hexadecimal digits. -/
def hexByte (byte : UInt8) : List Char :=
  [Nat.digitChar (byte.toNat / 16), Nat.digitChar (byte.toNat % 16)]

def contentHash (sha256 : Sha256) (text : List Char) : String :=
  String.ofList ("sha256:".toList ++ (sha256 text).toList.flatMap hexByte)

/-! ### Encoders -/

def TextMap.json (m : TextMap) : Json :=
  .obj (m.map fun entry ↦ (entry.1, .str entry.2))

def AgentRole.asStr : AgentRole → String
  | implementation => "implementation"
  | review => "review"
  | remediation => "remediation"

def AgentAssignment.json (a : AgentAssignment) : Json :=
  .obj [("adapter_id", .str a.adapterId), ("agent_id", .str a.agentId),
    ("provider", Json.option .str a.provider),
    ("requested_model", Json.option .str a.requestedModel), ("role", .str a.role.asStr),
    ("session_id", Json.option .str a.sessionId)]

def ReviewTask.json (t : ReviewTask) : Json :=
  .obj [("task_id", .str t.taskId), ("objective", .str t.objective),
    ("acceptance_criteria", Json.array .str t.acceptanceCriteria),
    ("base_revision", .str t.baseRevision), ("allowed_paths", Json.array .str t.allowedPaths),
    ("prohibited_changes", Json.array .str t.prohibitedChanges),
    ("verification_plan_id", .str t.verificationPlanId)]

def GitChangeKind.label : GitChangeKind → String
  | added => "added"
  | modified => "modified"
  | deleted => "deleted"
  | renamed => "renamed"
  | copied => "copied"
  | typeChanged => "type_changed"
  | unmerged => "unmerged"

def LineRange.json (r : LineRange) : Json :=
  .obj [("start", .nat r.start), ("end", .nat r.stop)]

def ChangedFile.json (f : ChangedFile) : Json :=
  .obj [("path", .str f.path), ("kind", .str f.kind.label),
    ("old_path", Json.option .str f.oldPath),
    ("line_summary", Json.array LineRange.json f.lineSummary)]

def EvidenceRef.json (e : EvidenceRef) : Json :=
  .obj [("content_hash", .str e.contentHash), ("media_type", .str e.mediaType),
    ("byte_size", .nat e.byteSize), ("repository", .str e.repository),
    ("revision", .str e.revision), ("storage_ref", .str e.storageRef),
    ("truncated", .bool e.truncated), ("omitted_bytes", .nat e.omittedBytes)]

def BoundedDocument.json (d : BoundedDocument) : Json :=
  .obj [("source", .str d.source), ("content", .str d.content),
    ("content_hash", .str d.contentHash), ("selection_reason", .str d.selectionReason),
    ("estimated_tokens", .nat d.estimatedTokens)]

def BoundedInvariant.json (i : BoundedInvariant) : Json :=
  .obj [("source", .str i.source), ("section", .str i.sectionTitle), ("content", .str i.content),
    ("content_hash", .str i.contentHash), ("selection_reason", .str i.selectionReason),
    ("estimated_tokens", .nat i.estimatedTokens)]

def VerificationStatus.asStr : VerificationStatus → String
  | passed => "passed"
  | failed => "failed"
  | environmentDenied => "environment_denied"
  | timedOut => "timed_out"
  | signaled => "signaled"
  | unavailable => "unavailable"
  | inconclusive => "inconclusive"
  | skipped => "skipped"

def VerificationEvidence.json (e : VerificationEvidence) : Json :=
  .obj [("check_id", .str e.checkId), ("argv", Json.array .str e.argv),
    ("working_directory", .str e.workingDirectory),
    ("environment_identity", e.environmentIdentity.json),
    ("tool_identity", Json.option .str e.toolIdentity),
    ("tested_identity", .str e.testedIdentity), ("started_at", .str e.startedAt),
    ("ended_at", .str e.endedAt), ("duration_ms", .nat e.durationMs),
    ("exit_code", Json.option .num e.exitCode), ("signal", Json.option .num e.signal),
    ("status", .str e.status.asStr), ("required", .bool e.required), ("summary", .str e.summary),
    ("stdout", Json.option EvidenceRef.json e.stdout),
    ("stderr", Json.option EvidenceRef.json e.stderr), ("truncated", .bool e.truncated)]

def FindingCategory.asStr : FindingCategory → String
  | correctnessDefect => "correctness_defect"
  | invariantViolation => "invariant_violation"
  | architecturalDrift => "architectural_drift"
  | securityIssue => "security_issue"
  | testGap => "test_gap"
  | maintainabilityIssue => "maintainability_issue"
  | scopeViolation => "scope_violation"
  | unverifiableClaim => "unverifiable_claim"

def FindingStatus.asStr : FindingStatus → String
  | opened => "open"
  | resolved => "resolved"
  | superseded => "superseded"
  | acceptedRisk => "accepted_risk"
  | invalid => "invalid"

def FindingEvidence.json : FindingEvidence → Json
  | fileRange path range =>
    .obj [("kind", .str "file_range"), ("path", .str path), ("range", range.json)]
  | diffHunk path hunk => .obj [("kind", .str "diff_hunk"), ("path", .str path), ("hunk", .str hunk)]
  | verification checkId output =>
    .obj [("kind", .str "verification"), ("check_id", .str checkId), ("output", output.json)]
  | invariant source sectionTitle sourceHash =>
    .obj [("kind", .str "invariant"), ("source", .str source), ("section", .str sectionTitle),
      ("source_hash", .str sourceHash)]
  | contract source sectionTitle sourceHash =>
    .obj [("kind", .str "contract"), ("source", .str source), ("section", .str sectionTitle),
      ("source_hash", .str sourceHash)]
  | artifact reference field =>
    .obj [("kind", .str "artifact"), ("artifact", reference.json), ("field", .str field)]

def FindingReference.json (f : FindingReference) : Json :=
  .obj [("finding_id", .str f.findingId), ("status", .str f.status.asStr), ("claim", .str f.claim),
    ("category", .str f.category.asStr), ("evidence", Json.array FindingEvidence.json f.evidence)]

def ReviewPackageBudget.json (b : ReviewPackageBudget) : Json :=
  .obj [("max_bytes", .nat b.maxBytes), ("max_estimated_tokens", .nat b.maxEstimatedTokens)]

def PackageOmission.json (o : PackageOmission) : Json :=
  .obj [("source", .str o.source), ("content_hash", .str o.contentHash),
    ("byte_size", .nat o.byteSize), ("reason", .str o.reason),
    ("retained_ref", Json.option EvidenceRef.json o.retainedRef)]

def ReviewPackageManifest.json (m : ReviewPackageManifest) : Json :=
  .obj [("manifest_hash", .str m.manifestHash), ("diff_hash", .str m.diffHash),
    ("included_sources", Json.array .str m.includedSources),
    ("omissions", Json.array PackageOmission.json m.omissions), ("total_bytes", .nat m.totalBytes),
    ("estimated_tokens", .nat m.estimatedTokens)]

def ReviewRequest.json (r : ReviewRequest) : Json :=
  .obj [("review_id", .str r.reviewId), ("task", r.task.json),
    ("implementation", r.implementation.json), ("reviewer", r.reviewer.json),
    ("base_revision", .str r.baseRevision),
    ("candidate_revision", Json.option .str r.candidateRevision),
    ("changed_files", Json.array ChangedFile.json r.changedFiles), ("diff", r.diff.json),
    ("disclosed_diff", .str r.disclosedDiff),
    ("contracts", Json.array BoundedDocument.json r.contracts),
    ("invariants", Json.array BoundedInvariant.json r.invariants),
    ("verification", Json.array VerificationEvidence.json r.verification),
    ("prior_findings", Json.array FindingReference.json r.priorFindings), ("budget", r.budget.json),
    ("manifest", r.manifest.json)]

def ScopeFileClass.label : ScopeFileClass → String
  | ordinarySource => "ordinary_source"
  | dependencyManifest => "dependency_manifest"
  | dependencyLockfile => "dependency_lockfile"
  | migration => "migration"
  | configuration => "configuration"
  | test => "test"
  | generatedArtifact => "generated_artifact"
  | ambiguous => "ambiguous"

def ScopeDecision.asStr : ScopeDecision → String
  | allowedChange => "allowed_change"
  | justifiedExpectedFileChange => "justified_expected_file_change"
  | prohibitedChange => "prohibited_change"
  | undeclaredScopeExpansion => "undeclared_scope_expansion"
  | ambiguousHumanReview => "ambiguous_human_review"

def ScopeRuleSource.asStr : ScopeRuleSource → String
  | builtIn => "built_in"
  | configuration => "configuration"
  | expectedFiles => "expected_files"
  | evidenceValidation => "evidence_validation"

def ExpectedMatchKind.asStr : ExpectedMatchKind → String
  | exactFile => "exact_file"
  | directory => "directory"

def ExpectedFileMatch.json (m : ExpectedFileMatch) : Json :=
  .obj [("normalized", .str m.normalized), ("source_line", .nat m.sourceLine),
    ("match_kind", .str m.matchKind.asStr)]

def ScopeFinding.json (f : ScopeFinding) : Json :=
  .obj [("finding_id", .str f.findingId), ("change_id", .str f.changeId), ("path", .str f.path),
    ("old_path", Json.option .str f.oldPath), ("change_kind", .str f.changeKind.label),
    ("file_class", .str f.fileClass.label), ("decision", .str f.decision.asStr),
    ("rule_id", .str f.ruleId), ("rule_source", .str f.ruleSource.asStr),
    ("rule_detail", .str f.ruleDetail),
    ("expected_file_match", Json.option ExpectedFileMatch.json f.expectedFileMatch),
    ("allowed_path_match", Json.option .str f.allowedPathMatch),
    ("prohibited_rule_match", Json.option .str f.prohibitedRuleMatch),
    ("policy_snapshot_hash", .str f.policySnapshotHash)]

/-- The identity of the decision that a finding records. The policy it was made under is left out,
so that an approval of the finding survives a change of the policy elsewhere. -/
def scopeFindingSubstanceHash (sha256 : Sha256) (finding : ScopeFinding) : String :=
  contentHash sha256 { finding with policySnapshotHash := "" }.json.render

def ScopeDeclarationMode.asStr : ScopeDeclarationMode → String
  | expectedOrConfigured => "expected_or_configured"
  | expectedRequired => "expected_required"

def ScopeClassPolicy.asStr : ScopeClassPolicy → String
  | deny => "deny"
  | humanReview => "human_review"
  | allowWhenExpected => "allow_when_expected"
  | allowWhenConfigured => "allow_when_configured"
  | allow => "allow"

def ScopeFileClassPolicies.json (p : ScopeFileClassPolicies) : Json :=
  .obj [("dependency_manifest", .str p.dependencyManifest.asStr),
    ("dependency_lockfile", .str p.dependencyLockfile.asStr),
    ("migration", .str p.migration.asStr), ("configuration", .str p.configuration.asStr),
    ("test", .str p.test.asStr), ("generated_artifact", .str p.generatedArtifact.asStr)]

def ExpectedFileEntry.json (e : ExpectedFileEntry) : Json :=
  .obj [("source_line", .nat e.sourceLine), ("bullet_text", .str e.bulletText),
    ("normalized", .str e.normalized), ("match_kind", .str e.matchKind.asStr)]

def ScopePathEntry.json (e : ScopePathEntry) : Json :=
  .obj [("normalized", .str e.normalized), ("match_kind", .str e.matchKind.asStr)]

def ProhibitedRuleKind.json : ProhibitedRuleKind → Json
  | path entry => .obj [("kind", .str "path"), ("entry", entry.json)]
  | fileClass c => .obj [("kind", .str "file_class"), ("class", .str c.label)]

def ProhibitedRule.json (r : ProhibitedRule) : Json :=
  .obj [("rule_id", .str r.ruleId), ("rule", r.rule.json),
    ("change_kinds", Json.array (fun kind ↦ .str kind.label) r.changeKinds),
    ("description", Json.option .str r.description)]

def ScopeClassificationRule.json (r : ScopeClassificationRule) : Json :=
  .obj [("rule_id", .str r.ruleId), ("class", .str r.fileClass.label), ("entry", r.entry.json),
    ("source", .str r.source.asStr), ("precedence", Json.option .nat r.precedence)]

def ScopePolicySnapshot.json (s : ScopePolicySnapshot) : Json :=
  .obj [("schema_version", .str s.schemaVersion), ("prd_path", .str s.prdPath),
    ("prd_content_hash", .str s.prdContentHash),
    ("contract", Json.array ExpectedFileEntry.json s.contract),
    ("allowed_paths", Json.array ScopePathEntry.json s.allowedPaths),
    ("allow_prd_expected_file_expansion", .bool s.allowPrdExpectedFileExpansion),
    ("declaration_mode", .str s.declarationMode.asStr),
    ("prohibited_rules", Json.array ProhibitedRule.json s.prohibitedRules),
    ("file_class_policies", s.fileClassPolicies.json),
    ("classification_rules", Json.array ScopeClassificationRule.json s.classificationRules),
    ("builtin_rules_version", .str s.builtinRulesVersion),
    ("baseline_revision", .str s.baselineRevision),
    ("config_provenance", .str s.configProvenance), ("snapshot_hash", .str s.snapshotHash)]

end FamiliarAi
