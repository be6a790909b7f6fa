import Abtars.Project.ReviewCase

/-!
# Positive evidence

What a review case counts for a delegated criterion: the checks and artifacts of the latest attempt
of a child whose latest contract maps the criterion and was passed by the stored envelope, where
card and attempt ended well too.  Coverage and evidence read the contract of a child by different
queries and redaction comes before the judgement; neither makes a difference.
-/

namespace Abtars

open Lib

section Redaction

variable (contract : WorkerAcceptanceContract) (e : WorkerResultEnvelope)

theorem acceptancePassed_redactEnvelope :
    acceptancePassed contract (some (redactEnvelope e)) = acceptancePassed contract (some e) := rfl

theorem checkIds_redactEnvelope :
    (redactEnvelope e).checks.map (·.checkId) = e.checks.map (·.checkId) := by
  simp [redactEnvelope]

theorem observedEvidence_redactEnvelope :
    observedEvidence (redactEnvelope e) = observedEvidence e := by
  unfold observedEvidence
  rw [checkIds_redactEnvelope]
  rfl

theorem artifactObservations_redactEnvelope :
    artifactObservations (redactEnvelope e) = artifactObservations e := rfl

end Redaction

/-! ## Contracts of a card -/

def NamedContracts (db : Db) : Prop :=
  ∀ row ∈ db.workerContracts, ∀ contract, row.contractJson = some contract → contract.id = row.id

theorem latestContract_mem {db : Db} {cardId : Nat} {row : ContractRow}
    (h : latestContract db cardId = some row) : row ∈ db.workerContracts := by
  have hmem := List.mem_of_head? h
  rw [List.mem_insertionSort] at hmem
  exact ((Table.mem_select _ _ _).1 hmem).1

theorem latestContract_orElse (db : Db) (cardId : Nat) :
    (latestContract db cardId <|> contractByCardId db cardId) = latestContract db cardId := by
  cases hlatest : latestContract db cardId with
  | some row => rfl
  | none =>
    have hnone : (db.workerContracts.select fun c => c.cardId = cardId) = [] := by
      rw [latestContract, List.head?_eq_none_iff] at hlatest
      exact List.Perm.nil_eq (hlatest ▸ (List.perm_insertionSort _ _)) |>.symm
    rw [contractByCardId, hnone]
    rfl

section Mappings

variable {contractId : String}

variable {src : CaseSources} {db : Db} {rootContract : ProjectAcceptanceContract} {rootCardId : Nat}
  {mappings : List ContractCriterionMapping} {criterionId : String}

theorem supports_of_childSupports {contractJson : Option WorkerAcceptanceContract}
    {supports : List String} (h : childSupportsRootCriteria contractJson = some supports) :
    ∃ contract, contractJson = some contract ∧
      supports = contract.supportsRootCriteria.getD [] := by
  obtain ⟨contract, rfl, hread⟩ := Option.bind_eq_some_iff.1 h
  refine ⟨contract, rfl, ?_⟩
  cases hraw : contract.supportsRootCriteria with
  | none =>
    rw [hraw] at hread
    exact (Option.some.inj hread).symm
  | some raw =>
    simp only [hraw, distinctTexts] at hread
    split at hread
    · exact (Option.some.inj hread).symm
    · cases hread

theorem checkedMapping_ok {reason : List MappingIssue → String}
    {mapping : ContractCriterionMapping} {checked : Option ContractCriterionMapping}
    (h : checkedMapping rootContract reason mapping = .ok checked) :
    (mapping.supportsRootCriteria = [] ∧ checked = none) ∨ checked = some mapping := by
  unfold checkedMapping at h
  split at h
  · rename_i hnone
    exact .inl ⟨hnone, (Except.ok.inj h).symm⟩
  split at h
  · cases h
  · exact .inr (Except.ok.inj h).symm

theorem mem_mappedBy :
    contractId ∈ mappedBy mappings criterionId ↔
      ∃ mapping ∈ mappings, mapping.childContractId = contractId ∧
        criterionId ∈ mapping.supportsRootCriteria := by
  rw [mappedBy, List.mem_flatMap]
  constructor
  · rintro ⟨mapping, hmapping, hmem⟩
    obtain ⟨supported, hsupported, hid⟩ := List.mem_map.1 hmem
    obtain ⟨hsupported, hsame⟩ := List.mem_filter.1 hsupported
    exact ⟨mapping, hmapping, hid, of_decide_eq_true hsame ▸ hsupported⟩
  · rintro ⟨mapping, hmapping, hid, hsupported⟩
    exact ⟨mapping, hmapping, List.mem_map.2
      ⟨criterionId, List.mem_filter.2 ⟨hsupported, decide_eq_true rfl⟩, hid⟩⟩

theorem childMapping_supports {child : KanbanCard} {checked : Option ContractCriterionMapping}
    (h : childMapping db rootContract rootCardId child = .ok checked) :
    (∃ m, checked = some m ∧ m.childContractId = contractId ∧
        criterionId ∈ m.supportsRootCriteria) ↔
      ∃ row contract, latestContract db child.id = some row ∧
        row.contractJson = some contract ∧ row.id = contractId ∧
        criterionId ∈ contract.supportsRootCriteria.getD [] := by
  rw [childMapping, latestContract_orElse] at h
  split at h
  · rename_i hlatest
    cases h
    simp [hlatest]
  rename_i row hlatest
  split at h
  · cases h
  rename_i supports hsupports
  obtain ⟨contract, hcontract, rfl⟩ := supports_of_childSupports hsupports
  rcases checkedMapping_ok h with ⟨hnone, rfl⟩ | rfl
  · have hnot : contract.supportsRootCriteria.getD [] = [] := hnone
    simp [hlatest, hcontract, hnot]
  · simp [hlatest, hcontract]

theorem isPeerContract_of_peerMapping {row : PeerCriteria} {m : ContractCriterionMapping}
    (h : peerMapping rootContract row = .ok (some m)) : isPeerContract m.childContractId = true := by
  unfold peerMapping at h
  split at h
  · cases h
  rcases checkedMapping_ok h with ⟨-, hnone⟩ | hsome
  · cases hnone
  obtain rfl := Option.some.inj hsome
  rw [isPeerContract, List.isPrefixOf_iff_prefix]
  simp only [String.toList_append, List.append_assoc]
  exact List.prefix_append "peer:".toList _

/-- What maps a criterion, besides the contributions of peers. -/
theorem mem_mappedBy_iff (h : criterionMappings src rootContract rootCardId = .ok mappings)
    (hworker : isPeerContract contractId = false) :
    contractId ∈ mappedBy mappings criterionId ↔
      ∃ child ∈ kanbanGetChildren src.db.kanbanBoard rootCardId, ∃ row contract,
        latestContract src.db child.id = some row ∧ row.contractJson = some contract ∧
          row.id = contractId ∧ criterionId ∈ contract.supportsRootCriteria.getD [] := by
  obtain ⟨children, hchildren, h⟩ := bind_eq_ok.1 h
  obtain ⟨peers, hpeers, h⟩ := bind_eq_ok.1 h
  cases h
  rw [mapM_eq_ok] at hchildren hpeers
  rw [mem_mappedBy]
  constructor
  · rintro ⟨mapping, hmapping, hid, hsupported⟩
    obtain ⟨checked, hchecked, rfl⟩ := List.mem_filterMap.1 hmapping
    rcases List.mem_append.1 hchecked with hchild | hpeer
    · have hmem : Except.ok (ε := String) (some mapping) ∈ children.map .ok :=
        List.mem_map_of_mem hchild
      rw [← hchildren] at hmem
      obtain ⟨child, hchild, hok⟩ := List.mem_map.1 hmem
      exact ⟨child, hchild, (childMapping_supports hok).1 ⟨mapping, rfl, hid, hsupported⟩⟩
    have hmem : Except.ok (ε := String) (some mapping) ∈ peers.map .ok :=
      List.mem_map_of_mem hpeer
    rw [← hpeers] at hmem
    obtain ⟨row, -, hok⟩ := List.mem_map.1 hmem
    rw [← hid, isPeerContract_of_peerMapping hok] at hworker
    cases hworker
  · rintro ⟨child, hchild, hmaps⟩
    have hmem := List.mem_map_of_mem (f := childMapping src.db rootContract rootCardId) hchild
    rw [hchildren] at hmem
    obtain ⟨checked, hchecked, hok⟩ := List.mem_map.1 hmem
    obtain ⟨mapping, rfl, hid, hsupported⟩ := (childMapping_supports hok.symm).2 hmaps
    exact ⟨mapping, List.mem_filterMap.2 ⟨some mapping, List.mem_append_left _ hchecked, rfl⟩, hid,
      hsupported⟩

theorem mem_mappedBy_own (hnamed : NamedContracts src.db)
    (h : criterionMappings src rootContract rootCardId = .ok mappings) {child : KanbanCard}
    (hchild : child ∈ kanbanGetChildren src.db.kanbanBoard rootCardId) {row : ContractRow}
    {contract : WorkerAcceptanceContract} (hrow : latestContract src.db child.id = some row)
    (hcontract : row.contractJson = some contract) (hworker : isPeerContract contract.id = false) :
    contract.id ∈ mappedBy mappings criterionId ↔
      criterionId ∈ contract.supportsRootCriteria.getD [] := by
  have hname : contract.id = row.id := hnamed row (latestContract_mem hrow) contract hcontract
  rw [mem_mappedBy_iff h hworker]
  constructor
  · rintro ⟨other, -, otherRow, otherContract, hother, hotherContract, hid, hsupported⟩
    have hsame : otherRow = row := Table.eq_of_key_eq (latestContract_mem hother)
      (latestContract_mem hrow) (hid.trans hname)
    rw [hsame, hcontract, Option.some.injEq] at hotherContract
    rw [hotherContract]
    exact hsupported
  · intro hsupported
    exact ⟨child, hchild, row, contract, hrow, hcontract, hname.symm, hsupported⟩

end Mappings

/-! ## Evidence -/

/-- The latest contract of a child maps a criterion and was passed by the stored envelope of the
latest attempt. -/
structure PassedChild (db : Db) (criterionId : String) (child : KanbanCard)
    (contract : WorkerAcceptanceContract) (attempt : AttemptRow) (e : WorkerResultEnvelope) :
    Prop where
  latest : ∃ row, latestContract db child.id = some row ∧ row.contractJson = some contract
  maps : criterionId ∈ contract.supportsRootCriteria.getD []
  last : (getAttemptsForCard db child.id).getLast? = some attempt
  stored : resultEnvelope db attempt = some e
  passed : acceptancePassed contract (some e) = true

structure EndedWell (child : KanbanCard) (contract : WorkerAcceptanceContract)
    (attempt : AttemptRow) : Prop where
  card : child.status.isSettled = true
  lifecycle : attempt.lifecycle = .completed
  worker : isPeerContract contract.id = false

/-- The evidence of the children of a project that ended well and passed what maps a criterion. -/
def Positive (db : Db) (projectCardId : Nat) (criterionId : String)
    (evidence : WorkerResultEnvelope → List String) (id : String) : Prop :=
  ∃ child ∈ kanbanGetChildren db.kanbanBoard projectCardId, ∃ contract attempt e,
    PassedChild db criterionId child contract attempt e ∧ EndedWell child contract attempt ∧
      id ∈ evidence e

section Evidence

variable {src : CaseSources} {db : Db} {projectCardId : Nat} {criterionId id : String}
  {evidence : WorkerResultEnvelope → List String}

theorem isSuccessfulChild_iff (summary : ChildSummary) :
    isSuccessfulChild summary = true ↔
      summary.cardStatus.isSettled = true ∧ summary.outcome = some .completed ∧
        acceptancePassed summary.contract summary.result = true := by
  rw [isSuccessfulChild, decide_eq_true_eq]
  constructor
  · rintro ⟨hcard, houtcome, -, hpassed⟩
    exact ⟨hcard, houtcome, hpassed⟩
  rintro ⟨hcard, houtcome, hpassed⟩
  refine ⟨hcard, houtcome, ?_, hpassed⟩
  cases hresult : summary.result with
  | none =>
    rw [hresult] at hpassed
    cases hpassed
  | some e =>
    rw [hresult] at hpassed
    simp [outcome_completed_of_acceptancePassed hpassed]

theorem mem_positiveOf (hredact : ∀ e, evidence (redactEnvelope e) = evidence e)
    {child : KanbanCard} {summary : ChildSummary} (h : childSummary db child = some summary) :
    id ∈ positiveOf evidence summary ↔
      ∃ attempt e, (getAttemptsForCard db child.id).getLast? = some attempt ∧
        resultEnvelope db attempt = some e ∧
        acceptancePassed summary.contract (some e) = true ∧ child.status.isSettled = true ∧
        attempt.lifecycle = .completed ∧ id ∈ evidence e := by
  obtain ⟨contract, -, rfl⟩ := Option.map_eq_some_iff.1 h
  cases hlast : (getAttemptsForCard db child.id).getLast? with
  | none => simp [positiveOf, hlast]
  | some attempt =>
    cases hstored : resultEnvelope db attempt with
    | none => simp [positiveOf, hlast, hstored]
    | some e =>
      simp only [positiveOf, hlast, hstored, Option.bind_some, Option.map_some,
        Option.elim_some]
      constructor
      · intro hmem
        split at hmem
        · rename_i hsuccess
          obtain ⟨hcard, houtcome, hpassed⟩ := (isSuccessfulChild_iff _).1 hsuccess
          rw [hredact] at hmem
          exact ⟨attempt, e, rfl, hstored, hpassed, hcard, Option.some.inj houtcome, hmem⟩
        · cases hmem
      · rintro ⟨_, _, ⟨⟩, hsame, hpassed, hcard, hlifecycle, hmem⟩
        obtain rfl := Option.some.inj (hstored.symm.trans hsame)
        rw [if_pos ((isSuccessfulChild_iff _).2
          ⟨hcard, congrArg some hlifecycle, hpassed⟩), hredact]
        exact hmem

/-- The positive evidence for a criterion under what maps it. -/
theorem mem_mapped_iff (hnamed : NamedContracts src.db) {rootContract : ProjectAcceptanceContract}
    {mappings : List ContractCriterionMapping}
    (hmappings : criterionMappings src rootContract projectCardId = .ok mappings)
    (hredact : ∀ e, evidence (redactEnvelope e) = evidence e) :
    id ∈ (mappedSummaries ((kanbanGetChildren src.db.kanbanBoard projectCardId).filterMap
        (childSummary src.db)) (mappedBy mappings criterionId)).flatMap (positiveOf evidence) ↔
      Positive src.db projectCardId criterionId evidence id := by
  rw [List.mem_flatMap]
  constructor
  · rintro ⟨summary, hsummary, hmem⟩
    obtain ⟨hsummary, hmapped⟩ := List.mem_filter.1 hsummary
    obtain ⟨hmapped, hworker⟩ := of_decide_eq_true hmapped
    obtain ⟨child, hchild, hread⟩ := List.mem_filterMap.1 hsummary
    obtain ⟨attempt, e, hlast, hstored, hpassed, hcard, hlifecycle, hevidence⟩ :=
      (mem_positiveOf hredact hread).1 hmem
    obtain ⟨contract, hcontract, rfl⟩ := Option.map_eq_some_iff.1 hread
    obtain ⟨row, hrow, hjson⟩ := Option.bind_eq_some_iff.1 hcontract
    have hpeer : isPeerContract contract.id = false := by simpa using hworker
    have hsupported := (mem_mappedBy_own hnamed hmappings hchild hrow hjson hpeer).1 hmapped
    exact ⟨child, hchild, contract, attempt, e,
      ⟨⟨row, hrow, hjson⟩, hsupported, hlast, hstored, hpassed⟩, ⟨hcard, hlifecycle, hpeer⟩,
      hevidence⟩
  · rintro ⟨child, hchild, contract, attempt, e, hpassed, hended, hmem⟩
    obtain ⟨row, hrow, hjson⟩ := hpassed.latest
    have hread : (latestContract src.db child.id).bind (·.contractJson) = some contract := by
      rw [hrow]
      exact hjson
    obtain ⟨summary, hsummary, hsame⟩ : ∃ summary, childSummary src.db child = some summary ∧
        summary.contract = contract := by
      rw [childSummary, hread]
      exact ⟨_, rfl, rfl⟩
    refine ⟨summary, List.mem_filter.2 ⟨List.mem_filterMap.2 ⟨child, hchild, hsummary⟩, ?_⟩,
      (mem_positiveOf hredact hsummary).2 ⟨attempt, e, hpassed.last, hpassed.stored,
        hsame ▸ hpassed.passed, hended.card, hended.lifecycle, hmem⟩⟩
    have hmapped := (mem_mappedBy_own hnamed hmappings hchild hrow hjson hended.worker).2
      hpassed.maps
    rw [hsame]
    simp [hmapped, hended.worker]

theorem addReport_of_delegated (report : ReportEvidenceObservation) {input : CriterionReviewInput}
    (h : (addReport report input).executionOwner = .delegated) : addReport report input = input := by
  cases report with
  | captured evidenceId runId path digest content =>
    rw [addReport] at h ⊢
    split at h
    · rename_i hreport
      rw [hreport.1] at h
      cases h
    · rename_i hreport
      rw [if_neg hreport]
  | _ => rfl

theorem policy_of_find {rootContract : ProjectAcceptanceContract} {c policy : CriterionPolicyView}
    (hc : c ∈ criterionPolicyView rootContract)
    (h : (criterionPolicyView rootContract).find? (fun p => p.id = c.id) = some policy) :
    policy = c := by
  have hid : policy.id = c.id := by simpa using List.find?_some h
  exact List.inj_on_of_nodup_map rootContract.distinct (List.mem_of_find?_eq_some h) hc hid

/-- The inputs of a snapshot are read off the criteria of the root contract and what maps them. -/
theorem input_of_assembled {rt : Runtime} {report : ReportEvidenceObservation} {generation : Int}
    {round : Nat} {snapshot : ReviewCaseSnapshot}
    (h : assembleCase rt src report projectCardId generation round = .ok snapshot)
    {input : CriterionReviewInput} (hinput : input ∈ snapshot.criterionInputs) :
    ∃ rootContract mappings, criterionMappings src rootContract projectCardId = .ok mappings ∧
      ∃ c ∈ criterionPolicyView rootContract, input = addReport report
        (criterionInput ((kanbanGetChildren src.db.kanbanBoard projectCardId).filterMap
          (childSummary src.db)) c (criterionCoverage mappings c)) := by
  rw [assembleCase] at h
  split at h
  · cases h
  rename_i row hrow
  split at h
  · cases h
  · cases h
  rename_i rootContract hcontract
  split at h
  · cases h
  split at h
  · cases h
  · cases h
  rename_i coverage hread
  rw [readProjectCriterionCoverage, hrow] at hread
  simp only [hcontract] at hread
  split at hread
  · cases hread
  rename_i mappings hmappings
  cases hread
  cases h
  obtain ⟨plain, hplain, rfl⟩ := List.mem_map.1 hinput
  obtain ⟨cov, hcov, hfound⟩ := List.mem_filterMap.1 hplain
  obtain ⟨c, hc, rfl⟩ := List.mem_map.1 hcov
  obtain ⟨policy, hpolicy, rfl⟩ := Option.map_eq_some_iff.1 hfound
  obtain rfl := policy_of_find hc hpolicy
  exact ⟨rootContract, mappings, hmappings, policy, hc, rfl⟩

/-- The checks and artifacts a case counts for a delegated criterion, and the judgement redaction
does not touch. -/
theorem positive_evidence_iff (rt : Runtime) (src : CaseSources)
    (report : ReportEvidenceObservation) (projectCardId : Nat) (generation : Int) (round : Nat)
    (snapshot : ReviewCaseSnapshot) (hnamed : NamedContracts src.db)
    (hcase : assembleCase rt src report projectCardId generation round = .ok snapshot)
    (input : CriterionReviewInput) (hinput : input ∈ snapshot.criterionInputs)
    (hdelegated : input.executionOwner = .delegated) (id : String) :
    (id ∈ input.observedEvidenceIds ↔
      Positive src.db projectCardId input.criterionId observedEvidence id) ∧
    (id ∈ input.artifactObservationIds ↔
      Positive src.db projectCardId input.criterionId artifactObservations id) ∧
    ∀ contract e, acceptancePassed contract (some (redactEnvelope e)) =
      acceptancePassed contract (some e) := by
  obtain ⟨rootContract, mappings, hmappings, c, hc, rfl⟩ := input_of_assembled hcase hinput
  have hplain := addReport_of_delegated report hdelegated
  rw [hplain] at hdelegated ⊢
  have howner : ¬ c.executionOwner = .orc := by
    intro horc
    have hsame : c.executionOwner = .delegated := hdelegated
    rw [horc] at hsame
    cases hsame
  have hids : (criterionCoverage mappings c).mappedContractIds = mappedBy mappings c.id := by
    exact if_neg howner
  rw [criterionInput, hids]
  exact ⟨mem_mapped_iff hnamed hmappings observedEvidence_redactEnvelope,
    mem_mapped_iff hnamed hmappings artifactObservations_redactEnvelope,
    acceptancePassed_redactEnvelope⟩

end Evidence

/-! ### A child that passed its contract -/

def childContract : WorkerAcceptanceContract where
  id := "wc_1"
  digest := "g1"
  revisionMeta := none
  goal := "goal"
  criteria := [{ id := "k1", description := "criterion" }]
  expectedArtifacts := []
  verificationCommands := []
  requiredCapabilities := []
  supportsRootCriteria := some ["r1"]
  workspaceAlias := none
  limits := { maxDurationMs := none, maxTokens := none, maxCost := none }
  provenance := { rootCardId := 1, cardId := 2, authoredBy := "orc", createdAt := "" }

def childEnvelope : WorkerResultEnvelope where
  attempt :=
    { id := "wa_1", ordinal := 1, contractId := "wc_1", contractDigest := "g1"
      executorKind := .agent, executorId := agentExecutorId, startedAt := 0, finishedAt := 900 }
  outcome := .completed
  criteria := [{ criterionId := "k1", status := .passed, evidenceIds := ["v1"] }]
  checks :=
    [{ checkId := "v1", argv := ["true"], cwd := none, startedAt := 0, finishedAt := 1
       timedOut := false, exitCode := some 0, signal := none, stdoutExcerpt := ""
       stderrExcerpt := "" }]
  artifacts := []
  workerReport := { summary := "", claims := [], unresolvedRisks := [] }
  usage := none
  error := none

def childAttempt : AttemptRow :=
  { pendingAttempt "wa_1" 2 "wc_1" 1 .agent agentExecutorId 0 with lifecycle := .completed }

def childContractRow : ContractRow :=
  { id := "wc_1", cardId := 2, revision := 1, rootContractId := "wc_1", parentContractId := none
    sourceAttemptId := none, contractJson := some childContract, contractDigest := "g1"
    createdAt := 0 }

variable (status : CardStatus)

/-- A project with one delegated criterion and one child, on a card of the status. -/
def childSources : CaseSources where
  ledger :=
    { ContributionStore.empty with
      db := { Db.empty with
        kanbanBoard := Table.ofRows
          [newCard 1 "agent" (some "O") none .running 0,
            newCard 2 "agent" (some "W") (some 1) status 0]
        projectSupervision := Table.ofRows [⟨1, .executing, 1⟩]
        workerContracts := Table.ofRows [childContractRow]
        workerAttempts := Table.ofRows [childAttempt]
        workerResults := Table.ofRows
          [{ attemptId := "wa_1", envelope := childEnvelope, envelopeDigest := "e1"
             createdAt := 0 }] } }
  contracts := Table.ofRows
    [{ id := "pc_1", projectCardId := 1
       contractJson := .contract
        { id := "pc_1", digest := "d1", goal := "goal"
          criteria := .v2 [⟨"r1", "criterion", true, .delegated, .observed⟩]
          distinct := by decide
          requiredOutputs := []
          limits := ⟨none, none, none, 3, 2⟩ } }]

def positiveFacts : Option (List (String × CriterionExecutionOwner × List String × List String)) :=
  (assembleCase .plain (childSources status) (.notApplicable "unscheduled_project") 1 1
    1).toOption.map fun snapshot => snapshot.criterionInputs.map fun input =>
      (input.criterionId, input.executionOwner, input.observedEvidenceIds,
        input.artifactObservationIds)

theorem childSources_named : NamedContracts (childSources status).db := by
  intro row hrow contract hcontract
  obtain rfl : row = childContractRow := List.mem_singleton.1 hrow
  exact (congrArg WorkerAcceptanceContract.id (Option.some.inj hcontract)).symm

theorem done_child_evidence :
    Positive (childSources .done).db 1 "r1" observedEvidence "attempt:wa_1:check:v1" := by
  have hfacts : positiveFacts .done =
      some [("r1", .delegated, ["attempt:wa_1:check:v1"], [])] := by decide +kernel
  obtain ⟨snapshot, hsnapshot, hinputs⟩ := Option.map_eq_some_iff.1 hfacts
  obtain ⟨input, hinput, hfields⟩ := List.mem_map.1 (hinputs ▸ List.mem_singleton_self _)
  simp only [Prod.mk.injEq] at hfields
  obtain ⟨hid, howner, hobserved, -⟩ := hfields
  have hcase : assembleCase .plain (childSources .done) (.notApplicable "unscheduled_project") 1 1
      1 = .ok snapshot := by
    cases hresult : assembleCase .plain (childSources .done)
        (.notApplicable "unscheduled_project") 1 1 1 with
    | error e =>
      rw [hresult] at hsnapshot
      cases hsnapshot
    | ok other =>
      rw [hresult] at hsnapshot
      cases hsnapshot
      rfl
  have hpositive := (positive_evidence_iff .plain (childSources .done) _ 1 1 1 snapshot
    (childSources_named .done) hcase input hinput howner "attempt:wa_1:check:v1").1
  rw [hid, hobserved] at hpositive
  exact hpositive.1 (List.mem_singleton_self _)

/-- While its card still runs, a child that passed its contract is no evidence. -/
theorem passed_child_unsettled :
    positiveFacts .running = some [("r1", .delegated, [], [])] ∧
      ∃ child ∈ kanbanGetChildren (childSources .running).db.kanbanBoard 1,
        ∃ contract attempt e,
          PassedChild (childSources .running).db "r1" child contract attempt e ∧
            "attempt:wa_1:check:v1" ∈ observedEvidence e := by
  refine ⟨by decide +kernel, newCard 2 "agent" (some "W") (some 1) .running 0, ?_,
    childContract, childAttempt, childEnvelope,
    ⟨⟨childContractRow, by decide +kernel, rfl⟩, by decide, by decide +kernel, by decide +kernel,
      by decide +kernel⟩, by decide +kernel⟩
  decide +kernel

end Abtars
