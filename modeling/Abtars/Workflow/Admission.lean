import Abtars.Board.Dependencies
import Abtars.Lib.Run
import Abtars.Workflow.Ledger

/-!
# Admissions of workflow runs

An admission is known by its operation id: a repeated one returns the run the first one made.
Nothing else is looked at, so two operations on one card make two runs, and a repeated operation
whose run is over makes none.
-/

namespace Abtars

open Lib

/-- A card of the board: `kanban_board` numbers its rows from 1. -/
abbrev CardId := { id : Nat // 0 < id }

structure AdmissionInput where
  runId : Option String
  rootKind : RootKind
  rootCardId : CardId
  scheduledRunId : Option String
  clientOperationId : String
  budgets : ResolvedBudgets

/-- The allowances a caller of `admit` asks for. -/
structure BudgetOverrides where
  workRetry : Option Int
  planRevision : Option Int
  reviewRepair : Option Int
  protocolCorrection : Option Int

def BudgetOverrides.none : BudgetOverrides := ⟨.none, .none, .none, .none⟩

def BudgetOverrides.resolve (b : BudgetOverrides) : ResolvedBudgets where
  workRetry := b.workRetry.getD 1
  planRevision := b.planRevision.getD 2
  reviewRepair := b.reviewRepair.getD 2
  protocolCorrection := b.protocolCorrection.getD 1

structure SupervisedInput where
  rootCardId : CardId
  source : String
  sourcePeer : Option String
  sourceId : Option String
  scheduledRunId : Option String

inductive AdmissionError
  | budgetInvalid (scope : BudgetScope)
  | conflictingAdmission (clientOperationId : String)
  | cardMissing (cardId : Nat)
  | scheduledRunNotLive (runId : String)
  | constraint
  | workspace
  | store (error : WorkflowError)
  deriving DecidableEq

/-- What an admission returns: the run it made, the run of the same operation before it, or why
it makes none. -/
inductive AdmissionAnswer
  | admitted (runId : String)
  | duplicate (runId : String)
  | conflict (reason : String)
  deriving DecidableEq

def ResolvedBudgets.invalidScope (b : ResolvedBudgets) : Option BudgetScope :=
  if b.workRetry < 0 then some .workRetry
  else if b.planRevision < 0 then some .planRevision
  else if b.reviewRepair < 0 then some .reviewRepair
  else if b.protocolCorrection < 0 then some .protocolCorrection
  else none

/-- Queues the planning of a run that was admitted without it, unless it is open. -/
def WorkflowRun.ensureInitialPlanning (run : WorkflowRun) : Except WorkflowError WorkflowRun :=
  if run.currentRevision ≠ 0 ∨ run.state ≠ .admitted then .ok run
  else
    match run.upsertOperation ⟨.initialPlan, .planning, none, .pending⟩ with
    | .error e => .error e
    | .ok run =>
      if run.hasCommand .initialPlan .plan .pending ∨ run.hasCommand .initialPlan .plan .claimed
      then .ok run
      else run.queueCommand ⟨run.generation, .initialPlan, .plan, 0⟩
        ⟨none, some .initial, [], some .initialPlan⟩

namespace WorkflowLedger

/-! ## Admission -/

def findByOperation (s : WorkflowLedger) (clientOperationId : String) : Option WorkflowRun :=
  s.runs.rows.find? (·.clientOperationId = clientOperationId)

/-- `task_runs` has the occurrence, not yet finished. -/
def occurrenceLive (s : WorkflowLedger) (runId : String) : Bool :=
  (s.db.taskRuns.get runId).any (·.finishedAt.isNone)

def admissionRow (sha : IngressPayload → String) (run : WorkflowRun) (budgets : ResolvedBudgets) :
    IngressRow :=
  let payload := IngressPayload.admission run.rootKind run.rootCardId run.scheduledRunId budgets
  { eventId := .admission run.clientOperationId
    runId := run.runId
    payloadHash := sha payload
    payload := payload
    disposition := .applied }

variable (sha : IngressPayload → String)

/-- `admitRun`; `drawn` is the random id of a run that is given none. -/
def admitRun (drawn : String) (now : Millis) (input : AdmissionInput) :
    Body WorkflowLedger AdmissionError (AdmissionAnswer × WorkflowRun) := fun s =>
  match input.budgets.invalidScope with
  | some scope => .error (.budgetInvalid scope)
  | none =>
    -- dedupe first: what an admission needs may be gone when it is repeated
    match s.findByOperation input.clientOperationId with
    | some run =>
      if run.rootCardId ≠ input.rootCardId ∨ run.rootKind ≠ input.rootKind then
        .error (.conflictingAdmission input.clientOperationId)
      else .ok ((.duplicate run.runId, run), s)
    | none =>
      if s.db.kanbanBoard.get input.rootCardId = none then
        .error (.cardMissing input.rootCardId)
      else
        match input.scheduledRunId.filter fun id => ¬ s.occurrenceLive id with
        | some id => .error (.scheduledRunNotLive id)
        | none =>
          let run := WorkflowRun.admitted (input.runId.getD drawn) input.rootKind
            input.rootCardId input.scheduledRunId input.clientOperationId input.budgets now
          match s.runs.insert (·.clientOperationId = run.clientOperationId) run,
              s.ingress.insert (fun _ => false) (admissionRow sha run input.budgets) with
          | some runs, some ingress =>
            .ok ((.admitted run.runId, run), { s with runs, ingress })
          | _, _ => .error .constraint

/-- `admit` of the runner: an admission with the default allowances. -/
def runnerAdmit (drawn : String) (now : Millis) (rootKind : RootKind) (rootCardId : CardId)
    (scheduledRunId : Option String) (clientOperationId : String) (budgets : BudgetOverrides) :
    WorkflowLedger → Except AdmissionError (AdmissionAnswer × WorkflowRun) × WorkflowLedger :=
  transaction (admitRun sha drawn now
    { runId := none, rootKind, rootCardId, scheduledRunId, clientOperationId,
      budgets := budgets.resolve })

def updateRun (runId : String) (write : WorkflowRun → Except WorkflowError WorkflowRun) :
    Body WorkflowLedger AdmissionError Unit := fun s =>
  match s.runs.get runId with
  | none => .ok ((), s)
  | some run =>
    match write run with
    | .error e => .error (.store e)
    | .ok run => .ok ((), { s with runs := s.runs.put run })

def planAdmitted (workspace : Bool) (runId : String) (answer : AdmissionAnswer)
    (write : WorkflowRun → Except WorkflowError WorkflowRun) (s : WorkflowLedger) :
    Except AdmissionError AdmissionAnswer × WorkflowLedger :=
  if workspace = false then (.error .workspace, s)
  else
    match transaction (updateRun runId write) s with
    | (.error e, s) => (.error e, s)
    | (.ok (), s) => (.ok answer, s)

variable (input : SupervisedInput)

def SupervisedInput.rootKind : RootKind :=
  if input.source = "task" then .scheduled else if input.source = "peer" then .peer
  else .interactive

def SupervisedInput.operationId : String :=
  s!"admit-{input.rootCardId.1}-" ++ input.source

def SupervisedInput.originInvalid : Bool :=
  input.source = "peer" ∧ input.sourcePeer.all fun peer => peer.toList.all isJsSpace

/-- `admitSupervised`; `workspace` says whether the workspace of the card resolves and is the one
bound to it. -/
def admitSupervised (drawn : String) (now : Millis) (workspace : Bool) (input : SupervisedInput)
    (s : WorkflowLedger) : Except AdmissionError AdmissionAnswer × WorkflowLedger :=
  if SupervisedInput.originInvalid input then (.ok (.conflict "origin_invalid"), s)
  else
    let scheduledRunId :=
      input.scheduledRunId <|> if input.source = "task" then input.sourceId else none
    match runnerAdmit sha drawn now (SupervisedInput.rootKind input) input.rootCardId scheduledRunId
        (SupervisedInput.operationId input) .none s with
    | (.error e, s) => (.error e, s)
    | (.ok (answer, run), s) =>
      planAdmitted workspace run.runId answer
        (match answer with
          -- heals a crash between the admission and its planning
          | .duplicate _ => WorkflowRun.ensureInitialPlanning
          | _ => WorkflowRun.queueInitialPlanning) s

end WorkflowLedger

/-! ## Runs of the store -/

structure LedgerHost extends RunnerHost where
  sha : IngressPayload → String

/-- A call on the store: an admission, an operation on a run, or another component's writes. -/
inductive LedgerOp
  | admitRun (drawn : String) (now : Millis) (input : AdmissionInput)
  | runnerAdmit (drawn : String) (now : Millis) (rootKind : RootKind) (rootCardId : CardId)
      (scheduledRunId : Option String) (clientOperationId : String) (budgets : BudgetOverrides)
  | admitSupervised (drawn : String) (now : Millis) (workspace : Bool) (input : SupervisedInput)
  | runner (runId : String) (op : WorkflowOp)
  | world (db : Db)

namespace WorkflowLedger

def ledgerCall (host : LedgerHost) (s : WorkflowLedger) :
    LedgerOp → Except AdmissionError (Option AdmissionAnswer) × WorkflowLedger
  | .admitRun drawn now input =>
    let (out, s) := transaction (admitRun host.sha drawn now input) s
    (out.map fun answer => some answer.1, s)
  | .runnerAdmit drawn now rootKind rootCardId scheduledRunId clientOperationId budgets =>
    let (out, s) := runnerAdmit host.sha drawn now rootKind rootCardId scheduledRunId
      clientOperationId budgets s
    (out.map fun answer => some answer.1, s)
  | .admitSupervised drawn now workspace input =>
    let (out, s) := admitSupervised host.sha drawn now workspace input s
    (out.map some, s)
  | .runner runId op =>
    match s.runs.get runId with
    | none => (.ok none, s)
    | some run => (.ok none, s.writeBack (workflowStep host.toRunnerHost (s.view run) op))
  | .world db => (.ok none, { s with db })

def ledgerStep (host : LedgerHost) (s : WorkflowLedger) (op : LedgerOp) : WorkflowLedger :=
  (ledgerCall host s op).2

/-- A card and the operation it is admitted by, and whether its planning is queued with it. -/
structure AdmissionKey where
  rootCardId : CardId
  clientOperationId : String
  supervised : Bool
  deriving DecidableEq

def admissionKey : LedgerOp → Option AdmissionKey
  | .admitRun _ _ input => some ⟨input.rootCardId, input.clientOperationId, false⟩
  | .runnerAdmit _ _ _ rootCardId _ clientOperationId _ => some ⟨rootCardId, clientOperationId, false⟩
  | .admitSupervised _ _ _ input =>
    if SupervisedInput.originInvalid input then none
    else some ⟨input.rootCardId, SupervisedInput.operationId input, true⟩
  | .runner _ _ | .world _ => none

/-! ### What is claimed of the store -/

variable (s : WorkflowLedger)

def Used (clientOperationId : String) : Prop :=
  ∃ run ∈ s.runs, run.clientOperationId = clientOperationId

def HasLive (cardId : Nat) : Prop :=
  ∃ run ∈ s.runs, run.rootCardId = cardId ∧ run.state.isTerminal = false

instance (s : WorkflowLedger) (clientOperationId : String) :
    Decidable (s.Used clientOperationId) :=
  inferInstanceAs (Decidable (∃ run ∈ s.runs.rows, run.clientOperationId = clientOperationId))

instance (s : WorkflowLedger) (cardId : Nat) : Decidable (s.HasLive cardId) :=
  inferInstanceAs (Decidable (∃ run ∈ s.runs.rows,
    run.rootCardId = cardId ∧ run.state.isTerminal = false))

def OneLive : Prop :=
  ∀ run ∈ s.runs, ∀ run' ∈ s.runs, run.state.isTerminal = false →
    run'.state.isTerminal = false → run.rootCardId = run'.rootCardId → run = run'

def PlanningOpen (run : WorkflowRun) : Prop :=
  ∃ c ∈ run.commands, c.action = .plan ∧ c.status.isOpen = true

/-- What an admission that returns has done.  A new operation made a live run, which
`admitSupervised` leaves to be planned; a repeated one is answered with the run it made before,
and `admitSupervised` makes sure of its planning while nothing is planned. -/
def Answers (host : LedgerHost) (s : WorkflowLedger) (op : LedgerOp) : Prop :=
  ∀ key answer, admissionKey op = some key → (ledgerCall host s op).1 = .ok (some answer) →
    (¬ s.Used key.clientOperationId ∧ ∃ run ∈ (ledgerStep host s op).runs,
      answer = .admitted run.runId ∧ run.rootCardId = key.rootCardId ∧
        run.state.isTerminal = false ∧ (key.supervised = true → PlanningOpen run)) ∨
    ∃ run ∈ s.runs, answer = .duplicate run.runId ∧ run.rootCardId = key.rootCardId ∧
      run.clientOperationId = key.clientOperationId ∧
      (∀ r ∈ (ledgerStep host s op).runs, ∃ r' ∈ s.runs, r.runId = r'.runId) ∧
      ∃ run' ∈ (ledgerStep host s op).runs, run.SameRow run' ∧
        (key.supervised = true → run.state = .admitted → run.currentRevision = 0 →
          PlanningOpen run')

def AuditReaches : Prop :=
  ∀ (clock : Nat → Millis) (cursor : Nat), ∀ run ∈ s.runs, run.state.isTerminal = false →
    ∃ n, run.runId ∈ (s.auditTick (clock n) (s.auditCursor clock cursor n)).runs

def Fresh (op : LedgerOp) : Prop :=
  ∀ key ∈ admissionKey op, s.Used key.clientOperationId ∨ ¬ s.HasLive key.rootCardId

instance (s : WorkflowLedger) (op : LedgerOp) : Decidable (s.Fresh op) :=
  inferInstanceAs (Decidable (∀ key ∈ admissionKey op,
    s.Used key.clientOperationId ∨ ¬ s.HasLive key.rootCardId))

section Audit

variable {s : WorkflowLedger}

def liveRuns (s : WorkflowLedger) : List WorkflowRun :=
  s.runs.select fun run => ¬ run.state.isTerminal

theorem mem_liveRuns {run : WorkflowRun} :
    run ∈ s.liveRuns ↔ run ∈ s.runs ∧ run.state.isTerminal = false := by
  simp [liveRuns]

theorem nodup_liveRuns (h : s.OneLive) : (s.liveRuns.map fun run => run.rootCardId).Nodup := by
  have hrows : s.liveRuns.Nodup :=
    (List.Nodup.of_map _ s.runs.keys_nodup).sublist List.filter_sublist
  refine (List.nodup_map_iff_inj_on hrows).2 fun run hrun run' hrun' heq => ?_
  obtain ⟨hmem, hlive⟩ := mem_liveRuns.1 hrun
  obtain ⟨hmem', hlive'⟩ := mem_liveRuns.1 hrun'
  exact h run hmem run' hmem' hlive hlive' heq

theorem auditTick_eq (now : Millis) (cursor : Nat) (s : WorkflowLedger) :
    (s.auditTick now cursor).nextCursor =
        scanNext (fun run : WorkflowRun => run.rootCardId) s.liveRuns 100 cursor ∧
      ∀ runId, runId ∈ (s.auditTick now cursor).runs ↔
        ∃ run ∈ scanned (fun run : WorkflowRun => run.rootCardId) s.liveRuns 100 cursor,
          run.runId = runId := by
  have hroots : (if s.listAuditRoots cursor 100 = [] ∧ 0 < cursor then s.listAuditRoots 0 100
      else s.listAuditRoots cursor 100) =
        scanned (fun run : WorkflowRun => run.rootCardId) s.liveRuns 100 cursor := by
    show _ = page _ _ _ (if s.listAuditRoots cursor 100 = [] ∧ 0 < cursor then 0 else cursor)
    split <;> rfl
  refine ⟨?_, fun runId => ?_⟩
  · unfold auditTick scanNext
    rw [← hroots]
    rfl
  unfold auditTick AuditReport.runs
  dsimp only
  rw [hroots, ← List.map_append, List.mem_map]
  refine exists_congr fun run => and_congr_left fun _ => ?_
  simp only [List.mem_append, List.mem_filter]
  cases s.isLawful now run <;> simp

theorem auditCursor_eq (clock : Nat → Millis) (cursor n : Nat) :
    s.auditCursor clock cursor n =
      (scanNext (fun run : WorkflowRun => run.rootCardId) s.liveRuns 100)^[n] cursor := by
  induction n with
  | zero => rfl
  | succ n ih =>
    rw [Function.iterate_succ_apply', ← ih]
    exact (auditTick_eq (clock n) _ s).1

theorem auditReaches_of_oneLive (h : s.OneLive) (hpos : ∀ run ∈ s.runs, 0 < run.rootCardId) :
    s.AuditReaches := by
  intro clock cursor run hrun hlive
  obtain ⟨n, hn⟩ := exists_visited (show 0 < 100 by omega) (nodup_liveRuns h)
    (mem_liveRuns.2 ⟨hrun, hlive⟩) (hpos run hrun) cursor
  refine ⟨n, ?_⟩
  rw [(auditTick_eq (clock n) _ s).2, auditCursor_eq]
  exact ⟨run, hn, rfl⟩

end Audit

section Steps

variable {answer : AdmissionAnswer} {runId : String}
  {write : WorkflowRun → Except WorkflowError WorkflowRun}

variable {host : LedgerHost} {s s' : WorkflowLedger} {run run' : WorkflowRun}

structure Sound (s : WorkflowLedger) : Prop where
  oneLive : s.OneLive
  cards : ∀ run ∈ s.runs, 0 < run.rootCardId

theorem sound_initial (db : Db) : (initial db).Sound :=
  ⟨fun run hrun => absurd hrun (Table.not_mem_empty run),
    fun run hrun => absurd hrun (Table.not_mem_empty run)⟩

theorem Sound.insert (hs : s.Sound) (hpos : 0 < run.rootCardId) (hover : ¬ s.HasLive run.rootCardId)
    (hruns : ∀ r, r ∈ s'.runs ↔ r ∈ s.runs ∨ r = run) : s'.Sound := by
  constructor
  · intro a ha b hb hlive hlive' heq
    rcases (hruns a).1 ha with hold | rfl <;> rcases (hruns b).1 hb with hold' | rfl
    · exact hs.oneLive a hold b hold' hlive hlive' heq
    · exact absurd ⟨a, hold, heq, hlive⟩ hover
    · exact absurd ⟨b, hold', heq.symm, hlive'⟩ hover
    · rfl
  · intro a ha
    rcases (hruns a).1 ha with hold | rfl
    · exact hs.cards a hold
    · exact hpos

theorem Sound.put (hs : s.Sound) (hrun : run ∈ s.runs) (hcontinues : Continues run run')
    (hruns : s'.runs = s.runs.put run') : s'.Sound := by
  have hmem : ∀ {r}, r ∈ s'.runs → (r ∈ s.runs ∧ r.runId ≠ run'.runId) ∨ r = run' := by
    intro r hr
    rw [hruns] at hr
    exact Table.mem_put.1 hr
  have hlives : run'.state.isTerminal = false → run.state.isTerminal = false := by
    intro hlive
    cases hended : run.state.isTerminal with
    | false => rfl
    | true => exact absurd (hcontinues.ended hended) (by simp [hlive])
  -- a live run of the card besides the new one was one besides the old one
  have hclash : ∀ {r}, r ∈ s.runs → r.runId ≠ run'.runId → r.state.isTerminal = false →
      run'.state.isTerminal = false → r.rootCardId ≠ run'.rootCardId := by
    intro r hr hne hlive hlive' heq
    have hsame : r = run :=
      hs.oneLive r hr run hrun hlive (hlives hlive') (heq.trans hcontinues.rootCardId)
    exact hne (by rw [hsame, hcontinues.runId])
  constructor
  · intro a ha b hb hlive hlive' heq
    rcases hmem ha with ⟨hold, hne⟩ | rfl <;> rcases hmem hb with ⟨hold', hne'⟩ | rfl
    · exact hs.oneLive a hold b hold' hlive hlive' heq
    · exact absurd heq (hclash hold hne hlive hlive')
    · exact absurd heq.symm (hclash hold' hne' hlive' hlive)
    · rfl
  · intro a ha
    rcases hmem ha with ⟨hold, -⟩ | rfl
    · exact hs.cards a hold
    · rw [hcontinues.rootCardId]
      exact hs.cards run hrun

/-- An admission returns the run its operation made before, or inserts one. -/
theorem admitRun_ok {sha : IngressPayload → String} {drawn : String} {now : Millis}
    {input : AdmissionInput} (h : admitRun sha drawn now input s = .ok ((answer, run), s')) :
    (answer = .duplicate run.runId ∧ s' = s ∧ run ∈ s.runs ∧
        run.rootCardId = input.rootCardId ∧
        run.clientOperationId = input.clientOperationId) ∨
      (answer = .admitted run.runId ∧ ¬ s.Used input.clientOperationId ∧
        run.rootCardId = input.rootCardId ∧ run.state = .admitted ∧
        (∀ r, r ∈ s'.runs ↔ r ∈ s.runs ∨ r = run) ∧ s'.runs.get run.runId = some run) := by
  unfold admitRun at h
  split at h
  · cases h
  split at h
  · rename_i old hold
    split at h
    · cases h
    rename_i hagrees
    cases h
    refine .inl ⟨rfl, rfl, List.mem_of_find?_eq_some hold, ?_, ?_⟩
    · exact not_not.1 fun hcard => hagrees (.inl hcard)
    · simpa using List.find?_some hold
  · rename_i hnone
    split at h
    · cases h
    split at h
    · cases h
    dsimp only at h
    split at h
    · rename_i runs ingress hruns hingress
      cases h
      refine .inr ⟨rfl, ?_, rfl, rfl, fun r => Table.mem_insert hruns, ?_⟩
      · rintro ⟨r, hr, hop⟩
        exact absurd hop (by simpa using List.find?_eq_none.1 hnone r hr)
      · rw [Table.get_of_insert hruns]
        exact if_pos rfl
    · cases h

theorem sameRow_queueInitialPlanning (h : run.queueInitialPlanning = .ok run') :
    run.SameRow run' := by
  obtain ⟨opened, hopened, h⟩ := ok_of_match h
  exact (WorkflowRun.sameRow_upsertOperation hopened).trans (WorkflowRun.sameRow_queueCommand h)

theorem planningOpen_queueInitialPlanning (h : run.queueInitialPlanning = .ok run') :
    PlanningOpen run' := by
  obtain ⟨opened, hopened, h⟩ := ok_of_match h
  obtain ⟨commands, hinsert, rfl⟩ := WorkflowRun.queueCommand_ok h
  exact ⟨_, (Table.mem_insert hinsert).2 (.inr rfl), rfl, rfl⟩

theorem sameRow_ensureInitialPlanning (h : run.ensureInitialPlanning = .ok run') :
    run.SameRow run' := by
  unfold WorkflowRun.ensureInitialPlanning at h
  split at h
  · cases h
    exact .refl run
  obtain ⟨opened, hopened, h⟩ := ok_of_match h
  have hopens := WorkflowRun.sameRow_upsertOperation hopened
  split at h
  · cases h
    exact hopens
  · exact hopens.trans (WorkflowRun.sameRow_queueCommand h)

theorem planningOpen_ensureInitialPlanning (h : run.ensureInitialPlanning = .ok run')
    (hstate : run.state = .admitted) (hfirst : run.currentRevision = 0) : PlanningOpen run' := by
  unfold WorkflowRun.ensureInitialPlanning at h
  rw [if_neg (by simp [hstate, hfirst])] at h
  obtain ⟨opened, hopened, h⟩ := ok_of_match h
  split at h
  · rename_i hqueued
    cases h
    have hopen : ∀ {status : CommandStatus}, status.isOpen = true →
        run'.hasCommand .initialPlan .plan status = true → PlanningOpen run' := by
      intro status hstatus hhas
      obtain ⟨c, hc, hfound⟩ := List.any_eq_true.1 hhas
      obtain ⟨-, haction, rfl⟩ : c.nodeId = .initialPlan ∧ c.action = .plan ∧
          c.status = status := by simpa using hfound
      exact ⟨c, hc, haction, hstatus⟩
    rcases hqueued with hpending | hclaimed
    · exact hopen rfl hpending
    · exact hopen rfl hclaimed
  · obtain ⟨commands, hinsert, rfl⟩ := WorkflowRun.queueCommand_ok h
    exact ⟨_, (Table.mem_insert hinsert).2 (.inr rfl), rfl, rfl⟩

theorem planAdmitted_ok {workspace : Bool} {out : AdmissionAnswer}
    (hrun : s.runs.get runId = some run)
    (h : (planAdmitted workspace runId answer write s).1 = .ok out) :
    out = answer ∧ ∃ run', write run = .ok run' ∧
      (planAdmitted workspace runId answer write s).2.runs = s.runs.put run' := by
  unfold planAdmitted transaction updateRun at h ⊢
  cases workspace with
  | false => cases h
  | true =>
    simp only [Bool.true_eq_false, if_false, hrun] at h ⊢
    cases hwrite : write run with
    | error e =>
      rw [hwrite] at h
      cases h
    | ok run' =>
      rw [hwrite] at h
      cases h
      exact ⟨rfl, run', rfl, rfl⟩

theorem Sound.updateRun
    (hs : s.Sound) (hwrite : ∀ run run', write run = .ok run' → Continues run run') :
    (transaction (updateRun runId write) s).2.Sound := by
  unfold transaction WorkflowLedger.updateRun
  cases hrun : s.runs.get runId with
  | none => exact hs
  | some run =>
    dsimp only
    cases hwritten : write run with
    | error e => exact hs
    | ok run' => exact hs.put (Table.mem_of_get hrun) (hwrite run run' hwritten) rfl

theorem Sound.planAdmitted {workspace : Bool} (hs : s.Sound)
    (hwrite : ∀ run run', write run = .ok run' → Continues run run') :
    (planAdmitted workspace runId answer write s).2.Sound := by
  have hupdated : (transaction (WorkflowLedger.updateRun runId write) s).2.Sound :=
    hs.updateRun hwrite
  unfold WorkflowLedger.planAdmitted
  split
  · exact hs
  · split <;> rename_i hout <;> rw [hout] at hupdated <;> exact hupdated

theorem Sound.admitRun (hs : s.Sound) (host : LedgerHost) (drawn : String) (now : Millis)
    (input : AdmissionInput)
    (hfresh : s.Used input.clientOperationId ∨ ¬ s.HasLive input.rootCardId) :
    (transaction (admitRun host.sha drawn now input) s).2.Sound := by
  unfold transaction
  cases hout : WorkflowLedger.admitRun host.sha drawn now input s with
  | error e => exact hs
  | ok out =>
    rcases admitRun_ok hout with ⟨-, hsame, -, -, -⟩ | ⟨-, hnew, hcard, -, hruns, -⟩
    · subst hsame
      exact hs
    refine hs.insert ?_ ?_ hruns
    · rw [hcard]
      exact input.rootCardId.2
    · rw [hcard]
      exact hfresh.resolve_left hnew

/-- One step: no admission is of a card with a live run, and no operation revives a run. -/
theorem sound_step {op : LedgerOp} (hs : s.Sound) (hfresh : s.Fresh op) :
    (ledgerStep host s op).Sound := by
  cases op with
  | admitRun drawn now input => exact hs.admitRun host drawn now input (hfresh _ rfl)
  | runnerAdmit drawn now rootKind rootCardId scheduledRunId clientOperationId budgets =>
    exact hs.admitRun host drawn now ⟨none, rootKind, rootCardId, scheduledRunId,
      clientOperationId, budgets.resolve⟩ (hfresh _ rfl)
  | admitSupervised drawn now workspace input =>
    change (admitSupervised host.sha drawn now workspace input s).2.Sound
    unfold admitSupervised
    split
    · exact hs
    rename_i horigin
    have hkey := hfresh _ (if_neg horigin)
    dsimp only
    have hadmitted := hs.admitRun host drawn now
      ⟨none, SupervisedInput.rootKind input, input.rootCardId,
        input.scheduledRunId <|> if input.source = "task" then input.sourceId else none,
        SupervisedInput.operationId input, BudgetOverrides.none.resolve⟩ hkey
    split
    · rename_i hout
      exact (congrArg (fun out => out.2.Sound) hout).mp hadmitted
    rename_i hout
    have hafter := (congrArg (fun out => out.2.Sound) hout).mp hadmitted
    refine Sound.planAdmitted hafter fun run run' hrun' => ?_
    split at hrun'
    · exact (sameRow_ensureInitialPlanning hrun').continues
    · exact (sameRow_queueInitialPlanning hrun').continues
  | runner runId op =>
    unfold ledgerStep ledgerCall
    dsimp only
    split
    · exact hs
    · rename_i run hrun
      exact hs.put (Table.mem_of_get hrun)
        (RunView.continues_step host.toRunnerHost (s.view run) op) rfl
  | world db => exact ⟨hs.oneLive, hs.cards⟩

theorem answers_admitRun {drawn : String} {now : Millis} {input : AdmissionInput}
    (h : (transaction (admitRun host.sha drawn now input) s).1 = .ok (answer, run)) :
    (¬ s.Used input.clientOperationId ∧
      ∃ run ∈ (transaction (admitRun host.sha drawn now input) s).2.runs,
        answer = .admitted run.runId ∧ run.rootCardId = input.rootCardId ∧
          run.state.isTerminal = false) ∨
    ∃ run ∈ s.runs, answer = .duplicate run.runId ∧ run.rootCardId = input.rootCardId ∧
      run.clientOperationId = input.clientOperationId ∧
      (transaction (admitRun host.sha drawn now input) s).2 = s := by
  unfold transaction at h ⊢
  split at h
  · rename_i out s' hbody
    cases h
    rcases admitRun_ok hbody with ⟨rfl, rfl, hrun, hcard, hop⟩ |
      ⟨rfl, hnew, hcard, hstate, hruns, -⟩
    · exact .inr ⟨run, hrun, rfl, hcard, hop, rfl⟩
    · refine .inl ⟨hnew, run, (hruns run).2 (.inr rfl), rfl, hcard, ?_⟩
      rw [hstate]
      rfl
  · cases h

theorem answers_of_unsupervised {op : LedgerOp} (drawn : String) (now : Millis)
    (input : AdmissionInput)
    (hcall : ledgerCall host s op =
      ((transaction (admitRun host.sha drawn now input) s).1.map fun answer => some answer.1,
        (transaction (admitRun host.sha drawn now input) s).2))
    (hkey : admissionKey op = some ⟨input.rootCardId, input.clientOperationId, false⟩) :
    s.Answers host op := by
  intro key answer hkey' hanswer
  obtain rfl := Option.some.inj (hkey.symm.trans hkey')
  unfold ledgerStep
  rw [hcall] at hanswer ⊢
  obtain ⟨⟨out, run⟩, hout, hsome⟩ := map_eq_ok.1 hanswer
  obtain rfl := Option.some.inj hsome
  rcases answers_admitRun hout with ⟨hnew, run, hrun, hid, hcard, hlive⟩ |
    ⟨run, hrun, hid, hcard, hop, hsame⟩
  · exact .inl ⟨hnew, run, hrun, hid, hcard, hlive, fun h => by cases h⟩
  · refine .inr ⟨run, hrun, hid, hcard, hop, ?_, ?_⟩
    · rw [hsame]
      exact fun r hr => ⟨r, hr, rfl⟩
    · rw [hsame]
      exact ⟨run, hrun, .refl run, fun h => by cases h⟩

theorem answers (host : LedgerHost) (s : WorkflowLedger) (op : LedgerOp) : s.Answers host op := by
  cases op with
  | admitRun drawn now input => exact answers_of_unsupervised drawn now input rfl rfl
  | runnerAdmit drawn now rootKind rootCardId scheduledRunId clientOperationId budgets =>
    exact answers_of_unsupervised drawn now ⟨none, rootKind, rootCardId, scheduledRunId,
      clientOperationId, budgets.resolve⟩ rfl rfl
  | runner | world => exact fun _ _ hkey => by cases hkey
  | admitSupervised drawn now workspace input =>
    intro key answer hkey hanswer
    dsimp only [admissionKey] at hkey
    split at hkey
    · cases hkey
    rename_i horigin
    obtain rfl := Option.some.inj hkey
    obtain ⟨out, hreturns, hsome⟩ := map_eq_ok.1
      (show (admitSupervised host.sha drawn now workspace input s).1.map some =
        .ok (some answer) from hanswer)
    obtain rfl := Option.some.inj hsome
    change (¬ s.Used (SupervisedInput.operationId input) ∧
      ∃ run ∈ (admitSupervised host.sha drawn now workspace input s).2.runs, _) ∨
      ∃ run ∈ s.runs, _ ∧ _ ∧ _ ∧
        (∀ r ∈ (admitSupervised host.sha drawn now workspace input s).2.runs, _) ∧
        ∃ run' ∈ (admitSupervised host.sha drawn now workspace input s).2.runs, _
    unfold admitSupervised runnerAdmit transaction at hreturns ⊢
    rw [if_neg horigin] at hreturns ⊢
    dsimp only at hreturns ⊢
    split at hreturns
    · cases hreturns
    rename_i made run s₁ hout
    split at hout
    · rename_i hbody
      cases hout
      rcases admitRun_ok hbody with ⟨rfl, rfl, hrun, hcard, hop⟩ |
        ⟨rfl, hnew, hcard, hstate, hruns, hget⟩
      · -- repeated: its planning is looked after
        have hget : s₁.runs.get run.runId = some run := Table.get_key_of_mem hrun
        obtain ⟨rfl, run', hplanned, hput⟩ := planAdmitted_ok hget hreturns
        have hrow := sameRow_ensureInitialPlanning hplanned
        refine .inr ⟨run, hrun, rfl, hcard, hop, ?_, ?_⟩
        · rw [hput]
          intro r hr
          rcases Table.mem_put.1 hr with ⟨hold, -⟩ | rfl
          · exact ⟨r, hold, rfl⟩
          · exact ⟨run, hrun, hrow.continues.runId⟩
        · rw [hput]
          exact ⟨run', Table.mem_put.2 (.inr rfl), hrow, fun _ hstate hfirst =>
            planningOpen_ensureInitialPlanning hplanned hstate hfirst⟩
      · obtain ⟨rfl, run', hplanned, hput⟩ := planAdmitted_ok hget hreturns
        have hrow := sameRow_queueInitialPlanning hplanned
        refine .inl ⟨hnew, run', ?_, ?_, ?_, ?_, fun _ =>
          planningOpen_queueInitialPlanning hplanned⟩
        · rw [hput]
          exact Table.mem_put.2 (.inr rfl)
        · rw [hrow.continues.runId]
        · rw [hrow.continues.rootCardId, hcard]
        · rw [congrArg WorkflowRunRow.state hrow.row, hstate]
          rfl
    · cases hout

/-! ### Runs that stay -/

/-- The store later on: none of its runs is lost, renamed or revived. -/
def RunsKept (s s' : WorkflowLedger) : Prop :=
  ∀ run ∈ s.runs, ∃ run' ∈ s'.runs, Continues run run'

theorem RunsKept.refl (s : WorkflowLedger) : RunsKept s s := fun run hrun => ⟨run, hrun, .refl run⟩

theorem RunsKept.trans {a b c : WorkflowLedger} (h : RunsKept a b) (h' : RunsKept b c) :
    RunsKept a c := by
  intro run hrun
  obtain ⟨run', hrun', hcontinues⟩ := h run hrun
  obtain ⟨run'', hrun'', hcontinues'⟩ := h' run' hrun'
  exact ⟨run'', hrun'', hcontinues.trans hcontinues'⟩

theorem RunsKept.used (h : RunsKept s s') {clientOperationId : String}
    (hused : s.Used clientOperationId) : s'.Used clientOperationId := by
  obtain ⟨run, hrun, rfl⟩ := hused
  obtain ⟨run', hrun', hcontinues⟩ := h run hrun
  exact ⟨run', hrun', hcontinues.clientOperationId⟩

theorem runsKept_put (hrun : run ∈ s.runs) (hcontinues : Continues run run')
    (hruns : s'.runs = s.runs.put run') : RunsKept s s' := by
  intro r hr
  rw [hruns]
  by_cases hid : r.runId = run'.runId
  · obtain rfl := Table.eq_of_key_eq hr hrun (hid.trans hcontinues.runId)
    exact ⟨run', Table.mem_put.2 (.inr rfl), hcontinues⟩
  · exact ⟨r, Table.mem_put.2 (.inl ⟨hr, hid⟩), .refl r⟩

theorem runsKept_planAdmitted {workspace : Bool}
    (hwrite : ∀ run run', write run = .ok run' → Continues run run') :
    RunsKept s (planAdmitted workspace runId answer write s).2 := by
  have hupdated : RunsKept s (transaction (updateRun runId write) s).2 := by
    unfold transaction updateRun
    cases hget : s.runs.get runId with
    | none => exact .refl s
    | some run =>
      dsimp only
      cases hwritten : write run with
      | error e => exact .refl s
      | ok run' => exact runsKept_put (Table.mem_of_get hget) (hwrite run run' hwritten) rfl
  unfold planAdmitted
  split
  · exact .refl s
  · split <;> rename_i hout <;> rw [hout] at hupdated <;> exact hupdated

/-- A store after an admission: with a run of the operation where the call returned one. -/
theorem runsKept_admitRun (sha : IngressPayload → String) (drawn : String) (now : Millis)
    (input : AdmissionInput) : RunsKept s (transaction (admitRun sha drawn now input) s).2 ∧
      ∀ out, (transaction (admitRun sha drawn now input) s).1 = .ok out →
        (transaction (admitRun sha drawn now input) s).2.Used input.clientOperationId := by
  unfold transaction
  split
  · rename_i out s' h
    unfold admitRun at h
    split at h
    · cases h
    split at h
    · -- a repeated operation is answered with its run, and nothing is written
      rename_i old hold
      split at h
      · cases h
      cases h
      refine ⟨.refl s, fun _ _ => ⟨old, List.mem_of_find?_eq_some hold, ?_⟩⟩
      simpa using List.find?_some hold
    split at h
    · cases h
    split at h
    · cases h
    dsimp only at h
    split at h
    · rename_i runs _ hruns _
      cases h
      exact ⟨fun r hr => ⟨r, (Table.mem_insert hruns).2 (.inl hr), .refl r⟩,
        fun _ _ => ⟨_, (Table.mem_insert hruns).2 (.inr rfl), rfl⟩⟩
    · cases h
  · exact ⟨.refl s, fun _ h => by cases h⟩

/-- A step keeps the runs, and leaves a run of the operation it admits. -/
theorem runsKept_step (host : LedgerHost) (s : WorkflowLedger) (op : LedgerOp) :
    RunsKept s (ledgerStep host s op) ∧ ∀ key answer, admissionKey op = some key →
      (ledgerCall host s op).1 = .ok (some answer) →
        (ledgerStep host s op).Used key.clientOperationId := by
  cases op with
  | admitRun drawn now input =>
    refine ⟨(runsKept_admitRun host.sha drawn now input).1, fun key answer hkey hout => ?_⟩
    obtain rfl := Option.some.inj hkey
    obtain ⟨out, hout, -⟩ := map_eq_ok.1 hout
    exact (runsKept_admitRun host.sha drawn now input).2 out hout
  | runnerAdmit drawn now rootKind rootCardId scheduledRunId clientOperationId budgets =>
    refine ⟨(runsKept_admitRun ..).1, fun key answer hkey hout => ?_⟩
    obtain rfl := Option.some.inj hkey
    obtain ⟨out, hout, -⟩ := map_eq_ok.1 hout
    exact (runsKept_admitRun ..).2 out hout
  | admitSupervised drawn now workspace input =>
    unfold ledgerStep ledgerCall admissionKey admitSupervised
    dsimp only
    split
    · exact ⟨.refl s, fun _ _ hkey => by cases hkey⟩
    have hadmitted := runsKept_admitRun (s := s) host.sha drawn now
      ⟨none, SupervisedInput.rootKind input, input.rootCardId,
        input.scheduledRunId <|> if input.source = "task" then input.sourceId else none,
        SupervisedInput.operationId input, BudgetOverrides.none.resolve⟩
    split
    · rename_i hout
      exact ⟨(congrArg (fun out => RunsKept s out.2) hout).mp hadmitted.1,
        fun _ _ _ h => by cases h⟩
    · rename_i made run s₁ hout
      have hfirst : RunsKept s s₁ := (congrArg (fun out => RunsKept s out.2) hout).mp hadmitted.1
      have hused : s₁.Used (SupervisedInput.operationId input) :=
        (congrArg (fun out => Used out.2 _) hout).mp (hadmitted.2 _ (congrArg Prod.fst hout))
      suffices hplanned : RunsKept s₁ _ from ⟨hfirst.trans hplanned, fun _ _ hkey _ =>
        Option.some.inj hkey ▸ hplanned.used hused⟩
      refine runsKept_planAdmitted fun run run' hrun' => ?_
      split at hrun'
      · exact (sameRow_ensureInitialPlanning hrun').continues
      · exact (sameRow_queueInitialPlanning hrun').continues
  | runner runId op =>
    refine ⟨?_, fun _ _ hkey => by cases hkey⟩
    unfold ledgerStep ledgerCall
    dsimp only
    split
    · exact .refl s
    · rename_i run hget
      exact runsKept_put (Table.mem_of_get hget)
        (RunView.continues_step host.toRunnerHost (s.view run) op) rfl
  | world db => exact ⟨fun run hrun => ⟨run, hrun, .refl run⟩, fun _ _ hkey => by cases hkey⟩

end Steps

/-! ### Whole runs -/

/-- Every admission that returns made a live run or is answered with the run of its operation.
In a store where no new operation is for a card with a live run, no root card has two live runs,
and the audit comes past every live run. -/
theorem one_live_run_per_card (host : LedgerHost) (db : Db) (ops : List LedgerOp)
    (hfresh : StepsMeet (ledgerStep host) Fresh (initial db) ops) :
    (runFrom (ledgerStep host) (initial db) ops).OneLive ∧
      (runFrom (ledgerStep host) (initial db) ops).AuditReaches ∧
      StepsMeet (ledgerStep host) (Answers host) (initial db) ops := by
  have hsound : (runFrom (ledgerStep host) (initial db) ops).Sound :=
    invariant_of_stepsMeet (fun _ _ hs => sound_step hs) ops _ (sound_initial db) hfresh
  refine ⟨hsound.oneLive, auditReaches_of_oneLive hsound.oneLive hsound.cards, ?_⟩
  exact stepsMeet_of_kept (I := fun _ => True) (fun _ _ _ _ => trivial)
    (fun s op _ _ => answers host s op) ops _ trivial hfresh

/-- The call is answered with a new run for the operation. -/
def admits (host : LedgerHost) (clientOperationId : String) (s : WorkflowLedger) (op : LedgerOp) :
    Bool :=
  match admissionKey op, (ledgerCall host s op).1 with
  | some key, .ok (some (.admitted _)) => key.clientOperationId = clientOperationId
  | _, _ => false

/-- In every run of calls on a store, whatever they are, no workflow run is lost, renamed or
revived. -/
theorem runs_stay (host : LedgerHost) (s : WorkflowLedger) (ops : List LedgerOp) :
    RunsKept s (runFrom (ledgerStep host) s ops) :=
  relation_of_step (I := fun _ => True) (fun s _ => RunsKept.refl s) (fun _ _ _ => RunsKept.trans)
    (fun _ _ _ => trivial) (fun s op _ => (runsKept_step host s op).1) ops s trivial

/-- In every run of calls on a store, at most one call is answered with a new workflow run for a
given operation. -/
theorem operation_admitted_once (host : LedgerHost) (clientOperationId : String)
    (s : WorkflowLedger) (ops : List LedgerOp) :
    countSteps (ledgerStep host) (admits host clientOperationId) s ops ≤ 1 := by
  -- an admission finds no run of the operation and leaves one, which stays
  have hstep : ∀ s op, (admits host clientOperationId s op).toNat +
      (decide (s.Used clientOperationId)).toNat ≤
        (decide ((ledgerStep host s op).Used clientOperationId)).toNat := by
    intro s op
    obtain ⟨hkept, hused⟩ := runsKept_step host s op
    cases hadmits : admits host clientOperationId s op with
    | false =>
      by_cases hold : s.Used clientOperationId
      · simp [hold, hkept.used hold]
      · simp [hold]
    | true =>
      unfold admits at hadmits
      split at hadmits
      · rename_i key runId hkey hout
        obtain rfl : key.clientOperationId = clientOperationId := by simpa using hadmits
        have hnew : ¬ s.Used key.clientOperationId := by
          rcases answers host s op key _ hkey hout with ⟨hnew, -⟩ | ⟨_, -, hanswer, -⟩
          · exact hnew
          · cases hanswer
        simp [hnew, hused key _ hkey hout]
      · cases hadmits
  exact countSteps_le_one hstep s ops

/-! ### Cards admitted twice -/

def plainLedgerHost : LedgerHost := ⟨⟨["general"], fun _ => ""⟩, fun _ => ""⟩

def oneCardDb : Db :=
  { Db.empty with kanbanBoard := Table.ofRows [newCard 1 "agent" none none .queued 0] }

def admitFor (source runId : String) : LedgerOp :=
  .admitSupervised runId 0 true ⟨⟨1, by decide⟩, source, none, none, none⟩

/-- An admission of a card whose runs are all over leaves a live run of it to be planned. -/
def Plans (host : LedgerHost) (s : WorkflowLedger) (op : LedgerOp) : Prop :=
  ∀ key answer, admissionKey op = some key → ¬ s.HasLive key.rootCardId →
    (ledgerCall host s op).1 = .ok (some answer) →
    ∃ run ∈ (ledgerStep host s op).runs, run.rootCardId = key.rootCardId ∧
      run.state.isTerminal = false ∧ PlanningOpen run

/-- Two sources give the card two live runs; a source that comes again after its run was
cancelled is answered with the cancelled run. -/
theorem admitSupervised_by_two_sources :
    ¬ (runFrom (ledgerStep plainLedgerHost) (initial oneCardDb)
        [admitFor "cli" "a", admitFor "sha" "b"]).OneLive ∧
      ¬ Plans plainLedgerHost (runFrom (ledgerStep plainLedgerHost) (initial oneCardDb)
        [admitFor "cli" "a", .runner "a" (.requestCancel "stop")]) (admitFor "cli" "b") := by
  constructor
  · intro hone
    have htwo : ∃ run ∈ (runFrom (ledgerStep plainLedgerHost) (initial oneCardDb)
        [admitFor "cli" "a", admitFor "sha" "b"]).runs.rows,
      ∃ run' ∈ (runFrom (ledgerStep plainLedgerHost) (initial oneCardDb)
        [admitFor "cli" "a", admitFor "sha" "b"]).runs.rows,
        run.state.isTerminal = false ∧ run'.state.isTerminal = false ∧
          run.rootCardId = run'.rootCardId ∧ run.runId ≠ run'.runId := by decide +kernel
    obtain ⟨run, hrun, run', hrun', hlive, hlive', hcard, hne⟩ := htwo
    exact hne (congrArg (fun run : WorkflowRun => run.runId)
      (hone run hrun run' hrun' hlive hlive' hcard))
  · intro hplans
    have hover := hplans ⟨⟨1, by decide⟩, "admit-1-cli", true⟩ (.duplicate "a")
      (by decide +kernel) (by decide +kernel) (by decide +kernel)
    have hended : ∀ run ∈ (ledgerStep plainLedgerHost (runFrom (ledgerStep plainLedgerHost)
        (initial oneCardDb) [admitFor "cli" "a", .runner "a" (.requestCancel "stop")])
          (admitFor "cli" "b")).runs.rows, run.state.isTerminal = true := by decide +kernel
    obtain ⟨run, hrun, -, hlive, -⟩ := hover
    rw [hended run hrun] at hlive
    cases hlive

theorem one_live_run_per_card_next_source :
    (runFrom (ledgerStep plainLedgerHost) (initial oneCardDb)
        [admitFor "cli" "a", .runner "a" (.requestCancel "stop"), admitFor "sha" "b"]).OneLive ∧
      (runFrom (ledgerStep plainLedgerHost) (initial oneCardDb)
        [admitFor "cli" "a", .runner "a" (.requestCancel "stop"),
          admitFor "sha" "b"]).AuditReaches ∧
      StepsMeet (ledgerStep plainLedgerHost) (Answers plainLedgerHost) (initial oneCardDb)
        [admitFor "cli" "a", .runner "a" (.requestCancel "stop"), admitFor "sha" "b"] :=
  one_live_run_per_card plainLedgerHost oneCardDb _ (by decide +kernel)

end WorkflowLedger

end Abtars
