import Abtars.Project.ReviewStore
import Mathlib.Logic.Function.Basic

/-!
# The run store of the orchestrator

`OrcProjectRunStore`: one row for each attempt of an orchestrator turn on a project, the counters
that number the attempts, and the fuses that refuse new ones.
-/

namespace Abtars

open Lib

/-! ## Rows -/

inductive OrcRunOutcome
  | completed | failed | cancelled | stale | projectTerminal | generationChanged
  deriving DecidableEq

inductive OrcIntentKind
  | contractAuthoring | projectExecution | projectReview | repairReview | inputResume | operatorTurn
  deriving DecidableEq

def OrcIntentKind.text : OrcIntentKind → String
  | .contractAuthoring => "contract_authoring"
  | .projectExecution => "project_execution"
  | .projectReview => "project_review"
  | .repairReview => "repair_review"
  | .inputResume => "input_resume"
  | .operatorTurn => "operator_turn"

inductive OrcRunFailureCode
  | startPortRejected | promptRoundLimit | providerFailure | intentPostconditionUnsatisfied
  | turnCancelled

inductive OrcOriginKind
  | localPeer | peer
  deriving DecidableEq

/-- The reasons of `OrcRunReason` that the store gives. -/
inductive OrcRunReason
  | runUnknown | runReleased | foreignInstance | projectMismatch | projectGenerationMismatch
  | ownershipGenerationMismatch | sessionMismatch | executionMismatch | intentMismatch
  | originInvalid | projectTerminal | intentNotActionable | fuseOpen

def OrcRunReason.text : OrcRunReason → String
  | .runUnknown => "run_unknown"
  | .runReleased => "run_released"
  | .foreignInstance => "foreign_instance"
  | .projectMismatch => "project_mismatch"
  | .projectGenerationMismatch => "project_generation_mismatch"
  | .ownershipGenerationMismatch => "ownership_generation_mismatch"
  | .sessionMismatch => "session_mismatch"
  | .executionMismatch => "execution_mismatch"
  | .intentMismatch => "intent_mismatch"
  | .originInvalid => "origin_invalid"
  | .projectTerminal => "project_terminal"
  | .intentNotActionable => "intent_not_actionable"
  | .fuseOpen => "fuse_open"

/-- A row of `orc_project_runs`. -/
structure OrcProjectRunRow where
  id : String
  intentKey : String
  intentKind : OrcIntentKind
  intentRef : Option String
  goal : String
  projectCardId : Nat
  projectGeneration : Int
  ownershipGeneration : Nat
  globalSequence : Option Nat
  ownerPeer : String
  ownerInstanceId : String
  originKind : OrcOriginKind
  originPeer : Option String
  taskRunId : Option String
  sessionId : Option String
  executionId : Option String
  state : OrcRunState
  outcome : Option OrcRunOutcome
  failureCode : Option OrcRunFailureCode
  createdAt : Millis
  startedAt : Option Millis
  releasedAt : Option Millis
  updatedAt : Millis
  salvageForRunId : Option String

instance : Keyed OrcProjectRunRow String := ⟨OrcProjectRunRow.id⟩

/-- `OrcInvocationContextV2`. -/
structure OrcInvocationContext where
  runId : String
  intentKey : String
  intentKind : OrcIntentKind
  intentRef : Option String
  projectCardId : Nat
  projectGeneration : Int
  ownershipGeneration : Nat
  ownerPeer : String
  ownerInstanceId : String
  originKind : OrcOriginKind
  originPeer : Option String
  sessionId : Option String
  executionId : Option String
  salvageForRunId : Option String

variable (row : OrcProjectRunRow)

def buildContextFromRow : OrcInvocationContext where
  runId := row.id
  intentKey := row.intentKey
  intentKind := row.intentKind
  intentRef := row.intentRef
  projectCardId := row.projectCardId
  projectGeneration := row.projectGeneration
  ownershipGeneration := row.ownershipGeneration
  ownerPeer := row.ownerPeer
  ownerInstanceId := row.ownerInstanceId
  originKind := row.originKind
  originPeer := row.originPeer
  sessionId := row.sessionId
  executionId := row.executionId
  salvageForRunId := row.salvageForRunId

structure OrcClaimInput where
  projectCardId : Nat
  intentKind : OrcIntentKind
  intentRef : Option String
  goal : String
  taskRunId : Option String
  originKind : OrcOriginKind
  originPeer : Option String
  sourcePeer : Option String
  cardSource : String
  expectedProjectGeneration : Option Int

inductive OrcRunClaimResult
  | claimed (context : OrcInvocationContext)
  | idempotent (context : OrcInvocationContext)
  | busy (activeRunId : String)
  | notActionable (reason : OrcRunReason)
  | conflict (reason : OrcRunReason)

/-- The scope of a fuse: `card:` with the card's number, or `bridge`. -/
inductive FuseScope
  | card (projectCardId : Nat)
  | bridge
  deriving DecidableEq

/-- A row of `orc_fuse_state`, without its scope. -/
structure FuseRow where
  openedAt : Option Millis
  tripReason : Option String
  generation : Nat
  clearedAt : Option Millis
  clearedGeneration : Nat
  clearedGlobalSequence : Nat

def FuseRow.default : FuseRow := ⟨none, none, 0, none, 0, 0⟩

/-- The counts of `EffectiveOrcGuardrails`; the windows belong to the code. -/
structure OrcGuardrails where
  failedOrNoProgress : Nat
  startsWithoutProgress : Nat
  starts5m : Nat
  starts1h : Nat
  newRunRows5m : Nat

/-- `DEFAULT_ORC_GUARDRAILS`. -/
def OrcGuardrails.default : OrcGuardrails := ⟨3, 5, 25, 100, 50⟩

structure OrcDb where
  db : Db
  runs : Table OrcProjectRunRow
  ownershipCounters : Nat → Option Nat
  nextSequence : Nat
  fuses : FuseScope → Option FuseRow

/-- The database after `migrate`. -/
def OrcDb.fresh (db : Db) : OrcDb := ⟨db, ∅, fun _ => none, 1, fun _ => none⟩

/-! ## The owner's fence -/

structure OrcOwnerFenceFacts where
  ownerInstanceMatches : Bool
  projectCardMatches : Bool
  projectGenerationMatches : Bool
  ownershipGenerationMatches : Bool
  intentMatches : Bool
  originMatches : Bool
  sessionMatches : Bool
  executionMatches : Bool

def evaluateOwnerFence (context : OrcInvocationContext) :
    OrcOwnerFenceFacts where
  ownerInstanceMatches := row.ownerInstanceId = context.ownerInstanceId
  projectCardMatches := row.projectCardId = context.projectCardId
  projectGenerationMatches := row.projectGeneration = context.projectGeneration
  ownershipGenerationMatches := row.ownershipGeneration = context.ownershipGeneration
  intentMatches := row.intentKey = context.intentKey ∧ row.intentKind = context.intentKind ∧
    row.intentRef = context.intentRef
  originMatches := row.originKind = context.originKind ∧ row.originPeer = context.originPeer
  -- a context without a session or an execution leaves it open
  sessionMatches := context.sessionId = none ∨ row.sessionId = context.sessionId
  executionMatches := context.executionId = none ∨ row.executionId = context.executionId

/-! ## Attempts -/

inductive AttemptOutcome
  | inFlight | progress | failed | noProgress | superseded
  deriving DecidableEq

def classifyAttemptOutcome : AttemptOutcome :=
  if row.state ≠ .released ∧ row.state ≠ .superseded then .inFlight
  else if row.state = .superseded then .superseded
  else if row.outcome = some .completed then .progress
  else if row.outcome = some .failed then .failed
  else .noProgress

/-- `unixepoch(created_at)`, and the seconds of the clock. -/
def seconds (t : Millis) : Int := t / 1000

def countedFailed (projectCardId clearedGen : Nat) (now : Millis) (row : OrcProjectRunRow) : Bool :=
  row.projectCardId = projectCardId ∧ row.state = .released ∧ row.outcome = some .failed ∧
    clearedGen < row.ownershipGeneration ∧ seconds now - 600 ≤ seconds row.createdAt

def countedNoProgress (projectCardId clearedGen : Nat) (now : Millis) (row : OrcProjectRunRow) :
    Bool :=
  row.projectCardId = projectCardId ∧ row.startedAt ≠ none ∧
    (row.state = .released ∨ row.state = .superseded) ∧
    row.outcome ≠ none ∧ row.outcome ≠ some .completed ∧ row.outcome ≠ some .failed ∧
    clearedGen < row.ownershipGeneration ∧ seconds now - 300 ≤ seconds row.createdAt

namespace OrcDb

variable (s : OrcDb)

def update (p : OrcProjectRunRow → Bool) (f : OrcProjectRunRow → OrcProjectRunRow)
    (hf : ∀ row, (f row).id = row.id) : Bool × OrcDb :=
  (s.runs.rows.any p, { s with runs := s.runs.updateWhere p f hf })

def maxOwnershipGeneration (projectCardId : Nat) : Nat :=
  ((s.runs.select fun row => row.projectCardId = projectCardId).map (·.ownershipGeneration)).foldl
    max 0

/-! ## Fuses -/

variable (now : Millis)

def openFuse (scope : FuseScope) (reason : String) : String × OrcDb :=
  let row := match s.fuses scope with
    | none => { FuseRow.default with openedAt := some now, tripReason := some reason }
    | some row =>
      if row.openedAt = none then
        { row with openedAt := some now, tripReason := some reason }
      else row
  (reason, { s with fuses := Function.update s.fuses scope (some row) })

/-- `none` when the card may go on, and else the reason with the database that has the open fuse. -/
def evaluateCardFuse (guardrails : OrcGuardrails) (now : Millis) (input : OrcClaimInput) :
    Option (String × OrcDb) :=
  let card := input.projectCardId
  let fuseRow := (s.fuses (.card card)).getD .default
  let clearedGen := fuseRow.clearedGeneration
  let failedAttempts := (s.runs.select (countedFailed card clearedGen now)).length
  let noProgressStarts := (s.runs.select (countedNoProgress card clearedGen now)).length
  if fuseRow.openedAt ≠ none then some (fuseRow.tripReason.getD "already_open", s)
  else if guardrails.failedOrNoProgress ≤ failedAttempts then
    some (s.openFuse now (.card card) s!"failed_attempts:{failedAttempts}")
  else if guardrails.startsWithoutProgress ≤ noProgressStarts then
    some (s.openFuse now (.card card) s!"no_progress_starts:{noProgressStarts}")
  else if input.intentKind = .projectExecution ∧ input.taskRunId.any (· ≠ "") ∧
      s.runs.rows.any fun row => row.projectCardId = card ∧ row.taskRunId = input.taskRunId ∧
        row.intentKind = .projectExecution ∧ row.state = .released ∧
        row.outcome = some .failed ∧ clearedGen < row.ownershipGeneration then
    some (s.openFuse now (.card card) "terminal_execution_attempt")
  else none

def evaluateBridgeFuse (guardrails : OrcGuardrails) (now : Millis) : Option (String × OrcDb) :=
  let fuseRow := (s.fuses .bridge).getD .default
  let inWindow (window : Int) (row : OrcProjectRunRow) : Bool :=
    row.globalSequence.any (fuseRow.clearedGlobalSequence < ·) ∧
      seconds now - window ≤ seconds row.createdAt
  let starts (window : Int) : Nat :=
    (s.runs.select fun row => row.startedAt ≠ none ∧ inWindow window row).length
  let rows5m := (s.runs.select (inWindow 300)).length
  if fuseRow.openedAt ≠ none then some (fuseRow.tripReason.getD "already_open", s)
  else if guardrails.starts5m ≤ starts 300 then
    some (s.openFuse now .bridge s!"bridge_starts_5m:{starts 300}")
  else if guardrails.starts1h ≤ starts 3600 then
    some (s.openFuse now .bridge s!"bridge_starts_1h:{starts 3600}")
  else if guardrails.newRunRows5m ≤ rows5m then
    some (s.openFuse now .bridge s!"bridge_rows_5m:{rows5m}")
  else none

def writeFuse (scope : FuseScope) (f : FuseRow → FuseRow) (new : FuseRow) : OrcDb :=
  { s with fuses := Function.update s.fuses scope (some ((s.fuses scope).elim new f)) }

def recordCardProgress (projectCardId : Nat) : OrcDb :=
  let clearedGen := s.maxOwnershipGeneration projectCardId
  s.writeFuse (.card projectCardId)
    (fun row => { row with clearedAt := some now, clearedGeneration := clearedGen })
    { FuseRow.default with clearedAt := some now, clearedGeneration := clearedGen }

def resetProjectFuse (projectCardId : Nat) : OrcDb :=
  let clearedGen := s.maxOwnershipGeneration projectCardId
  s.writeFuse (.card projectCardId)
    (fun row => { row with
      openedAt := none, tripReason := none, generation := row.generation + 1
      clearedAt := some now, clearedGeneration := clearedGen })
    { FuseRow.default with
      generation := 1, clearedAt := some now, clearedGeneration := clearedGen }

def resetBridgeFuse : OrcDb :=
  let sequence := (s.runs.rows.filterMap (·.globalSequence)).foldl max 0
  s.writeFuse .bridge
    (fun row => { row with
      openedAt := none, tripReason := none, generation := row.generation + 1
      clearedAt := some now, clearedGlobalSequence := sequence })
    { FuseRow.default with
      generation := 1, clearedAt := some now, clearedGlobalSequence := sequence }

/-! ## Claims -/

end OrcDb

def deriveIntentKey (now : Millis) (intentKind : OrcIntentKind) (projectCardId : Nat)
    (projectGeneration : Int) (ref : Option String) : String :=
  let refOrCard := ref.getD (toString projectCardId)
  let refOrZero := ref.getD "0"
  match intentKind with
  | .contractAuthoring => s!"contract:{projectCardId}:{projectGeneration}"
  | .projectExecution => s!"execute:{projectCardId}:{projectGeneration}"
  | .projectReview => s!"review:{refOrCard}"
  | .repairReview => s!"repair:{projectCardId}:{projectGeneration}"
  | .inputResume => s!"input:{projectCardId}:{projectGeneration}:{refOrZero}"
  | .operatorTurn => s!"operator:{refOrCard}:{now}"

/-- Does `isActionable` of the kind's policy hold?  The one policy there is reads no snapshot; for
every other kind `intentPolicyFor` throws. -/
def isActionable (intentKind : OrcIntentKind) : Except String Bool :=
  if intentKind = .operatorTurn then .ok true
  else .error
    s!"orc-intent-policy: dead supervised intent kind (deleted #1792): {intentKind.text}"

namespace OrcClaimInput

variable (input : OrcClaimInput)

def admittedOrigin : OrcOriginKind := if input.cardSource = "peer" then .peer else .localPeer

def authenticatedPeer : Option String := input.originPeer.or input.sourcePeer

def originInvalid : Bool :=
  input.originKind ≠ input.admittedOrigin ∨
    input.admittedOrigin = .peer ∧
      input.authenticatedPeer.all fun peer => peer = "" ∨ 128 < utf16Length peer

end OrcClaimInput

namespace OrcDb

variable (s : OrcDb)

def liveRun (projectCardId : Nat) : Option OrcProjectRunRow :=
  s.runs.rows.find? fun row => row.projectCardId = projectCardId ∧ row.state.isLive

def newRun (now : Millis) (input : OrcClaimInput) (projectGeneration : Int)
    (ownerPeer ownerInstanceId : String) : OrcProjectRunRow :=
  let nextGen := (s.ownershipCounters input.projectCardId).getD 1
  { id := s!"or_{input.projectCardId}_{nextGen}_{now}"
    intentKey := deriveIntentKey now input.intentKind input.projectCardId projectGeneration
      input.intentRef
    intentKind := input.intentKind
    intentRef := input.intentRef
    goal := input.goal
    projectCardId := input.projectCardId
    projectGeneration := projectGeneration
    ownershipGeneration := nextGen
    globalSequence := some s.nextSequence
    ownerPeer := ownerPeer
    ownerInstanceId := ownerInstanceId
    originKind := input.originKind
    originPeer := if input.admittedOrigin = .peer then input.authenticatedPeer else none
    taskRunId := input.taskRunId
    sessionId := none
    executionId := none
    state := .scheduled
    outcome := none
    failureCode := none
    createdAt := now
    startedAt := none
    releasedAt := none
    updatedAt := now
    salvageForRunId := none }

def uniqueClash (new row : OrcProjectRunRow) : Bool :=
  row.projectCardId = new.projectCardId ∧
      (row.ownershipGeneration = new.ownershipGeneration ∨ row.state.isLive) ∨
    row.globalSequence = new.globalSequence

def insertRun (new : OrcProjectRunRow) : Except String (OrcRunClaimResult × OrcDb) :=
  match s.runs.insert (uniqueClash new) new with
  | none => .error "SQLITE_CONSTRAINT"
  | some runs => .ok (.claimed (buildContextFromRow new), { s with
      runs := runs
      ownershipCounters := Function.update s.ownershipCounters new.projectCardId
        (some (new.ownershipGeneration + 1))
      nextSequence := s.nextSequence + 1 })

/-- The body of the transaction of `claimIntent`. -/
def claimIntentBody (guardrails : OrcGuardrails) (now : Millis) (input : OrcClaimInput)
    (ownerPeer ownerInstanceId : String) : Except String (OrcRunClaimResult × OrcDb) :=
  match s.db.projectSupervision.get input.projectCardId with
  | none => .ok (.conflict .intentNotActionable, s)
  | some sup =>
    if sup.state = .blocked ∨ sup.state = .accepted then
      .ok (.notActionable .projectTerminal, s)
    else if input.expectedProjectGeneration.any (· ≠ sup.generation) then
      .ok (.conflict .projectGenerationMismatch, s)
    else if input.originInvalid then .ok (.conflict .originInvalid, s)
    else
      match s.liveRun input.projectCardId with
      | some existing =>
        if existing.intentKey = deriveIntentKey now input.intentKind input.projectCardId
            sup.generation input.intentRef ∧ existing.ownerInstanceId = ownerInstanceId then
          .ok (.idempotent (buildContextFromRow existing), s)
        else .ok (.busy existing.id, s)
      | none =>
        (isActionable input.intentKind).bind fun actionable =>
          if actionable = false then .ok (.notActionable .intentNotActionable, s)
          else
            match s.evaluateCardFuse guardrails now input with
            | some (_, s) => .ok (.notActionable .fuseOpen, s)
            | none =>
              match s.evaluateBridgeFuse guardrails now with
              | some (_, s) => .ok (.notActionable .fuseOpen, s)
              | none => s.insertRun
                  (s.newRun now input sup.generation ownerPeer ownerInstanceId)

/-- `claimIntent`: the database, and the result or what was thrown. -/
def claimIntent (guardrails : OrcGuardrails) (now : Millis) (input : OrcClaimInput)
    (ownerPeer ownerInstanceId : String) : Except String OrcRunClaimResult × OrcDb :=
  transaction (fun s => s.claimIntentBody guardrails now input ownerPeer ownerInstanceId) s

/-! ## Turns -/

end OrcDb

namespace OrcProjectRunRow

def dispatch (now : Millis) (row : OrcProjectRunRow) : OrcProjectRunRow :=
  { row with state := .dispatching, updatedAt := now }

def bind (now : Millis) (sessionId executionId : String) (row : OrcProjectRunRow) :
    OrcProjectRunRow :=
  { row with
    state := .running, sessionId := some sessionId, executionId := some executionId
    startedAt := some now, updatedAt := now }

def release (now : Millis) (outcome : OrcRunOutcome) (code : Option OrcRunFailureCode)
    (row : OrcProjectRunRow) : OrcProjectRunRow :=
  { row with
    state := .released, outcome := some outcome, failureCode := code
    releasedAt := some now, updatedAt := now }

def supersede (now : Millis) (outcome : OrcRunOutcome) (row : OrcProjectRunRow) :
    OrcProjectRunRow :=
  { row with
    state := .superseded, outcome := some outcome, releasedAt := some now, updatedAt := now }

variable (now : Millis) (row : OrcProjectRunRow)

@[simp]
theorem id_dispatch : (row.dispatch now).id = row.id := rfl

@[simp]
theorem id_bind (sessionId executionId : String) :
    (row.bind now sessionId executionId).id = row.id := rfl

@[simp]
theorem id_release (outcome : OrcRunOutcome) (code : Option OrcRunFailureCode) :
    (row.release now outcome code).id = row.id := rfl

@[simp]
theorem id_supersede (outcome : OrcRunOutcome) : (row.supersede now outcome).id = row.id := rfl

end OrcProjectRunRow

namespace OrcDb

variable (s : OrcDb)

def isTurn (state : OrcRunState) : Bool := state = .dispatching ∨ state = .running

def promoteRun (now : Millis) (runId : String) : Bool × OrcDb :=
  if s.runs.rows.any fun row => isTurn row.state then (false, s)
  else s.update (fun row => row.id = runId ∧ row.state = .scheduled)
    (·.dispatch now) (·.id_dispatch now)

def currentSupervisionMatches (row : OrcProjectRunRow) : Bool :=
  (s.db.projectSupervision.get row.projectCardId).any (·.generation = row.projectGeneration)

def bindable (context : OrcInvocationContext) (row : OrcProjectRunRow) : Bool :=
  row.id = context.runId ∧ row.state = .dispatching ∧
    row.ownershipGeneration = context.ownershipGeneration ∧
    row.ownerInstanceId = context.ownerInstanceId ∧
    row.projectCardId = context.projectCardId ∧ row.projectGeneration = context.projectGeneration

def bindExecution (now : Millis) (context : OrcInvocationContext) (sessionId executionId : String) :
    Except OrcRunReason OrcProjectRunRow × OrcDb :=
  match s.runs.get context.runId with
  | none => (.error .runUnknown, s)
  | some row =>
    let fence := evaluateOwnerFence row context
    if fence.intentMatches = false then (.error .intentMismatch, s)
    else if fence.originMatches = false then (.error .originInvalid, s)
    else if row.state = .running ∧ row.sessionId = some sessionId ∧
        row.executionId = some executionId then (.ok row, s)
    else if row.state = .running then (.error .sessionMismatch, s)
    else if row.state = .released ∨ row.state = .superseded then (.error .runReleased, s)
    else if fence.ownerInstanceMatches = false then (.error .foreignInstance, s)
    else if fence.projectCardMatches = false ∨ fence.projectGenerationMatches = false then
      (.error .projectGenerationMismatch, s)
    else if fence.ownershipGenerationMatches = false then
      (.error .ownershipGenerationMismatch, s)
    else if s.currentSupervisionMatches row = false then
      (.error .projectGenerationMismatch, s)
    else
      let (changed, s') := s.update (bindable context) (·.bind now sessionId executionId)
        (·.id_bind now sessionId executionId)
      if changed then (.ok (row.bind now sessionId executionId), s') else (.error .ownershipGenerationMismatch, s)

def releasable (context : OrcInvocationContext) (row : OrcProjectRunRow) : Bool :=
  row.id = context.runId ∧ row.ownershipGeneration = context.ownershipGeneration ∧
    row.ownerInstanceId = context.ownerInstanceId ∧
    row.projectCardId = context.projectCardId ∧
    row.projectGeneration = context.projectGeneration ∧ row.intentKey = context.intentKey ∧
    row.intentKind = context.intentKind ∧ row.intentRef = context.intentRef ∧
    row.originKind = context.originKind ∧ row.originPeer = context.originPeer ∧
    row.ownerPeer = context.ownerPeer ∧ row.state.isLive ∧
    (row.sessionId = none ∨ row.sessionId = context.sessionId) ∧
    (row.executionId = none ∨ row.executionId = context.executionId)

def release (now : Millis) (context : OrcInvocationContext) (outcome : OrcRunOutcome)
    (failureCode : Option OrcRunFailureCode) : Bool × OrcDb :=
  let code := if outcome = .completed then none else some (failureCode.getD .providerFailure)
  let (changed, s) := s.update (releasable context) (·.release now outcome code)
    (·.id_release now outcome code)
  (changed,
    if changed ∧ outcome = .completed then s.recordCardProgress now context.projectCardId else s)

def supersede (now : Millis) (runId : String) (outcome : OrcRunOutcome) : Bool × OrcDb :=
  s.update (fun row => row.id = runId ∧ row.state.isLive) (·.supersede now outcome)
    (·.id_supersede now outcome)

/-! ## Cleanup -/

def orphaned (row : OrcProjectRunRow) : Bool :=
  (row.state = .released ∨ row.state = .superseded) ∧
    (s.runs.rows.all fun other => other.projectCardId = row.projectCardId → ¬ other.state.isLive) ∧
    (s.db.kanbanBoard.get row.projectCardId = none ∨
      (s.db.projectSupervision.get row.projectCardId).all (·.state.isTerminal))

/-- Batches of rows in the order of their ids, each after the last one of the batch before. -/
def cleanupBatches (batchSize : Nat) : Nat → String → OrcDb → Nat × Nat × OrcDb
  | 0, _, s => (0, 0, s)
  | fuel + 1, lastId, s =>
    let ids := (((s.runs.select fun row => s.orphaned row ∧ lastId < row.id).map
      (·.id)).mergeSort (fun a b => a ≤ b)).take batchSize
    match ids.getLast? with
    | none => (0, 0, s)
    | some last =>
      let s' := { s with runs := s.runs.deleteWhere fun row => row.id ∈ ids }
      if ids.length < batchSize then (ids.length, 1, s')
      else
        let (selected, batches, s'') := cleanupBatches batchSize fuel last s'
        (ids.length + selected, batches + 1, s'')

/-- `cleanupOrphanedRuns`: the rows selected, which are those deleted, and the batches. -/
def cleanupOrphanedRuns (batchSize maxBatches : Option Nat) : Nat × Nat × OrcDb :=
  cleanupBatches (min (max (batchSize.getD 200) 1) 5000)
    (min (max (maxBatches.getD 250) 1) 10000) "" s

end OrcDb

/-! ## Work under a run -/

/-- A write to the database: by an operation of the store, or elsewhere, as when a project's
generation changes. -/
inductive OrcOp
  | claimIntent (guardrails : OrcGuardrails) (now : Millis) (input : OrcClaimInput)
      (ownerPeer ownerInstanceId : String)
  | promoteRun (now : Millis) (runId : String)
  | bindExecution (now : Millis) (context : OrcInvocationContext) (sessionId executionId : String)
  | release (now : Millis) (context : OrcInvocationContext) (outcome : OrcRunOutcome)
      (failureCode : Option OrcRunFailureCode)
  | supersede (now : Millis) (runId : String) (outcome : OrcRunOutcome)
  | cleanupOrphanedRuns (batchSize maxBatches : Option Nat)
  | resetProjectFuse (now : Millis) (projectCardId : Nat)
  | resetBridgeFuse (now : Millis)
  | elsewhere (write : Db → Db)

def opStep (s : OrcDb) : OrcOp → OrcDb
  | .claimIntent guardrails now input ownerPeer ownerInstanceId =>
    (s.claimIntent guardrails now input ownerPeer ownerInstanceId).2
  | .promoteRun now runId => (s.promoteRun now runId).2
  | .bindExecution now context sessionId executionId =>
    (s.bindExecution now context sessionId executionId).2
  | .release now context outcome failureCode => (s.release now context outcome failureCode).2
  | .supersede now runId outcome => (s.supersede now runId outcome).2
  | .cleanupOrphanedRuns batchSize maxBatches => (s.cleanupOrphanedRuns batchSize maxBatches).2.2
  | .resetProjectFuse now projectCardId => s.resetProjectFuse now projectCardId
  | .resetBridgeFuse now => s.resetBridgeFuse now
  | .elsewhere write => { s with db := write s.db }

/-- What `fn` does with a row and the database it finds: its writes, and what it throws at last. -/
abbrev OrcWork := OrcProjectRunRow → OrcDb → List OrcOp × Option String

namespace OrcDb

variable (s : OrcDb) (context : OrcInvocationContext)

/-- The fence of `validateCurrentContext`. -/
def validateCurrentContext : Except OrcRunReason OrcProjectRunRow :=
  match s.runs.get context.runId with
  | none => .error .runUnknown
  | some row =>
    let fence := evaluateOwnerFence row context
    if row.state = .released ∨ row.state = .superseded then .error .runReleased
    else if fence.intentMatches = false then .error .intentMismatch
    else if fence.originMatches = false then .error .originInvalid
    else if fence.ownerInstanceMatches = false then .error .foreignInstance
    else if fence.projectCardMatches = false then .error .projectMismatch
    else if fence.projectGenerationMatches = false ∨ s.currentSupervisionMatches row = false then
      .error .projectGenerationMismatch
    else if fence.ownershipGenerationMatches = false then .error .ownershipGenerationMismatch
    else if fence.sessionMatches = false then .error .sessionMismatch
    else if fence.executionMatches = false then .error .executionMismatch
    else .ok row

/-- The fence inside the transaction of `withCurrentRun`, in its own order. -/
def revalidate : Except OrcRunReason OrcProjectRunRow :=
  match s.runs.get context.runId with
  | none => .error .runReleased
  | some row =>
    let fence := evaluateOwnerFence row context
    if row.state = .released ∨ row.state = .superseded then .error .runReleased
    else if fence.intentMatches = false then .error .intentMismatch
    else if fence.originMatches = false then .error .originInvalid
    else if fence.ownerInstanceMatches = false then .error .foreignInstance
    else if fence.projectCardMatches = false ∨ fence.projectGenerationMatches = false then
      .error .projectGenerationMismatch
    else if fence.ownershipGenerationMatches = false then .error .ownershipGenerationMismatch
    else if fence.sessionMatches = false then .error .sessionMismatch
    else if fence.executionMatches = false then .error .executionMismatch
    else if s.currentSupervisionMatches row = false then .error .projectGenerationMismatch
    else .ok row

/-- The row that `withCurrentRun` calls its work with, or why it does not. -/
def currentRun : Except OrcRunReason OrcProjectRunRow :=
  (s.validateCurrentContext context).bind fun _ => s.revalidate context

/-- `withCurrentRun`: `ok`, or the reason, which is what was thrown when the work threw.  The throw
is caught inside the transaction, which then commits. -/
def withCurrentRun (fn : OrcWork) : Except String Unit × OrcDb :=
  match s.currentRun context with
  | .error reason => (.error reason.text, s)
  | .ok row =>
    let (writes, thrown) := fn row s
    (match thrown with
      | none => .ok ()
      | some err => .error err,
      runFrom opStep s writes)

end OrcDb

/-! ## Runs -/

inductive OrcCall
  | op (op : OrcOp)
  | withCurrentRun (context : OrcInvocationContext) (fn : OrcWork)

def orcStep (s : OrcDb) : OrcCall → OrcDb
  | .op op => opStep s op
  | .withCurrentRun context fn => (s.withCurrentRun context fn).2

end Abtars
