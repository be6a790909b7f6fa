import Abtars.Workflow.Ingress
import Abtars.Workflow.Revisions
import Abtars.Workflow.Traces

/-!
# Questions and answers of a run

A run asks one question at a time and waits for the answer.  The notice of a question is a command
of ordinal 0, which is there for good after the first one; and an answer is written before the run
it is for is looked at.
-/

namespace Abtars

open Lib WorkflowRun

namespace RunView

/-! ## Operations -/

def notice (v : RunView) : CommandKey := ⟨v.run.generation, .input, .notify, 0⟩

def Pending (v : RunView) (inputId : Nat) : Prop :=
  ∃ q, v.inputs.get inputId = some q ∧ q.status = .pending ∧ q.runId = v.run.runId

/-- `answerInputRequest` on a pending request. -/
theorem key_answer (response : String) (q : InputRequest) :
    Keyed.key (q.answer (boundText response 2000)) = Keyed.key q := rfl

def answered (inputId : Nat) (response : String) (v : RunView) : RunView :=
  { v with inputs := v.inputs.modify inputId (InputRequest.answer (boundText response 2000))
                       (key_answer response) }

def pendingInputs (v : RunView) : List InputRequest :=
  v.inputs.select fun q => q.status = .pending ∧ q.runId = v.run.runId

end RunView

/-- An operation of the runner, or an answer with what other processes do between its two
halves. -/
inductive InputOp
  | call (op : WorkflowOp)
  | answerRaced (inputId : Nat) (response : String) (meanwhile : List WorkflowOp)

def InputOp.inputId : InputOp → Option Nat
  | .call (.answerInput inputId _) | .answerRaced inputId _ _ => some inputId
  | .call _ => none

namespace RunView

def isAnswered (v : RunView) (inputId : Nat) : Bool :=
  (v.inputs.get inputId).any (·.status = .answered)

variable (host : RunnerHost)

/-- `answerInput` where others write after it has read the run: its commit is fenced by the version
it read. -/
def answerRaced (inputId : Nat) (response : String) (meanwhile : List WorkflowOp) (v : RunView) :
    Except IngressError Unit × RunView :=
  match (v.inputs.get inputId).filter fun q => q.status = .pending ∧ q.runId = v.run.runId with
  | none => (.error (.applier .inputUnknown), runFrom (workflowStep host) v meanwhile)
  | some _ =>
    let raced := runFrom (workflowStep host) (v.answered inputId response) meanwhile
    if v.run.state.isTerminal then (.error (.applier (.runTerminal v.run.state)), raced)
    else if v.run.state ≠ .awaitingInput then (.error (.applier .notAwaitingInput), raced)
    else if raced.run.stateVersion ≠ v.run.stateVersion then
      (.error (.fenceMismatch v.run.runId), raced)
    else
      let (out, v) := committing (onRun inputAnsweredEffect) raced
      (out.mapError .applier, v)

def inputCall (v : RunView) : InputOp → Except IngressError Unit × RunView
  | .call op => ((workflowCall host op v).1.mapError .applier, (workflowCall host op v).2)
  | .answerRaced inputId response meanwhile => answerRaced host inputId response meanwhile v

def inputStep (v : RunView) (op : InputOp) : RunView := (v.inputCall host op).2

/-! ## What is wanted of a step -/

/-- A live run that is not waiting takes a question, and an answer that is not taken leaves no
trace, so that it can be given again. -/
structure InputLaws (v : RunView) (op : InputOp) : Prop where
  asked : ∀ question criteria kind, op = .call (.requestInput question criteria kind) →
    v.run.state.isTerminal = false → v.run.state ≠ .awaitingInput →
    (v.inputCall host op).1 = .ok ()
  refused : ∀ inputId response, op = .call (.answerInput inputId response) →
    ∀ error, (v.inputCall host op).1 = .error error → v.inputStep host op = v
  raced : ∀ inputId response meanwhile, op = .answerRaced inputId response meanwhile →
    ∀ error, (v.inputCall host op).1 = .error error → v.Pending inputId →
    (∀ q ∈ (v.inputStep host op).inputs.get inputId, q.status ≠ .answered) ∧
      (v.inputStep host op).run =
        (runFrom (workflowStep host) (v.answered inputId response) meanwhile).run

/-- The first question of a run, and an answer while the run waits, with no commit in between. -/
def Served (v : RunView) : InputOp → Prop
  | .call (.requestInput _ _ _) => v.run.state.isTerminal = false →
      v.run.state ≠ .awaitingInput → v.run.commands.get v.notice = none
  | .call (.answerInput inputId _) => v.Pending inputId → v.run.state = .awaitingInput
  | .answerRaced inputId response meanwhile => v.Pending inputId →
      v.run.state = .awaitingInput ∧
        (runFrom (workflowStep host) (v.answered inputId response) meanwhile).run.stateVersion =
          v.run.stateVersion
  | .call _ => True

/-- The call answers the request: it returns, or it leaves the request answered and did not find
it so. -/
def answersRequest (inputId : Nat) (v : RunView) (op : InputOp) : Bool :=
  (op.inputId = some inputId ∧ (v.inputCall host op).1.isOk) ∨
    (v.isAnswered inputId = false ∧ (v.inputStep host op).isAnswered inputId)

end RunView

/-! ## At most one pending request -/

namespace RunView

variable {A : RunStatement → Prop} {asks : Prop} {host : RunnerHost} {v v' : RunView}

def Numbered (v : RunView) : Prop := ∀ q ∈ v.inputs, q.id < v.minted

structure Rounds (v : RunView) : Prop where
  numbered : v.Numbered
  asked : v.run.commands.get v.notice = none → ∀ q ∈ v.inputs, q.runId ≠ v.run.runId
  pending : v.pendingInputs.length ≤ 1

theorem numbered_makes (h : Makes A asks v v') (hn : v.Numbered) : v'.Numbered := by
  cases h with
  | row _ _ => exact hn
  | claim _ _ => exact fun q hq => Nat.lt_succ_of_lt (hn q hq)
  | expire =>
    intro q hq
    dsimp only at hq
    obtain ⟨p, hp, rfl⟩ := Table.mem_updateWhere.1 hq
    have hid := hn p hp
    split <;> exact hid
  | workers db => exact hn
  | ask q _ hid =>
    intro p hp
    rcases Table.mem_put.1 hp with ⟨hp, -⟩ | rfl
    · exact Nat.lt_succ_of_lt (hn p hp)
    · exact hid ▸ Nat.lt_succ_self v.minted
  | answer inputId response =>
    intro q hq
    dsimp only at hq
    rcases Table.mem_modify.1 hq with ⟨hq, -⟩ | ⟨p, hp, rfl⟩
    · exact hn q hq
    · exact hn p (Table.mem_of_get hp)

variable {inputId : Nat} {question kind : String} {criteria : List String}

theorem isAnswered_makes (h : Makes A asks v v') (hn : v.Numbered)
    (hanswered : v.isAnswered inputId = true) : v'.isAnswered inputId = true := by
  obtain ⟨q, hq, hstatus⟩ := (Option.any_eq_true _ _).1 hanswered
  have hdone : q.status = .answered := of_decide_eq_true hstatus
  refine (Option.any_eq_true _ _).2 ?_
  cases h with
  | expire =>
    refine ⟨q, ?_, hstatus⟩
    rw [Table.get_updateWhere, hq]
    simp [hdone]
  | ask p _ hid =>
    refine ⟨q, ?_, hstatus⟩
    have hlt := hn q (Table.mem_of_get hq)
    have hkey : q.id = inputId := Table.key_of_get hq
    rw [Table.get_put, if_neg, hq]
    simp only [key_inputRequest]
    omega
  | answer id response =>
    by_cases hid : inputId = id
    · subst hid
      exact ⟨_, by rw [Table.get_modify_same, hq]; rfl, rfl⟩
    · exact ⟨q, by rw [Table.get_modify_of_ne _ _ _ hid]; exact hq, hstatus⟩
  | _ => exact ⟨q, hq, hstatus⟩

/-- A statement that asks no question. -/
theorem rounds_makes (h : Makes A False v v') (hr : v.Rounds) : v'.Rounds := by
  refine ⟨numbered_makes h hr.numbered, ?_, ?_⟩
  · cases h with
    | row _ hexec =>
      intro hfree q hq
      obtain ⟨hrun, hgeneration⟩ := hexec.sameName
      have hnotice : v.run.commands.get v.notice = none := by
        cases hc : v.run.commands.get v.notice with
        | none => rfl
        | some c =>
          obtain ⟨c', hc', -⟩ := hexec.command hc
          unfold notice at hfree hc'
          rw [hgeneration] at hfree
          cases hfree.symm.trans hc'
      rw [hrun]
      exact hr.asked hnotice q hq
    | claim _ hclaim =>
      intro hfree q hq
      obtain ⟨-, rfl⟩ := claimCommand_some hclaim
      refine hr.asked ?_ q hq
      dsimp only [notice] at hfree ⊢
      rw [Table.get_modify] at hfree
      cases hc : v.run.commands.get ⟨v.run.generation, .input, .notify, 0⟩ with
      | none => rfl
      | some c =>
        rw [hc] at hfree
        split at hfree <;> cases hfree
    | expire =>
      intro hfree q hq
      dsimp only at hq
      obtain ⟨p, hp, rfl⟩ := Table.mem_updateWhere.1 hq
      have hother := hr.asked hfree p hp
      split <;> exact hother
    | workers db => exact hr.asked
    | ask q hasks _ => exact hasks.elim
    | answer inputId response =>
      intro hfree q hq
      dsimp only at hq
      rcases Table.mem_modify.1 hq with ⟨hq, -⟩ | ⟨p, hp, rfl⟩
      · exact hr.asked hfree q hq
      · exact hr.asked hfree p (Table.mem_of_get hp)
  · cases h with
    | row _ hexec =>
      have hsame := hr.pending
      unfold pendingInputs at hsame ⊢
      rw [hexec.sameName.1]
      exact hsame
    | claim _ hclaim =>
      obtain ⟨-, rfl⟩ := claimCommand_some hclaim
      exact hr.pending
    | expire =>
      refine Nat.le_trans (Table.length_select_updateWhere_le InputRequest.expire
        (fun _ => rfl) ?_) hr.pending
      intro q _ hq
      simp [InputRequest.expire] at hq
    | workers db => exact hr.pending
    | ask q hasks _ => exact hasks.elim
    | answer inputId response =>
      refine Nat.le_trans (Table.length_select_updateWhere_le (InputRequest.answer response)
        (fun _ => rfl) ?_) hr.pending
      intro q _ hq
      simp [InputRequest.answer] at hq

theorem requestInputEffect_ok {effect : TransitionEffect}
    (h : requestInputEffect question criteria kind v = .ok (effect, v')) :
    effect = .enter .awaitingInput ∧ ∃ commands,
      v.run.commands.insert (fun _ => false) (newCommand v.notice ⟨none, none, [], none⟩) =
        some commands ∧ v' = { v with
          run := { v.run with commands }
          inputs := v.inputs.put ⟨v.minted, v.run.rootCardId, v.run.runId, question, criteria, kind,
            .pending, none⟩
          minted := v.minted + 1 } := by
  obtain ⟨queued, hqueued, h⟩ := ok_of_match h
  obtain ⟨commands, hinsert, rfl⟩ := queueCommand_ok hqueued
  cases h
  exact ⟨rfl, commands, hinsert, rfl⟩

theorem rounds_requestInput {effect : TransitionEffect}
    (h : requestInputEffect question criteria kind v = .ok (effect, v')) (hr : v.Rounds) :
    ({ v' with run := v'.run.bump effect } : RunView).Rounds := by
  obtain ⟨-, commands, hinsert, rfl⟩ := requestInputEffect_ok h
  have hfree := (Table.insert_eq_some_iff.1 hinsert).1
  refine ⟨?_, fun hnone => ?_, ?_⟩
  · intro q hq
    rcases Table.mem_put.1 hq with ⟨hq, -⟩ | rfl
    · exact Nat.lt_succ_of_lt (hr.numbered q hq)
    · exact Nat.lt_succ_self v.minted
  · have hnotice : commands.get v.notice = some _ := Table.get_insert_new hinsert
    cases hnotice.symm.trans hnone
  have hothers : ∀ q ∈ v.inputs, ¬ (q.status = .pending ∧ q.runId = v.run.runId) :=
    fun q hq hpending => hr.asked hfree q hq hpending.2
  unfold pendingInputs Table.select Table.put Table.deleteWhere
  rw [List.filter_append, List.length_append, List.filter_eq_nil_iff.2]
  · rw [List.length_nil, Nat.zero_add]
    exact List.length_filter_le _ [_]
  · intro q hq
    simpa [bump] using hothers q (List.mem_of_mem_filter hq)

/-- **No operation of the runner asks a second question.** -/
theorem rounds_step (host : RunnerHost) (op : WorkflowOp) (hr : v.Rounds) :
    (workflowStep host v op).Rounds := by
  by_cases hasks : asksInput op
  · cases op with
    | requestInput question criteria kind =>
      change (requestInput question criteria kind v).2.Rounds
      unfold requestInput whenLive
      split
      · exact hr
      dsimp only
      split
      · exact hr
      rcases committing_cases (requestInputEffect (boundText question 2000) criteria kind) v with
        ⟨effect, v', happly, heq⟩ | ⟨e, -, heq⟩
      · rw [heq]
        exact rounds_requestInput happly hr
      · rw [heq]
        exact hr
    | _ => exact hasks.elim
  · have htrace := trace_step host v op
    rw [show asksInput op = False from eq_false hasks] at htrace
    exact htrace.keeps (fun a b => rounds_makes) hr

theorem rounds_answered (inputId : Nat) (response : String) (hr : v.Rounds) :
    (v.answered inputId response).Rounds :=
  rounds_makes (A := fun _ => True) (.answer v inputId (boundText response 2000)) hr

theorem inputAnsweredEffect_trace (hA : ∀ w, w.Beside none → A w) :
    Trace A asks v (committing (onRun inputAnsweredEffect) v).2 := by
  rcases committing_cases (onRun inputAnsweredEffect) v with ⟨effect, v', happly, heq⟩ | ⟨e, -, heq⟩
  · rw [heq]
    obtain ⟨run', hrun', rfl⟩ := onRun_ok happly
    obtain ⟨queued, hqueued, hout⟩ := map_eq_ok.1 hrun'
    cases hout
    exact trace_transacted (hA _ trivial) ((script_queueCommand hqueued (by simp)).mono hA)
  · rw [heq]
    exact .refl v

theorem rounds_inputStep (host : RunnerHost) (op : InputOp) (hr : v.Rounds) :
    (v.inputStep host op).Rounds := by
  cases op with
  | call op => exact rounds_step host op hr
  | answerRaced inputId response meanwhile =>
    change (answerRaced host inputId response meanwhile v).2.Rounds
    unfold answerRaced
    split
    · exact invariant_of_step (fun v op hr => rounds_step host op hr) meanwhile v hr
    have hraced := invariant_of_step (fun v op hr => rounds_step host op hr) meanwhile _
      (rounds_answered inputId response hr)
    dsimp only
    split
    · exact hraced
    split
    · exact hraced
    split
    · exact hraced
    · exact Trace.keeps (fun a b => rounds_makes)
        (inputAnsweredEffect_trace (A := fun _ => True) fun _ _ => trivial) hraced

theorem isAnswered_step (host : RunnerHost) (op : WorkflowOp)
    (h : v.Numbered ∧ v.isAnswered inputId = true) :
    (workflowStep host v op).Numbered ∧ (workflowStep host v op).isAnswered inputId = true :=
  (trace_step host v op).keeps (P := fun v => v.Numbered ∧ v.isAnswered inputId = true)
    (fun _ _ hmakes h => ⟨numbered_makes hmakes h.1, isAnswered_makes hmakes h.1 h.2⟩) h

theorem Rounds.numbered_answered (hr : v.Rounds) (inputId : Nat) (response : String) :
    (v.answered inputId response).Numbered := (rounds_answered inputId response hr).numbered

/-! ## What a call does -/

theorem requestInput_ok_iff (hlive : v.run.state.isTerminal = false)
    (hstate : v.run.state ≠ .awaitingInput) :
    (requestInput question criteria kind v).1 = .ok () ↔ v.run.commands.get v.notice = none := by
  unfold requestInput whenLive
  rw [if_neg (by simp [hlive])]
  dsimp only
  rw [if_neg hstate]
  rcases committing_cases (requestInputEffect (boundText question 2000) criteria kind) v with
    ⟨effect, v', happly, heq⟩ | ⟨e, happly, heq⟩
  · rw [heq]
    obtain ⟨-, commands, hinsert, -⟩ := requestInputEffect_ok happly
    exact iff_of_true rfl (Table.insert_eq_some_iff.1 hinsert).1
  · rw [heq]
    refine iff_of_false (fun h => by cases h) fun hfree => ?_
    obtain ⟨commands, hinsert⟩ := Table.exists_insert_iff.2
      (show v.run.commands.Fits (fun _ => false) (newCommand v.notice ⟨none, none, [], none⟩) from
        ⟨hfree, fun _ _ => rfl⟩)
    unfold requestInputEffect queueCommand at happly
    unfold notice at hinsert
    rw [hinsert] at happly
    cases happly

theorem pending_iff (v : RunView) (inputId : Nat) : v.Pending inputId ↔
    ((v.inputs.get inputId).filter fun q =>
      q.status = .pending ∧ q.runId = v.run.runId).isSome = true := by
  unfold Pending
  cases hq : v.inputs.get inputId with
  | none => simp
  | some q => by_cases hp : q.status = .pending ∧ q.runId = v.run.runId <;> simp [hp]

/-- The commit of an answer always finds a free command. -/
theorem inputAnswered_commits (v : RunView) :
    (committing (onRun inputAnsweredEffect) v).1 = .ok () := by
  rcases committing_cases (onRun inputAnsweredEffect) v with ⟨effect, v', -, heq⟩ | ⟨e, happly, -⟩
  · rw [heq]
  obtain ⟨commands, hinsert⟩ := Table.exists_insert_iff.2
    (show v.run.commands.Fits (fun _ => false) (newCommand ⟨v.run.generation, .input, .notify,
        v.run.nextCommandOrdinal v.run.generation .input .notify⟩ ⟨none, none, [], none⟩) from
      ⟨get_nextCommandOrdinal v.run v.run.generation .input .notify, fun _ _ => rfl⟩)
  unfold onRun inputAnsweredEffect queueCommand at happly
  rw [hinsert] at happly
  cases happly

variable (response : String)

theorem answerInput_unknown (h : ¬ v.Pending inputId) :
    answerInput inputId response v = (.error .inputUnknown, v) := by
  unfold answerInput
  split
  · rfl
  · rename_i hq
    exact absurd ((pending_iff v inputId).2 (by rw [hq]; rfl)) h

theorem answerInput_refused (h : v.Pending inputId) (hstate : v.run.state ≠ .awaitingInput) :
    ∃ e, answerInput inputId response v = (.error e, v.answered inputId response) := by
  have hsome := (pending_iff v inputId).1 h
  unfold answerInput
  split
  · rename_i hnone
    rw [hnone] at hsome
    cases hsome
  unfold whenLive
  split
  · exact ⟨_, rfl⟩
  · dsimp only
    rw [if_pos hstate]
    exact ⟨_, rfl⟩

theorem answerInput_taken (h : v.Pending inputId) (hstate : v.run.state = .awaitingInput) :
    answerInput inputId response v =
      (.ok (), (committing (onRun inputAnsweredEffect) (v.answered inputId response)).2) := by
  have hsome := (pending_iff v inputId).1 h
  unfold answerInput
  split
  · rename_i hnone
    rw [hnone] at hsome
    cases hsome
  unfold whenLive
  dsimp only
  rw [if_neg (by rw [hstate]; decide), if_neg (not_not.2 hstate)]
  exact Prod.ext (inputAnswered_commits _) rfl

variable (meanwhile : List WorkflowOp)

theorem answerRaced_unknown (h : ¬ v.Pending inputId) :
    answerRaced host inputId response meanwhile v =
      (.error (.applier .inputUnknown), runFrom (workflowStep host) v meanwhile) := by
  unfold answerRaced
  split
  · rfl
  · rename_i hq
    exact absurd ((pending_iff v inputId).2 (by rw [hq]; rfl)) h

theorem answerRaced_refused (h : v.Pending inputId)
    (hlost : ¬ (v.run.state = .awaitingInput ∧
      (runFrom (workflowStep host) (v.answered inputId response) meanwhile).run.stateVersion =
        v.run.stateVersion)) :
    ∃ e, answerRaced host inputId response meanwhile v =
      (.error e, runFrom (workflowStep host) (v.answered inputId response) meanwhile) := by
  have hsome := (pending_iff v inputId).1 h
  unfold answerRaced
  split
  · rename_i hnone
    rw [hnone] at hsome
    cases hsome
  split
  · exact ⟨_, rfl⟩
  split
  · exact ⟨_, rfl⟩
  · rename_i hstate
    rw [if_pos fun hversion => hlost ⟨not_not.1 hstate, hversion⟩]
    exact ⟨_, rfl⟩

theorem answerRaced_taken (h : v.Pending inputId) (hstate : v.run.state = .awaitingInput)
    (hversion : (runFrom (workflowStep host) (v.answered inputId response)
      meanwhile).run.stateVersion = v.run.stateVersion) :
    answerRaced host inputId response meanwhile v = (.ok (), (committing (onRun inputAnsweredEffect)
      (runFrom (workflowStep host) (v.answered inputId response) meanwhile)).2) := by
  have hsome := (pending_iff v inputId).1 h
  unfold answerRaced
  split
  · rename_i hnone
    rw [hnone] at hsome
    cases hsome
  dsimp only
  rw [if_neg (by rw [hstate]; decide), if_neg (not_not.2 hstate), if_neg (not_not.2 hversion),
    inputAnswered_commits]
  rfl

theorem isAnswered_answered (h : v.Pending inputId) :
    (v.answered inputId response).isAnswered inputId = true := by
  obtain ⟨q, hq, -⟩ := h
  unfold isAnswered answered
  rw [Table.get_modify_same, hq]
  rfl

theorem not_isAnswered_of_pending (h : v.Pending inputId) : v.isAnswered inputId = false := by
  obtain ⟨q, hq, hpending, -⟩ := h
  unfold isAnswered
  rw [hq]
  simp [hpending]

theorem isAnswered_raced (response : String) (meanwhile : List WorkflowOp) (hr : v.Rounds)
    (h : v.Pending inputId) :
    let raced := runFrom (workflowStep host) (v.answered inputId response) meanwhile
    raced.Numbered ∧ raced.isAnswered inputId = true :=
  invariant_of_step (I := fun v : RunView => v.Numbered ∧ v.isAnswered inputId = true)
    (fun _ op h => isAnswered_step host op h) meanwhile _
    ⟨hr.numbered_answered inputId response, isAnswered_answered response h⟩

/-! ## Steps -/

theorem mapError_eq_ok {α ε ε' : Type*} {f : ε → ε'} {x : Except ε α} {a : α} :
    x.mapError f = .ok a ↔ x = .ok a := by
  cases x <;> simp [Except.mapError]

theorem answered_ne (h : v.Pending inputId) : v.answered inputId response ≠ v := by
  intro heq
  have hdone := isAnswered_answered response h
  rw [heq, not_isAnswered_of_pending h] at hdone
  cases hdone

/-- **A step is served exactly when it is the first question, or an answer to a waiting run.** -/
theorem inputLaws_iff (hr : v.Rounds) (op : InputOp) : v.InputLaws host op ↔ v.Served host op := by
  constructor
  · intro hlaws
    cases op with
    | call op =>
      cases op with
      | requestInput question criteria kind =>
        intro hlive hstate
        exact (requestInput_ok_iff hlive hstate).1
          (mapError_eq_ok.1 (hlaws.asked question criteria kind rfl hlive hstate))
      | answerInput inputId response =>
        intro hpending
        by_contra hstate
        obtain ⟨e, hrefused⟩ := answerInput_refused response hpending hstate
        have hkept : (answerInput inputId response v).1.mapError .applier =
            .error (IngressError.applier e) → (answerInput inputId response v).2 = v :=
          hlaws.refused inputId response rfl (.applier e)
        rw [hrefused] at hkept
        exact answered_ne response hpending (hkept rfl)
      | _ => trivial
    | answerRaced inputId response meanwhile =>
      intro hpending
      by_contra hlost
      obtain ⟨e, hrefused⟩ := answerRaced_refused response meanwhile hpending hlost
      have hkept : (answerRaced host inputId response meanwhile v).1 = .error e →
          v.Pending inputId → (∀ q ∈ (answerRaced host inputId response meanwhile v).2.inputs.get
            inputId, q.status ≠ .answered) ∧ _ :=
        hlaws.raced inputId response meanwhile rfl e
      rw [hrefused] at hkept
      obtain ⟨q, hq, hdone⟩ := (Option.any_eq_true _ _).1
        (isAnswered_raced response meanwhile hr hpending).2
      exact (hkept rfl hpending).1 q hq (of_decide_eq_true hdone)
  · intro hserved
    refine ⟨?_, ?_, ?_⟩
    · rintro question criteria kind rfl hlive hstate
      exact mapError_eq_ok.2 ((requestInput_ok_iff hlive hstate).2 (hserved hlive hstate))
    · rintro inputId response rfl error herror
      by_cases hpending : v.Pending inputId
      · change (answerInput inputId response v).1.mapError .applier = .error error at herror
        rw [answerInput_taken response hpending (hserved hpending)] at herror
        cases herror
      · change (answerInput inputId response v).2 = v
        rw [answerInput_unknown response hpending]
    · rintro inputId response meanwhile rfl error herror hpending
      obtain ⟨hstate, hversion⟩ := hserved hpending
      change (answerRaced host inputId response meanwhile v).1 = .error error at herror
      rw [answerRaced_taken response meanwhile hpending hstate hversion] at herror
      cases herror

theorem isAnswered_inputAnsweredEffect (h : v.Numbered ∧ v.isAnswered inputId = true) :
    (committing (onRun inputAnsweredEffect) v).2.isAnswered inputId = true := by
  have htrace : Trace (fun _ => True) False v (committing (onRun inputAnsweredEffect) v).2 :=
    inputAnsweredEffect_trace fun _ _ => trivial
  exact (htrace.keeps (P := fun v => v.Numbered ∧ v.isAnswered inputId = true)
    (fun _ _ hmakes h => ⟨numbered_makes hmakes h.1, isAnswered_makes hmakes h.1 h.2⟩) h).2

/-- What a call that returns has done: the request was pending, and is answered. -/
theorem isAnswered_of_ok (hr : v.Rounds) {op : InputOp} (hid : op.inputId = some inputId)
    (hok : (v.inputCall host op).1.isOk = true) :
    v.isAnswered inputId = false ∧ (v.inputStep host op).isAnswered inputId = true := by
  cases op with
  | call op =>
    cases op with
    | answerInput id response =>
      obtain rfl := Option.some.inj hid
      change ((answerInput id response v).1.mapError IngressError.applier).isOk = true at hok
      change v.isAnswered id = false ∧ (answerInput id response v).2.isAnswered id = true
      by_cases hpending : v.Pending id
      · by_cases hstate : v.run.state = .awaitingInput
        · rw [answerInput_taken response hpending hstate]
          exact ⟨not_isAnswered_of_pending hpending, isAnswered_inputAnsweredEffect
            ⟨hr.numbered_answered id response, isAnswered_answered response hpending⟩⟩
        · obtain ⟨e, hrefused⟩ := answerInput_refused response hpending hstate
          rw [hrefused] at hok
          cases hok
      · rw [answerInput_unknown response hpending] at hok
        cases hok
    | _ => cases hid
  | answerRaced id response meanwhile =>
    obtain rfl := Option.some.inj hid
    change (answerRaced host id response meanwhile v).1.isOk = true at hok
    change v.isAnswered id = false ∧ (answerRaced host id response meanwhile v).2.isAnswered id = true
    by_cases hpending : v.Pending id
    · by_cases htaken : v.run.state = .awaitingInput ∧
          (runFrom (workflowStep host) (v.answered id response) meanwhile).run.stateVersion =
            v.run.stateVersion
      · rw [answerRaced_taken response meanwhile hpending htaken.1 htaken.2]
        exact ⟨not_isAnswered_of_pending hpending,
          isAnswered_inputAnsweredEffect (isAnswered_raced response meanwhile hr hpending)⟩
      · obtain ⟨e, hrefused⟩ := answerRaced_refused response meanwhile hpending htaken
        rw [hrefused] at hok
        cases hok
    · rw [answerRaced_unknown response meanwhile hpending] at hok
      cases hok

theorem isAnswered_inputStep (hr : v.Rounds) (op : InputOp) (h : v.isAnswered inputId = true) :
    (v.inputStep host op).isAnswered inputId = true := by
  have hkeeps : ∀ {u u' : RunView} {A : RunStatement → Prop} {asks : Prop}, Trace A asks u u' →
      u.Numbered ∧ u.isAnswered inputId = true → u'.Numbered ∧ u'.isAnswered inputId = true :=
    fun htrace hu => htrace.keeps (P := fun v => v.Numbered ∧ v.isAnswered inputId = true)
      (fun _ _ hmakes h => ⟨numbered_makes hmakes h.1, isAnswered_makes hmakes h.1 h.2⟩) hu
  have hstart : v.Numbered ∧ v.isAnswered inputId = true := ⟨hr.numbered, h⟩
  cases op with
  | call op => exact (hkeeps (trace_step host v op) hstart).2
  | answerRaced id response meanwhile =>
    have hmeanwhile : ∀ u : RunView, u.Numbered ∧ u.isAnswered inputId = true →
        (runFrom (workflowStep host) u meanwhile).Numbered ∧
          (runFrom (workflowStep host) u meanwhile).isAnswered inputId = true := fun u hu =>
      invariant_of_step (I := fun v : RunView => v.Numbered ∧ v.isAnswered inputId = true)
        (fun _ op h => isAnswered_step host op h) meanwhile u hu
    have hwrite : Trace (fun _ => True) False v (v.answered id response) :=
      Trace.single (.answer v id (boundText response 2000))
    have hwritten := hkeeps hwrite hstart
    change (answerRaced host id response meanwhile v).2.isAnswered inputId = true
    unfold answerRaced
    split
    · exact (hmeanwhile v hstart).2
    dsimp only
    split
    · exact (hmeanwhile _ hwritten).2
    split
    · exact (hmeanwhile _ hwritten).2
    · split
      · exact (hmeanwhile _ hwritten).2
      · exact isAnswered_inputAnsweredEffect (hmeanwhile _ hwritten)

theorem answersRequest_flag (hr : v.Rounds) (op : InputOp) (inputId : Nat) :
    (v.answersRequest host inputId op).toNat + (v.isAnswered inputId).toNat ≤
      ((v.inputStep host op).isAnswered inputId).toNat := by
  cases hbefore : v.isAnswered inputId with
  | true =>
    have hnot : v.answersRequest host inputId op = false := by
      by_contra hanswers
      rw [Bool.not_eq_false, answersRequest, decide_eq_true_eq] at hanswers
      rcases hanswers with ⟨hid, hok⟩ | ⟨hnot, -⟩
      · cases hbefore.symm.trans (isAnswered_of_ok hr hid hok).1
      · cases hbefore.symm.trans hnot
    rw [hnot, isAnswered_inputStep hr op hbefore]
    decide
  | false =>
    cases hanswers : v.answersRequest host inputId op with
    | false => exact Nat.zero_le _
    | true =>
      rw [answersRequest, decide_eq_true_eq] at hanswers
      have hafter : (v.inputStep host op).isAnswered inputId = true := by
        rcases hanswers with ⟨hid, hok⟩ | ⟨-, hafter⟩
        · exact (isAnswered_of_ok hr hid hok).2
        · exact hafter
      rw [hafter]
      decide

/-! ## Runs -/

/-- **Questions and answers of a run.**  From a run that has asked nothing, a step takes every
question and undoes every answer that is not taken exactly when it is served: when it asks the
first question of the run, or answers while the run waits.  Never is more than one request of the
run pending, and no request is answered twice. -/
theorem input_rounds (host : RunnerHost) (v : RunView) (hids : ∀ q ∈ v.inputs, q.id < v.minted)
    (hfirst : ∀ q ∈ v.inputs, q.runId ≠ v.run.runId) (ops : List InputOp) :
    (StepsMeet (inputStep host) (InputLaws host) v ops ↔
      StepsMeet (inputStep host) (Served host) v ops) ∧
    (runFrom (inputStep host) v ops).pendingInputs.length ≤ 1 ∧
    ∀ inputId, countSteps (inputStep host) (fun v op => v.answersRequest host inputId op) v ops ≤ 1 := by
  have hstart : v.Rounds := by
    refine ⟨hids, fun _ => hfirst, ?_⟩
    have hnone : v.pendingInputs = [] := List.filter_eq_nil_iff.2 fun q hq => by
      simpa using fun _ => hfirst q hq
    rw [hnone]
    exact Nat.zero_le 1
  refine ⟨?_, ?_, fun inputId => ?_⟩
  · exact stepsMeet_iff_of_invariant (fun _ op hr => rounds_inputStep host op hr)
      (fun _ op hr => inputLaws_iff hr op) ops v hstart
  · exact (invariant_of_step (fun _ op hr => rounds_inputStep host op hr) ops v hstart).pending
  · exact countSteps_le_one_of_invariant (fun _ op hr => rounds_inputStep host op hr)
      (fun _ op hr => answersRequest_flag hr op inputId) ops v hstart

/-! ### A second question and a late answer -/

def ask : InputOp := .call (.requestInput "which?" ["scope"] "text")

def reply : InputOp := .call (.answerInput 0 "this one")

def racedReply : InputOp := .answerRaced 0 "this one" [.acceptShaHandoff false]

/-- After a question that was answered the run takes no other; and an answer to a run that has
failed, or that another process has moved on, is refused and leaves its request answered. -/
theorem second_question_refused :
    (let v := runFrom (inputStep waveHost) waveStart [ask, reply];
      v.run.state = .executing ∧ (v.inputCall waveHost ask).1 = .error (.applier .constraint)) ∧
    (let v := runFrom (inputStep waveHost) waveStart [ask, .call (.failRun "code" "reason")];
      (v.inputs.get 0).map (·.status) = some .pending ∧
        (v.inputCall waveHost reply).1 = .error (.applier (.runTerminal .failed)) ∧
        ((v.inputStep waveHost reply).inputs.get 0).map (·.status) = some .answered) ∧
    (let v := inputStep waveHost waveStart ask;
      v.run.state = .awaitingInput ∧
        (v.inputCall waveHost racedReply).1 = .error (.fenceMismatch "run") ∧
        ((v.inputStep waveHost racedReply).inputs.get 0).map (·.status) = some .answered) ∧
    ¬ StepsMeet (inputStep waveHost) (InputLaws waveHost) waveStart [ask, reply, ask] := by
  refine ⟨by decide +kernel, by decide +kernel, by decide +kernel, fun hlaws => ?_⟩
  have hasked := hlaws.2.2.1.asked _ _ _ rfl (by decide +kernel) (by decide +kernel)
  revert hasked
  decide +kernel

theorem input_rounds_first_question :
    StepsMeet (inputStep waveHost) (InputLaws waveHost) waveStart [ask, reply] := by
  refine (input_rounds waveHost waveStart (fun q hq => absurd hq (Table.not_mem_empty q))
    (fun q hq => absurd hq (Table.not_mem_empty q)) [ask, reply]).1.2 ⟨fun _ _ => rfl, ?_, trivial⟩
  intro _
  decide +kernel

end RunView

end Abtars
