import Abtars.Pi.Control

/-!
# Control commands run once and answer the same

Runs of the control handler: requests and duplicates of them, calls that land, and crashes.
-/

namespace Abtars

open Lib

/-! ## Conditions and guarantees -/

def ControlState.arrivals (s : ControlState) : List ControlArrival :=
  s.replies.map (·.arrival) ++ s.flights.map (·.arrival)

/-- A request is found valid and owned as it was before; an approval that passes its checks for a
new command was not consumed under its id by another peer; and a call lands on a row without a
final answer. -/
def SteadyControl (host : ControlHost) (s : ControlState) : ControlEvent → Prop
  | .request peer request clock run =>
    (∀ a ∈ s.arrivals, a.peer = peer → a.request = request →
      validateControlRequest a.now request = validateControlRequest clock.schema request ∧
        a.ownership = runOwnership peer run) ∧
    (s.commands.get (peer, request.commandId) = none →
      ∀ approval ∈ request.command.approval,
        approvalError host clock peer request approval = none →
        ∀ row ∈ s.approvals.rows, row.approvalId = approval.approvalId →
          row.commandId = request.commandId → row.originPeer = peer)
  | .finish place _ =>
    ∀ f ∈ s.flights[place]?, ∀ row ∈ s.commands.get f.arrival.key, row.state.isFinal = false
  | .crash => True

instance (host : ControlHost) (s : ControlState) : ∀ event, Decidable (SteadyControl host s event)
  | .request _ _ _ _ => inferInstanceAs (Decidable (_ ∧ _))
  | .finish _ _ => inferInstanceAs (Decidable (∀ f ∈ _, ∀ row ∈ _, _))
  | .crash => inferInstanceAs (Decidable True)

def StartedCommand.key (x : StartedCommand) : String × String := (x.peer, x.commandId)

/-- What a handler owes its peers: a command starts one side effect at most, an approval one
resume, and a request has one reply. -/
structure ControlConsistent (s : ControlState) : Prop where
  startedOnce : (s.started.map StartedCommand.key).Nodup
  resumedOnce : (s.started.filterMap (·.approvalId)).Nodup
  sameReply : ∀ r ∈ s.replies, ∀ r' ∈ s.replies, r.arrival.peer = r'.arrival.peer →
    r.arrival.request = r'.arrival.request → r.response = r'.response

instance (s : ControlState) : Decidable (ControlConsistent s) :=
  decidable_of_iff
    ((s.started.map StartedCommand.key).Nodup ∧ (s.started.filterMap (·.approvalId)).Nodup ∧
      ∀ r ∈ s.replies, ∀ r' ∈ s.replies, r.arrival.peer = r'.arrival.peer →
        r.arrival.request = r'.arrival.request → r.response = r'.response)
    ⟨fun h => ⟨h.1, h.2.1, h.2.2⟩, fun h => ⟨h.startedOnce, h.resumedOnce, h.sameReply⟩⟩

/-! ## What a request leads to -/

theorem reserveCommand_cases (commands : Table CommandRow)
    (originPeer commandId runId payloadHash : String) :
    (∃ commands', commands.insert (fun _ => false)
        ⟨originPeer, commandId, runId, payloadHash, .received, none⟩ = some commands' ∧
      reserveCommand commands originPeer commandId runId payloadHash = (.new, commands')) ∨
    ∃ row, commands.get (originPeer, commandId) = some row ∧
      ((row.payloadHash ≠ payloadHash ∧
          reserveCommand commands originPeer commandId runId payloadHash = (.conflict, commands)) ∨
        (row.payloadHash = payloadHash ∧ row.state.isFinal = true ∧
          reserveCommand commands originPeer commandId runId payloadHash =
            (.replayCompleted, commands)) ∨
        (row.payloadHash = payloadHash ∧ row.state.isFinal = false ∧
          reserveCommand commands originPeer commandId runId payloadHash =
            (.replayDispatchStarted, commands))) := by
  cases hget : commands.get (originPeer, commandId) with
  | none =>
    have hfits : commands.Fits (fun _ => false)
        ⟨originPeer, commandId, runId, payloadHash, .received, none⟩ := ⟨hget, fun _ _ => rfl⟩
    obtain ⟨commands', hinsert⟩ := Table.exists_insert_iff.2 hfits
    exact .inl ⟨commands', hinsert, by rw [reserveCommand, hinsert]⟩
  | some row =>
    have hrefused : commands.insert (fun _ => false)
        ⟨originPeer, commandId, runId, payloadHash, .received, none⟩ = none := by
      rw [Option.eq_none_iff_forall_not_mem]
      intro commands' hinsert
      have hfree := (Table.insert_eq_some_iff.1 hinsert).1
      rw [key_commandRow, hget] at hfree
      cases hfree
    refine .inr ⟨row, rfl, ?_⟩
    rw [reserveCommand, hrefused, hget]
    by_cases hhash : row.payloadHash = payloadHash
    · cases hfinal : row.state.isFinal with
      | true => exact .inr (.inl ⟨hhash, rfl, by simp [hhash, hfinal]⟩)
      | false => exact .inr (.inr ⟨hhash, rfl, by simp [hhash, hfinal]⟩)
    · exact .inl ⟨hhash, by simp [hhash]⟩

theorem run_of_not_refused {a : ControlArrival} {run : Option ControlRun}
    (hownership : a.ownership = runOwnership a.peer run) (h : refusal a = none) :
    ∃ r, run = some r := by
  cases run with
  | some r => exact ⟨r, rfl⟩
  | none =>
    rw [refusal] at h
    split at h
    · cases h
    split at h
    · cases h
    rw [hownership, runOwnership] at h
    cases h

section Begin

variable (host : ControlHost) (s : ControlState) (peer : String)
  (request : RemotePiControlRequest) (clock : ControlClock) (run : Option ControlRun)

/-- All that a request can lead to: a refusal, a conflict, the reply on record, an unknown outcome
in place of a reply, or the work of a new command. -/
theorem beginControl_cases {a : ControlArrival}
    (ha : a = ⟨peer, request, clock.schema, runOwnership peer run⟩) :
    (∃ response, refusal a = some response ∧
      beginControl host s peer request clock run = s.answer a response) ∨
    (refusal a = none ∧ ∃ row, s.commands.get a.key = some row ∧
      ((row.payloadHash ≠ computeControlRequestHash host a.request ∧
          beginControl host s peer request clock run =
            s.answer a (conflictResponse a.request.commandId)) ∨
        (row.payloadHash = computeControlRequestHash host a.request ∧ row.state.isFinal = true ∧
          beginControl host s peer request clock run =
            s.answer a (row.responseJson.getD
              (createControlError a.request.commandId .internalError
                "Command in terminal state without response" none))) ∨
        (row.payloadHash = computeControlRequestHash host a.request ∧ row.state.isFinal = false ∧
          beginControl host s peer request clock run =
            { s with
              commands := recordCommandOutcome s.commands a.peer a.request.commandId
                (unknownResponse a.request.commandId) }.answer a
              (unknownResponse a.request.commandId)))) ∨
    (refusal a = none ∧ ∃ commands r,
      s.commands.insert (fun _ => false)
        ⟨a.peer, a.request.commandId, a.request.runId, computeControlRequestHash host a.request,
          .received, none⟩ = some commands ∧
      beginControl host s peer request clock run =
        dispatchNew host { s with commands := commands } a clock r) := by
  subst ha
  unfold beginControl
  dsimp only
  cases hrefusal : refusal ⟨peer, request, clock.schema, runOwnership peer run⟩ with
  | some response => exact .inl ⟨response, rfl, rfl⟩
  | none =>
    obtain ⟨r, rfl⟩ := run_of_not_refused rfl hrefusal
    refine .inr ?_
    rcases reserveCommand_cases s.commands peer request.commandId request.runId
      (computeControlRequestHash host request) with ⟨commands, hinsert, hnew⟩ |
        ⟨row, hget, ⟨hhash, hreserve⟩ | ⟨hhash, hfinal, hreserve⟩ | ⟨hhash, hopen, hreserve⟩⟩
    · rw [hnew]
      exact .inr ⟨rfl, commands, r, hinsert, rfl⟩
    · rw [hreserve]
      exact .inl ⟨rfl, row, hget, .inl ⟨hhash, rfl⟩⟩
    · rw [hreserve]
      refine .inl ⟨rfl, row, hget, .inr (.inl ⟨hhash, hfinal, ?_⟩)⟩
      rw [ControlArrival.key, hget, Option.bind_some]
    · rw [hreserve]
      exact .inl ⟨rfl, row, hget, .inr (.inr ⟨hhash, hopen, rfl⟩)⟩

end Begin

/-! ## What a call does to the ledger -/

def LedgerGrows (commands commands' : Table CommandRow) : Prop :=
  ∀ k row, commands.get k = some row →
    ∃ row', commands'.get k = some row' ∧ row'.payloadHash = row.payloadHash ∧
      (row.state.isFinal = true → row' = row)

def LedgerKeeps (commands commands' : Table CommandRow) : Prop :=
  ∀ k row, commands.get k = some row → ∃ row', commands'.get k = some row'

section Ledger

variable {commands commands' commands'' : Table CommandRow} {originPeer commandId : String}
  {row : CommandRow}

theorem ledgerGrows_refl (commands : Table CommandRow) : LedgerGrows commands commands :=
  fun _ row hget => ⟨row, hget, rfl, fun _ => rfl⟩

theorem LedgerGrows.trans (h : LedgerGrows commands commands')
    (h' : LedgerGrows commands' commands'') : LedgerGrows commands commands'' := by
  intro k row hget
  obtain ⟨row', hget', hhash, hfinal⟩ := h k row hget
  obtain ⟨row'', hget'', hhash', hfinal'⟩ := h' k row' hget'
  refine ⟨row'', hget'', hhash'.trans hhash, fun hrow => ?_⟩
  obtain rfl := hfinal hrow
  exact hfinal' hrow

theorem LedgerGrows.keeps (h : LedgerGrows commands commands') : LedgerKeeps commands commands' :=
  fun k row hget =>
    have ⟨row', hget', _⟩ := h k row hget
    ⟨row', hget'⟩

theorem get_updateCommand (hget : commands.get (originPeer, commandId) = some row)
    (state : CommandLedgerState) (response : Option RemotePiControlResponse) :
    (updateCommand commands originPeer commandId state response).get (originPeer, commandId) =
      some { row with state := state, responseJson := response.or row.responseJson } := by
  rw [updateCommand, Table.get_modify_same, hget, Option.map_some]

theorem get_updateCommand_of_ne {k : String × String} (hne : k ≠ (originPeer, commandId))
    (state : CommandLedgerState) (response : Option RemotePiControlResponse) :
    (updateCommand commands originPeer commandId state response).get k = commands.get k :=
  Table.get_modify_of_ne _ _ _ hne

theorem ledgerKeeps_update (commands : Table CommandRow) (originPeer commandId : String)
    (state : CommandLedgerState) (response : Option RemotePiControlResponse) :
    LedgerKeeps commands (updateCommand commands originPeer commandId state response) := by
  intro k row hget
  by_cases hk : k = (originPeer, commandId)
  · subst hk
    exact ⟨_, get_updateCommand hget state response⟩
  · exact ⟨row, (get_updateCommand_of_ne hk state response).trans hget⟩

theorem ledgerGrows_update
    (hopen : ∀ row, commands.get (originPeer, commandId) = some row → row.state.isFinal = false)
    (state : CommandLedgerState) (response : Option RemotePiControlResponse) :
    LedgerGrows commands (updateCommand commands originPeer commandId state response) := by
  intro k row hget
  by_cases hk : k = (originPeer, commandId)
  · subst hk
    refine ⟨_, get_updateCommand hget state response, rfl, fun hfinal => ?_⟩
    rw [hopen row hget] at hfinal
    cases hfinal
  · exact ⟨row, (get_updateCommand_of_ne hk state response).trans hget, rfl, fun _ => rfl⟩

theorem ledgerGrows_insert (hinsert : commands.insert (fun _ => false) row = some commands') :
    LedgerGrows commands commands' := by
  intro k old hget
  exact ⟨old, Table.get_insert_of_some hinsert hget, rfl, fun _ => rfl⟩

theorem isFinal_ledgerState (outcome : ControlOutcome) : outcome.ledgerState.isFinal = true := by
  cases outcome <;> rfl

end Ledger

theorem dispatchNew_cases (host : ControlHost) (s : ControlState) (a : ControlArrival)
    (clock : ControlClock) (run : ControlRun) :
    (∃ response, dispatchNew host s a clock run =
      { s with
        commands := recordCommandOutcome s.commands a.peer a.request.commandId response }.answer a
          response) ∨
    ∃ commands,
      (commands = s.commands ∨
        commands = updateCommand s.commands a.peer a.request.commandId .dispatchStarted none) ∧
      dispatchNew host s a clock run =
        { s with
          commands := commands
          approvals := (dispatchCommand host clock s.approvals a.peer a.request run).2
          flights := s.flights ++
            [⟨a, run, (dispatchCommand host clock s.approvals a.peer a.request run).1⟩]
          started := startedOf a
            (dispatchCommand host clock s.approvals a.peer a.request run).1 ++ s.started } := by
  rw [dispatchNew]
  split
  · exact .inl ⟨_, rfl⟩
  refine .inr ⟨_, ?_, rfl⟩
  split
  · exact .inl rfl
  · exact .inr rfl

/-- The row of a new command after its work has begun: open while the command waits, and else final
with the reply. -/
theorem dispatchNew_ledger {host : ControlHost} {s s' : ControlState} {a : ControlArrival}
    {commands : Table CommandRow} {clock : ControlClock} {run : ControlRun}
    (hinsert : s.commands.insert (fun _ => false)
      ⟨a.peer, a.request.commandId, a.request.runId, computeControlRequestHash host a.request,
        .received, none⟩ = some commands)
    (hs' : s' = dispatchNew host { s with commands := commands } a clock run) :
    LedgerGrows s.commands s'.commands ∧
    (∀ k ≠ a.key, s'.commands.get k = s.commands.get k) ∧
    ∃ row, s'.commands.get a.key = some row ∧
      row.payloadHash = computeControlRequestHash host a.request ∧
      ((row.state.isFinal = true ∧ s'.flights = s.flights ∧ ∃ response,
          row.responseJson = some response ∧ s'.replies = ⟨a, response⟩ :: s.replies) ∨
        (row.state.isFinal = false ∧ s'.replies = s.replies ∧ ∃ dispatch,
          s'.flights = s.flights ++ [⟨a, run, dispatch⟩])) := by
  have hget : commands.get (a.peer, a.request.commandId) = some _ := Table.get_insert_new hinsert
  have hother : ∀ k ≠ a.key, commands.get k = s.commands.get k := fun k hk =>
    (Table.get_of_insert hinsert k).trans (if_neg hk)
  have hopen : ∀ row, commands.get (a.peer, a.request.commandId) = some row →
      row.state.isFinal = false := by
    intro row hrow
    obtain rfl := Option.some.inj (hget.symm.trans hrow)
    rfl
  have hgrows := ledgerGrows_insert hinsert
  have hupdated := fun state response => hgrows.trans (ledgerGrows_update hopen state response)
  have hkept : ∀ state response, ∀ k ≠ a.key,
      (updateCommand commands a.peer a.request.commandId state response).get k =
        s.commands.get k := fun state response k hk =>
    (get_updateCommand_of_ne hk state response).trans (hother k hk)
  rw [hs']
  -- the work writes no other row than the one just inserted, which has no answer yet
  rcases dispatchNew_cases host { s with commands := commands } a clock run with
    ⟨response, hnew⟩ | ⟨commands', hcommands, hnew⟩
  · rw [hnew]
    exact ⟨hupdated _ _, hkept _ _, _, get_updateCommand hget _ _, rfl,
      .inl ⟨isFinal_ledgerState _, rfl, response, rfl, rfl⟩⟩
  · rw [hnew]
    rcases hcommands with rfl | rfl
    · exact ⟨hgrows, hother, _, hget, rfl, .inr ⟨rfl, rfl, _, rfl⟩⟩
    · exact ⟨hupdated _ _, hkept _ _, _, get_updateCommand hget _ _, rfl,
        .inr ⟨rfl, rfl, _, rfl⟩⟩

theorem startedOf_cases (a : ControlArrival) (dispatch : Dispatch) :
    startedOf a dispatch = [] ∨
    ∃ service, dispatch = .serving service ∧
      ∃ x, startedOf a dispatch = [x] ∧ x.key = a.key ∧
        x.approvalId = a.request.command.approval.map (·.approvalId) := by
  cases dispatch with
  | answered response => exact .inl rfl
  | serving service => exact .inr ⟨service, rfl, _, rfl, rfl, rfl⟩

theorem dispatchNew_started (host : ControlHost) (s : ControlState) (a : ControlArrival)
    (clock : ControlClock) (run : ControlRun) :
    ((dispatchNew host s a clock run).started = s.started ∧
      ((dispatchNew host s a clock run).approvals = s.approvals ∨
        (dispatchNew host s a clock run).approvals =
          (dispatchCommand host clock s.approvals a.peer a.request run).2)) ∨
    ∃ x, (dispatchNew host s a clock run).started = x :: s.started ∧ x.key = a.key ∧
      x.approvalId = a.request.command.approval.map (·.approvalId) ∧
      ∃ service,
        (dispatchCommand host clock s.approvals a.peer a.request run).1 = .serving service ∧
        (dispatchNew host s a clock run).approvals =
          (dispatchCommand host clock s.approvals a.peer a.request run).2 := by
  rcases dispatchNew_cases host s a clock run with ⟨response, hnew⟩ | ⟨commands, -, hnew⟩
  · rw [hnew]
    exact .inl ⟨rfl, .inl rfl⟩
  rw [hnew]
  rcases startedOf_cases a (dispatchCommand host clock s.approvals a.peer a.request run).1 with
    hnone | ⟨service, hserving, x, hstarted, hkey, happroval⟩
  · exact .inl ⟨by dsimp only; rw [hnone, List.nil_append], .inr rfl⟩
  · exact .inr ⟨x, by dsimp only; rw [hstarted, List.singleton_append], hkey, happroval,
      service, hserving, rfl⟩

theorem beginControl_keeps_or_new (host : ControlHost) (s : ControlState) {a : ControlArrival}
    (clock : ControlClock) (run : Option ControlRun)
    (ha : a = ⟨a.peer, a.request, clock.schema, runOwnership a.peer run⟩) :
    (LedgerKeeps s.commands (beginControl host s a.peer a.request clock run).commands ∧
      (beginControl host s a.peer a.request clock run).approvals = s.approvals ∧
      (beginControl host s a.peer a.request clock run).started = s.started) ∨
    ∃ commands r, s.commands.insert (fun _ => false)
        ⟨a.peer, a.request.commandId, a.request.runId, computeControlRequestHash host a.request,
          .received, none⟩ = some commands ∧
      beginControl host s a.peer a.request clock run =
        dispatchNew host { s with commands := commands } a clock r := by
  have hsame := (ledgerGrows_refl s.commands).keeps
  rcases beginControl_cases host s a.peer a.request clock run ha with ⟨response, -, hbegin⟩ |
    ⟨-, row, -, ⟨-, hbegin⟩ | ⟨-, -, hbegin⟩ | ⟨-, -, hbegin⟩⟩ |
    ⟨-, commands, r, hinsert, hbegin⟩
  · rw [hbegin]
    exact .inl ⟨hsame, rfl, rfl⟩
  · rw [hbegin]
    exact .inl ⟨hsame, rfl, rfl⟩
  · rw [hbegin]
    exact .inl ⟨hsame, rfl, rfl⟩
  · rw [hbegin]
    exact .inl ⟨ledgerKeeps_update _ _ _ _ _, rfl, rfl⟩
  · exact .inr ⟨commands, r, hinsert, hbegin⟩

/-! ## A command starts one side effect -/

structure StartedHolds (s : ControlState) : Prop where
  rows : ∀ x ∈ s.started, ∃ row, s.commands.get x.key = some row
  once : (s.started.map StartedCommand.key).Nodup

theorem startedHolds_empty : StartedHolds .empty :=
  ⟨by simp [ControlState.empty], List.nodup_nil⟩

theorem StartedHolds.keep {s s' : ControlState} (h : StartedHolds s)
    (hkeeps : LedgerKeeps s.commands s'.commands) (hstarted : s'.started = s.started) :
    StartedHolds s' := by
  refine ⟨fun x hx => ?_, by rw [hstarted]; exact h.once⟩
  rw [hstarted] at hx
  obtain ⟨row, hget⟩ := h.rows x hx
  exact hkeeps x.key row hget

theorem startedHolds_request {host : ControlHost} {s : ControlState} (h : StartedHolds s)
    {a : ControlArrival} (clock : ControlClock) (run : Option ControlRun)
    (ha : a = ⟨a.peer, a.request, clock.schema, runOwnership a.peer run⟩) :
    StartedHolds (beginControl host s a.peer a.request clock run) := by
  rcases beginControl_keeps_or_new host s clock run ha with ⟨hkeeps, -, hstarted⟩ |
    ⟨commands, r, hinsert, hbegin⟩
  · exact h.keep hkeeps hstarted
  rw [hbegin]
  obtain ⟨hgrows, -, row, hget, -, -⟩ :=
    dispatchNew_ledger hinsert (rfl : dispatchNew host { s with commands := commands } a clock r = _)
  rcases dispatchNew_started host { s with commands := commands } a clock r with
    ⟨hstarted, -⟩ | ⟨x, hstarted, hkey, -⟩
  · exact h.keep hgrows.keeps hstarted
  refine ⟨fun y hy => ?_, ?_⟩
  · rw [hstarted] at hy
    rcases List.mem_cons.1 hy with rfl | hold
    · exact ⟨row, by rw [hkey]; exact hget⟩
    · obtain ⟨old, hgetOld⟩ := h.rows y hold
      exact hgrows.keeps y.key old hgetOld
  rw [hstarted, List.map_cons, List.nodup_cons]
  refine ⟨fun hmem => ?_, h.once⟩
  -- a command that has started before has a row, which an insert would have met
  obtain ⟨y, hy, hsame⟩ := List.mem_map.1 hmem
  obtain ⟨old, hgetOld⟩ := h.rows y hy
  have hfree : s.commands.get a.key = none := (Table.insert_eq_some_iff.1 hinsert).1
  rw [hsame, hkey, hfree] at hgetOld
  cases hgetOld

theorem startedHolds_step (host : ControlHost) {s : ControlState} (h : StartedHolds s)
    (event : ControlEvent) : StartedHolds (controlStep host s event) := by
  cases event with
  | request peer request clock run =>
    exact startedHolds_request h (a := ⟨peer, request, clock.schema, runOwnership peer run⟩) clock
      run rfl
  | finish place result =>
    rw [controlStep, finishControl]
    split
    · exact h
    · exact h.keep (ledgerKeeps_update _ _ _ _ _) rfl
  | crash => exact h.keep (ledgerGrows_refl _).keeps rfl

/-! ## A request has one reply -/

/-- What stands behind a reply: the refusal of its request, the answer on record, or a row for
another payload. -/
def ReplyBacked (host : ControlHost) (commands : Table CommandRow) (r : ControlReply) : Prop :=
  refusal r.arrival = some r.response ∨
    (refusal r.arrival = none ∧ ∃ row, commands.get r.arrival.key = some row ∧
      ((row.payloadHash = computeControlRequestHash host r.arrival.request ∧
          row.state.isFinal = true ∧ row.responseJson = some r.response) ∨
        (row.payloadHash ≠ computeControlRequestHash host r.arrival.request ∧
          r.response = conflictResponse r.arrival.request.commandId)))

def SameVerdict (a b : ControlArrival) : Prop :=
  a.peer = b.peer → a.request = b.request →
    validateControlRequest a.now a.request = validateControlRequest b.now b.request ∧
      a.ownership = b.ownership

/-- Final rows have their answers, replies what stands behind them, waiting calls their rows, and
requests one verdict. -/
structure RepliesHold (host : ControlHost) (s : ControlState) : Prop where
  stored : ∀ k row, s.commands.get k = some row → row.state.isFinal = true →
    row.responseJson.isSome = true
  backed : ∀ r ∈ s.replies, ReplyBacked host s.commands r
  waiting : ∀ f ∈ s.flights, refusal f.arrival = none ∧
    ∃ row, s.commands.get f.arrival.key = some row ∧
      row.payloadHash = computeControlRequestHash host f.arrival.request
  verdicts : ∀ a ∈ s.arrivals, ∀ b ∈ s.arrivals, SameVerdict a b

section Replies

variable {host : ControlHost} {s : ControlState} {a b : ControlArrival}

theorem repliesHold_empty (host : ControlHost) : RepliesHold host .empty :=
  ⟨fun k row hget => by simp [ControlState.empty] at hget, by simp [ControlState.empty],
    by simp [ControlState.empty], by simp [ControlState.empty, ControlState.arrivals]⟩

theorem sameVerdict_refl (a : ControlArrival) : SameVerdict a a := fun _ _ => ⟨rfl, rfl⟩

theorem SameVerdict.symm (h : SameVerdict a b) : SameVerdict b a := fun hpeer hrequest =>
  have ⟨hvalid, hownership⟩ := h hpeer.symm hrequest.symm
  ⟨hvalid.symm, hownership.symm⟩

theorem SameVerdict.refusal (h : SameVerdict a b) (hpeer : a.peer = b.peer)
    (hrequest : a.request = b.request) : refusal a = refusal b := by
  obtain ⟨hvalid, hownership⟩ := h hpeer hrequest
  rw [Abtars.refusal, Abtars.refusal, hvalid, hownership, hrequest]

theorem ReplyBacked.grow {commands commands' : Table CommandRow} {r : ControlReply}
    (h : ReplyBacked host commands r) (hgrows : LedgerGrows commands commands') :
    ReplyBacked host commands' r := by
  rcases h with hrefused | ⟨hpassed, row, hget, hrow⟩
  · exact .inl hrefused
  obtain ⟨row', hget', hhash, hkept⟩ := hgrows _ row hget
  refine .inr ⟨hpassed, row', hget', ?_⟩
  rcases hrow with ⟨hsame, hfinal, hresponse⟩ | ⟨hother, hresponse⟩
  · obtain rfl := hkept hfinal
    exact .inl ⟨hsame, hfinal, hresponse⟩
  · exact .inr ⟨by rw [hhash]; exact hother, hresponse⟩

theorem ReplyBacked.unique {commands : Table CommandRow} {r r' : ControlReply}
    (h : ReplyBacked host commands r) (h' : ReplyBacked host commands r')
    (hverdict : SameVerdict r.arrival r'.arrival) (hpeer : r.arrival.peer = r'.arrival.peer)
    (hrequest : r.arrival.request = r'.arrival.request) : r.response = r'.response := by
  have hrefusal := hverdict.refusal hpeer hrequest
  have hkey : r.arrival.key = r'.arrival.key := by
    rw [ControlArrival.key, ControlArrival.key, hpeer, hrequest]
  -- one verdict: both are refusals, or both rest on the one row of their key
  rcases h with hrefused | ⟨hpassed, row, hget, hrow⟩
  · rcases h' with hrefused' | ⟨hpassed', -⟩
    · exact Option.some.inj (hrefused.symm.trans (hrefusal.trans hrefused'))
    · rw [hrefusal, hpassed'] at hrefused
      cases hrefused
  rcases h' with hrefused' | ⟨-, row', hget', hrow'⟩
  · rw [← hrefusal, hpassed] at hrefused'
    cases hrefused'
  rw [← hkey, hget] at hget'
  obtain rfl := Option.some.inj hget'
  rw [hrequest] at hrow
  rcases hrow with ⟨hsame, -, hresponse⟩ | ⟨hother, hresponse⟩
  · rcases hrow' with ⟨-, -, hresponse'⟩ | ⟨hother', -⟩
    · exact Option.some.inj (hresponse.symm.trans hresponse')
    · exact absurd hsame hother'
  · rcases hrow' with ⟨hsame', -, -⟩ | ⟨-, hresponse'⟩
    · exact absurd hsame' hother
    · exact hresponse.trans hresponse'.symm

/-- A step under which the ledger grows, and that only adds to the calls one that is backed and
judged as before. -/
theorem RepliesHold.step {s' : ControlState} (h : RepliesHold host s)
    (hgrows : LedgerGrows s.commands s'.commands)
    (hstored : ∀ k row, s'.commands.get k = some row → row.state.isFinal = true →
      s.commands.get k = some row ∨ row.responseJson.isSome = true)
    (hreplies : ∀ r ∈ s'.replies, r ∈ s.replies ∨ r.arrival = a ∧ ReplyBacked host s'.commands r)
    (hflights : ∀ f ∈ s'.flights, f ∈ s.flights ∨ f.arrival = a ∧ refusal a = none ∧
      ∃ row, s'.commands.get a.key = some row ∧
        row.payloadHash = computeControlRequestHash host a.request)
    (hverdict : ∀ b ∈ s.arrivals, SameVerdict b a) : RepliesHold host s' := by
  have harrivals : ∀ b ∈ s'.arrivals, b ∈ s.arrivals ∨ b = a := by
    intro b hb
    rw [ControlState.arrivals, List.mem_append, List.mem_map, List.mem_map] at hb ⊢
    rcases hb with ⟨r, hr, rfl⟩ | ⟨f, hf, rfl⟩
    · exact (hreplies r hr).imp (fun hold => .inl ⟨r, hold, rfl⟩) fun hnew => hnew.1
    · exact (hflights f hf).imp (fun hold => .inr ⟨f, hold, rfl⟩) fun hnew => hnew.1
  refine ⟨fun k row hget hfinal => ?_, fun r hr => ?_, fun f hf => ?_, fun b hb c hc => ?_⟩
  · exact (hstored k row hget hfinal).elim (fun hold => h.stored k row hold hfinal) id
  · exact (hreplies r hr).elim (fun hold => (h.backed r hold).grow hgrows) fun hnew => hnew.2
  · rcases hflights f hf with hold | ⟨rfl, hpassed, hrow⟩
    · obtain ⟨hpassed, row, hget, hhash⟩ := h.waiting f hold
      obtain ⟨row', hget', hhash', -⟩ := hgrows _ row hget
      exact ⟨hpassed, row', hget', hhash'.trans hhash⟩
    · exact ⟨hpassed, hrow⟩
  rcases harrivals b hb with hb | rfl
  · rcases harrivals c hc with hc | rfl
    · exact h.verdicts b hb c hc
    · exact hverdict b hb
  · rcases harrivals c hc with hc | rfl
    · exact (hverdict c hc).symm
    · exact sameVerdict_refl _

theorem RepliesHold.answer (h : RepliesHold host s) {response : RemotePiControlResponse}
    (hbacked : ReplyBacked host s.commands ⟨a, response⟩)
    (hverdict : ∀ b ∈ s.arrivals, SameVerdict b a) : RepliesHold host (s.answer a response) := by
  refine h.step (ledgerGrows_refl s.commands) (fun k row hget _ => .inl hget) (fun r hr => ?_)
    (fun f hf => .inl hf) hverdict
  rcases List.mem_cons.1 hr with rfl | hold
  · exact .inr ⟨rfl, hbacked⟩
  · exact .inl hold

theorem RepliesHold.record (h : RepliesHold host s) (hpassed : refusal a = none) {row : CommandRow}
    (hget : s.commands.get a.key = some row)
    (hhash : row.payloadHash = computeControlRequestHash host a.request)
    (hopen : row.state.isFinal = false) (hverdict : ∀ b ∈ s.arrivals, SameVerdict b a)
    (response : RemotePiControlResponse) (flights : List ControlFlight)
    (hflights : ∀ f ∈ flights, f ∈ s.flights) :
    RepliesHold host ({ s with
      commands := recordCommandOutcome s.commands a.peer a.request.commandId response
      flights := flights }.answer a response) := by
  have hrow := get_updateCommand hget response.outcome.ledgerState (some response)
  refine h.step (a := a) (ledgerGrows_update (fun row' hget' => ?_) _ _)
    (fun k row' hget' hfinal => ?_) (fun r hr => ?_) (fun f hf => .inl (hflights f hf)) hverdict
  · obtain rfl := Option.some.inj (hget.symm.trans hget')
    exact hopen
  · by_cases hk : k = a.key
    · subst hk
      obtain rfl := Option.some.inj (hrow.symm.trans hget')
      exact .inr rfl
    · exact .inl ((get_updateCommand_of_ne hk _ _).symm.trans hget')
  · rcases List.mem_cons.1 hr with rfl | hold
    · exact .inr ⟨rfl, .inr ⟨hpassed, _, hrow, .inl ⟨hhash, isFinal_ledgerState _, rfl⟩⟩⟩
    · exact .inl hold

/-- A new command, answered at once or waiting. -/
theorem RepliesHold.new (h : RepliesHold host s) (hpassed : refusal a = none)
    {commands : Table CommandRow}
    (hinsert : s.commands.insert (fun _ => false)
      ⟨a.peer, a.request.commandId, a.request.runId, computeControlRequestHash host a.request,
        .received, none⟩ = some commands)
    (hverdict : ∀ b ∈ s.arrivals, SameVerdict b a) (clock : ControlClock) (run : ControlRun) :
    RepliesHold host (dispatchNew host { s with commands := commands } a clock run) := by
  generalize hs' : dispatchNew host { s with commands := commands } a clock run = s'
  obtain ⟨hgrows, hother, row, hget, hhash, hrow⟩ := dispatchNew_ledger hinsert hs'.symm
  have hstored : ∀ k row', s'.commands.get k = some row' → row'.state.isFinal = true →
      s.commands.get k = some row' ∨ row'.responseJson.isSome = true := by
    intro k row' hget' hfinal
    by_cases hk : k = a.key
    · subst hk
      obtain rfl := Option.some.inj (hget.symm.trans hget')
      rcases hrow with ⟨-, -, response, hresponse, -⟩ | ⟨hopen, -⟩
      · exact .inr (by rw [hresponse]; rfl)
      · rw [hopen] at hfinal
        cases hfinal
    · exact .inl ((hother k hk).symm.trans hget')
  rcases hrow with ⟨hfinal, hflights, response, hresponse, hreplies⟩ |
    ⟨-, hreplies, dispatch, hflights⟩
  · refine h.step hgrows hstored (fun r hr => ?_) (fun f hf => .inl (hflights ▸ hf)) hverdict
    rw [hreplies] at hr
    rcases List.mem_cons.1 hr with rfl | hold
    · exact .inr ⟨rfl, .inr ⟨hpassed, row, hget, .inl ⟨hhash, hfinal, hresponse⟩⟩⟩
    · exact .inl hold
  · refine h.step hgrows hstored (fun r hr => .inl (hreplies ▸ hr)) (fun f hf => ?_) hverdict
    rw [hflights, List.mem_append, List.mem_singleton] at hf
    rcases hf with hold | rfl
    · exact .inl hold
    · exact .inr ⟨rfl, hpassed, row, hget, hhash⟩

theorem repliesHold_step (h : RepliesHold host s) (event : ControlEvent)
    (hsteady : SteadyControl host s event) : RepliesHold host (controlStep host s event) := by
  cases event with
  | request peer request clock run =>
    have hverdict : ∀ b ∈ s.arrivals,
        SameVerdict b ⟨peer, request, clock.schema, runOwnership peer run⟩ := by
      intro b hb hpeer hrequest
      obtain ⟨hvalid, hownership⟩ := hsteady.1 b hb hpeer hrequest
      rw [hrequest]
      exact ⟨hvalid, hownership⟩
    rw [controlStep]
    rcases beginControl_cases host s peer request clock run rfl with ⟨response, hrefused, hbegin⟩ |
      ⟨hpassed, row, hget, ⟨hhash, hbegin⟩ | ⟨hhash, hfinal, hbegin⟩ | ⟨hhash, hopen, hbegin⟩⟩ |
      ⟨hpassed, commands, r, hinsert, hbegin⟩
    · rw [hbegin]
      exact h.answer (.inl hrefused) hverdict
    · rw [hbegin]
      exact h.answer (.inr ⟨hpassed, row, hget, .inr ⟨hhash, rfl⟩⟩) hverdict
    · rw [hbegin]
      obtain ⟨response, hresponse⟩ := Option.isSome_iff_exists.1 (h.stored _ row hget hfinal)
      rw [hresponse, Option.getD_some]
      exact h.answer (.inr ⟨hpassed, row, hget, .inl ⟨hhash, hfinal, hresponse⟩⟩) hverdict
    · rw [hbegin]
      exact h.record hpassed hget hhash hopen hverdict _ s.flights fun _ hf => hf
    · rw [hbegin]
      exact h.new hpassed hinsert hverdict clock r
  | finish place result =>
    rw [controlStep, finishControl]
    split
    · exact h
    rename_i f hplace
    have hf := List.mem_of_getElem? hplace
    obtain ⟨hpassed, row, hget, hhash⟩ := h.waiting f hf
    -- its row waits for the answer, as no duplicate was answered in the meantime
    have harrival : f.arrival ∈ s.arrivals :=
      List.mem_append_right _ (List.mem_map.2 ⟨f, hf, rfl⟩)
    exact h.record hpassed hget hhash (hsteady f hplace row hget)
      (fun b hb => h.verdicts b hb _ harrival) _ _ fun _ hg => List.mem_of_mem_eraseIdx hg
  | crash =>
    refine ⟨h.stored, h.backed, fun f hf => (List.not_mem_nil hf).elim, fun b hb c hc => ?_⟩
    have hsub : ∀ b ∈ ({ s with flights := [] } : ControlState).arrivals, b ∈ s.arrivals := by
      intro b hb
      rw [ControlState.arrivals, List.map_nil, List.append_nil] at hb
      exact List.mem_append_left _ hb
    exact h.verdicts b (hsub b hb) c (hsub c hc)

end Replies

/-! ## An approval starts one resume -/

theorem consumeApproval_cases (approvals : Table ConsumedApproval)
    (approvalId runId originPeer commandId : String) :
    (∃ approvals', approvals.insert (fun _ => false) ⟨approvalId, runId, originPeer, commandId⟩ =
        some approvals' ∧
      consumeApproval approvals approvalId runId originPeer commandId =
        (.consumed true, approvals')) ∨
    (∃ row, approvals.get approvalId = some row ∧ row.commandId = commandId ∧
      consumeApproval approvals approvalId runId originPeer commandId =
        (.consumed false, approvals)) ∨
    ∃ reason, consumeApproval approvals approvalId runId originPeer commandId =
      (.refused reason, approvals) := by
  rw [consumeApproval]
  split
  · rename_i approvals' hinsert
    exact .inl ⟨approvals', hinsert, rfl⟩
  split
  · rename_i hany
    obtain ⟨row, hget, hcommand⟩ := (Option.any_eq_true _ _).1 hany
    exact .inr (.inl ⟨row, hget, of_decide_eq_true hcommand, rfl⟩)
  · exact .inr (.inr ⟨_, rfl⟩)

theorem approval_eq_some_iff {command : RemotePiCommand} {approval : ResumeApproval} :
    command.approval = some approval ↔ command = .resume (some approval) := by
  cases command <;> simp [RemotePiCommand.approval]

theorem dispatchCommand_of_no_approval (host : ControlHost) (clock : ControlClock)
    (approvals : Table ConsumedApproval) (originPeer : String) {request : RemotePiControlRequest}
    (run : ControlRun) (hnone : request.command.approval = none) :
    (dispatchCommand host clock approvals originPeer request run).2 = approvals := by
  unfold dispatchCommand
  split
  all_goals first
    | rfl
    | rename_i approval hcommand
      rw [approval_eq_some_iff.2 hcommand] at hnone
      cases hnone

/-- What a dispatch does to the approvals: rows stay, and a resume only starts when its approval is
newly consumed or was so under its command id. -/
theorem dispatchCommand_approvals (host : ControlHost) (clock : ControlClock)
    (approvals : Table ConsumedApproval) (originPeer : String) (request : RemotePiControlRequest)
    (run : ControlRun) {dispatch : Dispatch} {approvals' : Table ConsumedApproval}
    (h : dispatchCommand host clock approvals originPeer request run = (dispatch, approvals')) :
    (∀ id row, approvals.get id = some row → approvals'.get id = some row) ∧
    ∀ service, dispatch = .serving service → ∀ approval ∈ request.command.approval,
      approvalError host clock originPeer request approval = none ∧
      ∃ row, approvals'.get approval.approvalId = some row ∧ row.commandId = request.commandId ∧
        (approvals.get approval.approvalId = some row ∨
          (approvals.get approval.approvalId = none ∧ row.originPeer = originPeer)) := by
  have hsame : ∀ id row, approvals.get id = some row → approvals.get id = some row :=
    fun _ _ hget => hget
  cases hpresented : request.command.approval with
  | none =>
    have hkept := dispatchCommand_of_no_approval host clock approvals originPeer run hpresented
    rw [h] at hkept
    exact ⟨fun id row hget => by rw [show approvals' = approvals from hkept]; exact hget,
      fun _ _ _ happroval => by cases happroval⟩
  | some approval =>
    rw [dispatchCommand, approval_eq_some_iff.1 hpresented] at h
    dsimp only at h
    rw [handleResume] at h
    split at h
    · cases h
      exact ⟨hsame, fun _ hserving => by cases hserving⟩
    rename_i hchecked
    rcases consumeApproval_cases approvals approval.approvalId request.runId originPeer
      request.commandId with ⟨table, hinsert, hconsume⟩ | ⟨row, hget, hrow, hconsume⟩ |
        ⟨reason, hconsume⟩
    · rw [hconsume] at h
      cases h
      refine ⟨fun id row hget => Table.get_insert_of_some hinsert hget, ?_⟩
      intro _ _ _ happroval
      obtain rfl := Option.some.inj happroval
      exact ⟨hchecked, _, Table.get_insert_new hinsert, rfl,
        .inr ⟨(Table.insert_eq_some_iff.1 hinsert).1, rfl⟩⟩
    · rw [hconsume] at h
      cases h
      refine ⟨hsame, fun _ _ _ happroval => ?_⟩
      obtain rfl := Option.some.inj happroval
      exact ⟨hchecked, row, hget, hrow, .inl hget⟩
    · rw [hconsume] at h
      cases h
      exact ⟨hsame, fun _ hserving => by cases hserving⟩

structure ResumedHolds (s : ControlState) : Prop where
  rows : ∀ x ∈ s.started, ∀ id ∈ x.approvalId, ∃ row, s.approvals.get id = some row ∧
    row.commandId = x.commandId ∧ row.originPeer = x.peer
  once : (s.started.filterMap (·.approvalId)).Nodup

theorem resumedHolds_empty : ResumedHolds .empty :=
  ⟨by simp [ControlState.empty], List.nodup_nil⟩

theorem ResumedHolds.keep {s s' : ControlState} (h : ResumedHolds s)
    (happrovals : ∀ id row, s.approvals.get id = some row → s'.approvals.get id = some row)
    (hstarted : s'.started = s.started) : ResumedHolds s' := by
  refine ⟨fun x hx id hid => ?_, by rw [hstarted]; exact h.once⟩
  rw [hstarted] at hx
  obtain ⟨row, hget, hrow⟩ := h.rows x hx id hid
  exact ⟨row, happrovals id row hget, hrow⟩

/-- The resume of a new command starts under an approval that has started none. -/
theorem ResumedHolds.new {host : ControlHost} {s : ControlState} (h : ResumedHolds s)
    (hstarted : StartedHolds s) {a : ControlArrival} (hfree : s.commands.get a.key = none)
    (clock : ControlClock)
    (hpeer : ∀ approval ∈ a.request.command.approval,
      approvalError host clock a.peer a.request approval = none →
      ∀ row ∈ s.approvals.rows, row.approvalId = approval.approvalId →
        row.commandId = a.request.commandId → row.originPeer = a.peer)
    (commands : Table CommandRow) (run : ControlRun) :
    ResumedHolds (dispatchNew host { s with commands := commands } a clock run) := by
  obtain ⟨hkept, hserved⟩ := dispatchCommand_approvals host clock s.approvals a.peer a.request run
    rfl
  rcases dispatchNew_started host { s with commands := commands } a clock run with
    ⟨hnone, happrovals⟩ | ⟨x, hof, hkey, happroval, service, hserving, happrovals⟩
  · refine h.keep (fun id row hget => ?_) hnone
    rcases happrovals with hsame | hdispatched
    · rw [hsame]
      exact hget
    · rw [hdispatched]
      exact hkept id row hget
  obtain ⟨hxpeer, hxcommand⟩ := Prod.mk.inj hkey
  -- the row of the approval is the peer's own: new, or by the condition on the step
  have hrow : ∀ id ∈ x.approvalId, ∃ row,
      (dispatchCommand host clock s.approvals a.peer a.request run).2.get id = some row ∧
      row.commandId = x.commandId ∧ row.originPeer = x.peer := by
    intro id hid
    rw [happroval] at hid
    obtain ⟨approval, hpresented, rfl⟩ := Option.map_eq_some_iff.1 hid
    obtain ⟨hchecked, row, hget, hcommand, hold | ⟨-, hown⟩⟩ :=
      hserved service hserving approval hpresented
    · have hown := hpeer approval hpresented hchecked row (Table.mem_of_get hold)
        (Table.key_of_get hold) hcommand
      exact ⟨row, hget, hcommand.trans hxcommand.symm, hown.trans hxpeer.symm⟩
    · exact ⟨row, hget, hcommand.trans hxcommand.symm, hown.trans hxpeer.symm⟩
  refine ⟨fun y hy id hid => ?_, ?_⟩
  · rw [happrovals]
    rw [hof] at hy
    rcases List.mem_cons.1 hy with rfl | hold
    · exact hrow id hid
    · obtain ⟨row, hget, hrest⟩ := h.rows y hold id hid
      exact ⟨row, hkept id row hget, hrest⟩
  · rw [hof]
    cases hid : x.approvalId with
    | none =>
      rw [List.filterMap_cons_none hid]
      exact h.once
    | some id =>
      rw [List.filterMap_cons_some hid, List.nodup_cons]
      refine ⟨fun hmem => ?_, h.once⟩
      -- a resume started under it has the same key as this one, which has no row yet
      obtain ⟨y, hy, hyid⟩ := List.mem_filterMap.1 hmem
      obtain ⟨row, hget, hcommand, hown⟩ := h.rows y hy id hyid
      obtain ⟨row', hget', hcommand', hown'⟩ := hrow id hid
      obtain rfl := Option.some.inj ((hkept id row hget).symm.trans hget')
      obtain ⟨ledgerRow, hledger⟩ := hstarted.rows y hy
      have hykey : y.key = a.key := by
        rw [← hkey, StartedCommand.key, StartedCommand.key, ← hcommand, ← hown, hcommand', hown']
      rw [hykey, hfree] at hledger
      cases hledger

theorem resumedHolds_step (host : ControlHost) {s : ControlState} (h : ResumedHolds s)
    (hstarted : StartedHolds s) (event : ControlEvent) (hsteady : SteadyControl host s event) :
    ResumedHolds (controlStep host s event) := by
  cases event with
  | request peer request clock run =>
    rw [controlStep]
    rcases beginControl_keeps_or_new host s
      (a := ⟨peer, request, clock.schema, runOwnership peer run⟩) clock run rfl with
        ⟨-, happrovals, hsame⟩ | ⟨commands, r, hinsert, hbegin⟩
    · exact h.keep (fun id row hget => by rw [happrovals]; exact hget) hsame
    · rw [hbegin]
      have hfree : s.commands.get (peer, request.commandId) = none :=
        (Table.insert_eq_some_iff.1 hinsert).1
      exact ResumedHolds.new (a := ⟨peer, request, clock.schema, runOwnership peer run⟩) h hstarted
        hfree clock (hsteady.2 hfree) commands r
  | finish place result =>
    rw [controlStep, finishControl]
    split
    · exact h
    · exact h.keep (fun _ _ hget => hget) rfl
  | crash => exact h.keep (fun _ _ hget => hget) rfl

/-! ## Runs -/

/-- In a steady run commands run once and answer the same. -/
theorem control_once (host : ControlHost) (events : List ControlEvent)
    (hsteady : StepsMeet (controlStep host) (SteadyControl host) .empty events) :
    ControlConsistent (runFrom (controlStep host) .empty events) := by
  have hinv : StartedHolds (runFrom (controlStep host) .empty events) ∧
      ResumedHolds (runFrom (controlStep host) .empty events) ∧
      RepliesHold host (runFrom (controlStep host) .empty events) :=
    invariant_of_stepsMeet
      (I := fun s => StartedHolds s ∧ ResumedHolds s ∧ RepliesHold host s)
      (fun s event h hsteps => ⟨startedHolds_step host h.1 event,
        resumedHolds_step host h.2.1 h.1 event hsteps, repliesHold_step h.2.2 event hsteps⟩)
      events .empty ⟨startedHolds_empty, resumedHolds_empty, repliesHold_empty host⟩ hsteady
  obtain ⟨hstarted, hresumed, hreplies⟩ := hinv
  refine ⟨hstarted.once, hresumed.once, fun r hr r' hr' hpeer hrequest => ?_⟩
  have harrival : ∀ x ∈ (runFrom (controlStep host) .empty events).replies,
      x.arrival ∈ (runFrom (controlStep host) .empty events).arrivals := fun x hx =>
    List.mem_append_left _ (List.mem_map.2 ⟨x, hx, rfl⟩)
  exact (hreplies.backed r hr).unique (hreplies.backed r' hr')
    (hreplies.verdicts _ (harrival r hr) _ (harrival r' hr')) hpeer hrequest

/-! ## A steady run, and three that are not -/

/-- A host whose digest of a text is its size, and that knows the dates of the approvals below. -/
def plainControlHost : ControlHost where
  sha256 := fun text => toString text.utf8ByteSize
  dateValue := fun text =>
    if text = "2026-01-01T00:00:00.000Z" then some 1767225600000
    else if text = "2026-01-02T00:00:00.000Z" then some 1767312000000
    else none

def noon : ControlClock := ⟨"2026-01-01T12:00:00.000Z", "2026-01-01T12:00:00.000Z", 1767268800000⟩

def twoDaysOn : ControlClock :=
  ⟨"2026-01-03T00:00:00.000Z", "2026-01-03T00:00:00.000Z", 1767398400000⟩

def projectionOfStatus (status : PiRunStatus) : RemotePiPublicProjection :=
  ⟨status, 1, none, none, none, none, none, none, none, none, none⟩

def controlledRun (peer : String) (status : PiRunStatus) : ControlRun :=
  ⟨some peer, 1, status, none, "available", projectionOfStatus status⟩

def steerRequest : RemotePiControlRequest := ⟨1, "cmd", "run-kp", 1, .steer "go on"⟩

def steerCommandEvent : ControlEvent :=
  .request "kp" steerRequest noon (some (controlledRun "kp" .running))

def resumeApproval (peer runId : String) : ResumeApproval :=
  let approval : ResumeApproval :=
    ⟨"ap", runId, peer, "cmd", "operator", "2026-01-01T00:00:00.000Z",
      "2026-01-02T00:00:00.000Z", 1, ""⟩
  { approval with
    approvalStatementSha256 := plainControlHost.sha256 (canonicalApprovalStatement approval) }

def resumeEvent (peer runId : String) (clock : ControlClock) (status : PiRunStatus) :
    ControlEvent :=
  .request peer ⟨1, "cmd", runId, 1, .resume (some (resumeApproval peer runId))⟩ clock
    (some (controlledRun peer status))

/-- A resume that lands, and a duplicate of it. -/
theorem control_once_repeated :
    ControlConsistent (runFrom (controlStep plainControlHost) .empty
      [resumeEvent "kp" "run-kp" noon .interrupted,
        .finish 0 (.resolved (projectionOfStatus .queued)),
        resumeEvent "kp" "run-kp" noon .queued]) :=
  control_once plainControlHost _ (by decide +kernel)

/-- A duplicate that comes while its command waits, an approval that two peers present under one
command id, and a duplicate that comes after its approval has expired. -/
theorem control_inconsistent :
    ¬ ControlConsistent (runFrom (controlStep plainControlHost) .empty
      [steerCommandEvent, steerCommandEvent, .finish 0 (.resolved (projectionOfStatus .running))]) ∧
    ¬ ControlConsistent (runFrom (controlStep plainControlHost) .empty
      [resumeEvent "kp" "run-kp" noon .interrupted,
        resumeEvent "kq" "run-kq" noon .interrupted]) ∧
    ¬ ControlConsistent (runFrom (controlStep plainControlHost) .empty
      [resumeEvent "kp" "run-kp" noon .interrupted,
        .finish 0 (.resolved (projectionOfStatus .queued)),
        resumeEvent "kp" "run-kp" twoDaysOn .running]) := by
  decide +kernel

end Abtars
