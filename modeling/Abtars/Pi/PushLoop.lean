import Abtars.Pi.Acknowledgement
import Mathlib.Logic.Function.Iterate

/-!
# The loop of a push

`pushEvents` reads a batch of a run, offers its events to the route and, with a budget, begins
again.  What it has offered stays in the outbox until the origin acknowledges it, so that the next
batch begins with the same events.
-/

namespace Abtars

open Lib

/-- What a drain grants one run. -/
structure DrainBudget where
  deadlineMs : Int
  maxEventsPerRun : Int

/-- A call of `pushEvents`; `answers n` is what `sendPush` makes of the event it is given as the
`n`th, `false` also where it throws. -/
structure PushCall where
  config : RemotePiConfig
  maxPushBatch : Int
  runId : String
  hasRoute : Bool
  budget : Option DrainBudget
  outbox : Outbox
  answers : Nat → Bool

structure PushPass where
  batches : Nat
  pushed : Nat
  sent : List RemotePiEvent
  ended : Bool

namespace PushCall

variable (call : PushCall)

def batchLimit (pushed : Nat) : Int :=
  match call.budget with
  | none => call.maxPushBatch
  | some budget => min call.maxPushBatch (max 0 (budget.maxEventsPerRun - pushed))

/-- An event that is not admitted is logged and passed over. -/
def pushRow (s : PushPass) (row : OutboxRow) : PushPass :=
  if call.config.admits row.toRemotePiEvent then
    { s with
      pushed := if call.answers s.sent.length then s.pushed + 1 else s.pushed
      sent := s.sent ++ [row.toRemotePiEvent] }
  else s

/-- One turn of the loop; `clock` gives the time each of them reads. -/
def turn (clock : Nat → Int) (s : PushPass) : PushPass :=
  let limit := call.batchLimit s.pushed
  let rows := getUnacknowledgedEvents call.runId limit.toNat call.outbox
  if s.ended = true ∨ call.budget.any (·.deadlineMs ≤ clock s.batches) = true ∨ limit ≤ 0 ∨
      rows = [] then { s with ended := true }
  else
    { rows.foldl call.pushRow s with
      batches := s.batches + 1
      ended := call.budget.isNone || decide ((rows.length : Int) < limit) }

def start : PushPass := ⟨0, 0, [], !call.hasRoute⟩

def after (clock : Nat → Int) (n : Nat) : PushPass := (call.turn clock)^[n] call.start

def pending : List OutboxRow := unacknowledgedEvents call.runId call.outbox

/-- The loop ends in time, after one turn for each pending event and one to find nothing left, and
what it sends are pending events, each once and in the order of their sequence. -/
structure Clean (clock : Nat → Int) : Prop where
  ends : (call.after clock (call.pending.length + 1)).ended = true
  sent : ∀ n, (call.after clock n).sent.Sublist (call.pending.map OutboxRow.toRemotePiEvent)

/-- Every event is admitted and accepted; the first of them is given to `sendPush` as the `n`th. -/
def AllTaken : Nat → List OutboxRow → Prop
  | _, [] => True
  | n, row :: rest =>
    call.config.admits row.toRemotePiEvent = true ∧ call.answers n = true ∧
      AllTaken (n + 1) rest

/-- The loop has no second batch to read. -/
def SingleBatch : Prop :=
  call.hasRoute = false ∨ call.budget = none ∨ call.batchLimit 0 ≤ 0 ∨
    (call.pending.length : Int) < call.batchLimit 0 ∨
      ∃ budget, call.budget = some budget ∧ budget.maxEventsPerRun ≤ call.maxPushBatch ∧
        call.AllTaken 0 (call.pending.take budget.maxEventsPerRun.toNat)

variable {call} {clock : Nat → Int} {s : PushPass}

/-! ## One batch -/

theorem sent_foldl (rows : List OutboxRow) (s : PushPass) :
    (rows.foldl call.pushRow s).sent =
      s.sent ++ (rows.map OutboxRow.toRemotePiEvent).filter call.config.admits := by
  induction rows generalizing s with
  | nil => simp
  | cons row rest ih =>
    rw [List.foldl_cons, ih, pushRow]
    split
    · rename_i hadmits
      simp [hadmits]
    · rename_i hadmits
      simp [hadmits]

theorem pushed_foldl (rows : List OutboxRow) (s : PushPass) :
    (rows.foldl call.pushRow s).pushed ≤ s.pushed + rows.length ∧
      ((rows.foldl call.pushRow s).pushed = s.pushed + rows.length ↔
        call.AllTaken s.sent.length rows) := by
  induction rows generalizing s with
  | nil => simp [AllTaken]
  | cons row rest ih =>
    obtain ⟨hle, hiff⟩ := ih (call.pushRow s row)
    rw [List.foldl_cons, List.length_cons, AllTaken]
    unfold pushRow at hle hiff ⊢
    by_cases hadmits : call.config.admits row.toRemotePiEvent = true
    · simp only [hadmits, if_true, List.length_append, List.length_singleton] at hle hiff ⊢
      by_cases hanswer : call.answers s.sent.length = true
      · simp only [hanswer, if_true] at hle hiff ⊢
        exact ⟨by omega, by rw [← Nat.add_assoc, Nat.add_right_comm, hiff]; simp⟩
      · simp only [hanswer, if_false, Bool.false_eq_true] at hle hiff ⊢
        exact ⟨by omega, fun h => by omega, fun h => h.2.1.elim⟩
    · simp only [hadmits, if_false, Bool.false_eq_true] at hle hiff ⊢
      exact ⟨by omega, fun h => by omega, fun h => h.1.elim⟩

theorem foldl_of_none {rows : List OutboxRow} (s : PushPass)
    (h : ∀ row ∈ rows, ¬ call.config.admits row.toRemotePiEvent = true) :
    rows.foldl call.pushRow s = s := by
  induction rows with
  | nil => rfl
  | cons row rest ih =>
    rw [List.foldl_cons, pushRow, if_neg (h row List.mem_cons_self)]
    exact ih fun other hother => h other (List.mem_cons_of_mem row hother)

theorem pending_sorted (call : PushCall) :
    call.pending.Pairwise fun row other => row.sequence < other.sequence := by
  have hnodup : call.pending.Nodup := by
    rw [pending, unacknowledgedEvents, (List.perm_insertionSort _ _).nodup_iff]
    exact (List.Nodup.of_map _ call.outbox.keys_nodup).filter _
  refine ((unacknowledgedEvents_sorted call.runId call.outbox).and hnodup).imp_of_mem
    fun {row other} hrow hother h => lt_of_le_of_ne h.1 fun hsame => h.2 ?_
  obtain ⟨hrow, hid, -⟩ := mem_unacknowledgedEvents.1 hrow
  obtain ⟨hother, hid', -⟩ := mem_unacknowledgedEvents.1 hother
  exact Table.eq_of_key_eq hrow hother (Prod.ext (hid.trans hid'.symm) hsame)

/-! ## Turns -/

theorem turn_of_ended (h : s.ended = true) : call.turn clock s = s := by
  obtain ⟨batches, pushed, sent, ended⟩ := s
  obtain rfl : ended = true := h
  simp [turn]

theorem turn_of_batch (hroute : s.ended = false)
    (htime : call.budget.any (·.deadlineMs ≤ clock s.batches) = false)
    (hlimit : 0 < call.batchLimit s.pushed) (hpending : call.pending ≠ []) :
    call.turn clock s =
      { (call.pending.take (call.batchLimit s.pushed).toNat).foldl call.pushRow s with
        batches := s.batches + 1
        ended := call.budget.isNone ||
          decide ((call.pending.length : Int) < call.batchLimit s.pushed) } := by
  have hrows : getUnacknowledgedEvents call.runId (call.batchLimit s.pushed).toNat call.outbox =
      call.pending.take (call.batchLimit s.pushed).toNat := rfl
  have hnonempty : call.pending.take (call.batchLimit s.pushed).toNat ≠ [] := by
    rw [Ne, List.take_eq_nil_iff]
    rintro (hzero | hnil)
    · omega
    · exact hpending hnil
  have hlength : ((call.pending.take (call.batchLimit s.pushed).toNat).length : Int) <
      call.batchLimit s.pushed ↔ (call.pending.length : Int) < call.batchLimit s.pushed := by
    rw [List.length_take]
    omega
  unfold turn
  dsimp only
  rw [hrows, if_neg (by simp [hroute, htime, hnonempty, hlimit])]
  simp only [hlength]

/-- A turn ends the loop or is a batch. -/
theorem turn_cases (clock : Nat → Int) (s : PushPass) :
    call.turn clock s = { s with ended := true } ∨
      s.ended = false ∧ call.budget.any (·.deadlineMs ≤ clock s.batches) = false ∧
        0 < call.batchLimit s.pushed ∧ call.pending ≠ [] := by
  by_cases hbatch : s.ended = false ∧ call.budget.any (·.deadlineMs ≤ clock s.batches) = false ∧
      0 < call.batchLimit s.pushed ∧ call.pending ≠ []
  · exact .inr hbatch
  · refine .inl (if_pos ?_)
    by_contra hnone
    simp only [not_or, Bool.not_eq_true, not_le] at hnone
    refine hbatch ⟨hnone.1, hnone.2.1, hnone.2.2.1, fun hnil => hnone.2.2.2 ?_⟩
    show call.pending.take _ = []
    rw [hnil, List.take_nil]

theorem clean_of_second (hfirst : (call.turn clock call.start).ended = true ∨
      call.pending ≠ [] ∧ call.turn clock (call.turn clock call.start) =
        { call.turn clock call.start with ended := true }) : call.Clean clock := by
  have hone : (call.turn clock call.start).sent.Sublist
      (call.pending.map OutboxRow.toRemotePiEvent) := by
    rcases turn_cases clock call.start with h | ⟨hroute, htime, hlimit, hpending⟩
    · rw [h]
      exact List.nil_sublist _
    · rw [turn_of_batch hroute htime hlimit hpending, sent_foldl]
      exact (List.filter_sublist).trans ((List.take_sublist _ _).map _)
  have hrest : ∀ n, (call.after clock (n + 2)).sent = (call.turn clock call.start).sent ∧
      (call.after clock (n + 2)).ended = true := by
    intro n
    have hstays : ∀ {u : PushPass}, u.ended = true → (call.turn clock)^[n] u = u := fun hu =>
      Function.iterate_fixed (turn_of_ended hu) n
    unfold after
    rw [Function.iterate_succ_apply, Function.iterate_succ_apply]
    rcases hfirst with hended | ⟨-, hsecond⟩
    · rw [turn_of_ended hended, hstays hended]
      exact ⟨rfl, hended⟩
    · rw [hsecond, hstays rfl]
      exact ⟨rfl, rfl⟩
  constructor
  · rcases hfirst with hended | ⟨hpending, -⟩
    · cases hlength : call.pending.length with
      | zero => exact hended
      | succ n => exact (hrest n).2
    obtain ⟨n, hn⟩ := Nat.exists_eq_succ_of_ne_zero
      (fun hzero => hpending (List.length_eq_zero_iff.1 hzero))
    rw [hn]
    exact (hrest n).2
  · intro n
    match n with
    | 0 => exact List.nil_sublist _
    | 1 => exact hone
    | n + 2 =>
      rw [(hrest n).1]
      exact hone

theorem clean_of_singleBatch (h : call.SingleBatch) (clock : Nat → Int) : call.Clean clock := by
  refine clean_of_second ?_
  rcases turn_cases clock call.start with hended | ⟨hroute, htime, hlimit, hpending⟩
  · exact .inl (by rw [hended])
  have hfirst := turn_of_batch hroute htime hlimit hpending
  rcases h with hnone | hnone | hnone | hshort | ⟨budget, hbudget, hbound, htaken⟩
  · simp [start, hnone] at hroute
  · exact .inl (by rw [hfirst, hnone]; rfl)
  · exact absurd hlimit (Int.not_lt.2 hnone)
  · refine .inl ?_
    rw [hfirst]
    simpa using .inr hshort
  · have hzero : call.batchLimit 0 = budget.maxEventsPerRun := by
      have hpos : 0 < call.batchLimit 0 := hlimit
      simp only [batchLimit, hbudget] at hpos ⊢
      omega
    by_cases hshort : (call.pending.length : Int) < budget.maxEventsPerRun
    · refine .inl ?_
      rw [hfirst]
      simpa [start, hzero] using .inr hshort
    refine .inr ⟨hpending, (turn_cases clock _).resolve_right fun hagain => ?_⟩
    have hpushed : (List.foldl call.pushRow call.start _).pushed = _ :=
      (pushed_foldl (call.pending.take budget.maxEventsPerRun.toNat) call.start).2.2 htaken
    have hlimit' := hagain.2.2.1
    rw [hfirst] at hlimit'
    simp only [start, hzero] at hlimit' hpushed
    rw [hpushed, List.length_take] at hlimit'
    simp only [batchLimit, hbudget] at hlimit'
    omega

/-! ## A second batch -/

/-- A loop that reads a second batch under a clock that stands still sends an event again or goes on
for ever. -/
theorem singleBatch_of_clean (h : ∀ clock, call.Clean clock) : call.SingleBatch := by
  by_contra hsecond
  simp only [SingleBatch, not_or, not_exists, not_and, not_lt, not_le] at hsecond
  obtain ⟨hroute, hbudget, hlimit, hlong, htaken⟩ := hsecond
  obtain ⟨budget, hbudget⟩ := Option.ne_none_iff_exists'.1 hbudget
  let clock : Nat → Int := fun _ => budget.deadlineMs - 1
  have htime : ∀ n, call.budget.any (·.deadlineMs ≤ clock n) = false := by
    intro n
    rw [hbudget, Option.any_some, decide_eq_false_iff_not]
    show ¬ budget.deadlineMs ≤ budget.deadlineMs - 1
    omega
  have hpending : call.pending ≠ [] := by
    rintro hnil
    rw [hnil] at hlong
    simp only [List.length_nil, Nat.cast_zero] at hlong
    omega
  set first := call.turn clock call.start with hdef
  have hfirst := @turn_of_batch call clock call.start
    (by simpa [start] using hroute) (htime 0) hlimit hpending
  have hended : first.ended = false := by
    rw [hdef, hfirst, hbudget]
    exact decide_eq_false (Int.not_lt.2 hlong)
  have hpushed : (first.pushed : Int) < budget.maxEventsPerRun := by
    obtain ⟨hle, hiff⟩ := @pushed_foldl call
      (call.pending.take (call.batchLimit 0).toNat) call.start
    have hlt : call.batchLimit 0 ≤ budget.maxEventsPerRun ∧ call.batchLimit 0 ≤ call.maxPushBatch ∧
        (call.batchLimit 0 = budget.maxEventsPerRun ∨ call.batchLimit 0 = call.maxPushBatch) := by
      simp only [batchLimit, hbudget] at hlimit ⊢
      omega
    have heq : first.pushed = ((call.pending.take (call.batchLimit 0).toNat).foldl
        call.pushRow call.start).pushed := by rw [hdef, hfirst]; rfl
    have hzero : call.start.pushed = 0 := rfl
    rw [List.length_take, hzero] at hle hiff
    rw [heq]
    by_contra hfull
    have hall : call.batchLimit 0 = budget.maxEventsPerRun := by omega
    refine htaken budget hbudget (by omega) ?_
    rw [← hall]
    exact hiff.1 (by omega)
  have hagain : 0 < call.batchLimit first.pushed ∧
      call.batchLimit first.pushed ≤ call.batchLimit 0 := by
    simp only [batchLimit, hbudget] at hlimit ⊢
    omega
  have hbatch := fun (s : PushPass) (hs : s.ended = false) (hsame : s.pushed = first.pushed) =>
    @turn_of_batch call clock s hs (htime s.batches)
      (by rw [hsame]; exact hagain.1) hpending
  by_cases hadmits : ∃ row ∈ call.pending.take (call.batchLimit first.pushed).toNat,
      call.config.admits row.toRemotePiEvent = true
  · obtain ⟨row, hrow, hadmits⟩ := hadmits
    have hearlier : row ∈ call.pending.take (call.batchLimit 0).toNat :=
      (List.take_sublist_take_left (by omega)).subset hrow
    have hsent := (h clock).sent 2
    show False
    have htwice : (call.after clock 2).sent = ((call.pending.take (call.batchLimit 0).toNat).map
        OutboxRow.toRemotePiEvent).filter call.config.admits ++
        ((call.pending.take (call.batchLimit first.pushed).toNat).map
          OutboxRow.toRemotePiEvent).filter call.config.admits := by
      show (call.turn clock first).sent = _
      rw [hbatch first hended rfl]
      show ((call.pending.take (call.batchLimit first.pushed).toNat).foldl
        call.pushRow first).sent = _
      rw [sent_foldl, hdef, hfirst]
      show ((call.pending.take (call.batchLimit 0).toNat).foldl call.pushRow call.start).sent ++ _ =
        _
      rw [sent_foldl]
      rfl
    have hsorted : ((call.after clock 2).sent.map (·.sequence)).Pairwise (· < ·) := by
      refine List.Pairwise.sublist (hsent.map _) ?_
      rw [List.map_map, List.pairwise_map]
      exact pending_sorted call
    rw [htwice, List.map_append, List.pairwise_append] at hsorted
    have hmem : ∀ {rows : List OutboxRow}, row ∈ rows → row.sequence ∈
        ((rows.map OutboxRow.toRemotePiEvent).filter call.config.admits).map (·.sequence) :=
      fun hin => List.mem_map.2 ⟨row.toRemotePiEvent,
        List.mem_filter.2 ⟨List.mem_map_of_mem hin, hadmits⟩, rfl⟩
    exact absurd (hsorted.2.2 _ (hmem hearlier) _ (hmem hrow)) (lt_irrefl _)
  · have hidle : ∀ n, (call.after clock (n + 1)).ended = false ∧
        (call.after clock (n + 1)).pushed = first.pushed := by
      intro n
      induction n with
      | zero => exact ⟨hended, rfl⟩
      | succ n ih =>
        rw [after, Function.iterate_succ_apply', ← after, hbatch _ ih.1 ih.2, ih.2,
          foldl_of_none _ fun row hrow hadmitted => hadmits ⟨row, hrow, hadmitted⟩]
        refine ⟨?_, ih.2⟩
        rw [hbudget, Option.isNone_some, Bool.false_or, decide_eq_false_iff_not]
        omega
    cases (h clock).ends.symm.trans (hidle call.pending.length).1

/-- **A push ends in time and sends nothing twice, whatever the clock does, just where it reads a
single batch.** -/
theorem clean_iff (call : PushCall) : (∀ clock, call.Clean clock) ↔ call.SingleBatch :=
  ⟨singleBatch_of_clean, clean_of_singleBatch⟩

/-- Ten events, a batch of ten and a drain's budget. -/
def fullBatch : PushCall where
  config := ⟨fun _ => "digest", fun _ => 0, "origin"⟩
  maxPushBatch := 10
  runId := "run"
  hasRoute := true
  budget := some ⟨5000, 100⟩
  outbox := ⟨(List.range 10).map fun n => (sampleInput .progress).row (n + 1), by decide +kernel⟩
  answers := fun _ => true

theorem fullBatch_repeats : ¬ ∀ (call : PushCall) (clock : Nat → Int), call.Clean clock := by
  intro h
  rcases singleBatch_of_clean (h fullBatch) with h | h | h | h | ⟨budget, hbudget, hle, -⟩
  · cases h
  · cases h
  · exact absurd h (by decide)
  · exact absurd h (by decide +kernel)
  · cases hbudget
    exact absurd hle (by decide)

end PushCall

end Abtars
