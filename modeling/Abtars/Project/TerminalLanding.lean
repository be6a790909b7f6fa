import Abtars.Peer.LedgerRuns
import Abtars.Project.PeerTerminalEvent

/-!
# Where a terminal event lands

The receiver builds one terminal event for a settled project, and the requester's ledger takes an
event only when its sequence is above the last one it applied.  A row starts at −1 and the terminal
event has the number 0, so it lands as long as nothing was applied to its contribution before.
-/

namespace Abtars

open Lib ContributionStore

def TerminalKind.state : TerminalKind → ContributionState
  | .completed => .completed
  | .failed => .failed

/-- The requester parses the event, applies it, and has the settlement on record. -/
def Lands (rt : Runtime) (s : ContributionStore) (now : Millis) (peer : String)
    (clock : IsoInstant) (input : BuildPeerTerminalEventInput) : Prop :=
  ∃ event, parseContributionEvent rt (buildPeerTerminalEvent clock input).payload = .ok event ∧
    (s.applyEvent rt now peer event (contributionEventDigest rt event) event.projection).1 =
      .ok .applied ∧
    ∃ row, (s.applyEvent rt now peer event (contributionEventDigest rt event)
        event.projection).2.contributions.get (peer, input.identity.requestId) = some row ∧
      row.state = input.recipe.kind.state ∧ row.projectionJson = some (input.projection clock) ∧
      row.terminalEventId = some (terminalEventId input)

/-- The requester has the contribution on its ledger, under the reference of the acceptance and not
settled. -/
def Awaits (s : ContributionStore) (peer : String) (identity : PeerTerminalIdentity) : Prop :=
  ∃ row, s.contributions.get (peer, identity.requestId) = some row ∧
    row.contributionRef = identity.contributionRef ∧ row.state.isSettled = false

theorem eventWrite_terminal (now : Millis) (clock : IsoInstant)
    (input : BuildPeerTerminalEventInput) (digest : String) (row : ContributionRow) :
    (eventWrite now (terminalEvent clock input) digest (terminalEvent clock input).projection
        row).state = input.recipe.kind.state ∧
      (eventWrite now (terminalEvent clock input) digest (terminalEvent clock input).projection
        row).projectionJson = some (input.projection clock) ∧
      (eventWrite now (terminalEvent clock input) digest (terminalEvent clock input).projection
        row).terminalEventId = some (terminalEventId input) := by
  unfold eventWrite terminalEvent
  cases input.recipe.kind <;> exact ⟨rfl, rfl, rfl⟩

theorem readable_terminalEvent (s : ContributionStore) (clock : IsoInstant)
    (input : BuildPeerTerminalEventInput) (proxyCardId : Option Nat) :
    s.readable (terminalEvent clock input) proxyCardId = true := by
  unfold readable
  split
  · rfl
  · rfl

/-- The ledger takes the event of a settlement exactly when it awaits it, nothing was applied to the
contribution before, and the id is free. -/
theorem takes_terminalEvent_iff {s : ContributionStore} (h : Ledgered s) (peer : String)
    (clock : IsoInstant) (input : BuildPeerTerminalEventInput) :
    s.takes peer (terminalEvent clock input) = true ↔
      Awaits s peer input.identity ∧
      (∀ e ∈ s.events, (e.peer, e.requestId) ≠ (peer, input.identity.requestId)) ∧
      ∀ e ∈ s.events, (e.peer, e.eventId) ≠ (peer, terminalEventId input) := by
  have hread := readable_terminalEvent s clock input
  have hfree : (s.events.get (peer, terminalEventId input)).isNone = true ↔
      ∀ e ∈ s.events, (e.peer, e.eventId) ≠ (peer, terminalEventId input) := by
    rw [Option.isNone_iff_eq_none, Table.get_eq_none_iff]
    rfl
  have hrequest : (terminalEvent clock input).requestId = input.identity.requestId := rfl
  rw [ContributionStore.takes, hrequest]
  cases hrow : s.contributions.get (peer, input.identity.requestId) with
  | none =>
    refine ⟨(by rintro ⟨⟩), ?_⟩
    rintro ⟨⟨row, hfound, -⟩, -⟩
    rw [hrow] at hfound
    cases hfound
  | some row =>
    have hsequence := h.lastSequence_lt_iff hrow
    have hawaits : Awaits s peer input.identity ↔
        row.contributionRef = input.identity.contributionRef ∧ row.state.isSettled = false := by
      constructor
      · rintro ⟨found, hfound, href⟩
        rw [hrow] at hfound
        cases hfound
        exact href
      · exact fun href => ⟨row, hrow, href⟩
    rw [hawaits, ← hsequence, ← hfree]
    simp only [decide_eq_true_eq, hread, and_true]
    constructor
    · rintro ⟨href, hstate, hnone, hlater⟩
      exact ⟨⟨href, hstate⟩, hlater, hnone⟩
    · rintro ⟨⟨href, hstate⟩, hlater, hnone⟩
      exact ⟨href, hstate, hnone, hlater⟩

/-- Whatever was decided and delivered before, the terminal event lands exactly when its fields can
be sent, the contribution still awaits it, and no event was applied to the contribution nor any
under the id. -/
theorem terminal_event_lands_iff (rt : Runtime) (calls : List LedgerCall) (now : Millis)
    (peer : String) (clock : IsoInstant) (input : BuildPeerTerminalEventInput) :
    Lands rt (ledgerRun rt calls) now peer clock input ↔
      Sendable input ∧ Awaits (ledgerRun rt calls) peer input.identity ∧
      (∀ e ∈ (ledgerRun rt calls).events,
        (e.peer, e.requestId) ≠ (peer, input.identity.requestId)) ∧
      ∀ e ∈ (ledgerRun rt calls).events, (e.peer, e.eventId) ≠ (peer, terminalEventId input) := by
  rw [← takes_terminalEvent_iff (Ledgered.run rt calls) peer clock input]
  have hcases := applyEvent_cases rt (ledgerRun rt calls) now peer (terminalEvent clock input)
    (contributionEventDigest rt (terminalEvent clock input)) (terminalEvent clock input).projection
    fun _ => rfl
  constructor
  · rintro ⟨event, hparse, happlied, -⟩
    obtain ⟨hsendable, rfl⟩ := parse_terminalEvent_iff.1 hparse
    refine ⟨hsendable, ?_⟩
    rcases hcases with ⟨htakes, -, -⟩ | ⟨-, hnot, -⟩
    · exact htakes
    · exact absurd happlied hnot
  · rintro ⟨hsendable, htakes⟩
    refine ⟨terminalEvent clock input, parse_terminalEvent_iff.2 ⟨hsendable, rfl⟩, ?_⟩
    rcases hcases with ⟨-, happlied, row, happlies⟩ | ⟨hnot, -, -⟩
    · exact ⟨happlied, _, happlies.stored, eventWrite_terminal now clock input _ row⟩
    · rw [htakes] at hnot
      cases hnot

/-! ## A report on the progress -/

def sampleClock : IsoInstant := ⟨"2026-07-17T12:00:00.000Z", by decide⟩

def sampleSettlement : BuildPeerTerminalEventInput where
  cardId := 7
  decisionId := "rd_settle_7"
  recipe := ⟨.completed, "succeeded revision 1", none, none⟩
  receiverPeer := "molty"
  identity := ⟨"kp", "req1", "help_a"⟩

def sampleProgress : List LedgerCall :=
  [.reserveProxy 0 "help_a" sampleDelegation, .transitionToAccepted 0 "molty" "req1",
    .event 1 "molty" (sampleEvent "e1" 0 .progress)]

/-- After one report on the progress the completion of an accepted request is in conflict. -/
theorem terminal_event_after_progress :
    sampleState (sampleProgress.take 2) = some .accepted ∧
    sampleState sampleProgress = some .running ∧ Sendable sampleSettlement ∧
    Awaits (ledgerRun .plain sampleProgress) "molty" sampleSettlement.identity ∧
    ¬ Lands .plain (ledgerRun .plain sampleProgress) 2 "molty" sampleClock sampleSettlement := by
  have hawaits : ((ledgerRun .plain sampleProgress).contributions.get ("molty", "req1")).any
      (fun row => row.contributionRef = "help_a" ∧ row.state.isSettled = false) = true := by
    decide +kernel
  obtain ⟨row, hrow, href⟩ := (Option.any_eq_true _ _).1 hawaits
  refine ⟨by decide +kernel, by decide +kernel,
    ⟨by decide, by decide, by decide, by decide, by decide, by decide⟩,
    ⟨row, hrow, of_decide_eq_true href⟩, ?_⟩
  rintro ⟨event, hparse, happlied, -⟩
  obtain ⟨-, rfl⟩ := parse_terminalEvent_iff.1 hparse
  have htakes : (ledgerRun .plain sampleProgress).takes "molty"
      (terminalEvent sampleClock sampleSettlement) = false := by
    decide +kernel
  rcases applyEvent_cases .plain (ledgerRun .plain sampleProgress) 2 "molty"
      (terminalEvent sampleClock sampleSettlement)
      (contributionEventDigest .plain (terminalEvent sampleClock sampleSettlement))
      (terminalEvent sampleClock sampleSettlement).projection (fun _ => rfl) with
    ⟨htaken, -, -⟩ | ⟨-, hnot, -⟩
  · rw [htakes] at htaken
    cases htaken
  · exact hnot happlied

end Abtars
