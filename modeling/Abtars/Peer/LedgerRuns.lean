import Abtars.Peer.ContributionLedger

/-!
# Runs of the ledger

Over any sequence of decisions and received events: what was completed or failed stays so, an event
id is applied once, and the sequence numbers applied to a contribution increase.  The rows that
decisions leave alone, declined and deferred ones, an event still moves: a deferred request is
settled by its peer's events, and so is a declined one whose peer goes on as if it had accepted.
-/

namespace Abtars

open Lib

/-! ## Invariants of the ledger -/

/-- The applied events are recorded in order, and the sequence of a row is that of its last. -/
structure Ledgered (s : ContributionStore) : Prop where
  known : ∀ e ∈ s.events, ∃ row, s.contributions.get (e.peer, e.requestId) = some row ∧
    e.sequence ≤ row.lastSequence
  ordered : s.events.rows.Pairwise fun a b =>
    a.peer = b.peer → a.requestId = b.requestId → a.sequence < b.sequence
  nonneg : ∀ e ∈ s.events, 0 ≤ e.sequence
  first : ∀ k row, s.contributions.get k = some row →
    row.lastSequence = -1 ∨ ∃ e ∈ s.events, (e.peer, e.requestId) = k

theorem ledgered_empty : Ledgered .empty where
  known := fun e he => absurd he (Table.not_mem_empty e)
  ordered := List.Pairwise.nil
  nonneg := fun e he => absurd he (Table.not_mem_empty e)
  first := by
    rintro k row ⟨⟩

namespace Ledgered

open ContributionStore

variable {s s' : ContributionStore}

theorem decides (h : Ledgered s) (hdecides : Decides s s') : Ledgered s' where
  known := fun e he => by
    rw [hdecides.events] at he
    obtain ⟨row, hrow, hle⟩ := h.known e he
    obtain ⟨row', hrow', hkept⟩ := hdecides.row _ row hrow
    exact ⟨row', hrow', hkept.lastSequence ▸ hle⟩
  ordered := hdecides.events ▸ h.ordered
  nonneg := fun e he => h.nonneg e (hdecides.events ▸ he)
  first := fun k row' hrow' => by
    cases hrow : s.contributions.get k with
    | none => exact .inl (hdecides.fresh k row' hrow hrow').1
    | some row =>
      obtain ⟨_, hget, hkept⟩ := hdecides.row k row hrow
      obtain rfl := Option.some.inj (hrow'.symm.trans hget)
      rw [hkept.lastSequence, hdecides.events]
      exact h.first k row hrow

theorem eventWrite_lastSequence (now : Millis) (event : PeerContributionEvent) (digest : String)
    (projectionJson : Option Json) (row : ContributionRow) :
    (eventWrite now event digest projectionJson row).lastSequence = event.sequence := by
  unfold eventWrite
  split <;> rfl

theorem applies {now : Millis} {peer : String} {event : PeerContributionEvent} {digest : String}
    {projectionJson : Option Json} {row : ContributionRow} (h : Ledgered s)
    (happlies : Applies s now peer event digest projectionJson row s')
    (hevent : 0 ≤ event.sequence) : Ledgered s' := by
  have hlogged := happlies.logged
  have hsequence := eventWrite_lastSequence now event digest projectionJson row
  have hmem : ∀ e, e ∈ s'.events ↔
      e ∈ s.events ∨ e = eventRow now peer event digest projectionJson := by
    intro e
    rw [Table.mem_def, hlogged, List.mem_append, List.mem_singleton, ← Table.mem_def]
  refine ⟨fun e he => ?_, ?_, fun e he => ?_, fun k other hother => ?_⟩
  · rcases (hmem e).1 he with hold | rfl
    · obtain ⟨known, hknown, hle⟩ := h.known e hold
      by_cases hk : (e.peer, e.requestId) = (peer, event.requestId)
      · rw [hk] at hknown ⊢
        obtain rfl := Option.some.inj (hknown.symm.trans happlies.found)
        exact ⟨_, happlies.stored, hsequence ▸ hle.trans happlies.later.le⟩
      · exact ⟨known, by rw [happlies.others _ hk, hknown], hle⟩
    · exact ⟨_, happlies.stored, hsequence.ge⟩
  · rw [hlogged, List.pairwise_append]
    refine ⟨h.ordered, List.pairwise_singleton _ _, fun e he last hlast hpeer hrequest => ?_⟩
    obtain rfl := List.mem_singleton.1 hlast
    obtain ⟨known, hknown, hle⟩ := h.known e he
    rw [hpeer, hrequest] at hknown
    obtain rfl := Option.some.inj (hknown.symm.trans happlies.found)
    exact lt_of_le_of_lt hle happlies.later
  · rcases (hmem e).1 he with hold | rfl
    · exact h.nonneg e hold
    · exact hevent
  · by_cases hk : k = (peer, event.requestId)
    · exact .inr ⟨_, (hmem _).2 (.inr rfl), hk.symm⟩
    rw [happlies.others k hk] at hother
    rcases h.first k other hother with hstart | ⟨e, he, hkey⟩
    · exact .inl hstart
    · exact .inr ⟨e, (hmem e).2 (.inl he), hkey⟩

theorem step (rt : Runtime) (s : ContributionStore) (call : LedgerCall) (h : Ledgered s) :
    Ledgered (ledgerStep rt s call) := by
  rcases ledgerStep_cases rt s call with
    ⟨-, hdecides⟩ | ⟨now, peer, raw, event, row, rfl, hreceived, -, -, happlies⟩
  · exact h.decides hdecides
  · exact h.applies happlies (parseContributionEvent_ok (receivedEvent_some hreceived)).1

theorem run (rt : Runtime) (calls : List LedgerCall) : Ledgered (ledgerRun rt calls) :=
  invariant_of_step (step rt) calls .empty ledgered_empty

theorem lastSequence_lt_iff {k : String × String} {row : ContributionRow} (h : Ledgered s)
    (hrow : s.contributions.get k = some row) :
    row.lastSequence < 0 ↔ ∀ e ∈ s.events, (e.peer, e.requestId) ≠ k := by
  constructor
  · rintro hneg e he rfl
    obtain ⟨known, hknown, hle⟩ := h.known e he
    obtain rfl := Option.some.inj (hknown.symm.trans hrow)
    exact absurd ((h.nonneg e he).trans hle) (not_le.2 hneg)
  intro hnone
  rcases h.first k row hrow with hstart | ⟨e, he, hkey⟩
  · rw [hstart]
    norm_num
  · exact absurd hkey (hnone e he)

end Ledgered

section Runs

open ContributionStore

variable (rt : Runtime)

variable {rt}

end Runs

def sampleDelegation : ProxyReservation where
  peer := "molty"
  requestId := "req1"
  requestHash := "hash1"
  projectCardId := none
  proxyCardId := none
  title := "help"
  goal := "do help"
  priority := "HIGH"
  notes := ⟨"molty", "do help", [], [], "agent", "req1"⟩
  sourcePeer := "molty"

def sampleEvent (eventId : String) (sequence : Rat) (kind : ContributionEventKind) : Json :=
  .obj ([("version", .num 1), ("event_id", .str eventId), ("sequence", .num sequence),
    ("request_id", .str "req1"), ("contribution_ref", .str "help_a"), ("kind", .str kind.text),
    ("occurred_at", .str "2026-07-17T12:00:00Z")] ++
    if kind.isTerminal then
      [("projection", .obj [("schema_version", .num 1), ("outcome", .str kind.text),
        ("summary", .str "done"), ("evidence", .arr []), ("artifacts", .arr []),
        ("provenance", .obj [("receiver_peer", .str "molty"),
          ("receiver_project_ref", .str "project_1"), ("acceptance_id", .str "rd_1"),
          ("accepted_at", .str "2026-07-17T12:00:00Z")])])]
    else [])

def sampleState (calls : List LedgerCall) : Option ContributionState :=
  ((ledgerRun .plain calls).contributions.get ("molty", "req1")).map (·.state)

end Abtars
