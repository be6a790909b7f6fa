import Abtars.Lib.JsonSize
import Abtars.Peer.ContributionEvent

/-!
# The terminal event of a peer project

`buildPeerTerminalEvent`: what the receiver of a help request tells the requester when the project
is settled.  It is built from the accepted identity of the request, the settlement and the
receiver's own name; it reads nothing else.  Its sequence number is always 0.
-/

namespace Abtars

open Lib

structure IsoInstant where
  text : String
  iso : isISODate text = true

structure PeerTerminalIdentity where
  requesterPeer : String
  requestId : String
  contributionRef : String

inductive TerminalKind
  | completed | failed
  deriving DecidableEq

def TerminalKind.event : TerminalKind → ContributionEventKind
  | .completed => .completed
  | .failed => .failed

structure CriterionEvidence where
  observedEvidenceIds : List String
  artifactObservationIds : List String

structure TerminalEvidenceSource where
  projectCardId : Nat
  rootContractId : Option String
  criterionInputs : List CriterionEvidence

structure PeerTerminalRecipe where
  kind : TerminalKind
  summary : String
  evidenceSource : Option TerminalEvidenceSource
  failureReason : Option String

structure BuildPeerTerminalEventInput where
  cardId : Nat
  decisionId : String
  recipe : PeerTerminalRecipe
  receiverPeer : String
  identity : PeerTerminalIdentity

structure PeerTerminalEvent where
  peer : String
  payload : Json

def maxTerminalSummary : Nat := 1000
def maxEvidenceIdLength : Nat := 128

def effectiveSummary (summary : String) : String :=
  if summary.toList.all isJsSpace then "Project blocked" else summary

/-- `replace(/[^a-zA-Z0-9]/g, "_")`, one underscore for each code unit. -/
def sanitizeId (id : String) : String :=
  String.ofList (id.toList.flatMap fun c =>
    if c.isAlphanum then [c] else List.replicate (utf16Units c) '_')

def terminalEventId (input : BuildPeerTerminalEventInput) : String :=
  let verb := if input.recipe.kind = .completed then "accept" else "fail"
  sliceText (verb ++ "_" ++ input.identity.requestId ++ "_" ++ input.identity.contributionRef ++
    "_" ++ sanitizeId input.decisionId) 128

namespace BuildPeerTerminalEventInput

variable (input : BuildPeerTerminalEventInput)

/-- The evidence a completed project reports: its kind, what is said of it, and the id. -/
def evidence : List (String × String × String) :=
  match input.recipe.kind, input.recipe.evidenceSource with
  | .completed, some source =>
    (source.criterionInputs.flatMap fun ci =>
      ((ci.observedEvidenceIds.take maxEvidenceItems).map fun id => ("check", "observed", id)) ++
      (ci.artifactObservationIds.take maxEvidenceItems).map fun id =>
        ("artifact", "present", id)).take maxEvidenceItems
  | _, _ => []

def evidenceItem (item : String × String × String) : Json :=
  .obj [("id", .str (sliceText item.2.2 maxEvidenceIdLength)), ("kind", .str item.1),
    ("summary", .str item.2.1), ("observed_by", .str (sliceText input.receiverPeer 64))]

def projectionSummary : String :=
  let reason :=
    if input.recipe.kind = .failed then
      (nonEmpty input.recipe.failureReason).elim "" fun reason => "\nReason: " ++ reason
    else ""
  sliceText (effectiveSummary input.recipe.summary ++ reason) maxTerminalSummary

def receiverProjectRef : String :=
  ((input.recipe.evidenceSource.bind (·.rootContractId)).map (sliceText · 128)).getD
    ("project_" ++ toString input.cardId)

def projection (clock : IsoInstant) : Json :=
  .obj [("schema_version", .num 1), ("outcome", .str input.recipe.kind.event.text),
    ("summary", .str input.projectionSummary),
    ("evidence", .arr (input.evidence.map input.evidenceItem)), ("artifacts", .arr []),
    ("provenance", .obj [("receiver_peer", .str input.receiverPeer),
      ("receiver_project_ref", .str input.receiverProjectRef),
      ("acceptance_id", .str input.decisionId), ("accepted_at", .str clock.text)])]

end BuildPeerTerminalEventInput

def buildPeerTerminalEvent (clock : IsoInstant) (input : BuildPeerTerminalEventInput) :
    PeerTerminalEvent where
  peer := input.identity.requesterPeer
  payload := .obj [("version", .num 1), ("event_id", .str (terminalEventId input)),
    ("sequence", .num 0), ("request_id", .str input.identity.requestId),
    ("contribution_ref", .str input.identity.contributionRef),
    ("kind", .str input.recipe.kind.event.text), ("occurred_at", .str clock.text),
    ("summary", .str (sliceText (effectiveSummary input.recipe.summary) maxTerminalSummary)),
    ("projection", input.projection clock)]

/-! ## What the parser makes of it -/

def terminalEvent (clock : IsoInstant) (input : BuildPeerTerminalEventInput) :
    PeerContributionEvent where
  eventId := terminalEventId input
  sequence := 0
  requestId := input.identity.requestId
  contributionRef := input.identity.contributionRef
  kind := input.recipe.kind.event
  occurredAt := clock.text
  summary := some (.str (sliceText (effectiveSummary input.recipe.summary) maxTerminalSummary))
  evidence := none
  artifacts := none
  projection := some (input.projection clock)

structure Sendable (input : BuildPeerTerminalEventInput) : Prop where
  requestId : validateRequestId input.identity.requestId = true
  contributionRef : input.identity.contributionRef ≠ ""
  receiverPeer : isBoundedText maxRemoteIdLength input.receiverPeer = true
  projectRef : isBoundedText maxRemoteIdLength input.receiverProjectRef = true
  decisionId : isBoundedText maxRemoteIdLength input.decisionId = true
  evidence : ∀ item ∈ input.evidence, item.2.2 ≠ ""

section Parse

variable {rt : Runtime} {clock : IsoInstant} {input : BuildPeerTerminalEventInput}

theorem effectiveSummary_ne_empty (summary : String) : effectiveSummary summary ≠ "" := by
  unfold effectiveSummary
  split
  · decide
  · rename_i hblank
    rintro rfl
    exact hblank rfl

theorem isBoundedText_sliceText (s : String) {n max : Nat} (hn : 0 < n) (hmax : n ≤ max) :
    isBoundedText max (sliceText s n) = true ↔ s ≠ "" := by
  have hle := utf16Length_sliceText_le s n
  rw [isBoundedText, decide_eq_true_eq, ne_eq, sliceText_eq_empty_iff hn]
  exact ⟨fun h => h.1, fun h => ⟨h, hle.trans hmax⟩⟩

theorem append_ne_empty {s t : String} (h : s ≠ "") : s ++ t ≠ "" := by
  intro happend
  refine h (String.toList_inj.1 ?_)
  have hlist := congrArg String.toList happend
  rw [String.toList_append] at hlist
  exact (List.append_eq_nil_iff.1 hlist).1

theorem terminalEventId_ne_empty (input : BuildPeerTerminalEventInput) :
    terminalEventId input ≠ "" := by
  rw [terminalEventId, ne_eq, sliceText_eq_empty_iff (by decide)]
  refine append_ne_empty (append_ne_empty (append_ne_empty (append_ne_empty (append_ne_empty
    (append_ne_empty ?_)))))
  split <;> decide

theorem length_evidence_le (input : BuildPeerTerminalEventInput) :
    input.evidence.length ≤ maxEvidenceItems := by
  unfold BuildPeerTerminalEventInput.evidence
  split
  · exact List.length_take_le _ _
  · exact Nat.zero_le _

variable {item : String × String × String}

theorem evidence_kinds (h : item ∈ input.evidence) :
    (item.1 = "check" ∧ item.2.1 = "observed") ∨ (item.1 = "artifact" ∧ item.2.1 = "present") := by
  unfold BuildPeerTerminalEventInput.evidence at h
  split at h
  · obtain ⟨ci, -, hitem⟩ := List.mem_flatMap.1 (List.mem_of_mem_take h)
    rcases List.mem_append.1 hitem with hitem | hitem <;>
      obtain ⟨id, -, rfl⟩ := List.mem_map.1 hitem
    · exact .inl ⟨rfl, rfl⟩
    · exact .inr ⟨rfl, rfl⟩
  · cases h

theorem utf8ByteSize_evidenceItem_le (h : item ∈ input.evidence) :
    (Json.stringify rt.renderFraction (input.evidenceItem item)).utf8ByteSize ≤ 2000 := by
  have hid := (utf8ByteSize_quote_le (sliceText item.2.2 maxEvidenceIdLength)).trans
    (Nat.add_le_add_right (Nat.mul_le_mul_left 6
      (utf16Length_sliceText_le item.2.2 maxEvidenceIdLength)) 2)
  have hpeer := (utf8ByteSize_quote_le (sliceText input.receiverPeer 64)).trans
    (Nat.add_le_add_right (Nat.mul_le_mul_left 6 (utf16Length_sliceText_le input.receiverPeer 64)) 2)
  have hkinds : (Json.quote item.1).utf8ByteSize ≤ 20 ∧
      (Json.quote item.2.1).utf8ByteSize ≤ 20 := by
    rcases evidence_kinds h with ⟨hkind, hsummary⟩ | ⟨hkind, hsummary⟩ <;>
      rw [hkind, hsummary] <;> decide
  rw [maxEvidenceIdLength] at hid
  have hlabels : (Json.quote "id").utf8ByteSize = 4 ∧ (Json.quote "kind").utf8ByteSize = 6 ∧
      (Json.quote "summary").utf8ByteSize = 9 ∧ (Json.quote "observed_by").utf8ByteSize = 13 ∧
      (":" : String).utf8ByteSize = 1 ∧ ("," : String).utf8ByteSize = 1 ∧
      ("\x7b" : String).utf8ByteSize = 1 ∧ ("\x7d" : String).utf8ByteSize = 1 := by
    decide
  obtain ⟨h1, h2, h3, h4, h5, h6, h7, h8⟩ := hlabels
  rw [BuildPeerTerminalEventInput.evidenceItem, maxEvidenceIdLength]
  simp only [Json.stringify, Json.stringifyMembers, String.intercalate_cons_cons,
    String.intercalate_singleton, String.utf8ByteSize_append, h1, h2, h3, h4, h5, h6, h7, h8]
  omega

theorem stringifyItems_eq_map (renderFraction : Rat → String) (items : List Json) :
    Json.stringifyItems renderFraction items = items.map (Json.stringify renderFraction) := by
  induction items with
  | nil => rfl
  | cons item items ih => rw [Json.stringifyItems, ih, List.map_cons]

theorem evidenceBytes_le (rt : Runtime) (input : BuildPeerTerminalEventInput) :
    evidenceBytes rt (input.evidence.map input.evidenceItem) [] ≤ maxEvidenceBytes := by
  have hitems := utf8ByteSize_intercalate_le "," (by decide) 2000
    ((input.evidence.map input.evidenceItem).map (Json.stringify rt.renderFraction))
    (by
      intro text htext
      obtain ⟨_, hitem, rfl⟩ := List.mem_map.1 htext
      obtain ⟨item, hmem, rfl⟩ := List.mem_map.1 hitem
      exact utf8ByteSize_evidenceItem_le hmem)
  have hlength := length_evidence_le input
  rw [List.length_map, List.length_map] at hitems
  have hlabels : (Json.quote "evidence").utf8ByteSize = 10 ∧
      (Json.quote "artifacts").utf8ByteSize = 11 ∧ (":" : String).utf8ByteSize = 1 ∧
      ("," : String).utf8ByteSize = 1 ∧ ("\x7b" : String).utf8ByteSize = 1 ∧
      ("\x7d" : String).utf8ByteSize = 1 ∧ ("[" : String).utf8ByteSize = 1 ∧
      ("]" : String).utf8ByteSize = 1 := by
    decide
  obtain ⟨h1, h2, h3, h4, h5, h6, h7, h8⟩ := hlabels
  rw [maxEvidenceItems] at hlength
  rw [evidenceBytes, maxEvidenceBytes]
  simp only [Json.stringify, Json.stringifyMembers, stringifyItems_eq_map, List.map_nil,
    String.intercalate_cons_cons, String.intercalate_singleton, String.intercalate_nil,
    String.utf8ByteSize_append, String.utf8ByteSize_empty, h1, h2, h3, h4, h5, h6, h7, h8]
  omega

theorem forM_eq_ok {α : Type} {f : α → Except String Unit} {items : List α} :
    items.forM f = .ok () ↔ ∀ item ∈ items, f item = .ok () := by
  induction items with
  | nil => simp [pure, Except.pure]
  | cons item items ih =>
    rw [List.forall_mem_cons, ← ih]
    constructor
    · intro h
      obtain ⟨⟨⟩, hitem, hrest⟩ := bind_eq_ok.1 h
      exact ⟨hitem, hrest⟩
    · rintro ⟨hitem, hrest⟩
      exact bind_eq_ok.2 ⟨(), hitem, hrest⟩

theorem checkEvidenceItem_iff (h : item ∈ input.evidence) (hpeer : input.receiverPeer ≠ "") :
    checkEvidenceItem (input.evidenceItem item) = .ok () ↔ item.2.2 ≠ "" := by
  have hid : isBoundedText maxRemoteIdLength (sliceText item.2.2 maxEvidenceIdLength) = true ↔
      item.2.2 ≠ "" := isBoundedText_sliceText _ (by decide) (by decide)
  have hobserver : isBoundedText maxRemoteIdLength (sliceText input.receiverPeer 64) = true :=
    (isBoundedText_sliceText _ (by decide) (by decide)).2 hpeer
  have hkind : isBoundedText maxRemoteIdLength item.1 = true ∧
      isBoundedText maxProjectionItemLength item.2.1 = true := by
    rcases evidence_kinds h with ⟨hkind, hsummary⟩ | ⟨hkind, hsummary⟩ <;>
      rw [hkind, hsummary] <;> decide
  rw [checkEvidenceItem, checkThat_eq_ok, ← hid]
  simp [BuildPeerTerminalEventInput.evidenceItem, isItem, Json.member, hasBoundedText,
    Json.text?, List.lookup_cons, hobserver, hkind]

theorem projectionSummary_bounded (input : BuildPeerTerminalEventInput) :
    isBoundedText maxSummaryLength input.projectionSummary = true := by
  exact (isBoundedText_sliceText _ (by decide) (by decide)).2
    (append_ne_empty (effectiveSummary_ne_empty _))

theorem kind_text_ofText (kind : ContributionEventKind) :
    ContributionEventKind.ofText kind.text = some kind := by
  cases kind <;> decide

theorem checkProvenance_iff :
    checkProvenance (.obj [("receiver_peer", .str input.receiverPeer),
        ("receiver_project_ref", .str input.receiverProjectRef),
        ("acceptance_id", .str input.decisionId), ("accepted_at", .str clock.text)]) = .ok () ↔
      isBoundedText maxRemoteIdLength input.receiverPeer = true ∧
        isBoundedText maxRemoteIdLength input.receiverProjectRef = true ∧
        isBoundedText maxRemoteIdLength input.decisionId = true := by
  simp [checkProvenance, bind_eq_ok, checkThat_eq_ok, Json.isObject, Json.member, List.lookup_cons,
    hasBoundedText, Json.text?, clock.iso]

section Members

variable (clock input)

/-! The members of the projection, as the parser looks them up. -/

theorem member_schemaVersion :
    (input.projection clock).member "schema_version" = some (.num 1) := by
  simp [BuildPeerTerminalEventInput.projection, Json.member]

theorem member_outcome : (input.projection clock).member "outcome" =
    some (.str input.recipe.kind.event.text) := by
  simp [BuildPeerTerminalEventInput.projection, Json.member, List.lookup_cons]

theorem member_summary : (input.projection clock).member "summary" =
    some (.str input.projectionSummary) := by
  simp [BuildPeerTerminalEventInput.projection, Json.member, List.lookup_cons]

theorem member_evidence : (input.projection clock).member "evidence" =
    some (.arr (input.evidence.map input.evidenceItem)) := by
  simp [BuildPeerTerminalEventInput.projection, Json.member, List.lookup_cons]

theorem member_artifacts : (input.projection clock).member "artifacts" = some (.arr []) := by
  simp [BuildPeerTerminalEventInput.projection, Json.member, List.lookup_cons]

theorem member_provenance : (input.projection clock).member "provenance" =
    some (.obj [("receiver_peer", .str input.receiverPeer),
      ("receiver_project_ref", .str input.receiverProjectRef),
      ("acceptance_id", .str input.decisionId), ("accepted_at", .str clock.text)]) := by
  simp [BuildPeerTerminalEventInput.projection, Json.member, List.lookup_cons]

end Members

theorem checkProjection_iff (rt : Runtime) (clock : IsoInstant) :
    checkProjection rt input.recipe.kind.event (input.projection clock) = .ok () ↔
      (∀ item ∈ input.evidence, item.2.2 ≠ "") ∧
        isBoundedText maxRemoteIdLength input.receiverPeer = true ∧
        isBoundedText maxRemoteIdLength input.receiverProjectRef = true ∧
        isBoundedText maxRemoteIdLength input.decisionId = true := by
  have hlength : (input.evidence.map input.evidenceItem).length ≤ maxEvidenceItems := by
    rw [List.length_map]
    exact length_evidence_le input
  have hitems : input.receiverPeer ≠ "" →
      ((input.evidence.map input.evidenceItem).forM checkEvidenceItem = .ok () ↔
        ∀ item ∈ input.evidence, item.2.2 ≠ "") := by
    intro hpeer
    rw [forM_eq_ok]
    simp only [List.forall_mem_map]
    exact forall₂_congr fun item hitem => checkEvidenceItem_iff hitem hpeer
  have hnonempty : isBoundedText maxRemoteIdLength input.receiverPeer = true →
      input.receiverPeer ≠ "" := fun h => (of_decide_eq_true h).1
  have hsummary := projectionSummary_bounded input
  have hbytes := evidenceBytes_le rt input
  rw [checkProjection, member_schemaVersion, member_outcome, member_summary, member_evidence,
    member_artifacts, member_provenance, Option.getD_some]
  simp only [bind_eq_ok, checkThat_eq_ok, orError_eq_ok, Json.number?, Json.text?, Json.items?,
    hasBoundedText, Option.any_some, hsummary, Option.filter_eq_some_iff, Option.some.injEq,
    decide_true, decide_eq_true_eq]
  constructor
  · rintro ⟨-, -, -, -, -, -, -, -, _, ⟨rfl, -⟩, _, -, -, -, ⟨⟩, hchecked, -, -, h⟩
    have hprovenance := checkProvenance_iff.1 h
    exact ⟨(hitems (hnonempty hprovenance.1)).1 hchecked, hprovenance⟩
  rintro ⟨hids, hprovenance⟩
  exact ⟨(), rfl, (), trivial, (), trivial, (), trivial, _, ⟨rfl, hlength⟩, [],
    ⟨rfl, Nat.zero_le _⟩, (), hbytes, (), (hitems (hnonempty hprovenance.1)).2 hids, (), rfl,
    checkProvenance_iff.2 hprovenance⟩

/-- The requester can read the event exactly when its fields can be sent. -/
theorem parse_terminalEvent_iff {event : PeerContributionEvent} :
    parseContributionEvent rt (buildPeerTerminalEvent clock input).payload = .ok event ↔
      Sendable input ∧ event = terminalEvent clock input := by
  have hterminal : input.recipe.kind.event.isTerminal = true := by
    cases input.recipe.kind <;> rfl
  have hkind := kind_text_ofText input.recipe.kind.event
  have hid := terminalEventId_ne_empty input
  have hiso := clock.iso
  have hprojection : parseProjection rt input.recipe.kind.event
      (some (input.projection clock)) = .ok () ↔
      (∀ item ∈ input.evidence, item.2.2 ≠ "") ∧
        isBoundedText maxRemoteIdLength input.receiverPeer = true ∧
        isBoundedText maxRemoteIdLength input.receiverProjectRef = true ∧
        isBoundedText maxRemoteIdLength input.decisionId = true := by
    rw [← checkProjection_iff rt clock, parseProjection, hterminal]
    rfl
  rw [parseContributionEvent, buildPeerTerminalEvent]
  simp only [bind_eq_ok, checkThat_eq_ok, orError_eq_ok, Json.member, List.lookup_cons, Json.number?,
    Json.text?, Json.isObject, String.reduceBEq, BEq.rfl, Option.filter_eq_some_iff,
    Option.some.injEq, Option.bind_some, hkind]
  constructor
  · rintro ⟨-, -, -, -, _, ⟨rfl, hrequest⟩, _, ⟨rfl, href⟩, _, ⟨rfl, -⟩, _, ⟨rfl, -⟩, _, rfl, _,
      ⟨rfl, -⟩, ⟨⟩, hchecked, hevent⟩
    obtain ⟨hevidence, hpeer, hproject, hdecision⟩ := hprojection.1 hchecked
    refine ⟨⟨hrequest, by simpa using href, hpeer, hproject, hdecision, hevidence⟩, ?_⟩
    cases hevent
    rfl
  · rintro ⟨h, rfl⟩
    exact ⟨(), trivial, (), by decide, _, ⟨rfl, h.requestId⟩, _,
      ⟨rfl, decide_eq_true h.contributionRef⟩, _, ⟨rfl, decide_eq_true hid⟩, 0,
      ⟨rfl, by decide⟩, _, rfl, _, ⟨rfl, hiso⟩, (),
      hprojection.2 ⟨h.evidence, h.receiverPeer, h.projectRef, h.decisionId⟩, rfl⟩

end Parse

end Abtars
