import Abtars.Board.Dependencies
import Abtars.Lib.Transaction

/-!
# Contribution events on the wire

`help.event.v1`: what the receiver of a help request tells the requester about its contribution.
`parseContributionEvent` reads a JSON value as an event.  It bounds the parts of a terminal
projection; the summary of the event, its evidence and its artifacts it takes as they come.
-/

namespace Abtars

open Lib

inductive ContributionEventKind
  | progress | completed | failed | withdrawalNoted
  deriving DecidableEq

def ContributionEventKind.text : ContributionEventKind → String
  | .progress => "progress"
  | .completed => "completed"
  | .failed => "failed"
  | .withdrawalNoted => "withdrawal_noted"

def ContributionEventKind.isTerminal (kind : ContributionEventKind) : Bool :=
  kind = .completed ∨ kind = .failed

def ContributionEventKind.ofText (text : String) : Option ContributionEventKind :=
  [ContributionEventKind.progress, .completed, .failed, .withdrawalNoted].find? (·.text = text)

/-- `PeerContributionEventV1`; what the parser does not look into is the value that came. -/
structure PeerContributionEvent where
  eventId : String
  sequence : Rat
  requestId : String
  contributionRef : String
  kind : ContributionEventKind
  occurredAt : String
  summary : Option Json
  evidence : Option Json
  artifacts : Option Json
  projection : Option Json

/-! ## Bounds -/

def maxSummaryLength : Nat := 10000
def maxEvidenceBytes : Nat := 1000000
def maxEvidenceItems : Nat := 20
def maxArtifacts : Nat := 20
def maxProjectionItemLength : Nat := 2000
def maxRequestIdLength : Nat := 128
def maxRemoteIdLength : Nat := 128

def isBoundedText (max : Nat) (text : String) : Bool :=
  text ≠ "" ∧ utf16Length text ≤ max

def hasBoundedText (max : Nat) (value : Option Json) : Bool :=
  (Json.text? value).any (isBoundedText max)

/-- The characters of `REQUEST_ID_RE`. -/
def isRequestIdChar (c : Char) : Bool :=
  c.isAlphanum ∨ c = '.' ∨ c = '_' ∨ c = ':' ∨ c = '-'

def validateRequestId (id : String) : Bool :=
  isBoundedText maxRequestIdLength id ∧ id.toList.all isRequestIdChar

/-- Does the text begin as the pattern says, `d` standing for a digit? -/
def beginsAs : List Char → List Char → Bool
  | [], _ => true
  | _ :: _, [] => false
  | p :: pattern, c :: text => (if p = 'd' then c.isDigit else c = p) && beginsAs pattern text

def isISODate (text : String) : Bool :=
  beginsAs "dddd-dd-ddTdd:dd:dd".toList text.toList

def isSafeInteger (q : Rat) : Bool :=
  q.den = 1 ∧ -maxSafeInteger ≤ q.num ∧ q.num ≤ maxSafeInteger

/-! ## Parsing -/

def orError {α : Type} (value : Option α) (message : String) : Except String α :=
  match value with
  | some a => .ok a
  | none => .error message

def checkThat (ok : Bool) (message : String) : Except String Unit :=
  if ok then .ok () else .error message

theorem checkThat_eq_ok {ok : Bool} {message : String} {u : Unit} :
    checkThat ok message = .ok u ↔ ok = true := by
  cases ok <;> simp [checkThat]

theorem orError_eq_ok {α : Type} {value : Option α} {message : String} {a : α} :
    orError value message = .ok a ↔ value = some a := by
  cases value <;> simp [orError]

def isItem : Json → Bool
  | .obj _ => true
  | _ => false

def checkEvidenceItem (item : Json) : Except String Unit :=
  checkThat
    (isItem item ∧ hasBoundedText maxRemoteIdLength (item.member "id") ∧
      hasBoundedText maxRemoteIdLength (item.member "kind") ∧
      hasBoundedText maxProjectionItemLength (item.member "summary") ∧
      hasBoundedText maxRemoteIdLength (item.member "observed_by"))
    "projection evidence item is invalid"

def checkArtifact (item : Json) : Except String Unit :=
  checkThat
    (isItem item ∧ hasBoundedText maxProjectionItemLength (item.member "name") ∧
      hasBoundedText maxRemoteIdLength (item.member "content_type") ∧
      (Json.number? (item.member "size_bytes")).any (fun q => isSafeInteger q ∧ 0 ≤ q) ∧
      hasBoundedText maxProjectionItemLength (item.member "ref"))
    "projection artifact is invalid"

def checkProvenance (provenance : Json) : Except String Unit :=
  (checkThat provenance.isObject "projection provenance required").bind fun _ =>
  checkThat
    (hasBoundedText maxRemoteIdLength (provenance.member "receiver_peer") ∧
      hasBoundedText maxRemoteIdLength (provenance.member "receiver_project_ref") ∧
      hasBoundedText maxRemoteIdLength (provenance.member "acceptance_id") ∧
      (Json.text? (provenance.member "accepted_at")).any isISODate)
    "projection provenance is invalid"

variable (rt : Runtime)

def evidenceBytes (evidence artifacts : List Json) : Nat :=
  (Json.stringify rt.renderFraction
    (.obj [("evidence", .arr evidence), ("artifacts", .arr artifacts)])).utf8ByteSize

def checkProjection (kind : ContributionEventKind) (projection : Json) : Except String Unit :=
  (checkThat projection.isObject "projection must be an object").bind fun _ =>
  (checkThat (Json.number? (projection.member "schema_version") = some 1)
    "unsupported projection version").bind fun _ =>
  (checkThat (Json.text? (projection.member "outcome") = some kind.text)
    "projection outcome does not match event kind").bind fun _ =>
  (checkThat (hasBoundedText maxSummaryLength (projection.member "summary"))
    "projection summary is invalid").bind fun _ =>
  (orError ((Json.items? (projection.member "evidence")).filter (·.length ≤ maxEvidenceItems))
    "projection evidence is invalid").bind fun evidence =>
  (orError ((Json.items? (projection.member "artifacts")).filter (·.length ≤ maxArtifacts))
    "projection artifacts are invalid").bind fun artifacts =>
  (checkThat (evidenceBytes rt evidence artifacts ≤ maxEvidenceBytes)
    "projection evidence exceeds byte limit").bind fun _ =>
  (evidence.forM checkEvidenceItem).bind fun _ =>
  (artifacts.forM checkArtifact).bind fun _ =>
  checkProvenance ((projection.member "provenance").getD .null)

def parseProjection (kind : ContributionEventKind) (projection : Option Json) :
    Except String Unit :=
  match projection with
  | none => checkThat (!kind.isTerminal) "terminal projection required"
  | some projection =>
    (checkThat kind.isTerminal "projection only allowed on terminal event").bind fun _ =>
    checkProjection rt kind projection

def parseContributionEvent (raw : Json) : Except String PeerContributionEvent :=
  (checkThat raw.isObject "payload must be an object").bind fun _ =>
  (checkThat (Json.number? (raw.member "version") = some 1) "unsupported version").bind fun _ =>
  (orError ((Json.text? (raw.member "request_id")).filter validateRequestId)
    "invalid request_id").bind fun requestId =>
  (orError ((Json.text? (raw.member "contribution_ref")).filter (· ≠ ""))
    "invalid contribution_ref").bind fun contributionRef =>
  (orError ((Json.text? (raw.member "event_id")).filter (· ≠ ""))
    "invalid event_id").bind fun eventId =>
  (orError ((Json.number? (raw.member "sequence")).filter (0 ≤ ·))
    "sequence must be a non-negative number").bind fun sequence =>
  (orError ((Json.text? (raw.member "kind")).bind ContributionEventKind.ofText)
    "invalid kind").bind fun kind =>
  (orError ((Json.text? (raw.member "occurred_at")).filter isISODate)
    "invalid occurred_at").bind fun occurredAt =>
  (parseProjection rt kind (raw.member "projection")).bind fun _ =>
  .ok
    { eventId := eventId
      sequence := sequence
      requestId := requestId
      contributionRef := contributionRef
      kind := kind
      occurredAt := occurredAt
      summary := raw.member "summary"
      evidence := raw.member "evidence"
      artifacts := raw.member "artifacts"
      projection := raw.member "projection" }

/-- The digest the ledger keeps of an event; a member that is undefined is left out. -/
def contributionEventDigest (event : PeerContributionEvent) : String :=
  let optional (key : String) (value : Option Json) : List (String × Json) :=
    (value.map fun v => (key, v)).toList
  rt.sha256 (Json.stringify rt.renderFraction (.obj
    ([("version", .num 1), ("event_id", .str event.eventId), ("sequence", .num event.sequence),
      ("request_id", .str event.requestId), ("contribution_ref", .str event.contributionRef),
      ("kind", .str event.kind.text), ("occurred_at", .str event.occurredAt)] ++
      optional "summary" event.summary ++ optional "evidence" event.evidence ++
      optional "artifacts" event.artifacts ++ optional "projection" event.projection)))

section Spec

variable {rt : Runtime} {raw : Json} {event : PeerContributionEvent}

/-- A parsed event has a sequence number that is not negative, and a projection exactly when it is
terminal. -/
theorem parseContributionEvent_ok (h : parseContributionEvent rt raw = .ok event) :
    0 ≤ event.sequence ∧ parseProjection rt event.kind event.projection = .ok () := by
  simp only [parseContributionEvent, bind_eq_ok, orError_eq_ok, Option.filter_eq_some_iff] at h
  obtain ⟨-, -, -, -, requestId, -, contributionRef, -, eventId, -, sequence, hsequence,
    kind, -, occurredAt, -, ⟨⟩, hprojection, h⟩ := h
  cases h
  exact ⟨by simpa using hsequence.2, hprojection⟩

theorem parseProjection_some {kind : ContributionEventKind} {projection : Option Json}
    (h : parseProjection rt kind projection = .ok ()) : projection.isSome = kind.isTerminal := by
  cases projection with
  | none =>
    have hterminal := checkThat_eq_ok.1 h
    simpa using hterminal
  | some projection =>
    obtain ⟨⟨⟩, hterminal, -⟩ := bind_eq_ok.1 h
    simpa using (checkThat_eq_ok.1 hterminal).symm

theorem parseProjection_provenance {kind : ContributionEventKind} {projection : Json}
    (h : parseProjection rt kind (some projection) = .ok ()) :
    ∃ provenance, projection.member "provenance" = some provenance ∧
      provenance.isObject = true := by
  obtain ⟨⟨⟩, -, h⟩ := bind_eq_ok.1 h
  simp only [checkProjection, bind_eq_ok] at h
  obtain ⟨-, -, -, -, -, -, -, -, -, -, -, -, -, -, -, -, -, -, h⟩ := h
  obtain ⟨⟨⟩, hobject, -⟩ := bind_eq_ok.1 h
  rw [checkThat_eq_ok] at hobject
  cases hprovenance : projection.member "provenance" with
  | none =>
    rw [hprovenance] at hobject
    cases hobject
  | some provenance =>
    rw [hprovenance] at hobject
    exact ⟨provenance, rfl, hobject⟩

end Spec

end Abtars
