import Abtars.Lib.Run
import Abtars.Peer.NonceStore

/-!
# How often a signed request is accepted

Runs of the request checks over one nonce store, with the accepted requests on record.  A nonce
row lives for a minute after it was written; a timestamp is accepted for up to a minute and a
second, half of it before the stamped second.
-/

namespace Abtars

open Lib

variable {crypto : RequestCrypto}

/-! ## Runs -/

structure SignedWs where
  peerId : String
  requestId : String
  ts : String
  nonce : String
  method : String
  canonicalPath : String
  body : String
  verifyKey : String
  deriving DecidableEq

def WsRequest.signed (r : WsRequest) : SignedWs :=
  ⟨r.peerId, r.requestId, r.ts, r.nonce, r.method, r.canonicalPath, r.body, r.verifyKey⟩

structure SignedHttp where
  ts : String
  nonce : String
  method : String
  path : String
  body : String
  verifyKey : String
  deriving DecidableEq

def HttpRequest.signed (r : HttpRequest) : Option SignedHttp := do
  let ts ← r.header "x-peer-ts"
  let nonce ← r.header "x-peer-nonce"
  return ⟨ts, nonce, r.method, r.path, r.body, r.verifyKey⟩

inductive AuthEvent
  | ws (r : WsRequest) (clock : RequestClock) (faults : StoreFaults)
  | http (r : HttpRequest) (clock : RequestClock) (faults : StoreFaults)
  /-- The broker's claim for a push frame. -/
  | push (peerId nonce : String) (clock : RequestClock) (faults : StoreFaults)
  | prune (http wss : Nat) (faults : StoreFaults)

/-- A store in use, when it was last used, and the requests accepted so far with the time their
nonce was written, newest first. -/
structure AuthRun where
  store : NonceStore
  now : Nat
  acceptedWs : List (SignedWs × Nat)
  acceptedHttp : List (SignedHttp × Nat)

def AuthRun.start (store : NonceStore) (now : Nat) : AuthRun := ⟨store, now, [], []⟩

def authStep (crypto : RequestCrypto) (s : AuthRun) : AuthEvent → AuthRun
  | .ws r clock faults =>
    let (store, result) := verifyWsRequest crypto s.store r clock faults
    { s with
      store := store
      now := clock.write
      acceptedWs := match result with
        | .ok () => (r.signed, clock.write) :: s.acceptedWs
        | .error _ => s.acceptedWs }
  | .http r clock faults =>
    let (store, result) := verifyRequest crypto s.store r clock faults
    { s with
      store := store
      now := clock.write
      acceptedHttp := match result with
        | some (.ok ()) => (r.signed.map fun signed => (signed, clock.write)).toList ++
            s.acceptedHttp
        | _ => s.acceptedHttp }
  | .push peerId nonce clock faults =>
    { s with store := (claim s.store peerId nonce clock faults).1, now := clock.write }
  | .prune http wss faults => { s with store := s.store.prune http wss faults, now := wss }

/-- A frame that was accepted before comes before its row is deleted, if its timestamp is still
within the window. -/
def TimelyWs (s : AuthRun) (r : WsRequest) (clock : RequestClock) : Prop :=
  ∀ accepted ∈ s.acceptedWs, accepted.1 = r.signed → inTsWindow r.timestamp clock.stamp = true →
    clock.wss ≤ accepted.2 + nonceTtlMs

def TimelyHttp (s : AuthRun) (r : HttpRequest) (clock : RequestClock) : Prop :=
  ∀ accepted ∈ s.acceptedHttp, r.signed = some accepted.1 →
    (∀ ts ∈ parseInt10 accepted.1.ts.toList, inTsWindow ts clock.stamp = true) →
    clock.http ≤ accepted.2 + nonceTtlMs

instance (s : AuthRun) (r : WsRequest) (clock : RequestClock) : Decidable (TimelyWs s r clock) :=
  inferInstanceAs (Decidable (∀ accepted ∈ s.acceptedWs, _ → _ → _))

instance (s : AuthRun) (r : HttpRequest) (clock : RequestClock) :
    Decidable (TimelyHttp s r clock) :=
  inferInstanceAs (Decidable (∀ accepted ∈ s.acceptedHttp, _ → _ → _))

/-- The clock does not run backwards, accepted requests are repeated in time, and the database
takes the nonces of HTTP requests. -/
def TimelyAuth (s : AuthRun) : AuthEvent → Prop
  | .ws r clock _ => s.now ≤ clock.stamp ∧ TimelyWs s r clock
  | .http r clock faults => s.now ≤ clock.stamp ∧ TimelyHttp s r clock ∧ faults.write = false
  | .push _ _ clock _ => s.now ≤ clock.stamp
  | .prune http wss _ => s.now ≤ http ∧ http ≤ wss

instance (s : AuthRun) : ∀ event, Decidable (TimelyAuth s event)
  | .ws _ _ _ => inferInstanceAs (Decidable (_ ∧ _))
  | .http _ _ _ => inferInstanceAs (Decidable (_ ∧ _ ∧ _))
  | .push _ _ _ _ => inferInstanceAs (Decidable (_ ≤ _))
  | .prune _ _ _ => inferInstanceAs (Decidable (_ ∧ _))

/-! ## Rows that are alive -/

def HttpAlive (s : NonceStore) (nonce : String) (deadline : Nat) : Prop :=
  ∃ row, s.http.get nonce = some row ∧ deadline ≤ row.expiresAt

def WsAlive (s : NonceStore) (peerId nonce : String) (deadline : Nat) : Prop :=
  ∃ row, s.wss.get (peerId, nonce) = some row ∧ deadline ≤ row.expiresAt

section Alive

variable {s : NonceStore} {peerId nonce : String} {deadline now : Nat}

theorem HttpAlive.deleteHttp (h : HttpAlive s nonce deadline) (hnow : now ≤ deadline) :
    HttpAlive (deleteHttp s now) nonce deadline := by
  obtain ⟨row, hget, halive⟩ := h
  refine ⟨row, ?_, halive⟩
  rw [Abtars.deleteHttp, Table.get_deleteWhere, hget, Option.filter_some_pos]
  simp only [Bool.not_eq_true', decide_eq_false_iff_not]
  omega

theorem WsAlive.deleteWss (h : WsAlive s peerId nonce deadline) (hnow : now ≤ deadline) :
    WsAlive (deleteWss s now) peerId nonce deadline := by
  obtain ⟨row, hget, halive⟩ := h
  refine ⟨row, ?_, halive⟩
  rw [Abtars.deleteWss, Table.get_deleteWhere, hget, Option.filter_some_pos]
  simp only [Bool.not_eq_true', decide_eq_false_iff_not]
  omega

theorem HttpAlive.prune (h : HttpAlive s nonce deadline) {http : Nat} (hhttp : http ≤ deadline)
    (wss : Nat) (faults : StoreFaults) : HttpAlive (s.prune http wss faults) nonce deadline := by
  rw [NonceStore.prune]
  have hfirst : HttpAlive (if faults.http then s else Abtars.deleteHttp s http) nonce deadline := by
    split
    · exact h
    · exact h.deleteHttp hhttp
  generalize (if faults.http then s else Abtars.deleteHttp s http) = s' at hfirst ⊢
  split
  · exact hfirst
  · exact hfirst

theorem WsAlive.prune (h : WsAlive s peerId nonce deadline) {http wss : Nat} (hwss : wss ≤ deadline)
    (faults : StoreFaults) : WsAlive (s.prune http wss faults) peerId nonce deadline := by
  rw [NonceStore.prune]
  have hfirst : WsAlive (if faults.http then s else Abtars.deleteHttp s http) peerId nonce
      deadline := by
    split
    · exact h
    · exact h
  generalize (if faults.http then s else Abtars.deleteHttp s http) = s' at hfirst ⊢
  split
  · exact hfirst
  · exact hfirst.deleteWss hwss

theorem WsAlive.claim (h : WsAlive s peerId nonce deadline) {clock : RequestClock}
    (hwss : clock.wss ≤ deadline) (peerId' nonce' : String) (faults : StoreFaults) :
    WsAlive (claim s peerId' nonce' clock faults).1 peerId nonce deadline ∧
      ((peerId', nonce') = (peerId, nonce) →
        (claim s peerId' nonce' clock faults).2 ≠ .claimed) := by
  rw [Abtars.claim]
  split
  · exact ⟨h, fun _ => by simp⟩
  have hkept := h.deleteWss hwss
  dsimp only
  split
  · exact ⟨hkept, fun _ => by simp⟩
  split
  · exact ⟨hkept, fun _ => by simp⟩
  rename_i wss hinsert
  obtain ⟨row, hget, halive⟩ := hkept
  have hfree := (Table.insert_eq_some_iff.1 hinsert).1
  have hother : (peerId', nonce') ≠ (peerId, nonce) := by
    intro hkey
    have hnone : (Abtars.deleteWss s clock.wss).wss.get (peerId', nonce') = none := hfree
    rw [hkey, hget] at hnone
    cases hnone
  refine ⟨⟨row, ?_, halive⟩, fun hkey => absurd hkey hother⟩
  exact Table.get_insert_of_some hinsert hget

theorem wsAlive_claim {clock : RequestClock} {faults : StoreFaults}
    (h : (claim s peerId nonce clock faults).2 = .claimed) :
    WsAlive (claim s peerId nonce clock faults).1 peerId nonce (clock.write + nonceTtlMs) := by
  rw [Abtars.claim] at h ⊢
  split at h
  · cases h
  rename_i hwss
  rw [if_neg hwss]
  dsimp only at h ⊢
  split at h
  · cases h
  rename_i hwrite
  rw [if_neg hwrite]
  split at h
  · cases h
  · rename_i wss hinsert
    exact ⟨_, Table.get_insert_new hinsert, le_rfl⟩

theorem HttpAlive.record (h : HttpAlive s nonce deadline) (nonce' : String) (now : Nat)
    (faults : StoreFaults) : HttpAlive (recordHttpNonce s nonce' now faults) nonce deadline := by
  obtain ⟨row, hget, halive⟩ := h
  rw [recordHttpNonce]
  split
  · exact ⟨row, hget, halive⟩
  · exact ⟨row, Table.get_insertOrIgnore_of_some hget, halive⟩

theorem httpAlive_record {faults : StoreFaults} (hnew : s.http.has nonce = false)
    (hwrite : faults.write = false) :
    HttpAlive (recordHttpNonce s nonce now faults) nonce (now + nonceTtlMs) := by
  have hnone : s.http.get nonce = none := by
    rw [Table.has, Option.isSome_eq_false_iff, Option.isNone_iff_eq_none] at hnew
    exact hnew
  rw [recordHttpNonce, if_neg (by simp [hwrite])]
  exact ⟨⟨nonce, now, now + nonceTtlMs⟩,
    Table.get_insertOrIgnore_of_fits ⟨hnone, fun _ _ => rfl⟩, le_rfl⟩

end Alive

/-! ## What a check does to the store -/

theorem window_of_signature {r : WsRequest} {now : Nat}
    (h : verifyWsRequestSignature crypto r now = .ok ()) : inTsWindow r.timestamp now = true := by
  unfold verifyWsRequestSignature at h
  split at h
  · cases h
  split at h
  · cases h
  split at h
  · cases h
  split at h
  · cases h
  split at h
  · cases h
  split at h
  · cases h
  · rename_i hwindow
    simpa using hwindow

theorem verifyWsRequest_cases (crypto : RequestCrypto) (s : NonceStore) (r : WsRequest)
    (clock : RequestClock) (faults : StoreFaults) :
    (∃ reason, verifyWsRequest crypto s r clock faults = (s, .error reason)) ∨
      (inTsWindow r.timestamp clock.stamp = true ∧
        (verifyWsRequest crypto s r clock faults).1 = (claim s r.peerId r.nonce clock faults).1 ∧
        ((verifyWsRequest crypto s r clock faults).2 = .ok () →
          (claim s r.peerId r.nonce clock faults).2 = .claimed)) := by
  rw [verifyWsRequest]
  cases hsignature : verifyWsRequestSignature crypto r clock.stamp with
  | error reason => exact .inl ⟨reason, rfl⟩
  | ok _ =>
    refine .inr ⟨window_of_signature hsignature, ?_⟩
    rcases claim s r.peerId r.nonce clock faults with ⟨store, claimed | replay | storeError⟩
    · exact ⟨rfl, fun _ => rfl⟩
    · exact ⟨rfl, fun h => by cases h⟩
    · exact ⟨rfl, fun h => by cases h⟩

/-- A request is refused before the store is touched, or after its nonce was looked up, or it is
accepted and its nonce recorded. -/
theorem verifyRequest_cases (crypto : RequestCrypto) (s : NonceStore) (r : HttpRequest)
    (clock : RequestClock) (faults : StoreFaults) :
    ((verifyRequest crypto s r clock faults).2 ≠ some (.ok ()) ∧
        ((verifyRequest crypto s r clock faults).1 = s ∨
          (verifyRequest crypto s r clock faults).1 = s.prune clock.http clock.wss faults)) ∨
      ∃ ts nonce n, r.header "x-peer-ts" = some ts ∧ r.header "x-peer-nonce" = some nonce ∧
        parseInt10 ts.toList = some n ∧ inTsWindow n clock.stamp = true ∧
        (s.prune clock.http clock.wss faults).http.has nonce = false ∧
        verifyRequest crypto s r clock faults =
          (recordHttpNonce (s.prune clock.http clock.wss faults) nonce clock.write faults,
            some (.ok ())) := by
  rw [verifyRequest]
  split
  · rename_i _ tsHeader nonce sig _ hts hnonce _
    cases hparse : parseInt10 tsHeader.toList with
    | none => exact .inl ⟨by simp, .inl rfl⟩
    | some ts =>
      dsimp only
      split
      · exact .inl ⟨by simp, .inl rfl⟩
      rename_i hwindow
      rw [isSeen]
      by_cases hselect : faults.select = true
      · rw [if_pos hselect]
        exact .inl ⟨by simp, .inr rfl⟩
      rw [if_neg hselect]
      cases hseen : (s.prune clock.http clock.wss faults).http.has nonce with
      | true => exact .inl ⟨by simp, .inr rfl⟩
      | false =>
        dsimp only
        split
        · exact .inl ⟨by simp, .inr rfl⟩
        · exact .inr ⟨tsHeader, nonce, ts, hts, hnonce, hparse, by simpa using hwindow, hseen,
            rfl⟩
  · exact .inl ⟨by simp, .inl rfl⟩

/-! ## Accepted requests keep their rows -/

/-- The nonces of accepted requests are stored for a minute, and no request was accepted
twice. -/
structure NoncesStored (s : AuthRun) : Prop where
  ws : ∀ accepted ∈ s.acceptedWs, s.now ≤ accepted.2 + nonceTtlMs →
    WsAlive s.store accepted.1.peerId accepted.1.nonce (accepted.2 + nonceTtlMs)
  http : ∀ accepted ∈ s.acceptedHttp, s.now ≤ accepted.2 + nonceTtlMs →
    HttpAlive s.store accepted.1.nonce (accepted.2 + nonceTtlMs)
  onceWs : (s.acceptedWs.map Prod.fst).Nodup
  onceHttp : (s.acceptedHttp.map Prod.fst).Nodup

theorem noncesStored_start (store : NonceStore) (now : Nat) :
    NoncesStored (AuthRun.start store now) :=
  ⟨by simp [AuthRun.start], by simp [AuthRun.start], List.nodup_nil, List.nodup_nil⟩

theorem claim_http (s : NonceStore) (peerId nonce : String) (clock : RequestClock)
    (faults : StoreFaults) : (claim s peerId nonce clock faults).1.http = s.http := by
  rw [claim]
  split
  · rfl
  dsimp only
  split
  · rfl
  split
  · rfl
  · rfl

theorem noncesStored_claim {s : AuthRun} (hs : NoncesStored s) {clock : RequestClock}
    (hnow : s.now ≤ clock.stamp) (peerId nonce : String) (faults : StoreFaults) :
    NoncesStored { s with
      store := (claim s.store peerId nonce clock faults).1, now := clock.write } := by
  have hordered := clock.ordered
  refine ⟨fun accepted hmem hlive => ?_, fun accepted hmem hlive => ?_, hs.onceWs, hs.onceHttp⟩
  · have hwrite : clock.write ≤ accepted.2 + nonceTtlMs := hlive
    exact ((hs.ws accepted hmem (by omega)).claim (by omega) peerId nonce faults).1
  have hwrite : clock.write ≤ accepted.2 + nonceTtlMs := hlive
  obtain ⟨row, hget, halive⟩ := hs.http accepted hmem (by omega)
  refine ⟨row, ?_, halive⟩
  rw [claim_http]
  exact hget

theorem noncesStored_prune {s : AuthRun} (hs : NoncesStored s) {http wss later : Nat}
    (hhttp : s.now ≤ http) (hwss : http ≤ wss) (hlater : wss ≤ later) (faults : StoreFaults) :
    NoncesStored { s with store := s.store.prune http wss faults, now := later } := by
  refine ⟨fun accepted hmem hlive => ?_, fun accepted hmem hlive => ?_, hs.onceWs, hs.onceHttp⟩
  · have hend : later ≤ accepted.2 + nonceTtlMs := hlive
    exact (hs.ws accepted hmem (by omega)).prune (by omega) faults
  · have hend : later ≤ accepted.2 + nonceTtlMs := hlive
    exact (hs.http accepted hmem (by omega)).prune (by omega) wss faults

theorem noncesStored_wait {s : AuthRun} (hs : NoncesStored s) {later : Nat}
    (hlater : s.now ≤ later) : NoncesStored { s with now := later } :=
  ⟨fun accepted hmem hlive => hs.ws accepted hmem (hlater.trans hlive),
    fun accepted hmem hlive => hs.http accepted hmem (hlater.trans hlive), hs.onceWs, hs.onceHttp⟩

theorem noncesStored_ws {s : AuthRun} (hs : NoncesStored s) {r : WsRequest} {clock : RequestClock}
    (hnow : s.now ≤ clock.stamp) (htimely : TimelyWs s r clock) (faults : StoreFaults) :
    NoncesStored (authStep crypto s (.ws r clock faults)) := by
  have hordered := clock.ordered
  rw [authStep]
  rcases verifyWsRequest_cases crypto s.store r clock faults with
    ⟨reason, hrefused⟩ | ⟨hwindow, hstore, hclaimed⟩
  · rw [hrefused]
    exact noncesStored_wait hs (by omega)
  · have hkept := noncesStored_claim hs hnow r.peerId r.nonce faults
    dsimp only
    rw [hstore]
    cases hresult : (verifyWsRequest crypto s.store r clock faults).2 with
    | error reason => exact hkept
    | ok _ =>
      have hclaim := hclaimed hresult
      refine ⟨?_, hkept.http, ?_, hs.onceHttp⟩
      · intro accepted hmem hlive
        rcases List.mem_cons.1 hmem with rfl | hold
        · exact wsAlive_claim hclaim
        · exact hkept.ws accepted hold hlive
      refine List.nodup_cons.2 ⟨fun hmem => ?_, hs.onceWs⟩
      -- a frame that was accepted before still has its row, which the claim would meet
      obtain ⟨accepted, hold, hsame⟩ := List.mem_map.1 hmem
      have hearly := htimely accepted hold hsame hwindow
      have halive := hs.ws accepted hold (by omega)
      have hpeer : accepted.1.peerId = r.peerId := by rw [hsame]; rfl
      have hnonce : accepted.1.nonce = r.nonce := by rw [hsame]; rfl
      exact (halive.claim hearly r.peerId r.nonce faults).2 (by rw [hpeer, hnonce]) hclaim

theorem noncesStored_http {s : AuthRun} (hs : NoncesStored s)
    {r : HttpRequest} {clock : RequestClock} {faults : StoreFaults} (hnow : s.now ≤ clock.stamp)
    (htimely : TimelyHttp s r clock) (hwrite : faults.write = false) :
    NoncesStored (authStep crypto s (.http r clock faults)) := by
  have hordered := clock.ordered
  have hpruned : NoncesStored { s with
      store := s.store.prune clock.http clock.wss faults, now := clock.write } :=
    noncesStored_prune hs (by omega) (by omega) (by omega) faults
  rw [authStep]
  rcases verifyRequest_cases crypto s.store r clock faults with
    ⟨hrefused, hstore⟩ | ⟨ts, nonce, n, hts, hnonce, hparse, hwindow, hnew, haccepted⟩
  · have hsame : (match (verifyRequest crypto s.store r clock faults).2 with
        | some (.ok ()) => (r.signed.map fun signed => (signed, clock.write)).toList ++
            s.acceptedHttp
        | _ => s.acceptedHttp) = s.acceptedHttp := by
      split
      · rename_i hok
        exact absurd hok hrefused
      · rfl
    dsimp only
    rw [hsame]
    rcases hstore with hstore | hstore
    · rw [hstore]
      exact noncesStored_wait hs (by omega)
    · rw [hstore]
      exact hpruned
  · have hsigned : r.signed = some ⟨ts, nonce, r.method, r.path, r.body, r.verifyKey⟩ := by
      rw [HttpRequest.signed, hts, hnonce]
      rfl
    rw [haccepted, hsigned]
    refine ⟨?_, ?_, hs.onceWs, ?_⟩
    · intro accepted hmem hlive
      obtain ⟨row, hget, halive⟩ := hpruned.ws accepted hmem hlive
      refine ⟨row, ?_, halive⟩
      rw [recordHttpNonce, if_neg (by simp [hwrite])]
      exact hget
    · intro accepted hmem hlive
      rcases List.mem_cons.1 hmem with rfl | hold
      · exact httpAlive_record hnew hwrite
      · exact (hpruned.http accepted hold hlive).record nonce clock.write faults
    refine List.nodup_cons.2 ⟨fun hmem => ?_, hs.onceHttp⟩
    -- a request that was accepted before still has its row, which the lookup would find
    obtain ⟨accepted, hold, hsame⟩ := List.mem_map.1 hmem
    have hearly : clock.http ≤ accepted.2 + nonceTtlMs := by
      refine htimely accepted hold (hsigned.trans (by rw [hsame])) fun n' hn' => ?_
      rw [hsame] at hn'
      rw [hparse] at hn'
      cases hn'
      exact hwindow
    have halive := (hs.http accepted hold (by omega)).prune hearly clock.wss faults
    obtain ⟨row, hget, -⟩ := halive
    have hhas : (s.store.prune clock.http clock.wss faults).http.has nonce = true := by
      rw [Table.has, show nonce = accepted.1.nonce by rw [hsame], hget]
      rfl
    rw [hnew] at hhas
    cases hhas

theorem noncesStored_step (crypto : RequestCrypto) (s : AuthRun) (event : AuthEvent)
    (hs : NoncesStored s) (htimely : TimelyAuth s event) :
    NoncesStored (authStep crypto s event) := by
  cases event with
  | ws r clock faults => exact noncesStored_ws hs htimely.1 htimely.2 faults
  | http r clock faults => exact noncesStored_http hs htimely.1 htimely.2.1 htimely.2.2
  | push peerId nonce clock faults => exact noncesStored_claim hs htimely peerId nonce faults
  | prune http wss faults => exact noncesStored_prune hs htimely.1 htimely.2 le_rfl faults

/-- **Signed requests are accepted at most once**, over the socket and over HTTP, in every run
whose events are timely, on a store with any nonces in it. -/
theorem accepted_once (crypto : RequestCrypto) (store : NonceStore) (now : Nat)
    (events : List AuthEvent)
    (htimely : StepsMeet (authStep crypto) TimelyAuth (AuthRun.start store now) events) :
    ((runFrom (authStep crypto) (AuthRun.start store now) events).acceptedWs.map
        Prod.fst).Nodup ∧
      ((runFrom (authStep crypto) (AuthRun.start store now) events).acceptedHttp.map
        Prod.fst).Nodup := by
  have hrun := invariant_of_stepsMeet (noncesStored_step crypto) events _
    (noncesStored_start store now) htimely
  exact ⟨hrun.onceWs, hrun.onceHttp⟩

def lenientRequests : RequestCrypto := ⟨fun _ _ _ => true, id⟩

def RequestClock.still (now : Nat) : RequestClock := ⟨now, now, now, now, by simp⟩

def frameOf30 : WsRequest :=
  ⟨"kp", "r1", "30", "00112233445566778899aabbccddeeff", "AAAA", "POST", "/v1/runs", "", "key"⟩

def requestOf30 : HttpRequest where
  headers := [("X-Peer-Id", some "kp"), ("X-Peer-Ts", some "30"),
    ("X-Peer-Nonce", some "00112233445566778899aabbccddeeff"), ("X-Peer-Sig", some "AAAA")]
  method := "POST"
  path := "/v1/runs"
  body := ""
  verifyKey := "key"

def twice (first second : Nat) : List AuthEvent :=
  [.ws frameOf30 (.still first) .none, .http requestOf30 (.still first) .none,
    .ws frameOf30 (.still second) .none, .http requestOf30 (.still second) .none]

theorem accepted_once_repeated :
    ((runFrom (authStep lenientRequests) (AuthRun.start .empty 0) (twice 0 60000)).acceptedWs.map
        Prod.fst).Nodup ∧
      ((runFrom (authStep lenientRequests) (AuthRun.start .empty 0)
        (twice 0 60000)).acceptedHttp.map Prod.fst).Nodup :=
  accepted_once lenientRequests .empty 0 (twice 0 60000) (by decide +kernel)

/-- Stamped half a minute ahead, both are accepted again after a minute and a millisecond. -/
theorem accepted_twice :
    ¬ ((runFrom (authStep lenientRequests) (AuthRun.start .empty 0) (twice 0 60001)).acceptedWs.map
        Prod.fst).Nodup ∧
      ¬ ((runFrom (authStep lenientRequests) (AuthRun.start .empty 0)
        (twice 0 60001)).acceptedHttp.map Prod.fst).Nodup := by
  decide +kernel

end Abtars
