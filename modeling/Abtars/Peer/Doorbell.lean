import Abtars.Lib.Table
import Abtars.Peer.DoorbellGrammar
import Mathlib.Data.Rat.Defs
import Mathlib.Algebra.Order.Field.Rat

/-!
# The doorbell service

`PeerDoorbellService` between its start and its stop: the datagrams it receives, the token
buckets that limit them, the nonces it remembers, and what it sends and schedules.

The peers it knows and the primitives of `node:crypto` are parameters.  A call reads the clock
several times; `Clock` holds what it reads, in that order.  What a call throws leaves the
socket's message callback, where nothing catches it.
-/

namespace Abtars

open Lib

/-! ## Token buckets -/

def maxSourceBuckets : Nat := 256
def sourceBurst : ℚ := 8
def sourceRefillPerMin : ℚ := 30
def peerBurst : ℚ := 3
def peerRefillPerMin : ℚ := 12

structure TokenBucket where
  tokens : ℚ
  lastRefill : ℚ

def newBucket (burst now : ℚ) : TokenBucket := ⟨burst, now⟩

/-- The tokens a bucket holds at an instant, before `refillBucket` caps them. -/
def TokenBucket.grown (b : TokenBucket) (ratePerMin now : ℚ) : ℚ :=
  b.tokens + (now - b.lastRefill) / 60000 * ratePerMin

/-- `refillBucket`, which caps at the rate. -/
def refillBucket (b : TokenBucket) (ratePerMin now : ℚ) : TokenBucket :=
  ⟨min (b.grown ratePerMin now) ratePerMin, now⟩

/-- `consumeBucket`: is there a token, and the bucket after it is taken. -/
def consumeBucket (b : TokenBucket) : Bool × TokenBucket :=
  if b.tokens < 1 then (false, b) else (true, { b with tokens := b.tokens - 1 })

/-- An entry of `sourceBuckets` or `peerBuckets`. -/
structure BucketEntry where
  key : String
  bucket : TokenBucket
  expiresAt : ℚ

instance : Keyed BucketEntry String := ⟨BucketEntry.key⟩

abbrev Buckets := Table BucketEntry

/-- What tells the two maps apart: burst, refill and the number of entries kept. -/
structure Limit where
  burst : ℚ
  ratePerMin : ℚ
  capacity : Option Nat

def sourceLimit : Limit := ⟨sourceBurst, sourceRefillPerMin, some maxSourceBuckets⟩
def peerLimit : Limit := ⟨peerBurst, peerRefillPerMin, none⟩

def oldestBucket (limit : Limit) (buckets : Buckets) : Option BucketEntry :=
  match limit.capacity with
  | none => none
  | some capacity => if capacity ≤ buckets.rows.length then buckets.rows.head? else none

def makeRoom (limit : Limit) (buckets : Buckets) : Buckets :=
  match oldestBucket limit buckets with
  | none => buckets
  | some oldest => buckets.deleteWhere fun e => e.key = oldest.key

/-- The body that `checkSourceBucket` and `checkPeerBucket` share. -/
def checkBucket (limit : Limit) (buckets : Buckets) (key : String) (now : ℚ) : Bool × Buckets :=
  match buckets.get key with
  | some entry =>
    let taken := consumeBucket (refillBucket entry.bucket limit.ratePerMin now)
    (taken.1, buckets.modify key fun e => { e with bucket := taken.2 })
  | none =>
    let taken := consumeBucket (refillBucket (newBucket limit.burst now) limit.ratePerMin now)
    (taken.1, (makeRoom limit buckets).put ⟨key, taken.2, now + 60000⟩)

def checkSourceBucket (buckets : Buckets) (ip : String) (now : ℚ) : Bool × Buckets :=
  checkBucket sourceLimit buckets ip now

def checkPeerBucket (buckets : Buckets) (peerName : String) (now : ℚ) : Bool × Buckets :=
  checkBucket peerLimit buckets peerName now

/-- `pruneBuckets`, for either map. -/
def pruneBuckets (buckets : Buckets) (now : ℚ) : Buckets :=
  buckets.deleteWhere fun e => e.expiresAt < now

/-! ## Nonce caches -/

def timestampWindowSec : Nat := 60
def noncesPerPeer : Nat := 64

/-- `toString("hex")`. -/
def toHex (bytes : Bytes) : List Char :=
  bytes.flatMap fun b => [Nat.digitChar (b.toNat / 16), Nat.digitChar (b.toNat % 16)]

structure NonceCacheEntry where
  nonceHex : List Char
  expiresAt : Nat

/-- An entry of `nonceCaches`. -/
structure NonceCache where
  peerName : String
  entries : List NonceCacheEntry

instance : Keyed NonceCache String := ⟨NonceCache.peerName⟩

abbrev NonceCaches := Table NonceCache

/-- `getNonceCache`, which adds a cache where there is none. -/
def getNonceCache (caches : NonceCaches) (peerName : String) :
    List NonceCacheEntry × NonceCaches :=
  match caches.get peerName with
  | some cache => (cache.entries, caches)
  | none => ([], caches.put ⟨peerName, []⟩)

def isReplayed (cache : List NonceCacheEntry) (nonceHex : List Char) (now : Nat) : Bool :=
  cache.any fun entry => entry.nonceHex = nonceHex ∧ now < entry.expiresAt

/-- `recordNonce`: the ring drops its oldest entries. -/
def recordNonce (caches : NonceCaches) (peerName : String) (nonceHex : List Char) (now : Nat) :
    NonceCaches :=
  let (cache, caches) := getNonceCache caches peerName
  let pushed := cache ++ [⟨nonceHex, now + timestampWindowSec * 1000⟩]
  caches.put ⟨peerName, pushed.drop (pushed.length - noncesPerPeer)⟩

/-- `pruneNonceCaches`: what is kept of a cache, and no cache that keeps nothing. -/
def pruneNonceCaches (caches : NonceCaches) (now : Nat) : NonceCaches :=
  (caches.updateWhere (fun _ => true)
    fun c => { c with entries := c.entries.filter fun e => now < e.expiresAt }).deleteWhere
      fun c => c.entries = []

/-! ## Peers, keys and the clock -/

structure PeerEntry where
  host : String
  verifyKey : String

/-- What the service reads of `loadPeerConfig()`. -/
structure PeerConfig where
  signingKey : String
  peers : List (String × PeerEntry)

/-- The primitives of `node:crypto`; none is a key that is refused, which throws. -/
structure Crypto where
  verify : (verifyKey : String) → (message signature : Bytes) → Option Bool
  sign : (signingKey : String) → (message : Bytes) → Option Bytes
  sha256 : Bytes → Bytes

inductive Thrown
  | outOfRange (offset : Nat)
  | invalidKey

/-- The readings of `Date.now()` in one call, in milliseconds and inside the range of a
`Date`. -/
structure Clock where
  source : Nat
  stamp : Nat
  replay : Nat
  peer : Nat
  record : Nat
  ack : Nat
  connect : Nat
  ordered : source ≤ stamp ∧ stamp ≤ replay ∧ replay ≤ peer ∧ peer ≤ record ∧ record ≤ ack ∧
    ack ≤ connect
  inRange : connect ≤ 8640000000000000

def Clock.still (now : Nat) (h : now ≤ 8640000000000000) : Clock where
  source := now
  stamp := now
  replay := now
  peer := now
  record := now
  ack := now
  connect := now
  ordered := by simp
  inRange := h

structure RemoteInfo where
  address : String
  port : Nat
  deriving DecidableEq

/-- An entry of `pendingAcks`, with its key. -/
structure PendingAck where
  key : String
  queryPacket : Bytes
  queryCanonical : Bytes
  peerName : String
  queryNonceHex : List Char

/-- The state of `PeerDoorbellService` that datagrams read and change. -/
structure Doorbell where
  localSelector : Bytes
  peerSelectors : List (String × Bytes)
  sourceBuckets : Buckets
  peerBuckets : Buckets
  nonceCaches : NonceCaches
  pendingAcks : List PendingAck
  lastPeerConnect : List (String × Nat)
  connectTimers : List String

/-- The service as `start` leaves it, with the selectors of the configured peers. -/
def Doorbell.started (localSelector : Bytes) (peerSelectors : List (String × Bytes)) :
    Doorbell where
  localSelector := localSelector
  peerSelectors := peerSelectors
  sourceBuckets := ∅
  peerBuckets := ∅
  nonceCaches := ∅
  pendingAcks := []
  lastPeerConnect := []
  connectTimers := []

inductive DoorbellEffect
  | send (packet : Bytes) (rinfo : RemoteInfo)
  | acknowledged (key : String)
  | connectLater (peerName : String) (jitterMs : Nat)
  deriving DecidableEq

/-! ## Signed texts -/

def signDomain (text : String) : Bytes := asciiBytes text.toList ++ [0]

/-- `buildQueryCanonical`.  The timestamps signed here were read from eight bytes or from the
clock, so that `u64BE` does not throw. -/
def buildQueryCanonical (q : DoorbellQuery) : Bytes :=
  signDomain "abtars-peer-doorbell-query-v1" ++ ([1, 1] ++ (q.senderSelector ++
    (q.targetSelector ++ (bigEndian 8 q.timestampSec ++ q.nonce))))

def buildAckCanonical (a : DoorbellAck) : Bytes :=
  signDomain "abtars-peer-doorbell-ack-v1" ++ ([1, 2] ++ (a.responderSelector ++
    (a.requestNonce ++ (a.requestHash ++ bigEndian 8 a.timestampSec))))

variable (crypto : Crypto)

/-- `verifyDoorbellQuery`; a key that is refused throws before the `try`. -/
def verifyDoorbellQuery (verifyKey : String) (q : DoorbellQuery) : Except Thrown Bool :=
  match crypto.verify verifyKey (buildQueryCanonical q) q.signature with
  | none => .error .invalidKey
  | some valid => .ok valid

/-- `verifyDoorbellAck`, inside the `try` of its caller. -/
def verifyDoorbellAck (verifyKey : String) (a : DoorbellAck) : Bool :=
  (crypto.verify verifyKey (buildAckCanonical a) a.signature).getD false

def computeRequestHash (queryCanonical : Bytes) : Bytes :=
  (crypto.sha256 queryCanonical).take 16

def buildFreshAck (signingKey : String) (responderSelector queryNonce queryCanonical : Bytes)
    (now : Nat) : Except Thrown DoorbellAck :=
  let unsigned : DoorbellAck :=
    { responderSelector := responderSelector
      requestNonce := queryNonce
      requestHash := computeRequestHash crypto queryCanonical
      timestampSec := now / 1000
      signature := List.replicate 64 0 }
  match crypto.sign signingKey (buildAckCanonical unsigned) with
  | none => .error .invalidKey
  | some signature => .ok { unsigned with signature := signature }

/-! ## Datagrams -/

def timingSafeSelectorEq (a b : Bytes) : Bool := a.length = 16 ∧ b.length = 16 ∧ a = b

def findPeerBySelector (selectors : List (String × Bytes)) (target : Bytes) : Option String :=
  (selectors.find? fun entry => timingSafeSelectorEq entry.2 target).map Prod.fst

def inTimestampWindow (timestampSec now : Nat) : Bool :=
  now / 1000 ≤ timestampSec + timestampWindowSec ∧ timestampSec ≤ now / 1000 + timestampWindowSec

/-- `ensurePeerDoorbellConnect`, with the jitter that `Math.random` drew. -/
def ensurePeerDoorbellConnect (s : Doorbell) (peerName : String) (now jitterMs : Nat) :
    Doorbell × List DoorbellEffect :=
  if now < (s.lastPeerConnect.lookup peerName).getD 0 + 5000 then (s, [])
  else if peerName ∈ s.connectTimers then (s, [])
  else
    ({ s with connectTimers := s.connectTimers ++ [peerName] },
      [.connectLater peerName jitterMs])

variable (config : PeerConfig)

/-- Steps 3 to 8 of `tryProcessQuery`: the sender of a query that may be acknowledged. -/
def admitQuery (s : Doorbell) (q : DoorbellQuery) (clock : Clock) :
    Except Thrown (Doorbell × Option String) :=
  if !timingSafeSelectorEq q.targetSelector s.localSelector then .ok (s, none)
  else
    match findPeerBySelector s.peerSelectors q.senderSelector with
    | none => .ok (s, none)
    | some senderName =>
      match config.peers.lookup senderName with
      | none => .ok (s, none)
      | some peerEntry =>
        if peerEntry.verifyKey = "" then .ok (s, none)
        else if !inTimestampWindow q.timestampSec clock.stamp then .ok (s, none)
        else
          let (cache, caches) := getNonceCache s.nonceCaches senderName
          let s := { s with nonceCaches := caches }
          if isReplayed cache (toHex q.nonce) clock.replay then .ok (s, none)
          else
            match verifyDoorbellQuery crypto peerEntry.verifyKey q with
            | .error thrown => .error thrown
            | .ok false => .ok (s, none)
            | .ok true =>
              let (admitted, buckets) := checkPeerBucket s.peerBuckets senderName clock.peer
              let s := { s with peerBuckets := buckets }
              .ok (s, if admitted then some senderName else none)

/-- Steps 9 to 11 of `tryProcessQuery`. -/
def acknowledgeQuery (s : Doorbell) (packet : Bytes) (rinfo : RemoteInfo) (q : DoorbellQuery)
    (senderName : String) (clock : Clock) (jitterMs : Nat) :
    Except Thrown (Doorbell × List DoorbellEffect) := do
  let s := { s with
    nonceCaches := recordNonce s.nonceCaches senderName (toHex q.nonce) clock.record }
  let queryCanonical := buildQueryCanonical q
  let ack ← buildFreshAck crypto config.signingKey s.localSelector q.nonce queryCanonical clock.ack
  let sent ← match encodeResponse packet ack with
    | .error (.thrown offset) => .error (.outOfRange offset)
    | .error (.returned _) => .ok []
    | .ok ackPacket => .ok [DoorbellEffect.send ackPacket rinfo]
  let (s, scheduled) := ensurePeerDoorbellConnect s senderName clock.connect jitterMs
  return (s, sent ++ scheduled)

/-- Steps 1 to 8 of `tryProcessQuery`: the query to acknowledge and its sender. -/
def acceptQuery (s : Doorbell) (packet : Bytes) (rinfo : RemoteInfo) (clock : Clock) :
    Except Thrown (Doorbell × Option (DoorbellQuery × String)) :=
  let (admitted, buckets) := checkSourceBucket s.sourceBuckets rinfo.address clock.source
  let s := { s with sourceBuckets := buckets }
  if !admitted then .ok (s, none)
  else
    match parseQuery packet with
    | .error (.thrown offset) => .error (.outOfRange offset)
    | .error (.returned _) => .ok (s, none)
    | .ok parsed =>
      match admitQuery crypto config s parsed.parsed clock with
      | .error thrown => .error thrown
      | .ok (s, none) => .ok (s, none)
      | .ok (s, some senderName) => .ok (s, some (parsed.parsed, senderName))

def tryProcessQuery (s : Doorbell) (packet : Bytes) (rinfo : RemoteInfo) (clock : Clock)
    (jitterMs : Nat) : Except Thrown (Doorbell × List DoorbellEffect) :=
  match acceptQuery crypto config s packet rinfo clock with
  | .error thrown => .error thrown
  | .ok (s, none) => .ok (s, [])
  | .ok (s, some (q, senderName)) =>
    acknowledgeQuery crypto config s packet rinfo q senderName clock jitterMs

/-- The checks of `tryProcessResponse` on an acknowledgement that parses; what they throw is
caught there. -/
def isExpectedAck (s : Doorbell) (packet : Bytes) (rinfo : RemoteInfo) (pending : PendingAck)
    (parsed : ParsedResponse) (dnsId now : Nat) : Bool :=
  match config.peers.lookup pending.peerName with
  | none => false
  | some peer =>
    match s.peerSelectors.lookup pending.peerName with
    | none => false
    | some expectedResponder =>
      rinfo.address = peer.host ∧ rinfo.port = 5353 ∧
        (readUInt16BE (subarray packet 0 2) 0).toOption = some dnsId ∧
        timingSafeSelectorEq parsed.ack.responderSelector expectedResponder ∧
        toHex parsed.ack.requestNonce = pending.queryNonceHex ∧
        parsed.ack.requestHash = computeRequestHash crypto pending.queryCanonical ∧
        inTimestampWindow parsed.ack.timestampSec now ∧
        verifyDoorbellAck crypto peer.verifyKey parsed.ack

/-- `tryProcessResponse`: the first pending acknowledgement whose key starts like this id. -/
def tryProcessResponse (s : Doorbell) (packet : Bytes) (rinfo : RemoteInfo) (clock : Clock) :
    Except Thrown (Doorbell × List DoorbellEffect) :=
  match readUInt16BE packet 0 with
  | .error (.thrown offset) => .error (.outOfRange offset)
  | .error (.returned _) => .ok (s, [])
  | .ok dnsId =>
    let matching := s.pendingAcks.find? fun pending =>
      (pending.peerName ++ ":" ++ toString dnsId).toList.isPrefixOf pending.key.toList
    match matching with
    | none => .ok (s, [])
    | some pending =>
      match parseResponse packet pending.queryPacket with
      | .error (.thrown offset) => .error (.outOfRange offset)
      | .error (.returned _) => .ok (s, [])
      | .ok parsed =>
        if isExpectedAck crypto config s packet rinfo pending parsed dnsId clock.stamp then
          .ok ({ s with pendingAcks := s.pendingAcks.filter (·.key ≠ pending.key) },
            [.acknowledged pending.key])
        else .ok (s, [])

/-- `handleMessage`; the flags are read before the length is known to hold them. -/
def handleMessage (s : Doorbell) (msg : Bytes) (rinfo : RemoteInfo) (clock : Clock) (jitterMs : Nat) :
    Except Thrown (Doorbell × List DoorbellEffect) :=
  if maxQueryBytes < msg.length then .ok (s, [])
  else
    match readUInt16BE msg 2 with
    | .error (.thrown offset) => .error (.outOfRange offset)
    | .error (.returned _) => .ok (s, [])
    | .ok flags =>
      if flags &&& 0x8000 ≠ 0 then tryProcessResponse crypto config s msg rinfo clock
      else tryProcessQuery crypto config s msg rinfo clock jitterMs

/-! ## What a check of a bucket answers -/

def Admits (limit : Limit) (buckets : Buckets) (key : String) (now : ℚ) : Prop :=
  match buckets.get key with
  | some entry => 1 ≤ min (entry.bucket.grown limit.ratePerMin now) limit.ratePerMin
  | none => 1 ≤ min limit.burst limit.ratePerMin

theorem grown_newBucket (burst ratePerMin now : ℚ) :
    (newBucket burst now).grown ratePerMin now = burst := by
  simp [newBucket, TokenBucket.grown]

theorem consumeBucket_fst (b : TokenBucket) : (consumeBucket b).1 = true ↔ 1 ≤ b.tokens := by
  rw [consumeBucket]
  split
  · rename_i hlow
    simpa using hlow
  · rename_i hhigh
    simpa using hhigh

theorem checkBucket_fst (limit : Limit) (buckets : Buckets) (key : String) (now : ℚ) :
    (checkBucket limit buckets key now).1 = true ↔ Admits limit buckets key now := by
  rw [checkBucket, Admits]
  cases buckets.get key with
  | none =>
    simp only [consumeBucket_fst, refillBucket, grown_newBucket]
  | some entry =>
    simp only [consumeBucket_fst, refillBucket]

/-! ## Reads past the end of a datagram -/

def Contained {α : Type} (x : Except Thrown α) : Prop :=
  ∀ offset, x ≠ .error (.outOfRange offset)

theorem contained_ok {α : Type} (a : α) : Contained (.ok a : Except Thrown α) := by
  rintro offset ⟨⟩

theorem contained_invalidKey {α : Type} : Contained (.error .invalidKey : Except Thrown α) := by
  rintro offset ⟨⟩

theorem contained_verifyDoorbellQuery (verifyKey : String) (q : DoorbellQuery) :
    Contained (verifyDoorbellQuery crypto verifyKey q) := by
  rw [verifyDoorbellQuery]
  split
  · exact contained_invalidKey
  · exact contained_ok _

theorem inRange_encodeResponse (queryPacket : Bytes) {ack : DoorbellAck}
    (hfits : ack.timestampSec < 2 ^ 64) : (encodeResponse queryPacket ack).InRange := by
  rw [encodeResponse, serializeAckPayload_ok hfits]
  split
  · exact inRange_fail _ _
  simp only [bind, Except.bind]
  split
  · exact inRange_fail _ _
  split
  · exact inRange_fail _ _
  split
  · exact inRange_fail _ _
  split
  · exact inRange_fail _ _
  · exact inRange_ok _

theorem contained_admitQuery (s : Doorbell) (q : DoorbellQuery) (clock : Clock) :
    Contained (admitQuery crypto config s q clock) := by
  unfold admitQuery
  split
  · exact contained_ok _
  split
  · exact contained_ok _
  split
  · exact contained_ok _
  split
  · exact contained_ok _
  split
  · exact contained_ok _
  dsimp only
  split
  · exact contained_ok _
  split
  · rename_i thrown hthrown
    rintro offset h
    cases h
    exact contained_verifyDoorbellQuery _ _ _ _ hthrown
  · exact contained_ok _
  · exact contained_ok _

theorem timestampSec_buildFreshAck {crypto : Crypto} {signingKey : String}
    {responderSelector queryNonce queryCanonical : Bytes} {now : Nat} {ack : DoorbellAck}
    (h : buildFreshAck crypto signingKey responderSelector queryNonce queryCanonical now =
      .ok ack) : ack.timestampSec = now / 1000 := by
  unfold buildFreshAck at h
  dsimp only at h
  split at h
  · cases h
  · cases h
    rfl

theorem contained_acknowledgeQuery (s : Doorbell) (packet : Bytes) (rinfo : RemoteInfo)
    (q : DoorbellQuery) (senderName : String) (clock : Clock) (jitterMs : Nat) :
    Contained (acknowledgeQuery crypto config s packet rinfo q senderName clock jitterMs) := by
  unfold acknowledgeQuery
  simp only [bind, Except.bind, pure, Except.pure]
  split
  · rename_i thrown hthrown
    unfold buildFreshAck at hthrown
    dsimp only at hthrown
    split at hthrown
    · cases hthrown
      exact contained_invalidKey
    · cases hthrown
  · rename_i ack hack
    have hordered := clock.ordered
    have hclock := clock.inRange
    have hfits : ack.timestampSec < 2 ^ 64 := by
      rw [timestampSec_buildFreshAck hack]
      omega
    split
    · rename_i offset hthrown
      exact absurd hthrown (inRange_encodeResponse packet hfits offset)
    · exact contained_ok _
    · exact contained_ok _

theorem tryProcessResponse_contained (s : Doorbell) {packet : Bytes} (rinfo : RemoteInfo)
    (clock : Clock) (hlong : 2 ≤ packet.length) :
    Contained (tryProcessResponse crypto config s packet rinfo clock) := by
  rw [tryProcessResponse, readUInt16BE, readBE_ok (by omega)]
  dsimp only
  split
  · exact contained_ok _
  split
  · rename_i offset hthrown
    exact absurd hthrown (inRange_parseResponse _ _ offset)
  · exact contained_ok _
  · split
    · exact contained_ok _
    · exact contained_ok _

theorem acceptQuery_thrown_iff (s : Doorbell) (packet : Bytes) (rinfo : RemoteInfo) (clock : Clock) :
    (∃ offset, acceptQuery crypto config s packet rinfo clock = .error (.outOfRange offset)) ↔
      Admits sourceLimit s.sourceBuckets rinfo.address clock.source ∧
        ∃ offset, parseQuery packet = .error (.thrown offset) := by
  rw [← checkBucket_fst, acceptQuery, checkSourceBucket]
  dsimp only
  by_cases hadmits : (checkBucket sourceLimit s.sourceBuckets rinfo.address clock.source).1 = true
  · rw [hadmits]
    simp only [Bool.not_true, Bool.false_eq_true, if_false, true_and]
    cases hparse : parseQuery packet with
    | error e =>
      cases e with
      | thrown offset => exact ⟨fun _ => ⟨offset, rfl⟩, fun _ => ⟨offset, rfl⟩⟩
      | returned e => simp
    | ok parsed =>
      refine iff_of_false ?_ (by rintro ⟨offset, ⟨⟩⟩)
      rintro ⟨offset, hthrown⟩
      dsimp only at hthrown
      split at hthrown
      · rename_i thrown hadmit
        cases hthrown
        exact contained_admitQuery _ _ _ _ _ _ hadmit
      · cases hthrown
      · cases hthrown
  · simp [hadmits]

theorem tryProcessQuery_thrown_iff (s : Doorbell) (packet : Bytes) (rinfo : RemoteInfo)
    (clock : Clock) (jitterMs : Nat) :
    (∃ offset, tryProcessQuery crypto config s packet rinfo clock jitterMs =
        .error (.outOfRange offset)) ↔
      Admits sourceLimit s.sourceBuckets rinfo.address clock.source ∧
        ∃ offset, parseQuery packet = .error (.thrown offset) := by
  rw [← acceptQuery_thrown_iff crypto config, tryProcessQuery]
  split
  · rename_i thrown hthrown
    rw [hthrown]
    simp
  · rename_i s' haccept
    rw [haccept]
    simp
  rename_i s' q senderName haccept
  rw [haccept]
  refine iff_of_false ?_ (by rintro ⟨offset, ⟨⟩⟩)
  rintro ⟨offset, hthrown⟩
  exact contained_acknowledgeQuery _ _ _ _ _ _ _ _ _ _ hthrown

/-- **Where the message callback throws.**  A read leaves the datagram exactly when the
datagram is too short for the flags, or when its source still has a token and a valid header is
followed by a question that breaks off. -/
theorem handleMessage_thrown_iff (s : Doorbell) (msg : Bytes) (rinfo : RemoteInfo) (clock : Clock)
    (jitterMs : Nat) :
    (∃ offset, handleMessage crypto config s msg rinfo clock jitterMs =
        .error (.outOfRange offset)) ↔
      msg.length < 4 ∨ (Admits sourceLimit s.sourceBuckets rinfo.address clock.source ∧
        QueryHeader msg ∧ BrokenQuestion msg) := by
  rw [handleMessage, ← parseQuery_thrown_iff]
  have hmax : maxQueryBytes = 384 := rfl
  by_cases hhigh : maxQueryBytes < msg.length
  · rw [if_pos hhigh]
    refine iff_of_false (by rintro ⟨offset, ⟨⟩⟩) ?_
    rintro (hshort | ⟨-, hthrown⟩)
    · omega
    · have hlimit := ((parseQuery_thrown_iff msg).1 hthrown).1.short
      omega
  · rw [if_neg hhigh]
    by_cases hshort : msg.length < 4
    · have hread : readUInt16BE msg 2 = .error (.thrown 2) := by
        rw [readUInt16BE, readBE, if_neg (by omega)]
      rw [hread]
      exact iff_of_true ⟨2, rfl⟩ (.inl hshort)
    obtain ⟨flags, hflags⟩ : ∃ flags, readUInt16BE msg 2 = .ok flags := ⟨_, readBE_ok (by omega)⟩
    rw [hflags]
    dsimp only
    by_cases hresponse : flags &&& 0x8000 ≠ 0
    · -- a response has a flag set, which no query header has
      rw [if_pos hresponse]
      refine iff_of_false ?_ ?_
      · rintro ⟨offset, hthrown⟩
        exact tryProcessResponse_contained _ _ _ _ _ (by omega) _ hthrown
      rintro (hlow | ⟨-, hthrown⟩)
      · exact hshort hlow
      have hzero := ((parseQuery_thrown_iff msg).1 hthrown).1.flags
      rw [hflags, Except.ok.injEq] at hzero
      rw [hzero] at hresponse
      exact hresponse rfl
    · rw [if_neg hresponse, tryProcessQuery_thrown_iff]
      exact ⟨.inr, fun h => h.resolve_left hshort⟩

/-- **Reads stay in the packet, with two exceptions.**  The response parser never leaves it; the
query parser does at a question that breaks off, and the message callback there and at a
datagram too short for the flags. -/
theorem datagram_reads_in_range (packet queryPacket : Bytes) (crypto : Crypto)
    (config : PeerConfig) (s : Doorbell) (msg : Bytes) (rinfo : RemoteInfo) (clock : Clock)
    (jitterMs : Nat) :
    (parseResponse packet queryPacket).InRange ∧
      ((parseQuery packet).InRange ↔ ¬ (QueryHeader packet ∧ BrokenQuestion packet)) ∧
      (Contained (handleMessage crypto config s msg rinfo clock jitterMs) ↔
        4 ≤ msg.length ∧
          ¬ (Admits sourceLimit s.sourceBuckets rinfo.address clock.source ∧
            QueryHeader msg ∧ BrokenQuestion msg)) := by
  refine ⟨inRange_parseResponse packet queryPacket, ?_, ?_⟩
  · rw [← parseQuery_thrown_iff, Attempt.InRange, not_exists]
  · have hthrown := handleMessage_thrown_iff crypto config s msg rinfo clock jitterMs
    rw [← not_lt, ← not_or, ← hthrown, Contained, not_exists]

/-- An empty datagram is too short for the flags; one whose name is not terminated is read past
its end. -/
theorem datagram_thrown :
    handleMessage ⟨fun _ _ _ => none, fun _ _ => none, id⟩ ⟨"", []⟩ (Doorbell.started [] []) []
        ⟨"10.0.0.9", 5353⟩ (Clock.still 0 (by decide)) 0 = .error (.outOfRange 2) ∧
      parseQuery ([0, 7, 0, 0, 0, 1, 0, 0, 0, 0, 0, 0] ++ [1, 97]) = .error (.thrown 14) :=
  ⟨rfl, rfl⟩

end Abtars
