import Abtars.Peer.DoorbellLimits

/-!
# How often a doorbell query is honoured

A query is honoured when it passes every check of `tryProcessQuery`; only then is its nonce
recorded and an acknowledgement built.  A nonce is forgotten a minute after it was recorded,
or when 64 others of the same peer have pushed it out of the ring.
-/

namespace Abtars

open Lib

variable {buckets : Buckets} {entries : List NonceCacheEntry} {e : NonceCacheEntry}
  {crypto : Crypto} {config : PeerConfig} {q : DoorbellQuery} {clock : Clock} {packet : Bytes}
  {rinfo : RemoteInfo}

/-! ## Caches, seen from one peer -/

variable (caches : NonceCaches) (peerName : String)

def entriesOf : List NonceCacheEntry :=
  ((caches.get peerName).map NonceCache.entries).getD []

theorem getNonceCache_fst : (getNonceCache caches peerName).1 = entriesOf caches peerName := by
  rw [getNonceCache, entriesOf]
  cases caches.get peerName with
  | none => rfl
  | some cache => rfl

theorem get_put_cache (cache : NonceCache) (peerName : String) :
    (caches.put cache).get peerName =
      if peerName = cache.peerName then some cache else caches.get peerName :=
  Table.get_put caches cache peerName

theorem entriesOf_getNonceCache (peerName' : String) :
    entriesOf (getNonceCache caches peerName).2 peerName' = entriesOf caches peerName' := by
  rw [getNonceCache]
  cases hget : caches.get peerName with
  | some cache => rfl
  | none =>
    rw [entriesOf, entriesOf, get_put_cache]
    by_cases hname : peerName' = peerName
    · rw [if_pos hname, hname, hget]
      rfl
    · rw [if_neg hname]

def nonceRing (entries : List NonceCacheEntry) (entry : NonceCacheEntry) : List NonceCacheEntry :=
  (entries ++ [entry]).drop ((entries ++ [entry]).length - noncesPerPeer)

theorem entriesOf_recordNonce (peerName' : String) (nonceHex : List Char) (now : Nat) :
    entriesOf (recordNonce caches peerName nonceHex now) peerName' =
      if peerName' = peerName then
        nonceRing (entriesOf caches peerName) ⟨nonceHex, now + timestampWindowSec * 1000⟩
      else entriesOf caches peerName' := by
  rw [recordNonce]
  dsimp only
  rw [getNonceCache_fst, entriesOf, get_put_cache]
  by_cases hname : peerName' = peerName
  · rw [if_pos hname, if_pos hname]
    rfl
  · rw [if_neg hname, if_neg hname]
    exact entriesOf_getNonceCache caches peerName peerName'

theorem entriesOf_pruneNonceCaches (now : Nat) (peerName : String) :
    entriesOf (pruneNonceCaches caches now) peerName =
      (entriesOf caches peerName).filter fun e => now < e.expiresAt := by
  rw [pruneNonceCaches, entriesOf, Table.get_deleteWhere, Table.get_updateWhere, entriesOf]
  cases caches.get peerName with
  | none => rfl
  | some cache =>
    by_cases hempty : cache.entries.filter (fun e => now < e.expiresAt) = []
    · simp [Option.filter_some, hempty]
    · simp [Option.filter_some, hempty]

/-! ## Room in a peer's ring -/

def held (buckets : Buckets) (peerName : String) (now : ℚ) : ℚ :=
  match buckets.get peerName with
  | some entry => min peerRefillPerMin (entry.bucket.grown peerRefillPerMin now)
  | none => 0

/-- The tokens that a bucket made since a nonce was recorded has brought with it. -/
def extra (buckets : Buckets) (peerName : String) (expiresAt : ℚ) : ℚ :=
  match buckets.get peerName with
  | some entry => if entry.expiresAt < expiresAt then 0 else peerBurst
  | none => 0

/-- How many queries of a peer can have been honoured since a nonce that expires at an instant
was recorded. -/
def room (buckets : Buckets) (peerName : String) (expiresAt now : ℚ) : ℚ :=
  peerRefillPerMin + extra buckets peerName expiresAt +
    (now + 60000 - expiresAt) / 60000 * peerRefillPerMin - held buckets peerName now

theorem peerRefillPerMin_nonneg : (0 : ℚ) ≤ peerRefillPerMin := by
  norm_num [peerRefillPerMin]

theorem held_nonneg {now : ℚ} (hstock : StockedAt buckets now)
    (peerName : String) : 0 ≤ held buckets peerName now := by
  rw [held]
  split
  · rename_i entry hget
    obtain ⟨htokens, hrefill⟩ := hstock entry (Table.mem_of_get hget)
    exact le_min peerRefillPerMin_nonneg
      (htokens.trans (tokens_le_grown peerRefillPerMin_nonneg hrefill))
  · exact le_rfl

theorem held_le (buckets : Buckets) (peerName : String) (now : ℚ) :
    held buckets peerName now ≤ peerRefillPerMin := by
  rw [held]
  split
  · exact min_le_left _ _
  · exact peerRefillPerMin_nonneg

theorem extra_nonneg (buckets : Buckets) (peerName : String) (expiresAt : ℚ) :
    0 ≤ extra buckets peerName expiresAt ∧ extra buckets peerName expiresAt ≤ peerBurst := by
  rw [extra]
  split
  · split
    · exact ⟨le_rfl, by norm_num [peerBurst]⟩
    · exact ⟨by norm_num [peerBurst], le_rfl⟩
  · exact ⟨le_rfl, by norm_num [peerBurst]⟩

theorem room_later (buckets : Buckets) (peerName : String) (expiresAt : ℚ) {now later : ℚ}
    (hlater : now ≤ later) :
    room buckets peerName expiresAt now ≤ room buckets peerName expiresAt later := by
  have hheld : held buckets peerName later ≤
      held buckets peerName now + peerRefillPerMin / 60000 * (later - now) := by
    have hgain : 0 ≤ peerRefillPerMin / 60000 * (later - now) :=
      mul_nonneg (by norm_num [peerRefillPerMin]) (sub_nonneg.2 hlater)
    rw [held, held]
    cases buckets.get peerName with
    | none =>
      linarith
    | some entry =>
      dsimp only
      rw [grown_add entry.bucket peerRefillPerMin now later, ← min_add_add_right]
      exact min_le_min (by linarith) le_rfl
  have hroom : (later + 60000 - expiresAt) / 60000 * peerRefillPerMin =
      (now + 60000 - expiresAt) / 60000 * peerRefillPerMin +
        peerRefillPerMin / 60000 * (later - now) := by ring
  rw [room, room, hroom]
  linarith

theorem room_lt {now : ℚ} (hstock : StockedAt buckets now) (peerName : String) {expiresAt : ℚ}
    (halive : now < expiresAt) : room buckets peerName expiresAt now < 27 := by
  have hheld := held_nonneg hstock peerName
  have hextra := (extra_nonneg buckets peerName expiresAt).2
  rw [room]
  norm_num [peerRefillPerMin, peerBurst] at hextra ⊢
  linarith

theorem room_nonneg (buckets : Buckets) (peerName : String) {expiresAt now : ℚ}
    (hnew : expiresAt ≤ now + 60000) : 0 ≤ room buckets peerName expiresAt now := by
  have hheld := held_le buckets peerName now
  have hextra := (extra_nonneg buckets peerName expiresAt).1
  have hgain : 0 ≤ (now + 60000 - expiresAt) / 60000 * peerRefillPerMin :=
    mul_nonneg (div_nonneg (by linarith) (by norm_num)) peerRefillPerMin_nonneg
  rw [room]
  linarith

theorem get_checkPeerBucket_of_ne (buckets : Buckets) {peerName peerName' : String} (now : ℚ)
    (hne : peerName' ≠ peerName) :
    (checkPeerBucket buckets peerName now).2.get peerName' = buckets.get peerName' := by
  rw [checkPeerBucket, checkBucket]
  cases buckets.get peerName with
  | some old =>
    dsimp only
    exact Table.get_modify_of_ne _ _ _ hne
  | none =>
    rw [Table.get_put]
    exact if_neg hne

/-- An honoured query takes the token that makes its room; a refused one takes nothing. -/
theorem room_check (buckets : Buckets) (peerName : String) {expiresAt now : ℚ}
    (hnew : expiresAt ≤ now + 60000) :
    room buckets peerName expiresAt now +
        (if (checkPeerBucket buckets peerName now).1 then 1 else 0) ≤
      room (checkPeerBucket buckets peerName now).2 peerName expiresAt now := by
  obtain ⟨b, entry, hcheck, hget, hbucket, hb⟩ := get_checkBucket peerLimit buckets peerName now
  -- the refilled bucket holds no more than the peer held, and what a new one brings
  have hrefilled : min (b.grown peerRefillPerMin now) peerRefillPerMin +
      extra buckets peerName expiresAt ≤ held buckets peerName now +
        (if entry.expiresAt < expiresAt then 0 else peerBurst) := by
    rw [held, extra]
    generalize entry.expiresAt = entryExpiresAt at hb
    cases hb with
    | kept old hold =>
      rw [hold, min_comm]
    | made hnone =>
      rw [hnone]
      have hburst : min ((newBucket peerLimit.burst now).grown peerRefillPerMin now)
          peerRefillPerMin = peerBurst := by
        rw [grown_newBucket]
        norm_num [peerLimit, peerBurst, peerRefillPerMin]
      rw [hburst, if_neg (not_lt.2 hnew)]
      linarith
  have hok : (checkPeerBucket buckets peerName now).1 =
      (consumeBucket (refillBucket b peerRefillPerMin now)).1 := by
    rw [checkPeerBucket, hcheck]
    rfl
  have hextra : extra (checkPeerBucket buckets peerName now).2 peerName expiresAt =
      if entry.expiresAt < expiresAt then 0 else peerBurst := by
    rw [extra, checkPeerBucket, hget]
  have hheld : held (checkPeerBucket buckets peerName now).2 peerName now ≤
      (consumeBucket (refillBucket b peerRefillPerMin now)).2.tokens := by
    rw [held, checkPeerBucket, hget]
    dsimp only
    rw [hbucket]
    rcases consume_refill b peerRefillPerMin now with ⟨-, hr⟩ | ⟨-, hr⟩
    · rw [show peerLimit.ratePerMin = peerRefillPerMin from rfl, hr, grown_self]
      exact min_le_right _ _
    · rw [show peerLimit.ratePerMin = peerRefillPerMin from rfl, hr, grown_self]
      exact min_le_right _ _
  rw [room, room, hok, hextra]
  rcases consume_refill b peerRefillPerMin now with ⟨-, hr⟩ | ⟨-, hr⟩
  · rw [hr] at hheld ⊢
    rw [if_pos rfl]
    linarith
  · rw [hr] at hheld ⊢
    rw [if_neg (by simp)]
    linarith

theorem room_le_check (buckets : Buckets) (checked peerName : String) {expiresAt now : ℚ}
    (hnew : expiresAt ≤ now + 60000) :
    room buckets peerName expiresAt now ≤
      room (checkPeerBucket buckets checked now).2 peerName expiresAt now := by
  by_cases hname : peerName = checked
  · subst hname
    refine le_trans ?_ (room_check buckets peerName hnew)
    split
    · linarith
    · linarith
  · have hget := get_checkPeerBucket_of_ne buckets now hname
    rw [room, room, extra, extra, held, held, hget]

theorem room_prune {now : ℚ} (hstock : StockedAt buckets now)
    (peerName : String) {expiresAt : ℚ} (halive : now < expiresAt) :
    room buckets peerName expiresAt now ≤
      room (pruneBuckets buckets now) peerName expiresAt now := by
  have hheld := held_nonneg hstock peerName
  rw [room, room, pruneBuckets]
  cases hget : buckets.get peerName with
  | none =>
    rw [extra, extra, held, held, Table.get_deleteWhere, hget]
    exact le_rfl
  | some entry =>
    by_cases hexpired : entry.expiresAt < now
    · rw [held, hget] at hheld
      rw [extra, extra, held, held, Table.get_deleteWhere, hget]
      dsimp only at hheld ⊢
      rw [if_pos (hexpired.trans halive), Option.filter_some_neg (by simp [hexpired])]
      linarith
    · rw [extra, extra, held, held, Table.get_deleteWhere, hget,
        Option.filter_some_pos (by simp [hexpired])]

theorem stockedAt_check {now : ℚ} (hstock : StockedAt buckets now)
    (peerName : String) : StockedAt (checkPeerBucket buckets peerName now).2 now :=
  stocked_step (s := ⟨buckets, now, []⟩) sound_peerLimit ⟨now, .check peerName⟩ hstock le_rfl

theorem StockedAt.later {now later : ℚ} (hstock : StockedAt buckets now)
    (hlater : now ≤ later) : StockedAt buckets later :=
  fun entry hentry => ⟨(hstock entry hentry).1, (hstock entry hentry).2.trans hlater⟩

/-! ## Rings with room -/

def Sparse (buckets : Buckets) (peerName : String) (entries : List NonceCacheEntry) (now : Nat) :
    Prop :=
  ∀ before e after, entries = before ++ e :: after → now < e.expiresAt →
    (after.length : ℚ) ≤ room buckets peerName e.expiresAt now

theorem nonceRing_eq_split {before after : List NonceCacheEntry} {entry : NonceCacheEntry}
    (h : nonceRing entries entry = before ++ e :: after) :
    (after = [] ∧ e = entry) ∨
      ∃ before' after', entries = before' ++ e :: after' ∧ after = after' ++ [entry] := by
  have hwhole : entries ++ [entry] =
      ((entries ++ [entry]).take ((entries ++ [entry]).length - noncesPerPeer) ++ before) ++
        e :: after := by
    rw [List.append_assoc, ← h, nonceRing, List.take_append_drop]
  rcases List.eq_nil_or_concat after with rfl | ⟨after', last, rfl⟩
  · obtain ⟨-, hlast⟩ := List.append_inj' hwhole rfl
    exact .inl ⟨rfl, (List.cons.inj hlast).1.symm⟩
  rw [List.concat_eq_append, ← List.cons_append, ← List.append_assoc] at hwhole
  obtain ⟨hentries, hlast⟩ := List.append_inj' hwhole rfl
  refine .inr ⟨_, after', hentries, ?_⟩
  rw [List.concat_eq_append, (List.cons.inj hlast).1]

theorem mem_nonceRing {before after : List NonceCacheEntry} {entry : NonceCacheEntry}
    (hfew : after.length < 63) : e ∈ nonceRing (before ++ e :: after) entry := by
  have hlength : (before ++ e :: after ++ [entry]).length - noncesPerPeer ≤ before.length := by
    simp only [List.length_append, List.length_cons, List.length_nil, noncesPerPeer]
    omega
  rw [nonceRing, List.append_assoc, ← List.append_assoc before, List.append_assoc]
  rw [List.append_assoc] at hlength
  rw [List.drop_append_of_le_length hlength]
  simp

theorem mem_nonceRing_new (entries : List NonceCacheEntry) (entry : NonceCacheEntry) :
    entry ∈ nonceRing entries entry := by
  have hlength : (entries ++ [entry]).length - noncesPerPeer ≤ entries.length := by
    simp only [List.length_append, List.length_cons, List.length_nil, noncesPerPeer]
    omega
  rw [nonceRing, List.drop_append_of_le_length hlength]
  simp

theorem mem_of_mem_nonceRing {entry : NonceCacheEntry}
    (h : e ∈ nonceRing entries entry) : e ∈ entries ∨ e = entry := by
  simpa using List.mem_of_mem_drop h

/-! ## What the service remembers -/

structure QueryId where
  peerName : String
  nonce : Bytes
  timestampSec : Nat
  deriving DecidableEq

structure Honoured where
  query : QueryId
  recordedAt : Nat

def Honoured.entry (h : Honoured) : NonceCacheEntry :=
  ⟨toHex h.query.nonce, h.recordedAt + timestampWindowSec * 1000⟩

/-- Every query honoured less than a minute ago is in its sender's ring, which has room for those
that may still come. -/
structure NoncesKept (s : Doorbell) (honoured : List Honoured) (now : Nat) : Prop where
  stocked : StockedAt s.peerBuckets now
  recent : ∀ peerName, ∀ e ∈ entriesOf s.nonceCaches peerName, e.expiresAt ≤ now + 60000
  sparse : ∀ peerName, Sparse s.peerBuckets peerName (entriesOf s.nonceCaches peerName) now
  known : ∀ h ∈ honoured, now < h.entry.expiresAt →
    h.entry ∈ entriesOf s.nonceCaches h.query.peerName

theorem noncesKept_started (localSelector : Bytes) (peerSelectors : List (String × Bytes))
    (now : Nat) : NoncesKept (Doorbell.started localSelector peerSelectors) [] now where
  stocked := fun entry hentry => absurd hentry (Table.not_mem_empty entry)
  recent := fun _ e he => absurd he List.not_mem_nil
  sparse := by
    intro peerName before e after h
    have hnil : ([] : List NonceCacheEntry) = before ++ e :: after := h
    simp at hnil
  known := by simp

section NoncesKept

variable {s s' : Doorbell} {honoured : List Honoured} {now later : Nat}

theorem NoncesKept.wait (h : NoncesKept s honoured now) (hlater : now ≤ later) :
    NoncesKept s honoured later where
  stocked := h.stocked.later (by exact_mod_cast hlater)
  recent := fun peerName e he => (h.recent peerName e he).trans (by omega)
  sparse := by
    intro peerName before e after hsplit halive
    have hroom := h.sparse peerName before e after hsplit (by omega)
    exact hroom.trans (room_later _ _ _ (by exact_mod_cast hlater))
  known := fun q hq halive => h.known q hq (by omega)

theorem NoncesKept.refused (h : NoncesKept s honoured now)
    (hentries : ∀ peerName, entriesOf s'.nonceCaches peerName = entriesOf s.nonceCaches peerName)
    (hbuckets : s'.peerBuckets = s.peerBuckets ∨
      ∃ peerName, s'.peerBuckets = (checkPeerBucket s.peerBuckets peerName now).2) :
    NoncesKept s' honoured now where
  stocked := by
    rcases hbuckets with hsame | ⟨peerName, hcheck⟩
    · rw [hsame]
      exact h.stocked
    · rw [hcheck]
      exact stockedAt_check h.stocked peerName
  recent := by
    intro peerName e he
    rw [hentries] at he
    exact h.recent peerName e he
  sparse := by
    intro peerName before e after hsplit halive
    rw [hentries] at hsplit
    have hroom := h.sparse peerName before e after hsplit halive
    rcases hbuckets with hsame | ⟨checked, hcheck⟩
    · rw [hsame]
      exact hroom
    · have hnew : e.expiresAt ≤ now + 60000 := h.recent peerName e (by rw [hsplit]; simp)
      rw [hcheck]
      exact hroom.trans (room_le_check _ _ _ (by exact_mod_cast hnew))
  known := by
    intro q hq halive
    rw [hentries]
    exact h.known q hq halive

/-- A query that was honoured: its token came out of the sender's bucket, and its nonce was
recorded. -/
theorem NoncesKept.honour (h : NoncesKept s honoured now) {q : QueryId} {recordedAt : Nat}
    (hlater : now ≤ recordedAt)
    (hcheck : checkPeerBucket s.peerBuckets q.peerName now = (true, s'.peerBuckets))
    (hentries : ∀ peerName, entriesOf s'.nonceCaches peerName =
      if peerName = q.peerName then
        nonceRing (entriesOf s.nonceCaches peerName) (Honoured.entry ⟨q, recordedAt⟩)
      else entriesOf s.nonceCaches peerName) :
    NoncesKept s' (⟨q, recordedAt⟩ :: honoured) recordedAt := by
  have hlater' : (now : ℚ) ≤ recordedAt := by exact_mod_cast hlater
  have hbuckets : s'.peerBuckets = (checkPeerBucket s.peerBuckets q.peerName now).2 := by
    rw [hcheck]
  have hentry : (Honoured.entry ⟨q, recordedAt⟩).expiresAt = recordedAt + 60000 := rfl
  have hstocked : StockedAt s'.peerBuckets now := by
    rw [hbuckets]
    exact stockedAt_check h.stocked q.peerName
  refine
    { stocked := hstocked.later hlater'
      recent := ?_
      sparse := ?_
      known := ?_ }
  · intro peerName e he
    rw [hentries] at he
    split at he
    · rcases mem_of_mem_nonceRing he with hold | rfl
      · exact (h.recent peerName e hold).trans (by omega)
      · omega
    · exact (h.recent peerName e he).trans (by omega)
  · intro peerName before e after hsplit halive
    rw [hentries] at hsplit
    split at hsplit
    · rename_i hname
      subst hname
      rcases nonceRing_eq_split hsplit with ⟨rfl, rfl⟩ | ⟨before', after', hold, rfl⟩
      · -- the new nonce has nothing behind it
        exact room_nonneg _ _ (by rw [hentry]; push_cast; linarith)
      -- an older one has one more, which the token made room for
      have hroom := h.sparse q.peerName before' e after' hold (by omega)
      have hnew : e.expiresAt ≤ now + 60000 := h.recent q.peerName e (by rw [hold]; simp)
      have hmore := room_check s.peerBuckets q.peerName
        (show ((e.expiresAt : Nat) : ℚ) ≤ (now : ℚ) + 60000 by exact_mod_cast hnew)
      rw [hcheck] at hmore
      rw [if_pos rfl] at hmore
      have hwait := room_later s'.peerBuckets q.peerName ((e.expiresAt : Nat) : ℚ) hlater'
      rw [List.length_append, List.length_singleton, Nat.cast_add, Nat.cast_one]
      linarith
    · have hroom := h.sparse peerName before e after hsplit (by omega)
      have hnew : e.expiresAt ≤ now + 60000 := h.recent peerName e (by rw [hsplit]; simp)
      have hkept := room_le_check s.peerBuckets q.peerName peerName
        (show ((e.expiresAt : Nat) : ℚ) ≤ (now : ℚ) + 60000 by exact_mod_cast hnew)
      rw [← hbuckets] at hkept
      exact hroom.trans (hkept.trans (room_later _ _ _ hlater'))
  · intro q' hq' halive
    rw [hentries]
    rcases List.mem_cons.1 hq' with rfl | hold
    · rw [if_pos rfl]
      exact mem_nonceRing_new _ _
    have hmem := h.known q' hold (by omega)
    split
    · obtain ⟨before, after, hsplit⟩ := List.append_of_mem hmem
      have hroom := h.sparse q'.query.peerName before q'.entry after hsplit (by omega)
      have hlt := room_lt h.stocked q'.query.peerName
        (show (now : ℚ) < ((q'.entry.expiresAt : Nat) : ℚ) by exact_mod_cast (by omega))
      rw [hsplit]
      apply mem_nonceRing
      have hfew : (after.length : ℚ) < 27 := hroom.trans_lt hlt
      have hfew' : after.length < 27 := by exact_mod_cast hfew
      omega
    · exact hmem

/-- The prune timer takes only what has expired. -/
theorem NoncesKept.prune (h : NoncesKept s honoured now)
    (hbuckets : s'.peerBuckets = pruneBuckets s.peerBuckets now)
    (hcaches : s'.nonceCaches = pruneNonceCaches s.nonceCaches later) (hlater : now ≤ later) :
    NoncesKept s' honoured later := by
  have hlater' : (now : ℚ) ≤ later := by exact_mod_cast hlater
  have hentries : ∀ peerName, entriesOf s'.nonceCaches peerName =
      (entriesOf s.nonceCaches peerName).filter fun e => later < e.expiresAt := by
    intro peerName
    rw [hcaches, entriesOf_pruneNonceCaches]
  refine
    { stocked := ?_
      recent := ?_
      sparse := ?_
      known := ?_ }
  · rw [hbuckets]
    exact fun entry hentry => h.stocked.later hlater' entry (Table.mem_deleteWhere.1 hentry).1
  · intro peerName e he
    rw [hentries] at he
    exact (h.recent peerName e (List.mem_of_mem_filter he)).trans (by omega)
  · intro peerName before e after hsplit halive
    rw [hentries] at hsplit
    obtain ⟨before', rest, hsplit', -, hrest⟩ := List.filter_eq_append_iff.1 hsplit
    obtain ⟨skipped, after', hrest', -, -, hafter⟩ := List.filter_eq_cons_iff.1 hrest
    have hold : entriesOf s.nonceCaches peerName = (before' ++ skipped) ++ e :: after' := by
      rw [hsplit', hrest', List.append_assoc]
    have hroom := h.sparse peerName _ e after' hold (by omega)
    have hfewer : (after.length : ℚ) ≤ after'.length := by
      rw [← hafter]
      exact_mod_cast List.length_filter_le _ _
    have hkept := room_prune h.stocked peerName
      (show (now : ℚ) < ((e.expiresAt : Nat) : ℚ) by exact_mod_cast (by omega))
    rw [← hbuckets] at hkept
    exact hfewer.trans (hroom.trans (hkept.trans (room_later _ _ _ hlater')))
  · intro q hq halive
    rw [hentries, List.mem_filter]
    exact ⟨h.known q hq (by omega), by simpa using halive⟩

end NoncesKept

/-! ## What a datagram makes of the rings -/

def honouredQuery (crypto : Crypto) (config : PeerConfig) (s : Doorbell) (msg : Bytes)
    (rinfo : RemoteInfo) (clock : Clock) : Option (DoorbellQuery × String) :=
  if maxQueryBytes < msg.length then none
  else
    match readUInt16BE msg 2 with
    | .error _ => none
    | .ok flags =>
      if flags &&& 0x8000 ≠ 0 then none
      else
        match acceptQuery crypto config s msg rinfo clock with
        | .ok (_, accepted) => accepted
        | .error _ => none

/-- A call after which nobody's nonces have changed, nor any peer's bucket but one. -/
structure Refusal (s s' : Doorbell) (clock : Clock) : Prop where
  entries : ∀ peerName, entriesOf s'.nonceCaches peerName = entriesOf s.nonceCaches peerName
  buckets : s'.peerBuckets = s.peerBuckets ∨
    ∃ peerName, s'.peerBuckets = (checkPeerBucket s.peerBuckets peerName clock.peer).2

/-- A query that has passed all checks, and the state in which it is acknowledged. -/
structure Acceptance (s s' : Doorbell) (q : DoorbellQuery) (senderName : String) (clock : Clock) :
    Prop where
  sender : findPeerBySelector s.peerSelectors q.senderSelector = some senderName
  window : inTimestampWindow q.timestampSec clock.stamp = true
  fresh : isReplayed (entriesOf s.nonceCaches senderName) (toHex q.nonce) clock.replay = false
  entries : ∀ peerName, entriesOf s'.nonceCaches peerName = entriesOf s.nonceCaches peerName
  admitted : checkPeerBucket s.peerBuckets senderName clock.peer = (true, s'.peerBuckets)

theorem Refusal.refl (s : Doorbell) (clock : Clock) : Refusal s s clock :=
  ⟨fun _ => rfl, .inl rfl⟩

theorem admitQuery_spec {s s' : Doorbell} {sender : Option String}
    (h : admitQuery crypto config s q clock = .ok (s', sender)) :
    (sender = none ∧ Refusal s s' clock) ∨
      ∃ senderName, sender = some senderName ∧ Acceptance s s' q senderName clock := by
  unfold admitQuery at h
  split at h
  · cases h
    exact .inl ⟨rfl, Refusal.refl s clock⟩
  split at h
  · cases h
    exact .inl ⟨rfl, Refusal.refl s clock⟩
  rename_i senderName hsender
  split at h
  · cases h
    exact .inl ⟨rfl, Refusal.refl s clock⟩
  split at h
  · cases h
    exact .inl ⟨rfl, Refusal.refl s clock⟩
  split at h
  · cases h
    exact .inl ⟨rfl, Refusal.refl s clock⟩
  rename_i hwindow
  dsimp only at h
  have hentries := entriesOf_getNonceCache s.nonceCaches senderName
  rw [getNonceCache_fst] at h
  split at h
  · cases h
    exact .inl ⟨rfl, hentries, .inl rfl⟩
  rename_i hfresh
  split at h
  · cases h
  · cases h
    exact .inl ⟨rfl, hentries, .inl rfl⟩
  cases hcheck : checkPeerBucket s.peerBuckets senderName clock.peer with
  | mk admitted buckets =>
    rw [hcheck] at h
    cases h
    cases admitted with
    | false => exact .inl ⟨rfl, hentries, .inr ⟨senderName, by rw [hcheck]⟩⟩
    | true =>
      exact .inr ⟨senderName, rfl, hsender, by simpa using hwindow, by simpa using hfresh,
        hentries, hcheck⟩

theorem acceptQuery_spec {s s' : Doorbell} {accepted : Option (DoorbellQuery × String)}
    (h : acceptQuery crypto config s packet rinfo clock = .ok (s', accepted)) :
    (accepted = none ∧ Refusal s s' clock) ∨
      ∃ parsed senderName, parseQuery packet = .ok parsed ∧
        accepted = some (parsed.parsed, senderName) ∧
        Acceptance s s' parsed.parsed senderName clock := by
  unfold acceptQuery at h
  dsimp only at h
  split at h
  · cases h
    exact .inl ⟨rfl, fun _ => rfl, .inl rfl⟩
  split at h
  · cases h
  · cases h
    exact .inl ⟨rfl, fun _ => rfl, .inl rfl⟩
  rename_i parsed hparse
  split at h
  · cases h
  · rename_i admitted hadmit
    cases h
    rcases admitQuery_spec hadmit with ⟨-, hrefusal⟩ | ⟨senderName, hsome, -⟩
    · exact .inl ⟨rfl, hrefusal.entries, hrefusal.buckets⟩
    · cases hsome
  rename_i admitted senderName hadmit
  cases h
  rcases admitQuery_spec hadmit with ⟨hnone, -⟩ | ⟨senderName', hsome, haccept⟩
  · cases hnone
  · cases hsome
    exact .inr ⟨parsed, senderName, hparse, rfl, haccept.sender, haccept.window, haccept.fresh,
      haccept.entries, haccept.admitted⟩

def sends (effects : List DoorbellEffect) : Nat :=
  effects.countP fun effect => match effect with
    | .send _ _ => true
    | _ => false

theorem ensurePeerDoorbellConnect_spec (s : Doorbell) (peerName : String) (now jitterMs : Nat) :
    (ensurePeerDoorbellConnect s peerName now jitterMs).1.peerBuckets = s.peerBuckets ∧
      (ensurePeerDoorbellConnect s peerName now jitterMs).1.nonceCaches = s.nonceCaches ∧
      sends (ensurePeerDoorbellConnect s peerName now jitterMs).2 = 0 := by
  rw [ensurePeerDoorbellConnect]
  split
  · exact ⟨rfl, rfl, rfl⟩
  split
  · exact ⟨rfl, rfl, rfl⟩
  · exact ⟨rfl, rfl, rfl⟩

theorem acknowledgeQuery_spec {s s' : Doorbell} {senderName : String}
    {jitterMs : Nat} {effects : List DoorbellEffect}
    (h : acknowledgeQuery crypto config s packet rinfo q senderName clock jitterMs =
      .ok (s', effects)) :
    s'.peerBuckets = s.peerBuckets ∧
      s'.nonceCaches = recordNonce s.nonceCaches senderName (toHex q.nonce) clock.record ∧
      sends effects ≤ 1 := by
  unfold acknowledgeQuery at h
  simp only [bind, Except.bind, pure, Except.pure] at h
  split at h
  · cases h
  split at h
  · cases h
  · cases h
    obtain ⟨hbuckets, hcaches, hsends⟩ := ensurePeerDoorbellConnect_spec { s with
      nonceCaches := recordNonce s.nonceCaches senderName (toHex q.nonce) clock.record }
      senderName clock.connect jitterMs
    refine ⟨hbuckets, hcaches, ?_⟩
    rw [List.nil_append, hsends]
    exact Nat.zero_le 1
  · cases h
    obtain ⟨hbuckets, hcaches, hsends⟩ := ensurePeerDoorbellConnect_spec { s with
      nonceCaches := recordNonce s.nonceCaches senderName (toHex q.nonce) clock.record }
      senderName clock.connect jitterMs
    refine ⟨hbuckets, hcaches, ?_⟩
    rw [sends, List.countP_append]
    rw [sends] at hsends
    rw [hsends]
    exact Nat.le_refl 1

theorem tryProcessResponse_spec {s s' : Doorbell} {effects : List DoorbellEffect}
    (h : tryProcessResponse crypto config s packet rinfo clock = .ok (s', effects)) :
    Refusal s s' clock ∧ sends effects = 0 := by
  unfold tryProcessResponse at h
  split at h
  · cases h
  · cases h
    exact ⟨Refusal.refl s clock, rfl⟩
  dsimp only at h
  split at h
  · cases h
    exact ⟨Refusal.refl s clock, rfl⟩
  split at h
  · cases h
  · cases h
    exact ⟨Refusal.refl s clock, rfl⟩
  split at h
  · cases h
    exact ⟨⟨fun _ => rfl, .inl rfl⟩, rfl⟩
  · cases h
    exact ⟨Refusal.refl s clock, rfl⟩

/-- A datagram honours no query, remembers what was remembered and sends nothing; or it honours
the query in it, and is left to the acknowledgement. -/
theorem handleMessage_spec (crypto : Crypto) (config : PeerConfig) (s : Doorbell) (msg : Bytes)
    (rinfo : RemoteInfo) (clock : Clock) (jitterMs : Nat) :
    (honouredQuery crypto config s msg rinfo clock = none ∧
        ∀ s' effects, handleMessage crypto config s msg rinfo clock jitterMs = .ok (s', effects) →
          Refusal s s' clock ∧ sends effects = 0) ∨
      ∃ parsed senderName s', parseQuery msg = .ok parsed ∧
        honouredQuery crypto config s msg rinfo clock = some (parsed.parsed, senderName) ∧
        Acceptance s s' parsed.parsed senderName clock ∧
        handleMessage crypto config s msg rinfo clock jitterMs =
          acknowledgeQuery crypto config s' msg rinfo parsed.parsed senderName clock jitterMs := by
  rw [honouredQuery, handleMessage]
  by_cases hlong : maxQueryBytes < msg.length
  · rw [if_pos hlong, if_pos hlong]
    refine .inl ⟨rfl, fun s' effects h => ?_⟩
    cases h
    exact ⟨Refusal.refl s clock, rfl⟩
  rw [if_neg hlong, if_neg hlong]
  cases hflags : readUInt16BE msg 2 with
  | error e =>
    refine .inl ⟨rfl, fun s' effects h => ?_⟩
    cases e with
    | thrown offset => cases h
    | returned e =>
      cases h
      exact ⟨Refusal.refl s clock, rfl⟩
  | ok flags =>
    dsimp only
    by_cases hresponse : flags &&& 0x8000 ≠ 0
    · rw [if_pos hresponse, if_pos hresponse]
      exact .inl ⟨rfl, fun s' effects h => tryProcessResponse_spec h⟩
    rw [if_neg hresponse, if_neg hresponse, tryProcessQuery]
    cases haccept : acceptQuery crypto config s msg rinfo clock with
    | error thrown =>
      refine .inl ⟨rfl, fun s' effects h => ?_⟩
      cases h
    | ok outcome =>
      obtain ⟨s', accepted⟩ := outcome
      rcases acceptQuery_spec haccept with ⟨rfl, hrefusal⟩ | ⟨parsed, senderName, hparse, rfl,
        hacceptance⟩
      · refine .inl ⟨rfl, fun s'' effects h => ?_⟩
        cases h
        exact ⟨hrefusal, rfl⟩
      · exact .inr ⟨parsed, senderName, s', hparse, rfl, hacceptance, rfl⟩

/-! ## Runs -/

inductive DoorbellEvent
  | datagram (msg : Bytes) (rinfo : RemoteInfo) (clock : Clock) (jitterMs : Nat)
  /-- The timer of `start`, whose two prunings read the clock one after the other. -/
  | pruneTimer (buckets nonces : Nat)
  /-- Rings, answers that do not come and connections, which keep maps of their own. -/
  | elsewhere (pendingAcks : List PendingAck) (lastPeerConnect : List (String × Nat))
      (connectTimers : List String)

/-- A service that has been running, the queries it has honoured, newest first, and for each
packet it has sent the query that was honoured then.  What a callback throws ends the process. -/
structure DoorbellRun where
  service : Doorbell
  now : Nat
  honoured : List Honoured
  sent : List (Option QueryId)
  down : Bool

def DoorbellRun.start (localSelector : Bytes) (peerSelectors : List (String × Bytes)) (now : Nat) :
    DoorbellRun where
  service := Doorbell.started localSelector peerSelectors
  now := now
  honoured := []
  sent := []
  down := false

def honouredId (accepted : DoorbellQuery × String) : QueryId :=
  ⟨accepted.2, accepted.1.nonce, accepted.1.timestampSec⟩

def doorbellStep (crypto : Crypto) (config : PeerConfig) (s : DoorbellRun)
    (event : DoorbellEvent) : DoorbellRun :=
  if s.down then s
  else
    match event with
    | .datagram msg rinfo clock jitterMs =>
      let query := (honouredQuery crypto config s.service msg rinfo clock).map honouredId
      let honoured := (query.map fun q => Honoured.mk q clock.record).toList ++ s.honoured
      match handleMessage crypto config s.service msg rinfo clock jitterMs with
      | .error _ => { s with now := clock.connect, honoured := honoured, down := true }
      | .ok (service, effects) =>
        { s with
          service := service
          now := clock.connect
          honoured := honoured
          sent := List.replicate (sends effects) query ++ s.sent }
    | .pruneTimer buckets nonces =>
      { s with
        service := { s.service with
          sourceBuckets := pruneBuckets s.service.sourceBuckets buckets
          peerBuckets := pruneBuckets s.service.peerBuckets buckets
          nonceCaches := pruneNonceCaches s.service.nonceCaches nonces }
        now := nonces }
    | .elsewhere pendingAcks lastPeerConnect connectTimers =>
      { s with
        service := { s.service with
          pendingAcks := pendingAcks
          lastPeerConnect := lastPeerConnect
          connectTimers := connectTimers } }

/-- A query that was honoured before comes less than a minute later, if its timestamp is still
within the window. -/
def TimelyQuery (s : DoorbellRun) (q : DoorbellQuery) (clock : Clock) : Prop :=
  ∀ h ∈ s.honoured,
    findPeerBySelector s.service.peerSelectors q.senderSelector = some h.query.peerName →
      q.nonce = h.query.nonce → q.timestampSec = h.query.timestampSec →
      inTimestampWindow h.query.timestampSec clock.stamp = true →
      clock.replay < h.recordedAt + 60000

instance (s : DoorbellRun) (q : DoorbellQuery) (clock : Clock) :
    Decidable (TimelyQuery s q clock) :=
  inferInstanceAs (Decidable (∀ h ∈ s.honoured, _ → _ → _ → _ → _))

/-- The clock does not run backwards, and no datagram repeats a query when a minute has passed
since it was honoured and its timestamp is still within the window. -/
def TimelyEvent (s : DoorbellRun) : DoorbellEvent → Prop
  | .datagram msg _ clock _ =>
    s.now ≤ clock.source ∧
      ∀ parsed ∈ (parseQuery msg).toOption, TimelyQuery s parsed.parsed clock
  | .pruneTimer buckets nonces => s.now ≤ buckets ∧ buckets ≤ nonces
  | .elsewhere _ _ _ => True

instance (s : DoorbellRun) : ∀ event, Decidable (TimelyEvent s event)
  | .datagram _ _ _ _ => inferInstanceAs (Decidable (_ ∧ ∀ parsed ∈ _, _))
  | .pruneTimer _ _ => inferInstanceAs (Decidable (_ ∧ _))
  | .elsewhere _ _ _ => inferInstanceAs (Decidable True)

/-- Queries are honoured once, every packet sent acknowledges the query honoured with it, and a
service that is up remembers what it must. -/
structure HonouredOnce (s : DoorbellRun) : Prop where
  once : (s.honoured.map Honoured.query).Nodup
  acknowledged : s.sent.Sublist (s.honoured.map fun h => some h.query)
  kept : s.down = false → NoncesKept s.service s.honoured s.now

theorem isReplayed_of_mem {entry : NonceCacheEntry} (hmem : entry ∈ entries) {now : Nat}
    (halive : now < entry.expiresAt) : isReplayed entries entry.nonceHex now = true := by
  rw [isReplayed, List.any_eq_true]
  exact ⟨entry, hmem, by simpa using halive⟩

theorem honoured_fresh {s : DoorbellRun} (hs : NoncesKept s.service s.honoured s.now)
    {s' : Doorbell} {senderName : String} (hnow : s.now ≤ clock.source)
    (haccept : Acceptance s.service s' q senderName clock) (htimely : TimelyQuery s q clock) :
    honouredId (q, senderName) ∉ s.honoured.map Honoured.query := by
  intro hmem
  obtain ⟨h, hh, hid⟩ := List.mem_map.1 hmem
  have hpeer : h.query.peerName = senderName := by rw [hid]; rfl
  have hnonce : h.query.nonce = q.nonce := by rw [hid]; rfl
  have hstamp : h.query.timestampSec = q.timestampSec := by rw [hid]; rfl
  have hearly := htimely h hh (by rw [haccept.sender, hpeer]) hnonce.symm hstamp.symm
    (by rw [hstamp]; exact haccept.window)
  have hordered := clock.ordered
  have hknown := hs.known h hh (show s.now < h.recordedAt + 60000 by omega)
  have hreplayed := isReplayed_of_mem hknown (show clock.replay < h.recordedAt + 60000 from hearly)
  have hfresh := haccept.fresh
  rw [← hpeer, ← hnonce] at hfresh
  rw [Honoured.entry] at hreplayed
  rw [hfresh] at hreplayed
  cases hreplayed

theorem honouredOnce_step (crypto : Crypto) (config : PeerConfig) (s : DoorbellRun)
    (event : DoorbellEvent) (hs : HonouredOnce s) (htimely : TimelyEvent s event) :
    HonouredOnce (doorbellStep crypto config s event) := by
  unfold doorbellStep
  cases hdown : s.down with
  | true => simpa using hs
  | false =>
  have hkept := hs.kept hdown
  rw [if_neg (by simp)]
  cases event with
  | elsewhere pendingAcks lastPeerConnect connectTimers =>
    exact ⟨hs.once, hs.acknowledged, fun _ =>
      ⟨hkept.stocked, hkept.recent, hkept.sparse, hkept.known⟩⟩
  | pruneTimer buckets nonces =>
    obtain ⟨hnow, hlater⟩ := htimely
    exact ⟨hs.once, hs.acknowledged, fun _ => (hkept.wait hnow).prune rfl rfl hlater⟩
  | datagram msg rinfo clock jitterMs =>
    obtain ⟨hnow, hrepeat⟩ := htimely
    have hordered := clock.ordered
    dsimp only
    rcases handleMessage_spec crypto config s.service msg rinfo clock jitterMs with
      ⟨hnone, hrefused⟩ | ⟨parsed, senderName, s', hparse, hsome, haccept, hhandle⟩
    · -- nothing is honoured
      rw [hnone]
      cases hhandle : handleMessage crypto config s.service msg rinfo clock jitterMs with
      | error thrown => exact ⟨hs.once, hs.acknowledged, fun hup => absurd hup (by simp)⟩
      | ok outcome =>
        obtain ⟨service, effects⟩ := outcome
        obtain ⟨hrefusal, hsends⟩ := hrefused service effects hhandle
        dsimp only
        rw [hsends]
        refine ⟨hs.once, hs.acknowledged, fun _ => ?_⟩
        have hchecked : NoncesKept s.service s.honoured clock.peer := hkept.wait (by omega)
        exact (hchecked.refused hrefusal.entries hrefusal.buckets).wait
          (show clock.peer ≤ clock.connect by omega)
    · -- the query in the datagram is honoured
      rw [hsome]
      dsimp only [Option.map_some, Option.toList_some, List.cons_append, List.nil_append]
      have hfresh := honoured_fresh hkept hnow haccept
        (hrepeat parsed (by rw [hparse]; rfl))
      have honce : ((Honoured.mk (honouredId (parsed.parsed, senderName)) clock.record ::
          s.honoured).map Honoured.query).Nodup := List.nodup_cons.2 ⟨hfresh, hs.once⟩
      cases hack : acknowledgeQuery crypto config s' msg rinfo parsed.parsed senderName clock
          jitterMs with
      | error thrown =>
        rw [hhandle, hack]
        exact ⟨honce, hs.acknowledged.cons _, fun hup => absurd hup (by simp)⟩
      | ok outcome =>
        obtain ⟨service, effects⟩ := outcome
        rw [hhandle, hack]
        obtain ⟨hbuckets, hcaches, hsends⟩ := acknowledgeQuery_spec hack
        refine ⟨honce, ?_, fun _ => ?_⟩
        · have hone : (List.replicate (sends effects)
              (some (honouredId (parsed.parsed, senderName)))).Sublist
              [some (honouredId (parsed.parsed, senderName))] :=
            (List.replicate_sublist_replicate _).2 hsends
          exact hone.append hs.acknowledged
        have hchecked : NoncesKept s.service s.honoured clock.peer := hkept.wait (by omega)
        refine (hchecked.honour (show clock.peer ≤ clock.record by omega) ?_ ?_).wait
          (show clock.record ≤ clock.connect by omega)
        · rw [hbuckets]
          exact haccept.admitted
        · intro peerName
          rw [hcaches, entriesOf_recordNonce]
          split
          · rename_i hname
            subst hname
            rw [haccept.entries]
            exact (if_pos rfl).symm
          · rename_i hname
            exact (haccept.entries peerName).trans (if_neg hname).symm

/-- **Queries are honoured at most once** in every run whose events are timely, and acknowledged
at most once. -/
theorem honoured_once (crypto : Crypto) (config : PeerConfig) (localSelector : Bytes)
    (peerSelectors : List (String × Bytes)) (now : Nat) (events : List DoorbellEvent)
    (htimely : StepsMeet (doorbellStep crypto config) TimelyEvent
      (DoorbellRun.start localSelector peerSelectors now) events) :
    let run := runFrom (doorbellStep crypto config)
      (DoorbellRun.start localSelector peerSelectors now) events
    (run.honoured.map Honoured.query).Nodup ∧
      run.sent.Sublist (run.honoured.map fun h => some h.query) := by
  have hstart : HonouredOnce (DoorbellRun.start localSelector peerSelectors now) :=
    ⟨List.nodup_nil, List.Sublist.slnil, fun _ => noncesKept_started localSelector peerSelectors now⟩
  have hrun := invariant_of_stepsMeet (honouredOnce_step crypto config) events _ hstart htimely
  exact ⟨hrun.once, hrun.acknowledged⟩

def lenientCrypto : Crypto where
  verify := fun _ _ _ => some true
  sign := fun _ _ => some (List.replicate 64 0)
  sha256 := fun _ => List.replicate 32 0

def onePeer : PeerConfig := ⟨"key", [("peer", ⟨"10.0.0.9", "key"⟩)]⟩

def arrival (now : Nat) (h : now ≤ 8640000000000000) : DoorbellEvent :=
  .datagram (blankPacket []) ⟨"10.0.0.9", 5353⟩ (Clock.still now h) 0

def runOfOnePeer (events : List DoorbellEvent) : DoorbellRun :=
  runFrom (doorbellStep lenientCrypto onePeer)
    (DoorbellRun.start (List.replicate 16 0) [("peer", List.replicate 16 0)] 0) events

theorem honoured_once_repeated :
    ((runOfOnePeer [arrival 300 (by decide), .pruneTimer 30000 30000,
        arrival 60299 (by decide)]).honoured.map Honoured.query).Nodup ∧
      (runOfOnePeer [arrival 300 (by decide), .pruneTimer 30000 30000,
        arrival 60299 (by decide)]).sent.Sublist
        ((runOfOnePeer [arrival 300 (by decide), .pruneTimer 30000 30000,
          arrival 60299 (by decide)]).honoured.map fun h => some h.query) :=
  honoured_once lenientCrypto onePeer (List.replicate 16 0) [("peer", List.replicate 16 0)] 0 _
    (by decide +kernel)

/-- The same datagram a millisecond later is honoured again: its nonce is forgotten, and its
timestamp is within the window for 699 milliseconds more. -/
theorem honoured_twice :
    ¬ ((runOfOnePeer [arrival 300 (by decide), arrival 60300 (by decide)]).honoured.map
        Honoured.query).Nodup ∧
      (runOfOnePeer [arrival 300 (by decide), arrival 60300 (by decide)]).sent.length = 2 := by
  decide +kernel

end Abtars
