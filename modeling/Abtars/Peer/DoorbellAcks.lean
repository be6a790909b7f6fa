import Abtars.Peer.Doorbell

/-!
# Acknowledged rings

A pending ring is found by a prefix of its key, and the first one found decides: an acknowledgement
reaches its ring just where no earlier ring has an id that begins in the same way.
-/

namespace Abtars

variable {s : Doorbell} {ring : PendingAck} {packet : Bytes} {id : Nat}

/-- The id of the query, which `ring` makes the key of. -/
def PendingAck.dnsId (pending : PendingAck) : Nat :=
  ((readUInt16BE pending.queryPacket 0).toOption).getD 0

def ringPending (peerName : String) (queryPacket queryCanonical : Bytes)
    (queryNonceHex : List Char) : PendingAck :=
  ⟨peerName ++ ":" ++ toString (((readUInt16BE queryPacket 0).toOption).getD 0), queryPacket,
    queryCanonical, peerName, queryNonceHex⟩

/-- `Map.set` replaces an entry in its place. -/
def setPending (pendingAcks : List PendingAck) (pending : PendingAck) : List PendingAck :=
  if pending.key ∈ pendingAcks.map (·.key) then
    pendingAcks.map fun other => if other.key = pending.key then pending else other
  else pendingAcks ++ [pending]

structure Rings (pendingAcks : List PendingAck) : Prop where
  keys : (pendingAcks.map (·.key)).Nodup
  made : ∀ pending ∈ pendingAcks,
    pending.key = pending.peerName ++ ":" ++ toString pending.dnsId

/-- The pending acknowledgements are those of rings. -/
theorem rings_setPending {pendingAcks : List PendingAck} (hs : Rings pendingAcks)
    (peerName : String) (queryPacket queryCanonical : Bytes) (queryNonceHex : List Char) :
    Rings (setPending pendingAcks
      (ringPending peerName queryPacket queryCanonical queryNonceHex)) := by
  have hmade : ∀ pending, pending.key = pending.peerName ++ ":" ++ toString pending.dnsId →
      Rings (setPending pendingAcks pending) := by
    intro pending hmade
    unfold setPending
    split
    · constructor
      · rw [List.map_map]
        have hsame : ∀ other ∈ pendingAcks, ((fun pending : PendingAck => pending.key) ∘
            fun other => if other.key = pending.key then pending else other) other = other.key := by
          intro other _
          rw [Function.comp_apply]
          split
          · rename_i hkey
            exact hkey.symm
          · rfl
        rw [List.map_congr_left hsame]
        exact hs.keys
      · intro other hother
        obtain ⟨old, hold, rfl⟩ := List.mem_map.1 hother
        split
        · exact hmade
        · exact hs.made old hold
    · rename_i hfresh
      constructor
      · rw [List.map_append, List.map_singleton, List.nodup_append]
        refine ⟨hs.keys, List.nodup_singleton _, fun a ha b hb hab => hfresh ?_⟩
        rw [← List.mem_singleton.1 hb, ← hab]
        exact ha
      intro other hother
      rcases List.mem_append.1 hother with hold | hnew
      · exact hs.made other hold
      · obtain rfl := List.mem_singleton.1 hnew
        exact hmade
  exact hmade _ rfl

/-- A ring that ends, acknowledged or not, is deleted by its key. -/
theorem Rings.deleted {pendingAcks : List PendingAck} (hs : Rings pendingAcks) (key : String) :
    Rings (pendingAcks.filter (·.key ≠ key)) where
  keys := hs.keys.sublist (List.filter_sublist.map _)
  made pending hmem := hs.made pending (List.mem_filter.1 hmem).1

/-- The response is valid for the ring: its question, its source and all that its acknowledgement
says. -/
def ValidFor (crypto : Crypto) (config : PeerConfig) (s : Doorbell) (packet : Bytes)
    (rinfo : RemoteInfo) (now id : Nat) (ring : PendingAck) : Prop :=
  ∃ parsed, parseResponse packet ring.queryPacket = .ok parsed ∧
    isExpectedAck crypto config s packet rinfo ring parsed id now = true

/-- The id of the response begins the one of the ring, in decimals. -/
def Begins (id : Nat) (ring : PendingAck) : Prop :=
  (toString id).toList <+: (toString ring.dnsId).toList

theorem begins_iff (hs : Rings s.pendingAcks) (hring : ring ∈ s.pendingAcks) :
    (ring.peerName ++ ":" ++ toString id).toList.isPrefixOf ring.key.toList = true ↔
      Begins id ring := by
  rw [List.isPrefixOf_iff_prefix, hs.made ring hring, String.toList_append, String.toList_append,
    String.toList_append, String.toList_append]
  exact List.prefix_append_right_inj _

theorem not_resolved {crypto : Crypto} {config : PeerConfig} {rinfo : RemoteInfo} {clock : Clock}
    {s' : Doorbell} (hid : readUInt16BE packet 0 = .ok id)
    (hfound : ∀ other, s.pendingAcks.find? (fun pending =>
      (pending.peerName ++ ":" ++ toString id).toList.isPrefixOf pending.key.toList) = some other →
        other.key ≠ ring.key) :
    tryProcessResponse crypto config s packet rinfo clock ≠ .ok (s', [.acknowledged ring.key]) := by
  intro h
  unfold tryProcessResponse at h
  rw [hid] at h
  dsimp only at h
  split at h
  · simp at h
  rename_i other hother
  split at h
  · cases h
  · simp at h
  split at h
  · simp only [Except.ok.injEq, Prod.mk.injEq, List.cons.injEq, and_true,
      DoorbellEffect.acknowledged.injEq] at h
    exact hfound other hother h.2
  · simp at h

/-- **A valid response resolves its ring, and leaves the others as they are, just where its id
begins the one of its ring and of no ring before it.** -/
theorem acknowledged_iff {crypto : Crypto} {config : PeerConfig} {rinfo : RemoteInfo} {clock : Clock}
    {before after : List PendingAck} (hs : Rings s.pendingAcks)
    (hpending : s.pendingAcks = before ++ ring :: after) (hid : readUInt16BE packet 0 = .ok id)
    (hvalid : ValidFor crypto config s packet rinfo clock.stamp id ring) :
    tryProcessResponse crypto config s packet rinfo clock =
        .ok ({ s with pendingAcks := before ++ after }, [.acknowledged ring.key]) ↔
      Begins id ring ∧ ∀ pending ∈ before, ¬ Begins id pending := by
  obtain ⟨parsed, hparsed, hexpected⟩ := hvalid
  have hkeys := hs.keys
  rw [hpending, List.map_append, List.map_cons, List.nodup_middle, List.nodup_cons,
    ← List.map_append] at hkeys
  have hothers : ∀ pending ∈ before ++ after, pending.key ≠ ring.key := fun pending hmem hkey =>
    hkeys.1 (hkey ▸ List.mem_map_of_mem hmem)
  have hmem : before ++ ring :: after ⊆ s.pendingAcks := by rw [hpending]; exact List.Subset.refl _
  have hring : ring ∈ s.pendingAcks := hmem (List.mem_append_right _ List.mem_cons_self)
  have hfind := @List.find?_append _ (fun pending : PendingAck =>
    (pending.peerName ++ ":" ++ toString id).toList.isPrefixOf pending.key.toList)
    before (ring :: after)
  rw [← hpending] at hfind
  by_cases hfirst : Begins id ring ∧ ∀ pending ∈ before, ¬ Begins id pending
  · refine iff_of_true ?_ hfirst
    have hnone : before.find? (fun pending => (pending.peerName ++ ":" ++
        toString id).toList.isPrefixOf pending.key.toList) = none :=
      List.find?_eq_none.2 fun pending hbefore hbegins => hfirst.2 pending hbefore
        ((begins_iff hs (hmem (List.mem_append_left _ hbefore))).1 hbegins)
    rw [hnone, Option.none_or, List.find?_cons, (begins_iff hs hring).2 hfirst.1] at hfind
    have hkept : s.pendingAcks.filter (·.key ≠ ring.key) = before ++ after := by
      rw [hpending, List.filter_append, List.filter_cons_of_neg (by simp), ← List.filter_append,
        List.filter_eq_self]
      simpa using hothers
    unfold tryProcessResponse
    rw [hid]
    dsimp only
    rw [hfind]
    dsimp only
    rw [hparsed]
    dsimp only
    rw [if_pos hexpected, hkept]
  · refine iff_of_false (not_resolved hid fun other hother => ?_) hfirst
    rw [hfind, Option.or_eq_some_iff] at hother
    rcases hother with hearlier | ⟨hnone, hlater⟩
    · exact hothers other (List.mem_append_left _ (List.mem_of_find?_eq_some hearlier))
    have hnot : ¬ Begins id ring := fun hbegins => hfirst ⟨hbegins, fun pending hbefore h =>
      List.find?_eq_none.1 hnone pending hbefore
        ((begins_iff hs (hmem (List.mem_append_left _ hbefore))).2 h)⟩
    rw [List.find?_cons, Bool.eq_false_iff.2 fun h => hnot ((begins_iff hs hring).1 h)] at hlater
    exact hothers other (List.mem_append_right _ (List.mem_of_find?_eq_some hlater))

/-! ## A ring that hides another -/

def trusting : Crypto where
  verify _ _ _ := some true
  sign _ _ := some []
  sha256 _ := List.replicate 32 0

def oneHost : PeerConfig := ⟨"key", [("b", ⟨"10.0.0.2", "key"⟩)]⟩

/-- A ring of `b`, whose query has the nonce of `mark`s. -/
def rung (dnsId : UInt16) (mark : UInt8) : PendingAck :=
  let query := { blankQuery with nonce := List.replicate 16 mark }
  ringPending "b" (((encodeQuery dnsId query).toOption).getD []) (buildQueryCanonical query)
    (toHex query.nonce)

/-- The acknowledgement of such a ring. -/
def reply (ring : PendingAck) (mark : UInt8) : Bytes :=
  ((encodeResponse ring.queryPacket ⟨List.replicate 16 0, List.replicate 16 mark,
    List.replicate 16 0, 0, List.replicate 64 0⟩).toOption).getD []

def ringing (rings : List PendingAck) : Doorbell :=
  { Doorbell.started (List.replicate 16 0) [("b", List.replicate 16 0)] with pendingAcks := rings }

theorem validFor_reply (rings : List PendingAck) : ValidFor trusting oneHost (ringing rings)
    (reply (rung 1 2) 2) ⟨"10.0.0.2", 5353⟩ 0 1 (rung 1 2) := by
  have h : (parseResponse (reply (rung 1 2) 2) (rung 1 2).queryPacket).toOption.any
      (fun parsed => isExpectedAck trusting oneHost (ringing [])
        (reply (rung 1 2) 2) ⟨"10.0.0.2", 5353⟩ (rung 1 2) parsed 1 0) = true := by
    decide +kernel
  obtain ⟨parsed, hparsed, hexpected⟩ := (Option.any_eq_true _ _).1 h
  cases hresult : parseResponse (reply (rung 1 2) 2) (rung 1 2).queryPacket with
  | error failure =>
    rw [hresult] at hparsed
    cases hparsed
  | ok result =>
    rw [hresult] at hparsed
    cases hparsed
    exact ⟨parsed, hresult, hexpected⟩

/-- The ring of query 1 is found under 1, with no other before it. -/
theorem acknowledged_iff_first :
    tryProcessResponse trusting oneHost (ringing [rung 1 2, rung 12 1]) (reply (rung 1 2) 2)
        ⟨"10.0.0.2", 5353⟩ (Clock.still 0 (Nat.zero_le _)) =
      .ok (ringing [rung 12 1], [.acknowledged (rung 1 2).key]) := by
  have hs : Rings (ringing [rung 1 2, rung 12 1]).pendingAcks :=
    ⟨by decide +kernel, by decide +kernel⟩
  have hid : readUInt16BE (reply (rung 1 2) 2) 0 = .ok 1 := by decide +kernel
  have hbegins : Begins 1 (rung 1 2) := by
    unfold Begins
    decide +kernel
  have hpending : (ringing [rung 1 2, rung 12 1]).pendingAcks = [] ++ rung 1 2 :: [rung 12 1] := rfl
  refine (acknowledged_iff hs hpending hid ?_).2 ⟨hbegins, by simp⟩
  exact validFor_reply _

/-- The ring of query 12 is found instead of the one of query 1, and its question differs. -/
theorem ring_hidden : ¬ ∀ (crypto : Crypto) (config : PeerConfig) (s : Doorbell) (packet : Bytes)
    (rinfo : RemoteInfo) (clock : Clock) (id : Nat) (ring : PendingAck), Rings s.pendingAcks →
    ring ∈ s.pendingAcks → readUInt16BE packet 0 = .ok id →
    ValidFor crypto config s packet rinfo clock.stamp id ring →
    ∃ s', tryProcessResponse crypto config s packet rinfo clock =
      .ok (s', [.acknowledged ring.key]) := by
  intro h
  obtain ⟨s', hs'⟩ := h trusting oneHost (ringing [rung 12 1, rung 1 2]) (reply (rung 1 2) 2)
    ⟨"10.0.0.2", 5353⟩ (Clock.still 0 (Nat.zero_le _)) 1 (rung 1 2)
    ⟨by decide +kernel, by decide +kernel⟩ (by simp [ringing]) (by decide +kernel)
    (validFor_reply _)
  have hsilent : (tryProcessResponse trusting oneHost (ringing [rung 12 1, rung 1 2])
      (reply (rung 1 2) 2) ⟨"10.0.0.2", 5353⟩ (Clock.still 0 (Nat.zero_le _))).toOption.map
        Prod.snd = some [] := by
    decide +kernel
  rw [hs'] at hsilent
  cases hsilent

end Abtars
