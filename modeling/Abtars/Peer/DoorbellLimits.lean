import Abtars.Lib.Meter
import Abtars.Lib.Run
import Abtars.Peer.Doorbell

/-!
# How many doorbell requests are let through

`checkSourceBucket`, `checkPeerBucket` and `pruneBuckets` over whole runs, with the requests
that were admitted on record.  Seen from one key, a map of buckets is a meter: its credit is
what the key's bucket would hold, or a whole burst where there is no bucket.
-/

namespace Abtars

open Lib

variable {limit : Limit} {s : Limiter} {key : String} {call : LimitCall}

/-! ## Runs of a limiter -/

inductive LimitEvent
  | check (key : String)
  | prune

structure LimitCall where
  time : ℚ
  event : LimitEvent

/-- A map of buckets, when it was last used, and what it has admitted, newest first. -/
structure Limiter where
  buckets : Buckets
  now : ℚ
  admitted : List (String × ℚ)

def Limiter.start (now : ℚ) : Limiter := ⟨∅, now, []⟩

def limitStep (limit : Limit) (s : Limiter) (call : LimitCall) : Limiter :=
  match call.event with
  | .check key =>
    let (ok, buckets) := checkBucket limit s.buckets key call.time
    { buckets := buckets
      now := call.time
      admitted := if ok then (key, call.time) :: s.admitted else s.admitted }
  | .prune => { s with buckets := pruneBuckets s.buckets call.time, now := call.time }

def Limiter.admittedAt (s : Limiter) (key : String) : List ℚ :=
  (s.admitted.filter fun entry => entry.1 = key).map Prod.snd

def Limiter.admittedIn (s : Limiter) (key : String) (start stop : ℚ) : Nat :=
  (s.admittedAt key).countP fun t => start ≤ t ∧ t ≤ stop

/-- The step neither refills a bucket beyond its burst nor drops one that is not full again. -/
def FairCall (limit : Limit) (s : Limiter) (call : LimitCall) : Prop :=
  match call.event with
  | .check key =>
    match s.buckets.get key with
    | some entry => entry.bucket.grown limit.ratePerMin call.time ≤ limit.burst
    | none => ∀ oldest ∈ oldestBucket limit s.buckets,
        limit.burst ≤ oldest.bucket.grown limit.ratePerMin call.time
  | .prune => ∀ entry ∈ s.buckets.rows, entry.expiresAt < call.time →
      limit.burst ≤ entry.bucket.grown limit.ratePerMin call.time

instance (limit : Limit) (s : Limiter) (call : LimitCall) : Decidable (FairCall limit s call) :=
  match call with
  | ⟨time, .prune⟩ =>
    inferInstanceAs (Decidable (∀ entry ∈ s.buckets.rows, entry.expiresAt < time →
      limit.burst ≤ entry.bucket.grown limit.ratePerMin time))
  | ⟨time, .check key⟩ =>
    match h : s.buckets.get key with
    | some entry =>
      decidable_of_iff (entry.bucket.grown limit.ratePerMin time ≤ limit.burst)
        (by simp only [FairCall, h])
    | none =>
      decidable_of_iff (∀ oldest ∈ oldestBucket limit s.buckets,
          limit.burst ≤ oldest.bucket.grown limit.ratePerMin time)
        (by simp only [FairCall, h])

def FairStep (limit : Limit) (s : Limiter) (call : LimitCall) : Prop :=
  s.now ≤ call.time ∧ FairCall limit s call

instance (limit : Limit) (s : Limiter) (call : LimitCall) : Decidable (FairStep limit s call) :=
  inferInstanceAs (Decidable (s.now ≤ call.time ∧ FairCall limit s call))

/-! ## A map of buckets as a meter -/

def creditOf (limit : Limit) (buckets : Buckets) (key : String) (now : ℚ) : ℚ :=
  match buckets.get key with
  | some entry => min limit.burst (entry.bucket.grown limit.ratePerMin now)
  | none => limit.burst

def meterOf (limit : Limit) (key : String) (s : Limiter) : Meter ℚ where
  now := s.now
  credit := creditOf limit s.buckets key s.now
  spends := s.admittedAt key

structure Limit.Sound (limit : Limit) : Prop where
  burst : 1 ≤ limit.burst
  rate : limit.burst ≤ limit.ratePerMin

/-- What every bucket keeps: tokens are not negative, and none was refilled in the future. -/
def StockedAt (buckets : Buckets) (now : ℚ) : Prop :=
  ∀ entry ∈ buckets, 0 ≤ entry.bucket.tokens ∧ entry.bucket.lastRefill ≤ now

def Stocked (s : Limiter) : Prop := StockedAt s.buckets s.now

theorem sound_sourceLimit : sourceLimit.Sound where
  burst := by norm_num [sourceLimit, sourceBurst]
  rate := by norm_num [sourceLimit, sourceBurst, sourceRefillPerMin]

theorem sound_peerLimit : peerLimit.Sound where
  burst := by norm_num [peerLimit, peerBurst]
  rate := by norm_num [peerLimit, peerBurst, peerRefillPerMin]

theorem Limit.Sound.rate_nonneg (h : limit.Sound) : 0 ≤ limit.ratePerMin := by
  have hburst := h.burst
  have hrate := h.rate
  linarith

theorem grown_add (b : TokenBucket) (ratePerMin now later : ℚ) :
    b.grown ratePerMin later = b.grown ratePerMin now + ratePerMin / 60000 * (later - now) := by
  simp only [TokenBucket.grown]
  ring

theorem tokens_le_grown {b : TokenBucket} {ratePerMin now : ℚ} (hrate : 0 ≤ ratePerMin)
    (hnow : b.lastRefill ≤ now) : b.tokens ≤ b.grown ratePerMin now := by
  have hgain : 0 ≤ (now - b.lastRefill) / 60000 * ratePerMin :=
    mul_nonneg (div_nonneg (sub_nonneg.2 hnow) (by norm_num)) hrate
  simp only [TokenBucket.grown]
  linarith

theorem creditOf_le (limit : Limit) (h : limit.Sound) (buckets : Buckets) (key : String)
    {now later : ℚ} (hlater : now ≤ later) :
    creditOf limit buckets key later ≤
      creditOf limit buckets key now + limit.ratePerMin / 60000 * (later - now) := by
  have hgain : 0 ≤ limit.ratePerMin / 60000 * (later - now) :=
    mul_nonneg (div_nonneg h.rate_nonneg (by norm_num)) (sub_nonneg.2 hlater)
  simp only [creditOf]
  cases buckets.get key with
  | none =>
    linarith
  | some entry =>
    dsimp only
    rw [grown_add entry.bucket limit.ratePerMin now later, ← min_add_add_right]
    exact min_le_min (by linarith) le_rfl

theorem creditOf_le_burst (limit : Limit) (buckets : Buckets) (key : String) (now : ℚ) :
    creditOf limit buckets key now ≤ limit.burst := by
  simp only [creditOf]
  split
  · exact min_le_left _ _
  · exact le_rfl

theorem creditOf_nonneg (h : limit.Sound) (hs : Stocked s)
    (key : String) : 0 ≤ creditOf limit s.buckets key s.now := by
  have hburst := h.burst
  simp only [creditOf]
  split
  · rename_i entry hget
    obtain ⟨htokens, hrefill⟩ := hs entry (Table.mem_of_get hget)
    have hgrown := tokens_le_grown h.rate_nonneg hrefill
    exact le_min (by linarith) (by linarith)
  · linarith

/-! ## What a check does -/

theorem grown_self (tokens ratePerMin now : ℚ) :
    (⟨tokens, now⟩ : TokenBucket).grown ratePerMin now = tokens := by
  simp [TokenBucket.grown]

/-- A bucket that was checked was refilled to the instant, and a token was taken if there was
one. -/
theorem consume_refill (b : TokenBucket) (ratePerMin now : ℚ) :
    (1 ≤ min (b.grown ratePerMin now) ratePerMin ∧
        consumeBucket (refillBucket b ratePerMin now) =
          (true, ⟨min (b.grown ratePerMin now) ratePerMin - 1, now⟩)) ∨
      (min (b.grown ratePerMin now) ratePerMin < 1 ∧
        consumeBucket (refillBucket b ratePerMin now) =
          (false, ⟨min (b.grown ratePerMin now) ratePerMin, now⟩)) := by
  rw [consumeBucket, refillBucket]
  split
  · rename_i hlow
    exact .inr ⟨hlow, rfl⟩
  · rename_i hhigh
    exact .inl ⟨not_lt.1 hhigh, rfl⟩

theorem get_makeRoom (limit : Limit) (buckets : Buckets) (key : String) :
    (makeRoom limit buckets).get key = buckets.get key ∨
      ∃ oldest, oldestBucket limit buckets = some oldest ∧ buckets.get key = some oldest ∧
        (makeRoom limit buckets).get key = none := by
  rw [makeRoom]
  cases hold : oldestBucket limit buckets with
  | none => exact .inl rfl
  | some oldest =>
    rw [Table.get_deleteWhere]
    cases hget : buckets.get key with
    | none => exact .inl rfl
    | some entry =>
      by_cases hsame : entry.key = oldest.key
      · have hmem : oldest ∈ buckets := by
          rw [oldestBucket] at hold
          split at hold
          · cases hold
          · split at hold
            · exact List.mem_of_head? hold
            · cases hold
        have heq : entry = oldest := Table.eq_of_key_eq (Table.mem_of_get hget) hmem hsame
        refine .inr ⟨oldest, rfl, by rw [heq], ?_⟩
        simp [hsame]
      · exact .inl (by simp [hsame])

theorem creditOf_of_dropped {buckets buckets' : Buckets} {now : ℚ}
    (h : buckets'.get key = buckets.get key ∨ ∃ entry, buckets.get key = some entry ∧
      limit.burst ≤ entry.bucket.grown limit.ratePerMin now ∧ buckets'.get key = none) :
    creditOf limit buckets' key now = creditOf limit buckets key now := by
  rcases h with hsame | ⟨entry, hget, hfull, hnone⟩
  · rw [creditOf, creditOf, hsame]
  · rw [creditOf, creditOf, hget, hnone]
    exact (min_eq_left hfull).symm

/-- The bucket that a check of a key refills, and when its entry expires: the key's own, or a
new one. -/
inductive Refills (limit : Limit) (buckets : Buckets) (key : String) (now : ℚ) :
    TokenBucket → ℚ → Prop
  | kept (old : BucketEntry) (hget : buckets.get key = some old) :
      Refills limit buckets key now old.bucket old.expiresAt
  | made (hget : buckets.get key = none) :
      Refills limit buckets key now (newBucket limit.burst now) (now + 60000)

theorem get_checkBucket (limit : Limit) (buckets : Buckets) (key : String) (now : ℚ) :
    ∃ b entry, checkBucket limit buckets key now =
        ((consumeBucket (refillBucket b limit.ratePerMin now)).1,
          (checkBucket limit buckets key now).2) ∧
      (checkBucket limit buckets key now).2.get key = some entry ∧
      entry.bucket = (consumeBucket (refillBucket b limit.ratePerMin now)).2 ∧
      Refills limit buckets key now b entry.expiresAt := by
  rw [checkBucket]
  cases hget : buckets.get key with
  | some old =>
    refine ⟨old.bucket, { old with bucket := _ }, rfl, ?_, rfl, Refills.kept old hget⟩
    rw [Table.get_modify_same, hget]
    rfl
  | none =>
    refine ⟨newBucket limit.burst now, ⟨key, _, now + 60000⟩, rfl, ?_, rfl, Refills.made hget⟩
    exact (Table.get_put _ _ _).trans (if_pos rfl)

theorem get_checkBucket_of_ne {key' : String}
    (hcall : call.event = .check key) (hfair : FairCall limit s call) (hne : key' ≠ key) :
    (checkBucket limit s.buckets key call.time).2.get key' = s.buckets.get key' ∨
      ∃ entry, s.buckets.get key' = some entry ∧
        limit.burst ≤ entry.bucket.grown limit.ratePerMin call.time ∧
        (checkBucket limit s.buckets key call.time).2.get key' = none := by
  rw [FairCall, hcall] at hfair
  dsimp only at hfair
  rw [checkBucket]
  cases hget : s.buckets.get key with
  | some old =>
    dsimp only
    exact .inl (Table.get_modify_of_ne _ _ _ hne)
  | none =>
    rw [hget] at hfair
    have hput (entry : BucketEntry) (hentry : entry.key = key) :
        ((makeRoom limit s.buckets).put entry).get key' = (makeRoom limit s.buckets).get key' := by
      rw [Table.get_put]
      exact if_neg fun heq => hne (heq.trans hentry)
    rw [hput _ rfl]
    rcases get_makeRoom limit s.buckets key' with hsame | ⟨oldest, hold, hsome, hnone⟩
    · exact .inl hsame
    · exact .inr ⟨oldest, hsome, hfair oldest hold, hnone⟩

theorem refilled_le_creditOf {b : TokenBucket} {expiresAt : ℚ} (hcall : call.event = .check key)
    (hfair : FairCall limit s call) (hb : Refills limit s.buckets key call.time b expiresAt) :
    min (b.grown limit.ratePerMin call.time) limit.ratePerMin ≤
      creditOf limit s.buckets key call.time := by
  rw [FairCall, hcall] at hfair
  dsimp only at hfair
  rw [creditOf]
  cases hb with
  | kept old hget =>
    rw [hget] at hfair ⊢
    exact le_min ((min_le_left _ _).trans hfair) (min_le_left _ _)
  | made hget =>
    rw [hget, grown_newBucket]
    exact min_le_left _ _

/-! ## A fair step, seen from one key -/

theorem admittedAt_cons (s : Limiter) (buckets : Buckets) (now : ℚ) (key key' : String) (at' : ℚ) :
    Limiter.admittedAt ⟨buckets, now, (key, at') :: s.admitted⟩ key' =
      if key = key' then at' :: s.admittedAt key' else s.admittedAt key' := by
  by_cases hkey : key = key'
  · simp [Limiter.admittedAt, hkey]
  · simp [Limiter.admittedAt, hkey]

theorem meterOf_keep (h : limit.Sound) {s' : Limiter} (hnow : s.now ≤ s'.now) (hstock : Stocked s')
    (hcredit : creditOf limit s'.buckets key s'.now ≤ creditOf limit s.buckets key s'.now)
    (hsame : s'.admittedAt key = s.admittedAt key) :
    Meter.Step limit.burst (limit.ratePerMin / 60000) (meterOf limit key s)
      (meterOf limit key s') := by
  have hmeter : meterOf limit key s' =
      ⟨s'.now, creditOf limit s'.buckets key s'.now, s.admittedAt key⟩ := by
    rw [meterOf, hsame]
  rw [hmeter]
  exact Meter.Step.keep (meterOf limit key s) s'.now _ hnow (creditOf_nonneg h hstock key)
    (creditOf_le_burst limit _ key _) (hcredit.trans (creditOf_le limit h s.buckets key hnow))

theorem stocked_step (h : limit.Sound) (call : LimitCall)
    (hs : Stocked s) (hnow : s.now ≤ call.time) : Stocked (limitStep limit s call) := by
  have hlater : ∀ entry ∈ s.buckets, 0 ≤ entry.bucket.tokens ∧
      entry.bucket.lastRefill ≤ call.time :=
    fun entry hentry => ⟨(hs entry hentry).1, (hs entry hentry).2.trans hnow⟩
  have htaken : ∀ b : TokenBucket, 0 ≤ b.tokens → b.lastRefill ≤ call.time →
      0 ≤ (consumeBucket (refillBucket b limit.ratePerMin call.time)).2.tokens ∧
        (consumeBucket (refillBucket b limit.ratePerMin call.time)).2.lastRefill ≤ call.time := by
    intro b htokens hrefill
    have hgrown := tokens_le_grown h.rate_nonneg hrefill
    rcases consume_refill b limit.ratePerMin call.time with ⟨henough, hr⟩ | ⟨-, hr⟩
    · rw [hr]
      exact ⟨sub_nonneg.2 henough, le_rfl⟩
    · rw [hr]
      exact ⟨le_min (htokens.trans hgrown) h.rate_nonneg, le_rfl⟩
  intro entry hentry
  rw [limitStep] at hentry ⊢
  cases hevent : call.event with
  | prune =>
    rw [hevent] at hentry
    exact hlater entry (Table.mem_deleteWhere.1 hentry).1
  | check key =>
    rw [hevent] at hentry
    dsimp only at hentry ⊢
    rw [checkBucket] at hentry
    cases hget : s.buckets.get key with
    | some old =>
      rw [hget] at hentry
      dsimp only at hentry
      rcases Table.mem_modify.1 hentry with ⟨hentry, -⟩ | ⟨row, hrow, rfl⟩
      · exact hlater entry hentry
      · obtain ⟨htokens, hrefill⟩ := hlater old (Table.mem_of_get hget)
        exact htaken old.bucket htokens hrefill
    | none =>
      rw [hget] at hentry
      rcases Table.mem_put.1 hentry with ⟨hentry, -⟩ | rfl
      · rw [makeRoom] at hentry
        split at hentry
        · exact hlater entry hentry
        · exact hlater entry (Table.mem_deleteWhere.1 hentry).1
      · have hburst := h.burst
        exact htaken _ (by rw [newBucket]; linarith) le_rfl

/-- A fair check, seen from the key it is made for. -/
theorem meterOf_check (h : limit.Sound) (hs : Stocked s) (hnow : s.now ≤ call.time)
    (hcall : call.event = .check key) (hfair : FairCall limit s call) :
    Meter.Step limit.burst (limit.ratePerMin / 60000) (meterOf limit key s)
      (meterOf limit key (limitStep limit s call)) := by
  obtain ⟨b, entry, hcheck, hget, hbucket, hb⟩ := get_checkBucket limit s.buckets key call.time
  have hrefilled := refilled_le_creditOf hcall hfair hb
  have hburst := creditOf_le_burst limit s.buckets key call.time
  have hgrowth := creditOf_le limit h s.buckets key hnow
  have hstock := stocked_step h call hs hnow
  have hstep : limitStep limit s call =
      ⟨(checkBucket limit s.buckets key call.time).2, call.time,
        if (checkBucket limit s.buckets key call.time).1 then (key, call.time) :: s.admitted
        else s.admitted⟩ := by
    rw [limitStep, hcall]
  have hcredit : creditOf limit (limitStep limit s call).buckets key call.time =
      min limit.burst (consumeBucket (refillBucket b limit.ratePerMin call.time)).2.tokens := by
    rw [hstep, creditOf, hget]
    dsimp only
    rw [hbucket]
    rcases consume_refill b limit.ratePerMin call.time with ⟨-, hr⟩ | ⟨-, hr⟩
    · rw [hr, grown_self]
    · rw [hr, grown_self]
  rcases consume_refill b limit.ratePerMin call.time with ⟨henough, hr⟩ | ⟨-, hr⟩
  · -- admitted: the token comes out of the refilled bucket
    set refilled := min (b.grown limit.ratePerMin call.time) limit.ratePerMin with hdef
    have htaken : min limit.burst (refilled - 1) = refilled - 1 := min_eq_right (by linarith)
    rw [hr] at hcheck hcredit
    have hok : (checkBucket limit s.buckets key call.time).1 = true := by rw [hcheck]
    have hmeter : meterOf limit key (limitStep limit s call) =
        ⟨call.time, refilled - 1, call.time :: s.admittedAt key⟩ := by
      rw [meterOf]
      have hlog : (limitStep limit s call).admittedAt key = call.time :: s.admittedAt key := by
        rw [hstep, if_pos hok, admittedAt_cons, if_pos rfl]
      have hclock : (limitStep limit s call).now = call.time := by rw [hstep]
      rw [hlog, hclock, hcredit, htaken]
    rw [hmeter]
    refine Meter.Step.spend (meterOf limit key s) call.time _ hnow (by linarith) (by linarith)
      ?_
    show refilled - 1 + 1 ≤ creditOf limit s.buckets key s.now +
      limit.ratePerMin / 60000 * (call.time - s.now)
    linarith
  · -- refused: what the bucket holds is what it held
    rw [hr] at hcheck hcredit
    have hok : (checkBucket limit s.buckets key call.time).1 = false := by rw [hcheck]
    have hclock : (limitStep limit s call).now = call.time := by rw [hstep]
    refine meterOf_keep h (by rw [hclock]; exact hnow) hstock ?_ ?_
    · rw [hclock, hcredit]
      exact (min_le_right _ _).trans hrefilled
    · rw [hstep, hok]
      rfl

/-- **A fair step of the map is a step of every key's meter.** -/
theorem meterOf_step (h : limit.Sound)
    (hs : Stocked s) (hfair : FairStep limit s call) (key : String) :
    Meter.Step limit.burst (limit.ratePerMin / 60000) (meterOf limit key s)
      (meterOf limit key (limitStep limit s call)) := by
  obtain ⟨hnow, hcall⟩ := hfair
  have hstock := stocked_step h call hs hnow
  cases hevent : call.event with
  | prune =>
    have hstep : limitStep limit s call =
        ⟨pruneBuckets s.buckets call.time, call.time, s.admitted⟩ := by
      rw [limitStep, hevent]
    rw [FairCall, hevent] at hcall
    refine meterOf_keep h (by rw [hstep]; exact hnow) hstock (le_of_eq ?_) (by rw [hstep]; rfl)
    rw [hstep]
    refine creditOf_of_dropped ?_
    rw [pruneBuckets, Table.get_deleteWhere]
    cases hget : s.buckets.get key with
    | none => exact .inl rfl
    | some entry =>
      by_cases hexpired : entry.expiresAt < call.time
      · exact .inr ⟨entry, rfl, hcall entry (Table.mem_of_get hget) hexpired,
          by simp [hexpired]⟩
      · exact .inl (by simp [hexpired])
  | check checked =>
    by_cases hkey : key = checked
    · rw [hkey]
      exact meterOf_check h hs hnow hevent hcall
    have hstep : limitStep limit s call =
        ⟨(checkBucket limit s.buckets checked call.time).2, call.time,
          if (checkBucket limit s.buckets checked call.time).1 then
            (checked, call.time) :: s.admitted else s.admitted⟩ := by
      rw [limitStep, hevent]
    refine meterOf_keep h (by rw [hstep]; exact hnow) hstock (le_of_eq ?_) ?_
    · rw [hstep]
      exact creditOf_of_dropped (get_checkBucket_of_ne hevent hcall hkey)
    rw [hstep]
    split
    · rw [admittedAt_cons, if_neg (Ne.symm hkey)]
    · rfl

/-! ## Every window of a run -/

theorem meterOf_run (h : limit.Sound) (key : String) (calls : List LimitCall) (s : Limiter)
    (hs : Stocked s) (hfair : StepsMeet (limitStep limit) (FairStep limit) s calls) :
    Meter.Steps limit.burst (limit.ratePerMin / 60000) (meterOf limit key s)
      (meterOf limit key (runFrom (limitStep limit) s calls)) := by
  refine relation_of_stepsMeet
    (R := fun s s' => Meter.Steps limit.burst (limit.ratePerMin / 60000) (meterOf limit key s)
      (meterOf limit key s'))
    (fun _ _ => Relation.ReflTransGen.refl) (fun _ _ _ hab hbc => hab.trans hbc)
    (fun _ call hs hfair => stocked_step h call hs hfair.1)
    (fun _ _ hs hfair => Relation.ReflTransGen.single (meterOf_step h hs hfair key))
    calls s hs hfair

/-- **Burst and rate bound every window of a fair run**, for either map of buckets, every key and
every pattern of arrivals and prunings. -/
theorem admitted_in_window_le (limit : Limit) (hlimit : limit = sourceLimit ∨ limit = peerLimit)
    (now : ℚ) (calls : List LimitCall)
    (hfair : StepsMeet (limitStep limit) (FairStep limit) (Limiter.start now) calls)
    (key : String) (start stop : ℚ) (hle : start ≤ stop) :
    ((runFrom (limitStep limit) (Limiter.start now) calls).admittedIn key start stop : ℚ) ≤
      limit.burst + (stop - start) / 60000 * limit.ratePerMin := by
  have hsound : limit.Sound := by
    rcases hlimit with rfl | rfl
    · exact sound_sourceLimit
    · exact sound_peerLimit
  have hstock : Stocked (Limiter.start now) := fun entry hentry =>
    absurd hentry (Table.not_mem_empty entry)
  have hsteps := meterOf_run hsound key calls _ hstock hfair
  have hrate : 0 ≤ limit.ratePerMin / 60000 := div_nonneg hsound.rate_nonneg (by norm_num)
  have hbound := hsteps.count_le hrate (creditOf_nonneg hsound hstock key)
    (creditOf_le_burst limit _ key now) rfl hle
  have hscale : limit.ratePerMin / 60000 * (stop - start) =
      (stop - start) / 60000 * limit.ratePerMin := by ring
  rw [hscale] at hbound
  exact hbound

def idleThenBurst : List LimitCall :=
  ⟨0, .check "10.0.0.9"⟩ :: List.replicate 9 ⟨60000, .check "10.0.0.9"⟩

theorem admitted_in_window_le_two :
    ((runFrom (limitStep sourceLimit) (Limiter.start 0)
        [⟨0, .check "10.0.0.9"⟩, ⟨1000, .check "10.0.0.9"⟩, ⟨30000, .prune⟩]).admittedIn "10.0.0.9" 0
          1000 : ℚ) ≤
      sourceLimit.burst + (1000 - 0) / 60000 * sourceLimit.ratePerMin :=
  admitted_in_window_le sourceLimit (.inl rfl) 0 _ (by decide +kernel) "10.0.0.9" 0 1000
    (by norm_num)

/-- After a minute without requests a source may send more than a burst at once. -/
theorem burst_exceeded :
    sourceLimit.burst + (60000 - 60000) / 60000 * sourceLimit.ratePerMin <
      ((runFrom (limitStep sourceLimit) (Limiter.start 0) idleThenBurst).admittedIn "10.0.0.9"
        60000 60000 : ℚ) := by
  decide +kernel

end Abtars
