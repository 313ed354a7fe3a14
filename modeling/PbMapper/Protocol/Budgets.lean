import PbMapper.Protocol.ReplayHistory

/-!
# Budgets of first flights

Each credential has a budget of first flights, and all credentials share one.
The shared budget is no larger than that of a single credential, and a rejected
flight is charged to the shared budget alone.  So as long as the durable log
works, any credential can make the guard refuse the flights of any other.
-/

namespace PbMapper.Protocol

open Auth BigEndian MachineWord

/-! ## Flights -/

/-- How an authenticated flight reaches the guard. -/
inductive FirstFlightRoute where
  | live
  | rejected

/-- A first flight whose file operations succeed. -/
structure Flight where
  route : FirstFlightRoute
  keyId : KeyId
  fingerprint : Fingerprint
  now : ℕ

namespace ReplayGuard

variable {bytes : ℕ+} (guard : ReplayGuard bytes) (log : Option ReplayLog)

/-- `evaluate_first_flight`, as far as the guard decides it. -/
def answer (flight : Flight) :
    FirstFlightAdmit × ReplayGuard bytes × Option ReplayLog :=
  match flight.route with
  | .live =>
      guard.admitFresh log flight.keyId flight.fingerprint flight.now .success
        .success
  | .rejected => guard.claim log flight.fingerprint flight.now .success

/-- The guard and the log after some flights. -/
def fly (flights : List Flight) : ReplayGuard bytes × Option ReplayLog :=
  flights.foldl (fun state flight => (state.1.answer state.2 flight).2)
    (guard, log)

/-- How many flights of a credential count at a clock reading. -/
def countAt (keyId : KeyId) (now : ℕ) : ℕ := (guard.rotateCounts now).counts keyId

/-- The guard as a lookup leaves it. -/
def lookedAt (now : ℕ) : ReplayGuard bytes :=
  { guard with bloom := guard.bloom.rotate now }.resetTotalIfRotated

/-- How many flights count in all at a clock reading. -/
def totalAt (now : ℕ) : ℕ := (guard.lookedAt now).total

/-- The limits that `open` sets. -/
structure HasLimits (configured : Option ℕ) : Prop where
  perKey : guard.maxPerKey = firstFlightBudget configured guard.windowSeconds
  total : guard.maxTotal =
    min (firstFlightBudget configured guard.windowSeconds)
      (bloomInsertCapacity bytes)

/-- Whatever `first` sends, a flight of `other` that would be accepted without
it, within the budget of `other` and with little use of the shared one by
others, is not refused. -/
def Spares (first other : KeyId) (little : ℕ) : Prop :=
  ∀ (flights : List Flight) (flight : Flight),
    (∀ earlier ∈ flights, earlier.keyId = first) → flight.keyId = other →
    (flights ++ [flight]).Pairwise (fun earlier later =>
      earlier.now ≤ later.now) →
    (guard.fly log flights).1.countAt other flight.now < guard.maxPerKey →
    guard.totalAt flight.now ≤ little →
    (guard.answer log flight).1 = .fresh →
    let after := guard.fly log flights
    (after.1.answer after.2 flight).1 ≠ .limited ∧
      (after.1.answer after.2 flight).1 ≠ .unavailable

end ReplayGuard

/-! ## Filters with low bits only -/

/-- A fingerprint whose positions are all the same. -/
def pointFingerprint (value : ℕ) : Fingerprint :=
  ⟨((List.range 4).flatMap fun _ => toBeBytes 8 value).toArray, by
    simp [length_toBeBytes, List.range_succ]⟩

theorem bloomPositions_pointFingerprint {bytes : ℕ+} {value : ℕ}
    (hvalue : value < 2 ^ 64) (hbits : value < bytes * 8) :
    ∀ position ∈ bloomPositions bytes (pointFingerprint value),
      position = ⟨value, hbits⟩ := by
  intro position hmem
  obtain ⟨index, hindex, rfl⟩ := List.mem_map.mp hmem
  have hchunk : ((pointFingerprint value).toList.drop (index * 8)).take 8 =
      toBeBytes 8 value := by
    have hlength := length_toBeBytes 8 value
    have hlist : (pointFingerprint value).toList =
        toBeBytes 8 value ++ (toBeBytes 8 value ++
          (toBeBytes 8 value ++ toBeBytes 8 value)) := by
      simp [pointFingerprint, List.range_succ]
    rw [hlist]
    have hcases : index = 0 ∨ index = 1 ∨ index = 2 ∨ index = 3 := by
      have := List.mem_range.mp hindex
      omega
    rcases hcases with rfl | rfl | rfl | rfl <;>
      simp [List.drop_append, List.take_of_length_le, List.drop_of_length_le,
        hlength]
  apply Fin.ext
  change fromBeBytes _ % _ = value
  rw [hchunk, fromBeBytes_toBeBytes (by simpa using hvalue),
    Nat.mod_eq_of_lt hbits]

namespace RotatingBloom

variable {bytes : ℕ+} {bloom : RotatingBloom bytes} {bound now : ℕ}

/-- A filter whose generation starts now, with low bits only. -/
structure Below (bloom : RotatingBloom bytes) (bound now : ℕ) : Prop where
  startedAt : bloom.currentStartedAt = now
  current : ∀ position : Fin (bytes * 8),
    bloom.current[position] = true → position < bound
  previous : ∀ position : Fin (bytes * 8),
    bloom.previous[position] = true → position < bound

theorem below_cleared (bloom : RotatingBloom bytes) (bound now : ℕ) :
    Below ({ bloom with
      current := BloomFilter.empty _
      previous := BloomFilter.empty _
      currentStartedAt := now } : RotatingBloom bytes) bound now :=
  ⟨rfl, by simp [BloomFilter.empty], by simp [BloomFilter.empty]⟩

theorem Below.rotate (hbelow : bloom.Below bound now) :
    (bloom.rotate now).Below bound now := by
  unfold RotatingBloom.rotate
  rw [hbelow.startedAt, Nat.sub_self]
  dsimp only
  split
  · exact hbelow
  · rename_i hwindow
    obtain hzero : bloom.windowSeconds = 0 := by omega
    rw [if_pos (by simp [hzero, satMul])]
    exact below_cleared bloom bound now

theorem below_rotate
    (hnow : bloom.currentStartedAt + 2 * bloom.windowSeconds ≤ now) :
    (bloom.rotate now).Below 0 now := by
  have hcut := satMul_le_mul u64Max bloom.windowSeconds 2
  unfold RotatingBloom.rotate
  dsimp only
  split
  · rename_i hfits
    have hself : bloom.windowSeconds = 0 := by omega
    omega
  · rw [if_pos (by omega)]
    exact below_cleared bloom 0 now

theorem Below.mono {larger : ℕ} (hbelow : bloom.Below bound now)
    (hle : bound ≤ larger) : bloom.Below larger now :=
  ⟨hbelow.startedAt,
    fun position hbit => (hbelow.current position hbit).trans_le hle,
    fun position hbit => (hbelow.previous position hbit).trans_le hle⟩

theorem Below.contains_eq_false (hbelow : bloom.Below bound now)
    (hvalue : bound < 2 ^ 64) (hbits : bound < bytes * 8) :
    (BloomFilter.contains bloom.current
        (bloomPositions bytes (pointFingerprint bound)) ||
      BloomFilter.contains bloom.previous
        (bloomPositions bytes (pointFingerprint bound))) = false := by
  have hpoint := bloomPositions_pointFingerprint hvalue hbits
  have hmem : (⟨bound, hbits⟩ : Fin (bytes * 8)) ∈
      bloomPositions bytes (pointFingerprint bound) := by
    have hfirst := List.mem_map_of_mem (f := fun index =>
      (⟨fromBeBytes (((pointFingerprint bound).toList.drop (index * 8)).take 8) %
        (bytes * 8), Nat.mod_lt _ (Nat.mul_pos bytes.pos (by decide))⟩ :
          Fin (bytes * 8))) (List.mem_range.mpr (show 0 < 4 by decide))
    have hself := hpoint _ hfirst
    rw [← hself]
    exact hfirst
  rw [Bool.or_eq_false_iff]
  constructor
  · by_contra hfound
    rw [Bool.not_eq_false, BloomFilter.contains, List.all_eq_true] at hfound
    exact absurd (hbelow.current _ (hfound _ hmem)) (lt_irrefl bound)
  · by_contra hfound
    rw [Bool.not_eq_false, BloomFilter.contains, List.all_eq_true] at hfound
    exact absurd (hbelow.previous _ (hfound _ hmem)) (lt_irrefl bound)

theorem Below.insert (hbelow : bloom.Below bound now)
    (hvalue : bound < 2 ^ 64) (hbits : bound < bytes * 8) :
    (bloom.insert (pointFingerprint bound) now).Below (bound + 1) now := by
  have hrotate := hbelow.rotate
  refine ⟨hrotate.startedAt, fun position hbit => ?_, fun position hbit =>
    (hrotate.previous position hbit).trans (Nat.lt_succ_self bound)⟩
  rcases BloomFilter.mem_of_insert hbit with hold | hmem
  · exact (hrotate.current position hold).trans (Nat.lt_succ_self bound)
  · rw [bloomPositions_pointFingerprint hvalue hbits position hmem]
    exact Nat.lt_succ_self bound

end RotatingBloom

/-! ## Filling the shared budget -/

namespace ReplayGuard

variable {bytes : ℕ+} {guard : ReplayGuard bytes} {log : Option ReplayLog}
  {configured : Option ℕ} {now bound : ℕ}

theorem firstFlightBudget_pos (configured : Option ℕ) (window : ℕ) :
    0 < firstFlightBudget configured window :=
  Nat.lt_of_lt_of_le (by decide) (le_max_right _ 8192)

theorem HasLimits.bounds (hlimits : guard.HasLimits configured) :
    0 < guard.maxPerKey ∧ 0 < guard.maxTotal ∧ guard.maxTotal ≤ u32Max ∧
      guard.maxTotal < bytes * 8 := by
  have hbudget := firstFlightBudget_pos configured guard.windowSeconds
  have hbytes := bytes.pos
  have hcapacity : 0 < bloomInsertCapacity bytes ∧
      bloomInsertCapacity bytes ≤ u32Max ∧
        bloomInsertCapacity bytes < bytes * 8 := by
    unfold bloomInsertCapacity satMul u32Max
    omega
  rw [hlimits.perKey, hlimits.total]
  exact ⟨hbudget, lt_min hbudget hcapacity.1,
    (min_le_right _ _).trans hcapacity.2.1,
    (min_le_right _ _).trans_lt hcapacity.2.2⟩

/-- A record is appended when the file operations succeed. -/
theorem persist_success (log : Option ReplayLog) (now : ℕ)
    (hworks : guard.logFailed = false) (fingerprint : Fingerprint) :
    ∃ afterLog,
      guard.persist log fingerprint now .success = (true, guard, afterLog) := by
  unfold persist
  rw [hworks]
  cases guard.logPath <;> simp [PersistIo.success]

theorem reserve_success (log : Option ReplayLog) (now : ℕ)
    (hworks : guard.logFailed = false) (fingerprint : Fingerprint) :
    ∃ afterLog, guard.reserve log fingerprint now .success =
      (.fresh, { guard with
        bloom := guard.bloom.insert fingerprint now
        total := satAdd u32Max guard.total 1 }, afterLog) := by
  obtain ⟨afterLog, hpersist⟩ :=
    persist_success log now hworks fingerprint
  exact ⟨afterLog, by rw [reserve, hpersist]⟩

/-- Without a working log no flight is accepted. -/
theorem answer_ne_fresh (hfailed : guard.logFailed = true) (flight : Flight) :
    (guard.answer log flight).1 ≠ .fresh := by
  have hspec : CallSpec guard log flight.fingerprint flight.now
      (guard.answer log flight) := by
    unfold answer
    cases flight.route with
    | live => exact admit_spec ..
    | rejected => exact claim_spec ..
  intro hfresh
  rw [(hspec.missed hfresh).1] at hfailed
  cases hfailed

section Missed

variable {fingerprint : Fingerprint} {keyId : KeyId}

@[simp]
theorem lookedAt_maxTotal (guard : ReplayGuard bytes) (now : ℕ) :
    (guard.lookedAt now).maxTotal = guard.maxTotal := by
  unfold lookedAt resetTotalIfRotated
  split <;> rfl

@[simp]
theorem lookedAt_maxPerKey (guard : ReplayGuard bytes) (now : ℕ) :
    (guard.lookedAt now).maxPerKey = guard.maxPerKey := by
  unfold lookedAt resetTotalIfRotated
  split <;> rfl

theorem countAt_eq (guard : ReplayGuard bytes) (keyId : KeyId) (now : ℕ) :
    guard.countAt keyId now =
      if now - guard.countsStartedAt < guard.windowSeconds then
        guard.counts keyId
      else 0 := by
  unfold countAt rotateCounts
  split <;> rfl

theorem lookedAt_countAt (guard : ReplayGuard bytes) (keyId : KeyId) (now : ℕ) :
    (guard.lookedAt now).countAt keyId now = guard.countAt keyId now := by
  rw [countAt_eq, countAt_eq]
  unfold lookedAt resetTotalIfRotated
  split <;> rfl

/-- The total belongs to the generation that a lookup leaves. -/
theorem lookedAt_startedAt (guard : ReplayGuard bytes) (now : ℕ) :
    (guard.lookedAt now).totalStartedAt =
      (guard.lookedAt now).bloom.currentStartedAt := by
  unfold lookedAt resetTotalIfRotated
  split
  · rfl
  · rename_i hsame
    exact (not_not.mp hsame).symm

theorem contains_missed
    (hmissed : (guard.bloom.contains fingerprint now).1 = false) :
    guard.bloom.contains fingerprint now = (false, guard.bloom.rotate now) :=
  Prod.ext hmissed rfl

theorem claim_missed
    (hmissed : (guard.bloom.contains fingerprint now).1 = false)
    (io : PersistIo) :
    guard.claim log fingerprint now io =
      if guard.maxTotal ≤ guard.totalAt now then
        (.unavailable, guard.lookedAt now, log)
      else (guard.lookedAt now).reserve log fingerprint now io := by
  rw [claim, contains_missed hmissed]
  dsimp only
  rw [← lookedAt, lookedAt_maxTotal, totalAt]

/-- What an admission reads of the guard after its rotations. -/
theorem lookedAt_rotateCounts (guard : ReplayGuard bytes) (keyId : KeyId)
    (now : ℕ) :
    ((guard.rotateCounts now).lookedAt now).maxPerKey = guard.maxPerKey ∧
      ((guard.rotateCounts now).lookedAt now).maxTotal = guard.maxTotal ∧
      ((guard.rotateCounts now).lookedAt now).counts keyId =
        guard.countAt keyId now ∧
      ((guard.rotateCounts now).lookedAt now).total = guard.totalAt now ∧
      ((guard.rotateCounts now).lookedAt now).logFailed = guard.logFailed := by
  unfold totalAt countAt lookedAt resetTotalIfRotated rotateCounts
  split <;> dsimp only <;> split <;> exact ⟨rfl, rfl, rfl, rfl, rfl⟩

theorem admitFresh_missed
    (hmissed : (guard.bloom.contains fingerprint now).1 = false)
    (hworks : guard.logFailed = false) :
    (guard.admitFresh log keyId fingerprint now .success .success).1 =
      if guard.maxPerKey ≤ guard.countAt keyId now ∨
        guard.maxTotal ≤ guard.totalAt now then .limited else .fresh := by
  obtain ⟨hbloom, -⟩ := rotateCounts_fields guard now
  obtain ⟨hperKey, hmaxTotal, hcount, htotal, hfailed⟩ :=
    lookedAt_rotateCounts guard keyId now
  have hcontains : ((guard.rotateCounts now).bloom.contains fingerprint
      now).1 = false := by
    rw [hbloom]
    exact hmissed
  rw [admitFresh]
  dsimp only
  rw [contains_missed hcontains]
  dsimp only
  rw [← lookedAt, hperKey, hmaxTotal, hcount, htotal]
  split
  · rfl
  · obtain ⟨afterLog, hreserve⟩ := reserve_success log now
      (hfailed.trans hworks) fingerprint
    rw [hreserve]
    dsimp only
    split <;> rfl

end Missed

/-! ## The invariant of a flood -/

/-- The guard works, the shared budget has been charged `bound` times at low
bits of the filter, and the budgets of the credentials not at all. -/
structure Filled (guard after : ReplayGuard bytes) (bound now : ℕ) : Prop where
  works : after.logFailed = false
  perKey : after.maxPerKey = guard.maxPerKey
  maxTotal : after.maxTotal = guard.maxTotal
  counts : ∀ keyId, after.countAt keyId now = guard.countAt keyId now
  total : after.totalAt now = bound
  bloom : (after.lookedAt now).bloom.Below bound now

theorem missed_of_below {after : ReplayGuard bytes}
    (hbelow : (after.lookedAt now).bloom.Below bound now)
    (hlimits : guard.HasLimits configured) (hroom : bound ≤ guard.maxTotal) :
    (after.bloom.contains (pointFingerprint bound) now).1 = false := by
  obtain ⟨-, -, hmax, hbits⟩ := hlimits.bounds
  have hbloom : (after.lookedAt now).bloom = after.bloom.rotate now :=
    (resetTotalIfRotated_fields _).1
  rw [hbloom] at hbelow
  exact hbelow.contains_eq_false (by unfold u32Max at hmax; omega) (by omega)

theorem Filled.claim {after : ReplayGuard bytes}
    (hfilled : Filled guard after bound now)
    (hlimits : guard.HasLimits configured) (hroom : bound < guard.maxTotal) :
    Filled guard (after.claim log (pointFingerprint bound) now .success).2.1
      (bound + 1) now := by
  obtain ⟨-, -, hmax, hbits⟩ := hlimits.bounds
  obtain ⟨-, -, -, hfailed⟩ :=
    resetTotalIfRotated_fields { after with bloom := after.bloom.rotate now }
  have hworks : (after.lookedAt now).logFailed = false :=
    hfailed.trans hfilled.works
  obtain ⟨afterLog, hreserve⟩ := reserve_success log now
    hworks (pointFingerprint bound)
  rw [claim_missed (missed_of_below hfilled.bloom hlimits hroom.le), hfilled.maxTotal,
    hfilled.total, if_neg (not_le.mpr hroom), hreserve]
  have hbelow := hfilled.bloom.insert (by unfold u32Max at hmax; omega)
    (by omega)
  have hstarted := lookedAt_startedAt after now
  rw [hfilled.bloom.startedAt] at hstarted
  have htotal : satAdd u32Max (after.lookedAt now).total 1 = bound + 1 := by
    rw [show (after.lookedAt now).total = bound from hfilled.total]
    exact satAdd_of_le (by omega)
  have hsame : ({ after.lookedAt now with
      bloom := (after.lookedAt now).bloom.insert (pointFingerprint bound) now
      total := satAdd u32Max (after.lookedAt now).total 1 } :
        ReplayGuard bytes).lookedAt now =
      { after.lookedAt now with
        bloom := ((after.lookedAt now).bloom.insert (pointFingerprint bound)
          now).rotate now
        total := satAdd u32Max (after.lookedAt now).total 1 } := by
    rw [lookedAt, resetTotalIfRotated, if_neg]
    rw [hbelow.rotate.startedAt, hstarted]
    exact not_not_intro rfl
  refine ⟨hworks, ?_, ?_, fun keyId => ?_, ?_, ?_⟩
  · exact (lookedAt_maxPerKey after now).trans hfilled.perKey
  · exact (lookedAt_maxTotal after now).trans hfilled.maxTotal
  · calc ({ after.lookedAt now with
            bloom :=
              (after.lookedAt now).bloom.insert (pointFingerprint bound) now
            total := satAdd u32Max (after.lookedAt now).total 1 } :
              ReplayGuard bytes).countAt keyId now
        = (after.lookedAt now).countAt keyId now := by
          rw [countAt_eq, countAt_eq]
      _ = after.countAt keyId now := lookedAt_countAt after keyId now
      _ = guard.countAt keyId now := hfilled.counts keyId
  · rw [totalAt, hsame]
    exact htotal
  · rw [hsame]
    exact hbelow.rotate

/-- Rejected flights of one credential, all at once. -/
def flood (first : KeyId) (now size : ℕ) : List Flight :=
  (List.range size).map fun value =>
    ⟨.rejected, first, pointFingerprint value, now⟩

theorem Filled.flood (log : Option ReplayLog) (first : KeyId) {size : ℕ}
    (hfilled : Filled guard guard 0 now)
    (hlimits : guard.HasLimits configured) (hsize : size ≤ guard.maxTotal) :
    Filled guard (guard.fly log (flood first now size)).1 size now := by
  induction size with
  | zero => exact hfilled
  | succ size ih =>
      have hsplit : guard.fly log (ReplayGuard.flood first now (size + 1)) =
          ((guard.fly log (ReplayGuard.flood first now size)).1.claim
            (guard.fly log (ReplayGuard.flood first now size)).2
            (pointFingerprint size) now .success).2 := by
        simp only [ReplayGuard.flood, fly, List.range_succ, List.map_append,
          List.foldl_append]
        rfl
      rw [hsplit]
      exact (ih (Nat.le_of_succ_le hsize)).claim hlimits hsize

/-- Late enough, everything has been forgotten. -/
theorem filled_zero (hworks : guard.logFailed = false)
    (hbloom : guard.bloom.currentStartedAt + 2 * guard.bloom.windowSeconds ≤ now)
    (htotal : guard.totalStartedAt < now) : Filled guard guard 0 now := by
  have hbelow := RotatingBloom.below_rotate hbloom
  have hlooked : guard.lookedAt now = { guard with
      bloom := guard.bloom.rotate now
      total := 0
      totalStartedAt := (guard.bloom.rotate now).currentStartedAt } := by
    rw [lookedAt, resetTotalIfRotated, if_pos]
    rw [hbelow.startedAt]
    exact htotal.ne'
  refine ⟨hworks, rfl, rfl, fun _ => rfl, ?_, ?_⟩
  · rw [totalAt, hlooked]
  · rw [hlooked]
    exact hbelow

/-! ## Whom the guard spares -/

/-- Whatever budget others use, the guard spares a credential from the flights
of another only while its log has failed, and then it accepts no flight. -/
theorem spares_iff_logFailed (hlimits : guard.HasLimits configured)
    (log : Option ReplayLog) (first other : KeyId) (little : ℕ) :
    guard.Spares log first other little ↔ guard.logFailed = true := by
  constructor
  · intro hspares
    by_contra hworks
    rw [Bool.not_eq_true] at hworks
    obtain ⟨hperKey, hmaxTotal, -, -⟩ := hlimits.bounds
    obtain ⟨now, hbloom, htotal, hcounts⟩ : ∃ now,
        guard.bloom.currentStartedAt + 2 * guard.bloom.windowSeconds ≤ now ∧
          guard.totalStartedAt < now ∧
            guard.countsStartedAt + guard.windowSeconds ≤ now :=
      ⟨guard.bloom.currentStartedAt + 2 * guard.bloom.windowSeconds +
        (guard.totalStartedAt + 1) +
          (guard.countsStartedAt + guard.windowSeconds),
        by omega, by omega, by omega⟩
    have hempty := filled_zero hworks hbloom htotal
    have hfull := hempty.flood log first hlimits le_rfl
    have hcount : guard.countAt other now = 0 := by
      rw [countAt, rotateCounts, if_neg (by omega)]
    have hcountAfter := hfull.counts other
    rw [hcount] at hcountAfter
    have hmissed := missed_of_below (hempty.bloom.mono (Nat.zero_le _)) hlimits
      le_rfl
    have hmissedAfter := missed_of_below hfull.bloom hlimits le_rfl
    have hspared := hspares (ReplayGuard.flood first now guard.maxTotal)
      ⟨.live, other, pointFingerprint guard.maxTotal, now⟩
      (fun earlier hmem => by
        obtain ⟨_, -, rfl⟩ := List.mem_map.mp hmem
        rfl)
      rfl ?_ (by rwa [hcountAfter]) ?_ ?_
    · refine hspared.1 ?_
      rw [answer]
      dsimp only
      rw [admitFresh_missed hmissedAfter hfull.works, if_pos]
      rw [hfull.total, hfull.maxTotal]
      exact .inr le_rfl
    · refine List.pairwise_of_forall_mem_list fun earlier hearlier later
        hlater => ?_
      have hnow : ∀ flight ∈ ReplayGuard.flood first now guard.maxTotal ++
          [⟨.live, other, pointFingerprint guard.maxTotal, now⟩],
          flight.now = now := by
        intro flight hmem
        rcases List.mem_append.mp hmem with hflood | hlast
        · obtain ⟨_, -, rfl⟩ := List.mem_map.mp hflood
          rfl
        · rw [List.mem_singleton.mp hlast]
      rw [hnow earlier hearlier, hnow later hlater]
    · exact (Nat.le_of_eq hempty.total).trans (Nat.zero_le little)
    · rw [answer]
      dsimp only
      rw [admitFresh_missed hmissed hworks, if_neg]
      rw [hcount, hempty.total, not_or, not_le, not_le]
      exact ⟨hperKey, hmaxTotal⟩
  · intro hfailed flights flight _ _ _ _ _ hfresh
    exact absurd hfresh (answer_ne_fresh hfailed flight)

/-- What `open` returns has its limits. -/
theorem open_hasLimits (bytes : ℕ+) (logPath : Option String) (window : ℕ)
    (configured : Option ℕ) (clock : OpenClock) (log : Option ReplayLog)
    (io : CompactIo) :
    («open» bytes logPath window configured clock log io).1.HasLimits
      configured := by
  have hwindow :=
    (open_fields bytes logPath window configured clock log io).1
  constructor
  · rw [hwindow]
    unfold «open» loadPersisted
    dsimp only
    repeat' split
    all_goals rfl
  · rw [hwindow]
    unfold «open» loadPersisted
    dsimp only
    repeat' split
    all_goals rfl

end ReplayGuard

/-! ## A guard with room for two flights -/

/-- Two credentials. -/
def tenants : KeyId × KeyId := (.fromU64 (2 ^ 32), .fromU64 (2 ^ 32 + 1))

/-- Two accepted flights of one of them leave no room for the other. -/
theorem not_spares_two_flights :
    ¬(ReplayWorld.fresh 4 600).guard.Spares (ReplayWorld.fresh 4 600).log
      tenants.1 tenants.2 0 := by
  intro hspares
  have hspared := hspares
    [⟨.live, tenants.1, pointFingerprint 0, 1⟩,
      ⟨.live, tenants.1, pointFingerprint 1, 1⟩]
    ⟨.live, tenants.2, pointFingerprint 2, 1⟩ (by simp) rfl (by simp)
    (by decide +kernel) (by decide +kernel) (by decide +kernel)
  revert hspared
  decide +kernel

theorem spares_iff_just_opened :
    (ReplayWorld.fresh 4 600).guard.Spares (ReplayWorld.fresh 4 600).log
        tenants.1 tenants.2 0 ↔
      (ReplayWorld.fresh 4 600).guard.logFailed = true :=
  ReplayGuard.spares_iff_logFailed
    (ReplayGuard.open_hasLimits 4 (some "connection.replay") 600 none ⟨0, 0, 0⟩
      none .success) _ _ _ _

end PbMapper.Protocol
