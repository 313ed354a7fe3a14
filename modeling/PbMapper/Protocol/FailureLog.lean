import PbMapper.Auth.Ids
import PbMapper.Foundation.MachineWord
import PbMapper.Foundation.Transition
import PbMapper.Foundation.WindowBudget

/-!
# Suppressed failure logs

Authentication failures are logged by address, key and reason, five in a minute,
and the repeats are counted.  Too many different failures share one bucket, so the
log is bounded whatever the peers of the relay present.
-/

namespace PbMapper.Protocol

open MachineWord WindowBudget
open Auth (KeyId)

/-! ## The limiter -/

inductive IpAddr where
  | v4 (octets : Fin (2 ^ 32))
  | v6 (octets : Fin (2 ^ 128))
deriving DecidableEq

structure FailureLogDecision where
  emit : Bool
  suppressed : ℕ

structure FailureLogEntry where
  windowStartedAt : ℕ
  emitted : ℕ
  suppressed : ℕ

def FailureLogEntry.new (now : ℕ) : FailureLogEntry := ⟨now, 0, 0⟩

abbrev FailureKey := IpAddr × KeyId × String

structure FailureLogLimiter where
  entries : Table FailureKey FailureLogEntry
  overflow : Option FailureLogEntry

def FailureLogLimiter.default : FailureLogLimiter := ⟨∅, none⟩

def recordFailureEntry (entry : FailureLogEntry) (now : ℕ) :
    FailureLogDecision × FailureLogEntry :=
  if 60 ≤ now - entry.windowStartedAt then (⟨true, entry.suppressed⟩, ⟨now, 1, 0⟩)
  else if entry.emitted < 5 then
    (⟨true, 0⟩, { entry with emitted := entry.emitted + 1 })
  else
    (⟨false, 0⟩, { entry with suppressed := satAdd u64Max entry.suppressed 1 })

/-- A failure that is not in a full table makes room for itself, or is counted with
the others that found none. -/
def FailureLogLimiter.record (limiter : FailureLogLimiter) (key : FailureKey)
    (now : ℕ) : FailureLogDecision × FailureLogLimiter :=
  let full :=
    (limiter.entries.lookup key).isNone && decide (4096 ≤ limiter.entries.size)
  let entries :=
    if full then
      limiter.entries.retain fun entry => decide (now - entry.windowStartedAt < 120)
    else limiter.entries
  if full && decide (4096 ≤ entries.size) then
    let recorded := recordFailureEntry (limiter.overflow.getD (.new now)) now
    (recorded.1, ⟨entries, some recorded.2⟩)
  else
    let recorded := recordFailureEntry ((entries.lookup key).getD (.new now)) now
    (recorded.1, ⟨entries.insert key recorded.2, limiter.overflow⟩)

/-! ## Runs -/

structure FailureReport where
  key : FailureKey
  now : ℕ

/-- A limiter with what it answered so far, and the time of the last failure. -/
structure FailureLog where
  limiter : FailureLogLimiter
  clock : ℕ
  answered : List (FailureReport × FailureLogDecision)

namespace FailureLog

def initial : FailureLog := ⟨.default, 0, []⟩

/-- A failure, whatever time the clock shows. -/
def step (log : FailureLog) (report : FailureReport) : Option FailureLog :=
  let recorded := log.limiter.record report.key report.now
  some ⟨recorded.2, report.now, log.answered ++ [(report, recorded.1)]⟩

/-- The clock does not go back. -/
def InOrder (log : FailureLog) (report : FailureReport) : Prop :=
  log.clock ≤ report.now

instance (log : FailureLog) (report : FailureReport) :
    Decidable (log.InOrder report) :=
  inferInstanceAs (Decidable (_ ≤ _))

end FailureLog

def failureLogSystem : Transition.System FailureLog FailureReport :=
  .ofPartial (· = .initial) FailureLog.step

/-! ## One failure -/

/-- What a failure does to the limiter: its bucket is the shared one, its own, or a
new one that has a place. -/
inductive Recorded (limiter : FailureLogLimiter) (key : FailureKey) (now : ℕ)
    (kept : Table FailureKey FailureLogEntry) :
    FailureLogEntry → FailureLogLimiter → Prop where
  | shared {entry : FailureLogEntry}
      (hnone : limiter.entries.lookup key = none) (hfull : 4096 ≤ kept.size)
      (hentry : limiter.overflow.getD (.new now) = entry) :
      Recorded limiter key now kept entry
        ⟨kept, some (recordFailureEntry entry now).2⟩
  | known {entry : FailureLogEntry} (hentry : kept.lookup key = some entry) :
      Recorded limiter key now kept entry
        ⟨kept.insert key (recordFailureEntry entry now).2, limiter.overflow⟩
  | fresh (hnone : kept.lookup key = none) (hroom : kept.size < 4096) :
      Recorded limiter key now kept (.new now)
        ⟨kept.insert key (recordFailureEntry (.new now) now).2, limiter.overflow⟩

variable {limiter : FailureLogLimiter} {key : FailureKey} {now : ℕ}

theorem record_cases (limiter : FailureLogLimiter) (key : FailureKey) (now : ℕ) :
    ∃ kept entry,
      (kept = limiter.entries ∨
        4096 ≤ limiter.entries.size ∧ limiter.entries.lookup key = none ∧
          kept = limiter.entries.retain
            fun entry => decide (now - entry.windowStartedAt < 120)) ∧
      (limiter.record key now).1 = (recordFailureEntry entry now).1 ∧
      Recorded limiter key now kept entry (limiter.record key now).2 := by
  rw [FailureLogLimiter.record]
  cases hlookup : limiter.entries.lookup key with
  | some entry =>
      simp only [Option.isNone_some, Bool.false_and, Bool.false_eq_true, if_false,
        hlookup, Option.getD_some]
      exact ⟨limiter.entries, entry, .inl rfl, rfl, .known hlookup⟩
  | none =>
      by_cases hfull : 4096 ≤ limiter.entries.size
      · generalize hkept : (limiter.entries.retain fun entry =>
          decide (now - entry.windowStartedAt < 120)) = kept
        have hnone : kept.lookup key = none := by
          cases hfound : kept.lookup key with
          | none => rfl
          | some entry =>
              rw [← hkept] at hfound
              cases hlookup.symm.trans (Table.lookup_of_mem_retain hfound).1
        simp only [Option.isNone_none, Bool.true_and, hfull, decide_true, if_true,
          hnone, Option.getD_none]
        by_cases hcrowded : 4096 ≤ kept.size
        · simp only [hcrowded, decide_true, if_true]
          exact ⟨kept, _, .inr ⟨trivial, trivial, rfl⟩, rfl,
            .shared hlookup hcrowded rfl⟩
        · simp only [hcrowded, decide_false, Bool.false_eq_true, if_false]
          exact ⟨kept, _, .inr ⟨trivial, trivial, rfl⟩, rfl,
            .fresh hnone (not_le.mp hcrowded)⟩
      · simp only [Option.isNone_none, Bool.true_and, hfull, decide_false,
          Bool.false_eq_true, if_false, hlookup, Option.getD_none]
        exact ⟨limiter.entries, _, .inl rfl, rfl, .fresh hlookup (not_le.mp hfull)⟩

/-! ## What is logged -/

namespace FailureLogEntry

variable {entry : FailureLogEntry} {origin : ℕ}

/-- The window began, and has not logged more than it may. -/
structure Fits (entry : FailureLogEntry) (now : ℕ) : Prop where
  started : entry.windowStartedAt ≤ now
  emitted : entry.emitted ≤ 5

theorem Fits.mono {later : ℕ} (hfits : entry.Fits now) (hlater : now ≤ later) :
    entry.Fits later :=
  ⟨hfits.started.trans hlater, hfits.emitted⟩

theorem fits_new (now : ℕ) : (new now).Fits now := ⟨le_rfl, Nat.zero_le 5⟩

theorem Fits.recorded (hfits : entry.Fits now) :
    (recordFailureEntry entry now).2.Fits now := by
  rw [recordFailureEntry]
  split
  · exact ⟨le_rfl, by simp⟩
  · split
    · rename_i hroom
      exact ⟨hfits.started, hroom⟩
    · exact ⟨hfits.started, hfits.emitted⟩

/-- What the windows of a bucket since `origin` may have logged. -/
def charge (origin : ℕ) (entry : FailureLogEntry) : ℕ :=
  WindowBudget.charge 60 5 origin entry.windowStartedAt entry.emitted

theorem Fits.charge_recorded (hfits : entry.Fits now) (horigin : origin ≤ now) :
    entry.charge origin + (recordFailureEntry entry now).1.emit.toNat ≤
      (recordFailureEntry entry now).2.charge origin := by
  rw [recordFailureEntry]
  split
  · rename_i hold
    have hage : entry.windowStartedAt + 60 ≤ now := by
      have hstarted := hfits.started
      omega
    exact Nat.succ_le_succ (charge_le_share (by decide) horigin hage hfits.emitted)
  · split
    · exact le_rfl
    · exact le_rfl

end FailureLogEntry

namespace FailureLogLimiter

/-- All buckets fit, and the table is not larger than it may be. -/
structure Fits (limiter : FailureLogLimiter) (now : ℕ) : Prop where
  size : limiter.entries.size ≤ 4096
  entries : ∀ key entry, limiter.entries.lookup key = some entry → entry.Fits now
  overflow : ∀ entry, limiter.overflow = some entry → entry.Fits now

/-- What all buckets may have logged since `origin`. -/
def potential (limiter : FailureLogLimiter) (origin now : ℕ) : ℕ :=
  limiter.entries.pool 4096 (share 60 5 origin now) (FailureLogEntry.charge origin) +
    limiter.overflow.elim (share 60 5 origin now) (FailureLogEntry.charge origin)

theorem Fits.potential_le {origin : ℕ} (hfits : limiter.Fits now) :
    limiter.potential origin now ≤ 4097 * (share 60 5 origin now + 5) := by
  have hcharge : ∀ entry : FailureLogEntry, entry.Fits now →
      entry.charge origin ≤ share 60 5 origin now + 5 :=
    fun entry hentry => charge_le hentry.started hentry.emitted
  have hpool :
      limiter.entries.pool 4096 (share 60 5 origin now)
          (FailureLogEntry.charge origin) ≤
        4096 * (share 60 5 origin now + 5) :=
    Table.pool_le hfits.size (Nat.le_add_right _ _)
      fun entry hentry => hcharge entry.2
        (hfits.entries entry.1 entry.2 ((Table.mem_entries_iff _).mp hentry))
  have hoverflow :
      limiter.overflow.elim (share 60 5 origin now)
          (FailureLogEntry.charge origin) ≤
        share 60 5 origin now + 5 := by
    cases hfound : limiter.overflow with
    | none => exact Nat.le_add_right _ _
    | some entry => exact hcharge entry (hfits.overflow entry hfound)
  rw [potential]
  omega

theorem Fits.mono {later : ℕ} (hfits : limiter.Fits now) (hlater : now ≤ later) :
    limiter.Fits later :=
  ⟨hfits.size, fun key entry hentry => (hfits.entries key entry hentry).mono hlater,
    fun entry hentry => (hfits.overflow entry hentry).mono hlater⟩

theorem potential_mono {origin later : ℕ} (hlater : now ≤ later) :
    limiter.potential origin now ≤ limiter.potential origin later := by
  apply Nat.add_le_add (Table.pool_mono (share_mono hlater))
  cases limiter.overflow with
  | none => exact share_mono hlater
  | some entry => exact le_rfl

theorem Fits.shared (hfits : limiter.Fits now) :
    (limiter.overflow.getD (.new now)).Fits now := by
  cases hfound : limiter.overflow with
  | none => exact FailureLogEntry.fits_new now
  | some entry => exact hfits.overflow entry hfound

/-- The table a failure finds, once old entries are dropped. -/
theorem Fits.kept (hfits : limiter.Fits now)
    {kept : Table FailureKey FailureLogEntry}
    (hkept : kept = limiter.entries ∨
      4096 ≤ limiter.entries.size ∧ limiter.entries.lookup key = none ∧
        kept = limiter.entries.retain
          fun entry => decide (now - entry.windowStartedAt < 120)) {origin : ℕ}
    (horigin : origin ≤ now) :
    kept.size ≤ 4096 ∧
      (∀ key entry, kept.lookup key = some entry → entry.Fits now) ∧
        limiter.entries.pool 4096 (share 60 5 origin now)
            (FailureLogEntry.charge origin) ≤
          kept.pool 4096 (share 60 5 origin now) (FailureLogEntry.charge origin) := by
  rcases hkept with rfl | ⟨-, -, rfl⟩
  · exact ⟨hfits.size, hfits.entries, le_rfl⟩
  · refine ⟨(Table.size_retain_le _).trans hfits.size, ?_, ?_⟩
    · exact fun key entry hentry =>
        hfits.entries key entry (Table.lookup_of_mem_retain hentry).1
    · apply Table.pool_le_retain hfits.size
      intro entry hentry hold
      have hentryFits :=
        hfits.entries entry.1 entry.2 ((Table.mem_entries_iff _).mp hentry)
      rw [decide_eq_false_iff_not] at hold
      apply charge_le_share (by decide) horigin _ hentryFits.emitted
      have hstarted := hentryFits.started
      omega

/-- A failure keeps the buckets in order, and what it logs is paid for. -/
theorem Fits.record (hfits : limiter.Fits now) (key : FailureKey) {origin : ℕ}
    (horigin : origin ≤ now) :
    (limiter.record key now).2.Fits now ∧
      limiter.potential origin now + (limiter.record key now).1.emit.toNat ≤
        (limiter.record key now).2.potential origin now := by
  obtain ⟨kept, entry, hkept, hdecision, hrecorded⟩ := record_cases limiter key now
  obtain ⟨hsize, hentries, hpool⟩ := hfits.kept hkept horigin
  have hinserted : ∀ updated : FailureLogEntry, updated.Fits now → ∀ other found,
      (kept.insert key updated).lookup other = some found → found.Fits now := by
    intro updated hupdated other found hfound
    rw [Table.lookup_insert] at hfound
    split at hfound
    · cases hfound
      exact hupdated
    · exact hentries other found hfound
  rw [hdecision]
  generalize (limiter.record key now).2 = next at hrecorded ⊢
  cases hrecorded with
  | shared hnone hfull hentry =>
      have hshared := hfits.shared
      rw [hentry] at hshared
      have hpaid := hshared.charge_recorded horigin
      have hbefore :
          limiter.overflow.elim (share 60 5 origin now)
              (FailureLogEntry.charge origin) =
            entry.charge origin := by
        rw [← hentry]
        cases limiter.overflow with
        | none => rfl
        | some found => rfl
      constructor
      · apply Fits.mk hsize hentries
        intro found hfound
        cases hfound
        exact hshared.recorded
      · rw [potential, potential, hbefore]
        change _ ≤ kept.pool 4096 (share 60 5 origin now)
            (FailureLogEntry.charge origin) +
          (recordFailureEntry entry now).2.charge origin
        omega
  | known hentry =>
      have hknown := hentries key entry hentry
      have hpaid :
          kept.pool 4096 (share 60 5 origin now) (FailureLogEntry.charge origin) +
              (recordFailureEntry entry now).1.emit.toNat ≤
            Table.pool (kept.insert key (recordFailureEntry entry now).2) 4096
              (share 60 5 origin now) (FailureLogEntry.charge origin) :=
        Table.pool_insert_known hentry (hknown.charge_recorded horigin)
      constructor
      · refine ⟨?_, hinserted _ hknown.recorded, hfits.overflow⟩
        rw [Table.size_insert_of_lookup hentry]
        exact hsize
      · rw [potential, potential]
        change _ ≤ Table.pool (kept.insert key _) 4096 _ _ +
          limiter.overflow.elim _ _
        omega
  | fresh hnone hroom =>
      have hnew := FailureLogEntry.fits_new now
      have hpaid : kept.pool 4096 (share 60 5 origin now)
          (FailureLogEntry.charge origin) +
            (recordFailureEntry (.new now) now).1.emit.toNat ≤
              Table.pool (kept.insert key (recordFailureEntry (.new now) now).2) 4096
                (share 60 5 origin now) (FailureLogEntry.charge origin) :=
        Table.pool_insert_fresh hnone hroom (hnew.charge_recorded horigin)
      constructor
      · refine ⟨?_, hinserted _ hnew.recorded, hfits.overflow⟩
        rw [Table.size_insert_of_lookup_eq_none hnone]
        exact hroom
      · rw [potential, potential]
        change _ ≤ Table.pool (kept.insert key _) 4096 _ _ +
          limiter.overflow.elim _ _
        omega

end FailureLogLimiter

namespace FailureLog

variable {log next : FailureLog} {report : FailureReport} {origin : ℕ}

/-- What was logged since `origin`. -/
def emittedSince (log : FailureLog) (origin : ℕ) : ℕ :=
  log.answered.countP fun answer => answer.2.emit && decide (origin ≤ answer.1.now)

structure Measured (log : FailureLog) (origin : ℕ) : Prop where
  fits : log.limiter.Fits log.clock
  past : ∀ answer ∈ log.answered, answer.1.now ≤ log.clock
  bounded : log.emittedSince origin ≤ log.limiter.potential origin log.clock

theorem measured_initial (origin : ℕ) : initial.Measured origin := by
  refine ⟨⟨Nat.zero_le _, ?_, ?_⟩, ?_, Nat.zero_le _⟩
  · intro key entry hentry
    cases hentry
  · intro entry hentry
    cases hentry
  · exact fun answer hanswer => absurd hanswer List.not_mem_nil

theorem Measured.step (hmeasured : log.Measured origin)
    (hclock : log.InOrder report) (hstep : log.step report = some next) :
    next.Measured origin := by
  obtain rfl := Option.some.inj hstep
  have hpast : ∀ answer ∈ log.answered ++
      [(report, (log.limiter.record report.key report.now).1)],
        answer.1.now ≤ report.now := by
    intro answer hanswer
    rcases List.mem_append.mp hanswer with hbefore | hlast
    · exact (hmeasured.past answer hbefore).trans hclock
    · rw [List.mem_singleton.mp hlast]
  have hfits := hmeasured.fits.mono hclock
  by_cases horigin : origin ≤ report.now
  · obtain ⟨hkept, hpaid⟩ := hfits.record report.key horigin
    refine ⟨hkept, hpast, ?_⟩
    have hcounted : emittedSince ⟨(log.limiter.record report.key report.now).2,
        report.now, log.answered ++
          [(report, (log.limiter.record report.key report.now).1)]⟩ origin =
        log.emittedSince origin +
          (log.limiter.record report.key report.now).1.emit.toNat := by
      rw [emittedSince, List.countP_append, List.countP_singleton]
      cases (log.limiter.record report.key report.now).1.emit with
      | true => simp [horigin, emittedSince]
      | false => simp [emittedSince]
    rw [hcounted]
    calc log.emittedSince origin +
            (log.limiter.record report.key report.now).1.emit.toNat
        ≤ log.limiter.potential origin log.clock +
            (log.limiter.record report.key report.now).1.emit.toNat :=
          Nat.add_le_add_right hmeasured.bounded _
      _ ≤ log.limiter.potential origin report.now +
            (log.limiter.record report.key report.now).1.emit.toNat :=
          Nat.add_le_add_right (FailureLogLimiter.potential_mono hclock) _
      _ ≤ _ := hpaid
  · refine ⟨(hfits.record report.key le_rfl).1, hpast, ?_⟩
    have hnone : emittedSince ⟨(log.limiter.record report.key report.now).2,
        report.now, log.answered ++
          [(report, (log.limiter.record report.key report.now).1)]⟩ origin = 0 := by
      rw [emittedSince, List.countP_eq_zero]
      intro answer hanswer
      have hbefore := hpast answer hanswer
      simp only [Bool.and_eq_true, decide_eq_true_eq, not_and]
      omega
    rw [hnone]
    exact Nat.zero_le _

/-- Whatever the peers present, with a clock that does not go back the table of
failures keeps its bound, and what was logged since `origin` fits into the minutes
that passed, for each of the buckets. -/
theorem emitted_le_of_reachable
    (hreachable : (failureLogSystem.restrict InOrder).Reachable log)
    (horigin : origin ≤ log.clock) :
    log.limiter.entries.size ≤ 4096 ∧
      log.emittedSince origin ≤ 4097 * (5 * ((log.clock - origin) / 60 + 2)) := by
  have hmeasured : log.Measured origin := by
    refine hreachable.invariant (motive := (·.Measured origin)) ?_ ?_
    · rintro start rfl
      exact measured_initial origin
    · exact fun _ _ _ hbefore hstep => hbefore.step hstep.1 hstep.2
  apply And.intro hmeasured.fits.size
  have hminutes : (log.clock + 60 - origin) / 60 = (log.clock - origin) / 60 + 1 := by
    omega
  calc log.emittedSince origin
      ≤ log.limiter.potential origin log.clock := hmeasured.bounded
    _ ≤ 4097 * (share 60 5 origin log.clock + 5) := hmeasured.fits.potential_le
    _ = 4097 * (5 * ((log.clock - origin) / 60 + 2)) := by
        rw [share, hminutes]
        omega

/-- Seven failures of one kind in a second, and one more when a minute is over. -/
theorem emitted_le_of_repeats : ∃ log,
    (List.replicate 7 (FailureReport.mk (.v4 1, Auth.adminKeyId, "key") 100) ++
      [FailureReport.mk (.v4 1, Auth.adminKeyId, "key") 160]).foldlM
        (Transition.System.checked InOrder FailureLog.step) .initial = some log ∧
      log.emittedSince 100 = 6 ∧
      log.emittedSince 100 ≤ 4097 * (5 * ((log.clock - 100) / 60 + 2)) := by
  have hrun : ((List.replicate 7
      (FailureReport.mk (.v4 1, Auth.adminKeyId, "key") 100) ++
        [FailureReport.mk (.v4 1, Auth.adminKeyId, "key") 160]).foldlM
          (Transition.System.checked InOrder FailureLog.step) .initial).map
        (fun log => (log.emittedSince 100, log.clock)) = some (6, 160) := by
    decide +kernel
  obtain ⟨log, hfold, hread⟩ := Option.map_eq_some_iff.mp hrun
  obtain ⟨hemitted, hclock⟩ := Prod.mk.inj hread
  have hreachable : (failureLogSystem.restrict InOrder).Reachable log :=
    Transition.System.reachable_of_foldlM Transition.System.checked_sound rfl hfold
  have horigin : 100 ≤ log.clock := by
    rw [hclock]
    decide
  exact ⟨log, hfold, hemitted, (emitted_le_of_reachable hreachable horigin).2⟩

end FailureLog

/-! ## What is counted -/

namespace FailureLogLimiter

/-- The failures that were suppressed and not reported yet. -/
def pending (limiter : FailureLogLimiter) : ℕ :=
  limiter.entries.total FailureLogEntry.suppressed +
    limiter.overflow.elim 0 FailureLogEntry.suppressed

theorem recordFailureEntry_accounts (entry : FailureLogEntry) (now : ℕ) :
    (recordFailureEntry entry now).1.emit.toNat +
        (recordFailureEntry entry now).1.suppressed +
          (recordFailureEntry entry now).2.suppressed ≤ entry.suppressed + 1 ∧
      (entry.suppressed < u64Max → (recordFailureEntry entry now).1.emit.toNat +
        (recordFailureEntry entry now).1.suppressed +
          (recordFailureEntry entry now).2.suppressed = entry.suppressed + 1) := by
  rw [recordFailureEntry]
  split
  · simp only [Bool.toNat_true]
    omega
  · split
    · simp only [Bool.toNat_true]
      omega
    · simp only [Bool.toNat_false, satAdd]
      omega

theorem suppressed_le_pending {entry : FailureLogEntry}
    (hentry : limiter.entries.lookup key = some entry) :
    entry.suppressed ≤ limiter.pending := by
  have htotal : Table.total (limiter.entries.insert key (.new 0))
      FailureLogEntry.suppressed + entry.suppressed =
        limiter.entries.total FailureLogEntry.suppressed + 0 :=
    Table.total_insert_of_lookup hentry
  rw [pending]
  omega

/-- A failure is logged, reported or pending, if the table has a place for it.  In
any case no failure is reported that was not recorded. -/
theorem pending_record (limiter : FailureLogLimiter) (key : FailureKey) (now : ℕ) :
    (limiter.record key now).2.pending + (limiter.record key now).1.emit.toNat +
        (limiter.record key now).1.suppressed ≤ limiter.pending + 1 ∧
      (limiter.entries.lookup key ≠ none ∨ limiter.entries.size < 4096 →
        limiter.pending < u64Max →
          (limiter.record key now).2.pending + (limiter.record key now).1.emit.toNat +
            (limiter.record key now).1.suppressed = limiter.pending + 1) := by
  obtain ⟨kept, entry, hkept, hdecision, hrecorded⟩ := record_cases limiter key now
  obtain ⟨hatMost, hexactly⟩ := recordFailureEntry_accounts entry now
  have hplace : limiter.entries.lookup key ≠ none ∨ limiter.entries.size < 4096 →
      kept = limiter.entries := by
    intro hroom
    rcases hkept with hsame | ⟨hfull, hnone, -⟩
    · exact hsame
    · exact absurd hnone (hroom.resolve_right (not_lt.mpr hfull))
  have hdropped : kept.total FailureLogEntry.suppressed ≤
      limiter.entries.total FailureLogEntry.suppressed := by
    rcases hkept with rfl | ⟨-, -, rfl⟩
    · exact le_rfl
    · exact Table.total_retain_le _
  rw [hdecision]
  generalize (limiter.record key now).2 = next at hrecorded ⊢
  cases hrecorded with
  | shared hnone hfull hentry =>
      have hshared : limiter.overflow.elim 0 FailureLogEntry.suppressed =
          entry.suppressed := by
        rw [← hentry]
        cases limiter.overflow with
        | none => rfl
        | some found => rfl
      simp only [pending, Option.elim_some, hshared]
      apply And.intro (by omega)
      intro hroom
      have hsame := hplace hroom
      rw [hsame] at hfull
      exact absurd hnone (hroom.resolve_right (not_lt.mpr hfull))
  | known hentry =>
      have htotal : Table.total (kept.insert key (recordFailureEntry entry now).2)
          FailureLogEntry.suppressed + entry.suppressed =
            kept.total FailureLogEntry.suppressed +
              (recordFailureEntry entry now).2.suppressed :=
        Table.total_insert_of_lookup hentry
      simp only [pending]
      apply And.intro (by omega)
      intro hroom hbelow
      have hsame := hplace hroom
      rw [hsame] at hentry htotal ⊢
      have hsuppressed := suppressed_le_pending hentry
      have hexact := hexactly (hsuppressed.trans_lt hbelow)
      omega
  | fresh hnone =>
      have htotal :
          Table.total (kept.insert key (recordFailureEntry (.new now) now).2)
              FailureLogEntry.suppressed =
            (recordFailureEntry (.new now) now).2.suppressed +
              kept.total FailureLogEntry.suppressed :=
        Table.total_insert_of_lookup_eq_none hnone
      have hnew : (FailureLogEntry.new now).suppressed = 0 := rfl
      simp only [pending]
      apply And.intro (by omega)
      intro hroom hbelow
      have hsame := hplace hroom
      rw [hsame] at htotal ⊢
      have hexact := hexactly (hnew.trans_lt (by decide))
      omega

/-- A failure leaves a bucket of its own, or the keys as they were. -/
theorem lookup_record {other : FailureKey}
    (hlookup : (limiter.record key now).2.entries.lookup other ≠ none) :
    other = key ∨ limiter.entries.lookup other ≠ none := by
  obtain ⟨kept, entry, hkept, -, hrecorded⟩ := record_cases limiter key now
  have hbefore : kept.lookup other ≠ none → limiter.entries.lookup other ≠ none := by
    rcases hkept with rfl | ⟨-, -, rfl⟩
    · exact id
    · intro hfound
      obtain ⟨found, hlookup⟩ := Option.ne_none_iff_exists'.mp hfound
      rw [(Table.lookup_of_mem_retain hlookup).1]
      exact Option.some_ne_none found
  generalize (limiter.record key now).2 = next at hrecorded hlookup
  cases hrecorded with
  | shared => exact .inr (hbefore hlookup)
  | known | fresh =>
      rw [Table.lookup_insert] at hlookup
      split at hlookup
      · exact .inl (by assumption)
      · exact .inr (hbefore hlookup)

end FailureLogLimiter

namespace FailureLog

variable {log next : FailureLog} {report : FailureReport}

/-- The different failures so far. -/
def keys (log : FailureLog) : Finset FailureKey :=
  (log.answered.map (·.1.key)).toFinset

/-- The failures that were logged, reported as suppressed, or are pending. -/
def accounted (log : FailureLog) : ℕ :=
  log.answered.countP (·.2.emit) + (log.answered.map (·.2.suppressed)).sum +
    log.limiter.pending

structure Accounts (log : FailureLog) : Prop where
  known : ∀ key, log.limiter.entries.lookup key ≠ none → key ∈ log.keys
  atMost : log.accounted ≤ log.answered.length
  exactly : log.keys.card ≤ 4096 → log.answered.length ≤ u64Max →
    log.accounted = log.answered.length

theorem Accounts.step (haccounts : log.Accounts)
    (hstep : log.step report = some next) :
    next.Accounts := by
  obtain rfl := Option.some.inj hstep
  obtain ⟨hatMost, hexactly⟩ := log.limiter.pending_record report.key report.now
  generalize hrecorded : log.limiter.record report.key report.now = recorded
    at hatMost hexactly
  have hkeys : keys ⟨recorded.2, report.now, log.answered ++ [(report, recorded.1)]⟩ =
      insert report.key log.keys := by
    ext key
    simp [keys]
  have haccounted :
      accounted ⟨recorded.2, report.now, log.answered ++ [(report, recorded.1)]⟩ +
        log.limiter.pending =
      log.accounted + (recorded.2.pending + recorded.1.emit.toNat +
        recorded.1.suppressed) := by
    simp only [accounted, List.countP_append, List.countP_singleton, List.map_append,
      List.map_singleton, List.sum_append, List.sum_singleton]
    cases recorded.1.emit with
    | true =>
        simp only [if_true, Bool.toNat_true]
        omega
    | false =>
        simp only [Bool.false_eq_true, if_false, Bool.toNat_false]
        omega
  have hlength : (log.answered ++ [(report, recorded.1)]).length =
      log.answered.length + 1 := List.length_append
  constructor
  · intro key hlookup
    rw [hkeys, Finset.mem_insert]
    change recorded.2.entries.lookup key ≠ none at hlookup
    rw [← hrecorded] at hlookup
    exact (FailureLogLimiter.lookup_record hlookup).imp_right (haccounts.known key)
  · have hbefore := haccounts.atMost
    change accounted _ ≤ (log.answered ++ [(report, recorded.1)]).length
    omega
  · intro hcard hcount
    change accounted _ = (log.answered ++ [(report, recorded.1)]).length
    change (log.answered ++ [(report, recorded.1)]).length ≤ u64Max at hcount
    rw [hkeys] at hcard
    have hfewer : log.keys.card ≤ 4096 :=
      (Finset.card_le_card (Finset.subset_insert _ _)).trans hcard
    have hbefore := haccounts.exactly hfewer (by omega)
    have hplace : log.limiter.entries.lookup report.key ≠ none ∨
        log.limiter.entries.size < 4096 := by
      by_contra hnot
      rw [not_or, not_not, not_lt] at hnot
      have hless := Table.size_lt_card
        (fun other hother => Finset.mem_insert_of_mem (haccounts.known other hother))
        hnot.1 (Finset.mem_insert_self report.key log.keys)
      omega
    have hbelow : log.limiter.pending < u64Max := by
      have hpart : log.limiter.pending ≤ log.accounted := Nat.le_add_left _ _
      omega
    have hexact := hexactly hplace hbelow
    omega

/-- Whatever the clock shows, no failure is reported that did not happen, and while
not more than 4096 different failures were recorded every one of them is logged,
reported as suppressed or still pending. -/
theorem accounted_of_reachable (hreachable : failureLogSystem.Reachable log) :
    log.accounted ≤ log.answered.length ∧
      (log.keys.card ≤ 4096 → log.answered.length ≤ u64Max →
        log.accounted = log.answered.length) := by
  have haccounts : log.Accounts := by
    refine hreachable.invariant (motive := Accounts) ?_ ?_
    · rintro start rfl
      refine ⟨fun key hlookup => ?_, le_rfl, fun _ _ => rfl⟩
      exact absurd rfl hlookup
    · exact fun _ _ _ hbefore hstep => hbefore.step hstep
  exact ⟨haccounts.atMost, haccounts.exactly⟩

/-- Of seven failures in a second two are suppressed, a third one when the clock
steps back, and all three are reported a minute later. -/
theorem accounted_of_repeats : ∃ log,
    (List.replicate 7 (FailureReport.mk (.v4 1, Auth.adminKeyId, "key") 100) ++
      [FailureReport.mk (.v4 1, Auth.adminKeyId, "key") 40,
        FailureReport.mk (.v4 1, Auth.adminKeyId, "key") 160]).foldlM
          FailureLog.step .initial = some log ∧
      (log.answered.map (·.2.suppressed)).sum = 3 ∧ log.accounted = 9 := by
  have hrun : ((List.replicate 7
      (FailureReport.mk (.v4 1, Auth.adminKeyId, "key") 100) ++
        [FailureReport.mk (.v4 1, Auth.adminKeyId, "key") 40,
          FailureReport.mk (.v4 1, Auth.adminKeyId, "key") 160]).foldlM
            FailureLog.step .initial).map
        (fun log => ((log.answered.map (·.2.suppressed)).sum, log.keys.card,
          log.answered.length)) = some (3, 1, 9) := by
    decide +kernel
  obtain ⟨log, hfold, hread⟩ := Option.map_eq_some_iff.mp hrun
  obtain ⟨hsuppressed, hcounts⟩ := Prod.mk.inj hread
  obtain ⟨hcard, hlength⟩ := Prod.mk.inj hcounts
  have hreachable : failureLogSystem.Reachable log :=
    Transition.System.reachable_of_foldlM (fun _ _ _ => id) rfl hfold
  have hexactly := (accounted_of_reachable hreachable).2
  rw [hcard, hlength] at hexactly
  exact ⟨log, hfold, hsuppressed, hexactly (by decide) (by decide)⟩

end FailureLog

end PbMapper.Protocol
