import PbMapper.Auth.Ids
import PbMapper.Foundation.BigEndian
import PbMapper.Foundation.BloomFilter
import PbMapper.Foundation.MachineWord
import PbMapper.Foundation.RotatingWindow
import Mathlib.Data.PNat.Basic
import Mathlib.Data.List.MinMax

/-!
# Duplicate admission guard

The process-local guard against duplicate first flights: a two-generation Bloom
filter over connection fingerprints, per-credential and global insertion
budgets, and the durable log that a restarted process reloads.  File operations
take their outcome as an argument; the log is its complete records together
with a flag for a truncated one at its end.
-/

namespace PbMapper.Protocol

open Auth BigEndian MachineWord

/-! ## Fingerprints and filters -/

/-- SHA-256 of a key id and a connection salt. -/
abbrev Fingerprint := Vector UInt8 32

def bloomPositions (bytes : ℕ+) (fingerprint : Fingerprint) :
    List (Fin (bytes * 8)) :=
  (List.range 4).map fun index =>
    ⟨fromBeBytes ((fingerprint.toList.drop (index * 8)).take 8) % (bytes * 8),
      Nat.mod_lt _ (Nat.mul_pos bytes.pos (by decide))⟩

structure RotatingBloom (bytes : ℕ+) where
  current : BloomFilter.Filter (bytes * 8)
  previous : BloomFilter.Filter (bytes * 8)
  currentStartedAt : ℕ
  windowSeconds : ℕ

namespace RotatingBloom

variable {bytes : ℕ+}

def new (bytes : ℕ+) (windowSeconds unixSeconds : ℕ) : RotatingBloom bytes where
  current := BloomFilter.empty _
  previous := BloomFilter.empty _
  currentStartedAt := unixSeconds
  windowSeconds := windowSeconds

def rotate (bloom : RotatingBloom bytes) (now : ℕ) : RotatingBloom bytes :=
  let elapsed := now - bloom.currentStartedAt
  if elapsed < bloom.windowSeconds then bloom
  else if satMul u64Max bloom.windowSeconds 2 ≤ elapsed then
    { bloom with
      current := BloomFilter.empty _
      previous := BloomFilter.empty _
      currentStartedAt := now }
  else
    { bloom with
      current := BloomFilter.empty _
      previous := bloom.current
      currentStartedAt := now }

/-- The lookup, and the filter as the rotation of the access leaves it. -/
def contains (bloom : RotatingBloom bytes) (fingerprint : Fingerprint)
    (now : ℕ) : Bool × RotatingBloom bytes :=
  let bloom := bloom.rotate now
  let positions := bloomPositions bytes fingerprint
  (BloomFilter.contains bloom.current positions ||
    BloomFilter.contains bloom.previous positions, bloom)

def insert (bloom : RotatingBloom bytes) (fingerprint : Fingerprint)
    (now : ℕ) : RotatingBloom bytes :=
  let bloom := bloom.rotate now
  { bloom with
    current :=
      BloomFilter.insert bloom.current (bloomPositions bytes fingerprint) }

end RotatingBloom

/-! ## The durable log -/

structure ReplayRecord where
  fingerprint : Fingerprint
  timestamp : ℕ
deriving DecidableEq

/-- The log file: its complete records, and whether a truncated one follows. -/
structure ReplayLog where
  records : List ReplayRecord
  torn : Bool

namespace ReplayLog

def empty : ReplayLog := ⟨[], false⟩

def append (log : ReplayLog) (record : ReplayRecord) : ReplayLog :=
  { log with records := log.records ++ [record] }

/-- `read_complete_replay_records`: a truncated record is an error. -/
def readCompleteReplayRecords (log : ReplayLog) : Option (List ReplayRecord) :=
  if log.torn then none else some log.records

theorem readCompleteReplayRecords_eq_some_iff {log : ReplayLog}
    {records : List ReplayRecord} :
    log.readCompleteReplayRecords = some records ↔
      log.torn = false ∧ log.records = records := by
  unfold readCompleteReplayRecords
  cases log.torn <;> simp

end ReplayLog

/-- What stays in the log when a failed append could not be rolled back. -/
inductive Leftover where
  | nothing
  | torn
  | whole

def ReplayLog.leave (log : ReplayLog) (record : ReplayRecord) :
    Leftover → ReplayLog
  | .nothing => log
  | .torn => { log with torn := true }
  | .whole => log.append record

/-- Outcomes of the file operations of one `persist`, in their order. -/
structure PersistIo where
  opened : Bool
  /-- Whether a failed open has created the empty file. -/
  createdEmpty : Bool
  appended : Bool
  rolledBack : Bool
  leftover : Leftover
  parentSynced : Bool

/-- Outcome of `rewrite_live`: it fails with the old log in place, it fails
after the replacement, or it succeeds. -/
inductive RewriteIo where
  | kept
  | replacedUnsynced
  | replaced
deriving DecidableEq

structure CompactIo where
  readable : Bool
  rewrite : RewriteIo

/-- The log is read and rewritten without a failure that latches the guard. -/
def CompactIo.Loads (io : CompactIo) : Prop :=
  io.readable = true ∧ io.rewrite = .replaced

instance (io : CompactIo) : Decidable io.Loads :=
  inferInstanceAs (Decidable (_ ∧ _))

/-! ## The guard -/

inductive FirstFlightAdmit where
  | fresh
  | replayed
  | limited
  | unavailable
deriving DecidableEq, Repr

def replayCompactIntervalSeconds : ℕ := 60

def defaultNewStreamsPerSecond : ℕ := 100

/-- The insertion budget; `configured` is the parsed value of
`PB_MAPPER_NEW_STREAMS_PER_SECOND`. -/
def firstFlightBudget (configured : Option ℕ) (windowSeconds : ℕ) : ℕ :=
  let streamsPerSec :=
    min ((configured.filter (0 < ·)).getD defaultNewStreamsPerSecond) 1000000
  let window := min windowSeconds u32Max
  max (satMul u32Max (satMul u32Max (satMul u32Max streamsPerSec 2) window) 2)
    8192

def bloomInsertCapacity (bytes : ℕ) : ℕ :=
  max (min (satMul u64Max bytes 8 / 16) u32Max) 1

structure ReplayGuard (bytes : ℕ+) where
  bloom : RotatingBloom bytes
  counts : KeyId → ℕ
  countsStartedAt : ℕ
  windowSeconds : ℕ
  maxPerKey : ℕ
  total : ℕ
  totalStartedAt : ℕ
  maxTotal : ℕ
  logPath : Option String
  lastCompactAt : ℕ
  logFailed : Bool

namespace ReplayGuard

variable {bytes : ℕ+}

def rotateCounts (guard : ReplayGuard bytes) (now : ℕ) : ReplayGuard bytes :=
  if now - guard.countsStartedAt < guard.windowSeconds then guard
  else { guard with counts := fun _ => 0, countsStartedAt := now }

def resetTotalIfRotated (guard : ReplayGuard bytes) : ReplayGuard bytes :=
  if guard.bloom.currentStartedAt ≠ guard.totalStartedAt then
    { guard with
      total := 0
      totalStartedAt := guard.bloom.currentStartedAt }
  else guard

/-- Appends one record.  The first component is whether the caller may answer
`fresh`. -/
def persist (guard : ReplayGuard bytes) (log : Option ReplayLog)
    (fingerprint : Fingerprint) (now : ℕ) (io : PersistIo) :
    Bool × ReplayGuard bytes × Option ReplayLog :=
  if guard.logFailed then (false, guard, log)
  else
    match guard.logPath with
    | none => (true, guard, log)
    | some _ =>
        let created := log.isNone
        let opened := log.getD ReplayLog.empty
        if !io.opened then
          (false, guard, if io.createdEmpty then some opened else log)
        else if !io.appended then
          if io.rolledBack then (false, guard, some opened)
          else
            (false, { guard with logFailed := true },
              some (opened.leave ⟨fingerprint, now⟩ io.leftover))
        else if created && !io.parentSynced then
          (false, { guard with logFailed := true },
            some (opened.append ⟨fingerprint, now⟩))
        else (true, guard, some (opened.append ⟨fingerprint, now⟩))

/-- Whether a record is inside its window; one exactly at the boundary is. -/
def recordLive (windowSeconds now : ℕ) (record : ReplayRecord) : Bool :=
  now - record.timestamp ≤ windowSeconds

def compact (guard : ReplayGuard bytes) (log : Option ReplayLog) (now : ℕ)
    (io : CompactIo) : ReplayGuard bytes × Option ReplayLog :=
  match guard.logPath with
  | none => ({ guard with lastCompactAt := now }, log)
  | some _ =>
      match log.bind ReplayLog.readCompleteReplayRecords, io.readable with
      | some records, true =>
          let live := records.filter (recordLive guard.windowSeconds now)
          match io.rewrite with
          | .kept => ({ guard with logFailed := true }, log)
          | .replacedUnsynced =>
              ({ guard with logFailed := true }, some ⟨live, false⟩)
          | .replaced => ({ guard with lastCompactAt := now }, some ⟨live, false⟩)
      | _, _ => ({ guard with logFailed := true }, log)

def reserve (guard : ReplayGuard bytes) (log : Option ReplayLog)
    (fingerprint : Fingerprint) (now : ℕ) (io : PersistIo) :
    FirstFlightAdmit × ReplayGuard bytes × Option ReplayLog :=
  match guard.persist log fingerprint now io with
  | (false, guard, log) => (.unavailable, guard, log)
  | (true, guard, log) =>
      (.fresh,
        { guard with
          bloom := guard.bloom.insert fingerprint now
          total := satAdd u32Max guard.total 1 },
        log)

/-- `*self.counts.entry(key_id).or_insert(0) += 1`. -/
def countKey (guard : ReplayGuard bytes) (keyId : KeyId) : ReplayGuard bytes :=
  { guard with
    counts := fun other =>
      if other = keyId then guard.counts keyId + 1 else guard.counts other }

/-- `ReplayGuard::admit`. -/
def admitFresh (guard : ReplayGuard bytes) (log : Option ReplayLog)
    (keyId : KeyId) (fingerprint : Fingerprint) (now : ℕ) (io : PersistIo)
    (compactIo : CompactIo) :
    FirstFlightAdmit × ReplayGuard bytes × Option ReplayLog :=
  let guard := guard.rotateCounts now
  match guard.bloom.contains fingerprint now with
  | (true, bloom) => (.replayed, { guard with bloom := bloom }, log)
  | (false, bloom) =>
      let guard := { guard with bloom := bloom }.resetTotalIfRotated
      if guard.maxPerKey ≤ guard.counts keyId ∨ guard.maxTotal ≤ guard.total then
        (.limited, guard, log)
      else
        match guard.reserve log fingerprint now io with
        | (.fresh, guard, log) =>
            let guard := guard.countKey keyId
            if replayCompactIntervalSeconds ≤ now - guard.lastCompactAt then
              (.fresh, guard.compact log now compactIo)
            else (.fresh, guard, log)
        | result => result

def claim (guard : ReplayGuard bytes) (log : Option ReplayLog)
    (fingerprint : Fingerprint) (now : ℕ) (io : PersistIo) :
    FirstFlightAdmit × ReplayGuard bytes × Option ReplayLog :=
  match guard.bloom.contains fingerprint now with
  | (true, bloom) => (.replayed, { guard with bloom := bloom }, log)
  | (false, bloom) =>
      let guard := { guard with bloom := bloom }.resetTotalIfRotated
      if guard.maxTotal ≤ guard.total then (.unavailable, guard, log)
      else guard.reserve log fingerprint now io

/-- Refills the filter from the log and collapses it into one generation that
starts at the oldest live record. -/
def loadPersisted (guard : ReplayGuard bytes) (log : Option ReplayLog)
    (now : ℕ) (io : CompactIo) : ReplayGuard bytes × Option ReplayLog :=
  match guard.logPath, log with
  | none, _ => (guard, log)
  | some _, none => (guard, log)
  | some _, some file =>
      match file.readCompleteReplayRecords, io.readable with
      | some records, true =>
          let live := records.filter (recordLive guard.windowSeconds now)
          let bloom := live.foldl
            (fun bloom record => bloom.insert record.fingerprint record.timestamp)
            guard.bloom
          let bloom :=
            match (live.map ReplayRecord.timestamp).min? with
            | some oldest => { bloom with currentStartedAt := oldest }
            | none => bloom
          let guard :=
            { guard with
              bloom := bloom
              total := min (min live.length u32Max) guard.maxTotal
              totalStartedAt := bloom.currentStartedAt }
          match io.rewrite with
          | .kept => ({ guard with logFailed := true }, log)
          | .replacedUnsynced =>
              ({ guard with logFailed := true }, some ⟨live, false⟩)
          | .replaced => ({ guard with lastCompactAt := now }, some ⟨live, false⟩)
      | _, _ => ({ guard with logFailed := true }, log)

/-- The three clock readings of one `open`, in their order. -/
structure OpenClock where
  opened : ℕ
  bloom : ℕ
  load : ℕ

def «open» (bytes : ℕ+) (logPath : Option String) (windowSeconds : ℕ)
    (configured : Option ℕ) (clock : OpenClock) (log : Option ReplayLog)
    (io : CompactIo) : ReplayGuard bytes × Option ReplayLog :=
  let budget := firstFlightBudget configured windowSeconds
  loadPersisted
    { bloom := .new bytes windowSeconds clock.bloom
      counts := fun _ => 0
      countsStartedAt := clock.opened
      windowSeconds := windowSeconds
      maxPerKey := budget
      total := 0
      totalStartedAt := clock.opened
      maxTotal := min budget (bloomInsertCapacity bytes)
      logPath := logPath
      lastCompactAt := clock.opened
      logFailed := false }
    log clock.load io

end ReplayGuard

/-! ## The filter refines a two-generation memory -/

/-- A clock reading at which the doubled window is not cut off by the width of
`u64`. -/
def ClockFits (window now : ℕ) : Prop := 2 * window ≤ u64Max ∨ now < u64Max

instance (window now : ℕ) : Decidable (ClockFits window now) :=
  inferInstanceAs (Decidable (_ ∨ _))

namespace RotatingBloom

variable {bytes : ℕ+} {bloom : RotatingBloom bytes}
  {memory : RotatingWindow Fingerprint} {window now : ℕ}

/-- The filter finds at least what the memory holds, generation by generation,
and rotates when the memory does. -/
structure Refines (bloom : RotatingBloom bytes)
    (memory : RotatingWindow Fingerprint) : Prop where
  current : ∀ entry ∈ memory.current,
    BloomFilter.contains bloom.current (bloomPositions bytes entry.1) = true
  previous : ∀ entry ∈ memory.previous,
    BloomFilter.contains bloom.previous (bloomPositions bytes entry.1) = true
  startedAt : bloom.currentStartedAt = memory.startedAt

@[simp]
theorem rotate_windowSeconds (bloom : RotatingBloom bytes) (now : ℕ) :
    (bloom.rotate now).windowSeconds = bloom.windowSeconds := by
  unfold rotate
  dsimp only
  split
  · rfl
  split <;> rfl

@[simp]
theorem insert_windowSeconds (bloom : RotatingBloom bytes)
    (fingerprint : Fingerprint) (now : ℕ) :
    (bloom.insert fingerprint now).windowSeconds = bloom.windowSeconds :=
  bloom.rotate_windowSeconds now

@[simp]
theorem contains_snd (bloom : RotatingBloom bytes) (fingerprint : Fingerprint)
    (now : ℕ) : (bloom.contains fingerprint now).2 = bloom.rotate now :=
  rfl

theorem refines_empty (bloom : RotatingBloom bytes) :
    bloom.Refines ⟨∅, ∅, bloom.currentStartedAt⟩ :=
  ⟨by simp, by simp, rfl⟩

/-- Below the cut-off the filter clears both generations exactly when the memory
does. -/
theorem clears_iff (hfits : ClockFits window now) (startedAt : ℕ) :
    satMul u64Max window 2 ≤ now - startedAt ↔
      2 * window ≤ now - startedAt := by
  rcases hfits with hwindow | hnow
  · rw [satMul_of_le (by omega), Nat.mul_comm]
  · rw [satMul_le_iff (by omega), Nat.mul_comm]

theorem Refines.rotate (hrefines : bloom.Refines memory)
    (hwindow : bloom.windowSeconds = window) (hfits : ClockFits window now) :
    (bloom.rotate now).Refines (memory.rotate window now) := by
  subst hwindow
  unfold RotatingBloom.rotate RotatingWindow.rotate
  simp only [hrefines.startedAt, clears_iff hfits]
  split
  · exact hrefines
  split
  · exact ⟨by simp, by simp, rfl⟩
  · exact ⟨by simp, hrefines.current, rfl⟩

theorem Refines.insert {fingerprint : Fingerprint} {stamp : ℕ}
    (hrefines : bloom.Refines memory)
    (hwindow : bloom.windowSeconds = window) (hfits : ClockFits window now) :
    (bloom.insert fingerprint now).Refines
      ((memory.rotate window now).record (fingerprint, stamp)) := by
  have hrotate := hrefines.rotate hwindow hfits
  refine ⟨fun entry hentry => ?_, hrotate.previous, hrotate.startedAt⟩
  rcases Set.mem_insert_iff.mp hentry with rfl | hmem
  · exact BloomFilter.contains_insert_self _ _
  · exact BloomFilter.contains_insert_of_contains _ (hrotate.current entry hmem)

/-- What the memory holds after the rotation of an access, the access finds. -/
theorem Refines.contains_of_mem {fingerprint : Fingerprint} {stamp : ℕ}
    (hrefines : bloom.Refines memory)
    (hwindow : bloom.windowSeconds = window) (hfits : ClockFits window now)
    (hmem : (fingerprint, stamp) ∈ (memory.rotate window now).entries) :
    (bloom.contains fingerprint now).1 = true := by
  have hrotate := hrefines.rotate hwindow hfits
  rw [RotatingBloom.contains, Bool.or_eq_true]
  rcases hmem with hcurrent | hprevious
  · exact .inl (hrotate.current _ hcurrent)
  · exact .inr (hrotate.previous _ hprevious)

/-- An insertion stamped before its generation is due does not rotate. -/
theorem rotate_eq_self
    (hstamp : now - bloom.currentStartedAt < bloom.windowSeconds) :
    bloom.rotate now = bloom :=
  if_pos hstamp

/-- Refilling a filter with records stamped before its generation is due keeps
the generation, and finds every record. -/
theorem foldl_insert_spec (records : List ReplayRecord)
    (bloom : RotatingBloom bytes)
    (hstamped : ∀ record ∈ records,
      record.timestamp - bloom.currentStartedAt < bloom.windowSeconds) :
    let refilled := records.foldl
      (fun bloom record => bloom.insert record.fingerprint record.timestamp)
      bloom
    refilled.currentStartedAt = bloom.currentStartedAt ∧
      BloomFilter.Extends refilled.current bloom.current ∧
      ∀ record ∈ records, BloomFilter.contains refilled.current
        (bloomPositions bytes record.fingerprint) = true := by
  induction records generalizing bloom with
  | nil => exact ⟨rfl, .refl _, by simp⟩
  | cons record records ih =>
      have hself : bloom.rotate record.timestamp = bloom :=
        rotate_eq_self (hstamped record List.mem_cons_self)
      obtain ⟨hstarted, hextends, hfound⟩ :=
        ih (bloom.insert record.fingerprint record.timestamp)
          fun other hother => by
            simpa [insert, hself] using
              hstamped other (List.mem_cons_of_mem _ hother)
      refine ⟨?_, ?_, ?_⟩
      · simpa [insert, hself] using hstarted
      · refine hextends.trans ?_
        simpa only [insert, hself] using BloomFilter.extends_insert _ _
      · intro other hother
        rcases List.mem_cons.mp hother with rfl | hmem
        · exact BloomFilter.contains_of_extends hextends
            (BloomFilter.contains_insert_self _ _)
        · exact hfound other hmem

@[simp]
theorem foldl_insert_windowSeconds (records : List ReplayRecord)
    (bloom : RotatingBloom bytes) :
    (records.foldl
      (fun bloom record => bloom.insert record.fingerprint record.timestamp)
      bloom).windowSeconds = bloom.windowSeconds := by
  induction records generalizing bloom with
  | nil => rfl
  | cons record records ih => rw [List.foldl_cons, ih, insert_windowSeconds]

end RotatingBloom

end PbMapper.Protocol
