import PbMapper.Auth.StateDir
import PbMapper.Foundation.Fallible
import PbMapper.Foundation.LengthPrefix
import PbMapper.Protocol.V2Integrity

/-!
# The bytes of the log

Each record of the log is encoded, sealed and put behind its length.  An append
that fails cuts the file back to where it began, and a reader takes nothing but
whole records: what a cut or an alteration leaves is refused unless it is the log
of sealed records that it looks like.
-/

namespace PbMapper.Auth

open BigEndian PbMapper.Core LengthPrefix MachineWord
open Protocol (Seal)

/-- The seal of the state files, and what the JSON library computes of records. -/
structure WalCodec where
  aead : Aes256Gcm
  toVec : WalRecord → List UInt8
  fromSlice : List UInt8 → Except String WalRecord

/-! ## Blobs -/

/-- `b"PBAS1"`. -/
def stateBlobMagic : List UInt8 := [80, 66, 65, 83, 49]

/-- `b"pb-mapper-auth-state-v1"`. -/
def stateAad : List UInt8 :=
  [112, 98, 45, 109, 97, 112, 112, 101, 114, 45, 97, 117, 116, 104, 45, 115, 116,
    97, 116, 101, 45, 118, 49]

abbrev StateNonce := Vector UInt8 12

/-- The inputs of one seal of a state file. -/
def stateSeal (adminKey : AesKeyType) (nonce : StateNonce) (plain : List UInt8) :
    Seal :=
  ⟨adminKey, nonce.toList, stateAad, plain⟩

namespace WalCodec

variable (wal : WalCodec)

def sealBlob (adminKey : AesKeyType) (nonce : StateNonce) (plain : List UInt8) :
    List UInt8 :=
  stateBlobMagic ++
    (nonce.toList ++ (stateSeal adminKey nonce plain).output wal.aead)

/-- The refusal of a nonce that is too short is left out: the length is checked. -/
def openBlob (adminKey : AesKeyType) (sealed : List UInt8) :
    Except AuthFailure (List UInt8) :=
  if sealed.length < stateBlobMagic.length + 12 + codecTagLen ∨
      sealed.take stateBlobMagic.length ≠ stateBlobMagic then
    .error (storeUnavailable "authentication state blob has an invalid header" false)
  else
    let nonceStart := stateBlobMagic.length
    let nonceEnd := nonceStart + 12
    match wal.aead.openInPlace adminKey ((sealed.drop nonceStart).take 12) stateAad
        (sealed.drop nonceEnd) with
    | some plain => .ok plain
    | none =>
        .error (storeUnavailable "authentication state integrity check failed" false)

/-! ## Appending -/

def sealRecord (adminKey : AesKeyType) (nonce : StateNonce) (record : WalRecord) :
    List UInt8 :=
  wal.sealBlob adminKey nonce (wal.toVec record)

end WalCodec

/-- What becomes of the cut back to the length before. -/
inductive Rollback where
  | done
  | setLenFails
  | syncFails

def Rollback.isDone : Rollback → Bool
  | .done => true
  | .setLenFails | .syncFails => false

/-- The file after a cut of `torn` back to `start`. -/
def Rollback.leaves (start torn : List UInt8) : Rollback → List UInt8
  | .done | .syncFails => start
  | .setLenFails => torn

/-- The operation at which an append fails, if it does.  A write may fail at any
byte of the frame, and after its last byte when the sync fails. -/
inductive AppendIo where
  | done
  | openFails (error : String)
  | secureFails (error : String)
  | inspectFails (error : String)
  | writeFails (written : ℕ) (error : String) (rollback : Rollback)
  | parentSyncFails (error : String)

namespace WalCodec

variable (wal : WalCodec) (stateDir : String) (adminKey : AesKeyType)

/-- The result of `append_wal` and the file it leaves; `none` is no file. -/
def appendWal (nonce : StateNonce) (record : WalRecord) (io : AppendIo)
    (file : Option (List UInt8)) :
    Except AuthFailure Unit × Option (List UInt8) :=
  let sealed := wal.sealRecord adminKey nonce record
  if 2 ^ 32 ≤ sealed.length then
    (.error (internal "auth WAL record is too large"), file)
  else
    let path := authWalPath stateDir
    let created := file.isNone
    let start := file.getD []
    let appended := start ++ frame 4 sealed
    match io with
    | .done => (.ok (), some appended)
    | .openFails error =>
        (.error (storeUnavailable s!"failed to open `{path}`: {error}" true), file)
    | .secureFails error =>
        (.error (storeUnavailable s!"failed to secure `{path}`: {error}" false),
          some start)
    | .inspectFails error =>
        (.error (storeUnavailable s!"failed to inspect `{path}`: {error}" true),
          some start)
    | .writeFails written error rollback =>
        (.error (appendReport path error rollback.isDone),
          some (rollback.leaves start (start ++ (frame 4 sealed).take written)))
    | .parentSyncFails error =>
        -- The parent is synced for a new file only.
        if created then
          (.error (storeUnavailable s!"failed to sync `{path}`: {error}" false),
            some appended)
        else (.ok (), some appended)

/-! ## Reading -/

/-- Opening and decoding one record. -/
def openRecord (sealed : List UInt8) : Except AuthFailure WalRecord := do
  let plain ← wal.openBlob adminKey sealed
  match wal.fromSlice plain with
  | .ok record => return record
  | .error error =>
      throw (storeUnavailable s!"failed to decode auth WAL record: {error}" false)

/-- The loop of `read_wal`. -/
def readRecords : List UInt8 → Except AuthFailure (List WalRecord)
  | [] => .ok []
  | first :: rest =>
      let length := fromBeBytes (first :: rest.take 3)
      let body := rest.drop 3
      if rest.length < 3 then
        .error (storeUnavailable
          "truncated auth WAL length: failed to fill whole buffer" false)
      else if maxWalRecord < length then
        .error (storeUnavailable "auth WAL record exceeds 1 MiB" false)
      else if body.length < length then
        .error (storeUnavailable
          "truncated auth WAL record: failed to fill whole buffer" false)
      else do
        let record ← wal.openRecord adminKey (body.take length)
        let records ← readRecords (body.drop length)
        return record :: records
termination_by file => file.length
decreasing_by
  simp only [List.length_drop, List.length_cons]
  omega

def readWal (file : Option (List UInt8)) : Except AuthFailure (List WalRecord) :=
  match file with
  | none =>
      .error (storeUnavailable
        (s!"failed to open `{authWalPath stateDir}`: No such file or directory " ++
          "(os error 2)")
        false)
  | some file => wal.readRecords adminKey file

end WalCodec

/-! ## What stands in a file -/

namespace WalCodec

section Blobs

variable {wal : WalCodec} {adminKey : AesKeyType} {nonce : StateNonce}

theorem length_sealBlob (plain : List UInt8) :
    (wal.sealBlob adminKey nonce plain).length = 33 + plain.length := by
  simp only [sealBlob, Seal.output, stateSeal, List.length_append,
    Vector.length_toList, wal.aead.length_seal, stateBlobMagic, List.length_cons,
    List.length_nil, codecTagLen]
  omega

theorem openBlob_sealBlob (plain : List UInt8) :
    wal.openBlob adminKey (wal.sealBlob adminKey nonce plain) = .ok plain := by
  have hlength : stateBlobMagic.length + 12 + codecTagLen ≤
      (wal.sealBlob adminKey nonce plain).length := by
    rw [length_sealBlob]
    exact Nat.le_add_right 33 plain.length
  have hmagic : (wal.sealBlob adminKey nonce plain).take stateBlobMagic.length =
      stateBlobMagic := List.take_left
  have hnonce : ((wal.sealBlob adminKey nonce plain).drop
      stateBlobMagic.length).take 12 = nonce.toList := by
    rw [sealBlob, List.drop_left]
    exact List.take_left' nonce.length_toList
  have hsealed : (wal.sealBlob adminKey nonce plain).drop
      (stateBlobMagic.length + 12) =
      (stateSeal adminKey nonce plain).output wal.aead := by
    rw [← List.drop_drop, sealBlob, List.drop_left]
    exact List.drop_left' nonce.length_toList
  have hopen := wal.aead.open_seal adminKey nonce.toList stateAad plain
  rw [openBlob, if_neg (not_or.mpr ⟨Nat.not_lt.mpr hlength, not_not.mpr hmagic⟩)]
  simp only [hnonce, hsealed, Seal.output, stateSeal, hopen]

/-- A record whose encoding is decoded again is read back from its blob. -/
theorem openRecord_sealRecord {record : WalRecord}
    (hjson : wal.fromSlice (wal.toVec record) = .ok record) :
    wal.openRecord adminKey (wal.sealRecord adminKey nonce record) =
      .ok record := by
  rw [openRecord, sealRecord, openBlob_sealBlob]
  change (match wal.fromSlice (wal.toVec record) with
    | .ok record => pure record
    | .error error => throw _) = Except.ok record
  rw [hjson]
  rfl

end Blobs

/-- A blob that a reader takes as a record. -/
structure Stands (wal : WalCodec) (adminKey : AesKeyType) (blob : List UInt8)
    (record : WalRecord) : Prop where
  length_le : blob.length ≤ maxWalRecord
  opens : wal.openRecord adminKey blob = .ok record

section Reading

variable {wal : WalCodec} {adminKey : AesKeyType} {blob tail : List UInt8}
  {records : List WalRecord}

theorem lt_of_le_maxWalRecord {length : ℕ} (hlength : length ≤ maxWalRecord) :
    length < 256 ^ 4 :=
  hlength.trans_lt (by decide)

/-- A frame begins with the four bytes that its length is read from. -/
theorem frame_eq_cons (hblob : blob.length < 256 ^ 4) :
    ∃ first prelude, frame 4 blob = first :: (prelude ++ blob) ∧
      prelude.length = 3 ∧ fromBeBytes (first :: prelude) = blob.length := by
  obtain ⟨first, prelude, hprelude, hlength⟩ : ∃ first prelude,
      toBeBytes 4 blob.length = first :: prelude ∧ prelude.length = 3 :=
    ⟨_, _, rfl, rfl⟩
  refine ⟨first, prelude, ?_, hlength, ?_⟩
  · rw [frame, hprelude, List.cons_append]
  · rw [← hprelude, fromBeBytes_toBeBytes hblob]

/-- One turn of the loop, over a frame that is not too long. -/
theorem readRecords_frame (hblob : blob.length ≤ maxWalRecord) :
    wal.readRecords adminKey (frame 4 blob ++ tail) = do
      let record ← wal.openRecord adminKey blob
      let records ← wal.readRecords adminKey tail
      return record :: records := by
  obtain ⟨first, prelude, hframe, hlength, hread⟩ :=
    frame_eq_cons (lt_of_le_maxWalRecord hblob)
  have hstarts : ¬(prelude ++ (blob ++ tail)).length < 3 := by
    rw [List.length_append]
    omega
  have hbody : ¬(blob ++ tail).length < blob.length := by
    rw [List.length_append]
    omega
  rw [hframe, List.cons_append, List.append_assoc, readRecords]
  simp only [if_neg hstarts, List.take_left' hlength, List.drop_left' hlength,
    hread, if_neg (Nat.not_lt.mpr hblob), if_neg hbody, List.take_left,
    List.drop_left]

/-- A frame that is too long is refused, although it was written. -/
theorem readRecords_long_frame (hlong : maxWalRecord < blob.length)
    (hblob : blob.length < 2 ^ 32) :
    wal.readRecords adminKey (frame 4 blob ++ tail) =
      .error (storeUnavailable "auth WAL record exceeds 1 MiB" false) := by
  obtain ⟨first, prelude, hframe, hlength, hread⟩ := frame_eq_cons hblob
  have hstarts : ¬(prelude ++ (blob ++ tail)).length < 3 := by
    rw [List.length_append]
    omega
  rw [hframe, List.cons_append, List.append_assoc, readRecords]
  simp only [if_neg hstarts, List.take_left' hlength, hread, if_pos hlong]

/-- What a reader takes without an error is a frame, and then the rest. -/
theorem exists_frame_of_readRecords {first : UInt8} {rest : List UInt8}
    (hread : wal.readRecords adminKey (first :: rest) = .ok records) :
    ∃ blob tail record later, first :: rest = frame 4 blob ++ tail ∧
      wal.Stands adminKey blob record ∧
      wal.readRecords adminKey tail = .ok later ∧ records = record :: later := by
  rw [readRecords] at hread
  by_cases hstarts : rest.length < 3
  · rw [if_pos hstarts] at hread
    cases hread
  by_cases hlong : maxWalRecord < fromBeBytes (first :: rest.take 3)
  · rw [if_neg hstarts, if_pos hlong] at hread
    cases hread
  by_cases hshort :
      (rest.drop 3).length < fromBeBytes (first :: rest.take 3)
  · rw [if_neg hstarts, if_neg hlong, if_pos hshort] at hread
    cases hread
  rw [if_neg hstarts, if_neg hlong, if_neg hshort] at hread
  obtain ⟨record, hopen, hread⟩ := Fallible.bind_eq_ok.mp hread
  obtain ⟨later, hlater, hread⟩ := Fallible.bind_eq_ok.mp hread
  have hlength : ((rest.drop 3).take (fromBeBytes (first :: rest.take 3))).length =
      fromBeBytes (first :: rest.take 3) := by
    rw [List.length_take, Nat.min_eq_left (Nat.not_lt.mp hshort)]
  have hprelude : (first :: rest.take 3).length = 4 := by
    rw [List.length_cons, List.length_take]
    omega
  refine ⟨_, _, record, later, ?_, ⟨?_, hopen⟩, hlater,
    (Except.ok.inj hread).symm⟩
  · have hprefixed := toBeBytes_fromBeBytes (first :: rest.take 3)
    rw [hprelude] at hprefixed
    rw [frame, hlength, hprefixed, List.append_assoc, List.take_append_drop,
      List.cons_append, List.take_append_drop]
  · rw [hlength]
    exact Nat.not_lt.mp hlong

/-- A reader takes exactly the files of blobs that stand for records. -/
theorem readRecords_eq_ok_iff {file : List UInt8} :
    wal.readRecords adminKey file = .ok records ↔
      ∃ blobs, file = frames 4 blobs ∧
        List.Forall₂ (wal.Stands adminKey) blobs records := by
  constructor
  · intro hread
    induction hfile : file.length using Nat.strong_induction_on
      generalizing file records with
    | _ length ih =>
    cases file with
    | nil =>
        rw [readRecords] at hread
        rw [← Except.ok.inj hread]
        exact ⟨[], rfl, .nil⟩
    | cons first rest =>
        obtain ⟨blob, tail, record, later, hsplit, hstands, hlater, rfl⟩ :=
          exists_frame_of_readRecords hread
        have htail : tail.length < length := by
          rw [← hfile, hsplit, frame, List.length_append, List.length_append,
            length_toBeBytes]
          omega
        obtain ⟨blobs, rfl, hblobs⟩ := ih tail.length htail hlater rfl
        exact ⟨blob :: blobs, hsplit, .cons hstands hblobs⟩
  · rintro ⟨blobs, rfl, hblobs⟩
    induction hblobs with
    | nil => rw [frames_nil, readRecords]
    | cons hstands _ ih =>
        rw [frames_cons, readRecords_frame hstands.length_le, hstands.opens, ih]
        rfl

/-- The file of sealed records is read as the list of frames that stands for it
in the state directory. -/
theorem readRecords_eq_readFrames {crypto : AuthCrypto}
    {entries : List (StateNonce × WalRecord)}
    (hjson : ∀ entry ∈ entries, wal.fromSlice (wal.toVec entry.2) = .ok entry.2)
    (hlength : ∀ entry ∈ entries, crypto.sealedLength entry.2 =
      (wal.sealRecord adminKey entry.1 entry.2).length)
    (hfits : ∀ entry ∈ entries, crypto.sealedLength entry.2 < 2 ^ 32) :
    wal.readRecords adminKey (frames 4 (entries.map fun entry =>
        wal.sealRecord adminKey entry.1 entry.2)) =
      readFrames crypto adminKey (entries.map fun entry =>
        .entire ⟨adminKey, entry.2⟩) := by
  induction entries with
  | nil => rw [List.map_nil, frames_nil, readRecords, List.map_nil, readFrames]
  | cons entry entries ih =>
      have hrest := ih
        (fun other hother => hjson other (List.mem_cons_of_mem _ hother))
        (fun other hother => hlength other (List.mem_cons_of_mem _ hother))
        (fun other hother => hfits other (List.mem_cons_of_mem _ hother))
      have hsealed := hlength entry List.mem_cons_self
      have hlt := hfits entry List.mem_cons_self
      rw [List.map_cons, List.map_cons, frames_cons, readFrames]
      rw [hsealed] at hlt ⊢
      by_cases hlong :
          maxWalRecord < (wal.sealRecord adminKey entry.1 entry.2).length
      · rw [readRecords_long_frame hlong hlt, if_pos hlong]
        rfl
      · rw [readRecords_frame (Nat.not_lt.mp hlong), if_neg hlong,
          openRecord_sealRecord (hjson entry List.mem_cons_self), hrest]
        rw [show Auth.openBlob adminKey (⟨adminKey, entry.2⟩ : Sealed WalRecord) =
          .ok entry.2 from if_pos rfl]

end Reading

end WalCodec

/-! ## Appends that fail and are taken back -/

/-- One call of `append_wal`, with the nonce it draws. -/
structure AppendCall where
  nonce : StateNonce
  record : WalRecord
  io : AppendIo

namespace WalCodec

variable (wal : WalCodec) (stateDir : String) (adminKey : AesKeyType)

def appendAll : List AppendCall → Option (List UInt8) →
    List (Except AuthFailure Unit) × Option (List UInt8)
  | [], file => ([], file)
  | call :: calls, file =>
      let (report, file) :=
        wal.appendWal stateDir adminKey call.nonce call.record call.io file
      let (reports, file) := appendAll calls file
      (report :: reports, file)

/-- The records of the calls that reported no failure. -/
def succeeded (calls : List AppendCall)
    (reports : List (Except AuthFailure Unit)) :
    List WalRecord :=
  ((calls.zip reports).filter (·.2.isOk)).map (·.1.record)

/-- What a log holds; no log, which is never read, holds nothing. -/
def Holds (file : Option (List UInt8)) (records : List WalRecord) : Prop :=
  if file.isSome then wal.readWal stateDir adminKey file = .ok records
  else records = []

/-- A record that is encoded so that it is decoded again, and that is not too long
to be read. -/
structure Writable (call : AppendCall) : Prop where
  json : wal.fromSlice (wal.toVec call.record) = .ok call.record
  length_le :
    (wal.sealRecord adminKey call.nonce call.record).length ≤ maxWalRecord

/-- As long as every failure was taken back, the log holds what it held and the
records of the calls that succeeded, in order. -/
def AppendsExact : Prop :=
  ∀ calls file records, wal.Holds stateDir adminKey file records →
    (∀ call ∈ calls, wal.Writable adminKey call) →
    (∀ failure, .error failure ∈ (wal.appendAll stateDir adminKey calls file).1 →
      failure.retryable = true) →
    wal.Holds stateDir adminKey (wal.appendAll stateDir adminKey calls file).2
      (records ++
        succeeded calls (wal.appendAll stateDir adminKey calls file).1)

section Appends

variable {wal : WalCodec} {stateDir : String} {adminKey : AesKeyType}
  {file : Option (List UInt8)} {records : List WalRecord}

theorem holds_iff :
    wal.Holds stateDir adminKey file records ↔
      wal.readRecords adminKey (file.getD []) = .ok records := by
  cases file with
  | none =>
      rw [Holds, Option.getD_none, readRecords, Except.ok.injEq]
      exact eq_comm
  | some file => exact Iff.rfl

theorem Holds.touch (hholds : wal.Holds stateDir adminKey file records) :
    wal.Holds stateDir adminKey (some (file.getD [])) records := by
  rw [holds_iff] at hholds ⊢
  exact hholds

/-- A frame behind a log adds its record. -/
theorem Holds.append {blob : List UInt8} {record : WalRecord}
    (hholds : wal.Holds stateDir adminKey file records)
    (hstands : wal.Stands adminKey blob record) :
    wal.Holds stateDir adminKey (some (file.getD [] ++ frame 4 blob))
      (records ++ [record]) := by
  obtain ⟨blobs, hfile, hblobs⟩ := readRecords_eq_ok_iff.mp (holds_iff.mp hholds)
  apply holds_iff.mpr
  apply readRecords_eq_ok_iff.mpr
  refine ⟨blobs ++ [blob], ?_, List.rel_append hblobs (.cons hstands .nil)⟩
  rw [hfile, Option.getD_some, frames_append, frames_cons, frames_nil,
    List.append_nil]

/-- A call that succeeds adds its record, and one that reports a failure that was
taken back adds nothing. -/
theorem Holds.appendWal {call : AppendCall}
    (hholds : wal.Holds stateDir adminKey file records)
    (hwritable : wal.Writable adminKey call)
    (hretryable : ∀ failure,
      (wal.appendWal stateDir adminKey call.nonce call.record call.io file).1 =
        .error failure → failure.retryable = true) :
    wal.Holds stateDir adminKey
      (wal.appendWal stateDir adminKey call.nonce call.record call.io file).2
      (records ++ succeeded [call]
        [(wal.appendWal stateDir adminKey call.nonce call.record call.io file).1]) := by
  have hlength : ¬2 ^ 32 ≤
      (wal.sealRecord adminKey call.nonce call.record).length :=
    Nat.not_le.mpr (lt_of_le_maxWalRecord hwritable.length_le)
  have happended := hholds.append
    (⟨hwritable.length_le, openRecord_sealRecord hwritable.json⟩ :
      wal.Stands adminKey (wal.sealRecord adminKey call.nonce call.record)
        call.record)
  rw [WalCodec.appendWal, if_neg hlength] at hretryable ⊢
  rcases call with ⟨nonce, record, io⟩
  cases io with
  | done => exact happended
  | openFails error =>
      change wal.Holds stateDir adminKey file (records ++ [])
      rwa [List.append_nil]
  | secureFails error => exact absurd (hretryable _ rfl) Bool.false_ne_true
  | inspectFails error =>
      change wal.Holds stateDir adminKey (some (file.getD [])) (records ++ [])
      rw [List.append_nil]
      exact hholds.touch
  | writeFails written error rollback =>
      cases rollback with
      | done =>
          change wal.Holds stateDir adminKey (some (file.getD [])) (records ++ [])
          rw [List.append_nil]
          exact hholds.touch
      | setLenFails => exact absurd (hretryable _ rfl) Bool.false_ne_true
      | syncFails => exact absurd (hretryable _ rfl) Bool.false_ne_true
  | parentSyncFails error =>
      cases file with
      | none => exact absurd (hretryable _ rfl) Bool.false_ne_true
      | some file => exact happended

theorem appendsExact : wal.AppendsExact stateDir adminKey := by
  intro calls
  induction calls with
  | nil =>
      intro file records hholds _ _
      change wal.Holds stateDir adminKey file (records ++ [])
      rwa [List.append_nil]
  | cons call calls ih =>
      intro file records hholds hwritable hretryable
      have hfirst := hholds.appendWal (hwritable call List.mem_cons_self)
        fun failure hfailure => hretryable failure
          (by rw [appendAll, ← hfailure]; exact List.mem_cons_self)
      have hlater := ih _ _ hfirst
        (fun later hcall => hwritable later (List.mem_cons_of_mem _ hcall))
        fun failure hfailure => hretryable failure (List.mem_cons_of_mem _ hfailure)
      rw [List.append_assoc] at hlater
      have hsplit : ∀ report reports,
          succeeded [call] [report] ++ succeeded calls reports =
            succeeded (call :: calls) (report :: reports) := by
        intro report reports
        cases report <;> rfl
      rw [hsplit] at hlater
      exact hlater

end Appends

end WalCodec

/-! ## Files that are no logs -/

/-- The ideal seal: what opens in these bytes is what one of the sealings put
out. -/
def Authentic (aead : Aes256Gcm) (sealings : List Seal) (bytes : List UInt8) :
    Prop :=
  ∀ sealed, sealed <:+: bytes → ∀ key nonce aad plain,
    aead.openInPlace key nonce aad sealed = some plain →
      ∃ sealing ∈ sealings, sealing.key = key ∧ sealing.nonce = nonce ∧
        sealing.aad = aad ∧ sealed = sealing.output aead

theorem Authentic.mono {aead : Aes256Gcm} {sealings : List Seal}
    {bytes part : List UInt8}
    (hauthentic : Authentic aead sealings bytes) (hpart : part <:+: bytes) :
    Authentic aead sealings part :=
  fun sealed hsealed => hauthentic sealed (hsealed.trans hpart)

/-- The blob that one seal makes. -/
def stateBlob (aead : Aes256Gcm) (sealing : Seal) : List UInt8 :=
  stateBlobMagic ++ (sealing.nonce ++ sealing.output aead)

namespace WalCodec

variable (wal : WalCodec) (stateDir : String) (adminKey : AesKeyType)

/-- A log that is cut, and not behind a record, is refused. -/
def CutsRefused : Prop :=
  ∀ (blobs : List (List UInt8)) (cut : ℕ),
    (∀ blob ∈ blobs, blob.length < 2 ^ 32) →
    cut ≤ (frames 4 blobs).length →
    (∀ count, cut ≠ (frames 4 (blobs.take count)).length) →
    ∃ failure,
      wal.readWal stateDir adminKey (some ((frames 4 blobs).take cut)) =
        .error failure

/-- A log is refused whose bytes, from the length of some record on, are others
(those of an alteration, and what follows it), unless a blob that was sealed
stands there behind its length. -/
def AlterationsRefused : Prop :=
  ∀ (sealings : List Seal) (blobs : List (List UInt8)) (altered : List UInt8),
    Authentic wal.aead sealings altered →
    (∀ blob ∈ blobs, blob.length < 2 ^ 32) → altered ≠ [] →
    (∀ sealing ∈ sealings, sealing.key = adminKey → sealing.aad = stateAad →
      ¬frame 4 (stateBlob wal.aead sealing) <+: altered) →
    ∃ failure,
      wal.readWal stateDir adminKey (some (frames 4 blobs ++ altered)) =
        .error failure

/-- Whatever a file holds, a list that is read from it is that of sealed blobs
that make up the whole of it. -/
def ReadsSealed : Prop :=
  ∀ (sealings : List Seal) (file : List UInt8) (records : List WalRecord),
    Authentic wal.aead sealings file →
    wal.readWal stateDir adminKey (some file) = .ok records →
    ∃ read : List Seal, (∀ sealing ∈ read, sealing ∈ sealings ∧
        sealing.key = adminKey ∧ sealing.aad = stateAad) ∧
      file = frames 4 (read.map (stateBlob wal.aead)) ∧
      List.Forall₂ (fun sealing record =>
        wal.fromSlice sealing.plain = .ok record) read records

/-- What the log promises of its bytes. -/
structure Exact : Prop where
  appends : wal.AppendsExact stateDir adminKey
  cuts : wal.CutsRefused stateDir adminKey
  alterations : wal.AlterationsRefused stateDir adminKey
  reads : wal.ReadsSealed stateDir adminKey

section Refusals

variable {wal : WalCodec} {stateDir : String} {adminKey : AesKeyType}
  {sealings : List Seal}

/-- A blob that opens is one that was sealed. -/
theorem exists_seal_of_openBlob {blob plain : List UInt8}
    (hauthentic : Authentic wal.aead sealings blob)
    (hopen : wal.openBlob adminKey blob = .ok plain) :
    ∃ sealing ∈ sealings, sealing.key = adminKey ∧ sealing.aad = stateAad ∧
      blob = stateBlob wal.aead sealing ∧ sealing.plain = plain := by
  rw [openBlob] at hopen
  split at hopen
  · cases hopen
  rename_i hheader
  dsimp only at hopen
  split at hopen
  · rename_i opened hopened
    obtain rfl := Except.ok.inj hopen
    have hsealed : blob.drop (stateBlobMagic.length + 12) <:+: blob :=
      (List.drop_suffix _ _).isInfix
    obtain ⟨sealing, hsealing, hkey, hnonce, haad, houtput⟩ :=
      hauthentic _ hsealed _ _ _ _ hopened
    have hmagic : blob.take stateBlobMagic.length = stateBlobMagic :=
      not_not.mp (not_or.mp hheader).2
    refine ⟨sealing, hsealing, hkey, haad, ?_, ?_⟩
    · calc
        blob = blob.take stateBlobMagic.length ++
            ((blob.drop stateBlobMagic.length).take 12 ++
              (blob.drop stateBlobMagic.length).drop 12) := by
          rw [List.take_append_drop, List.take_append_drop]
        _ = stateBlob wal.aead sealing := by
          rw [hmagic, ← hnonce, List.drop_drop, houtput, stateBlob]
    · have hsame := wal.aead.open_seal sealing.key sealing.nonce sealing.aad
        sealing.plain
      rw [houtput, Seal.output, ← hkey, ← hnonce, ← haad, hsame] at hopened
      exact Option.some.inj hopened
  · cases hopen

/-- A blob that stands for a record was sealed with the record's encoding. -/
theorem Stands.exists_seal {blob : List UInt8} {record : WalRecord}
    (hstands : wal.Stands adminKey blob record)
    (hauthentic : Authentic wal.aead sealings blob) :
    ∃ sealing ∈ sealings, sealing.key = adminKey ∧ sealing.aad = stateAad ∧
      blob = stateBlob wal.aead sealing ∧
      wal.fromSlice sealing.plain = .ok record := by
  obtain ⟨plain, hopen, hdecode⟩ := Fallible.bind_eq_ok.mp hstands.opens
  obtain ⟨sealing, hsealing, hkey, haad, hblob, rfl⟩ :=
    exists_seal_of_openBlob hauthentic hopen
  refine ⟨sealing, hsealing, hkey, haad, hblob, ?_⟩
  split at hdecode
  · rename_i decoded hdecoded
    rw [hdecoded, ← Except.ok.inj hdecode]
  · cases hdecode

theorem exists_stands_of_mem {blobs : List (List UInt8)}
    {records : List WalRecord}
    (hblobs : List.Forall₂ (wal.Stands adminKey) blobs records) :
    ∀ blob ∈ blobs, ∃ record, wal.Stands adminKey blob record := by
  induction hblobs with
  | nil => simp
  | cons hstands _ ih =>
      intro blob hblob
      rcases List.mem_cons.mp hblob with rfl | hblob
      · exact ⟨_, hstands⟩
      · exact ih blob hblob

theorem lt_of_forall₂_stands {blobs : List (List UInt8)}
    {records : List WalRecord}
    (hblobs : List.Forall₂ (wal.Stands adminKey) blobs records) :
    ∀ blob ∈ blobs, blob.length < 256 ^ 4 := by
  intro blob hblob
  obtain ⟨record, hstands⟩ := exists_stands_of_mem hblobs blob hblob
  exact lt_of_le_maxWalRecord hstands.length_le

/-- What is read without an error is read from whole frames. -/
theorem exists_error_of_ne_frames {file : List UInt8}
    (hfile : ∀ blobs records, List.Forall₂ (wal.Stands adminKey) blobs records →
      file ≠ frames 4 blobs) :
    ∃ failure, wal.readWal stateDir adminKey (some file) = .error failure := by
  rw [readWal]
  cases hread : wal.readRecords adminKey file with
  | error failure => exact ⟨failure, rfl⟩
  | ok records =>
      obtain ⟨blobs, heq, hblobs⟩ := readRecords_eq_ok_iff.mp hread
      exact absurd heq (hfile blobs records hblobs)

theorem cutsRefused : wal.CutsRefused stateDir adminKey := by
  intro blobs cut hlengths hcut hboundary
  apply exists_error_of_ne_frames
  intro others records hothers
  exact take_ne_frames hlengths (lt_of_forall₂_stands hothers) (by decide) hcut
    hboundary

theorem alterationsRefused : wal.AlterationsRefused stateDir adminKey := by
  intro sealings blobs altered hauthentic hlengths hne hforeign
  apply exists_error_of_ne_frames
  intro others records hothers heq
  obtain ⟨later, rfl, rfl⟩ := append_of_frames_eq (lt_of_forall₂_stands hothers)
    hlengths (by decide) heq.symm
  cases later with
  | nil => exact hne rfl
  | cons blob later =>
      obtain ⟨record, hstands⟩ := exists_stands_of_mem hothers blob
        (List.mem_append_right blobs List.mem_cons_self)
      have hpart : blob <:+: frames 4 (blob :: later) :=
        ⟨toBeBytes 4 blob.length, frames 4 later, rfl⟩
      obtain ⟨sealing, hsealing, hkey, haad, rfl, -⟩ :=
        hstands.exists_seal (hauthentic.mono hpart)
      exact hforeign sealing hsealing hkey haad (List.prefix_append _ _)

theorem readsSealed : wal.ReadsSealed stateDir adminKey := by
  intro sealings file records hauthentic hread
  obtain ⟨blobs, rfl, hblobs⟩ := readRecords_eq_ok_iff.mp hread
  induction hblobs with
  | nil => exact ⟨[], by simp, rfl, .nil⟩
  | @cons blob record blobs records hstands hrest ih =>
      have hpart : blob <:+: frames 4 (blob :: blobs) :=
        ⟨toBeBytes 4 blob.length, frames 4 blobs, rfl⟩
      obtain ⟨sealing, hsealing, hkey, haad, rfl, hdecode⟩ :=
        hstands.exists_seal (hauthentic.mono hpart)
      obtain ⟨read, hread, hframes, hrecords⟩ :=
        ih (hauthentic.mono (List.suffix_append _ _).isInfix)
          (readRecords_eq_ok_iff.mpr ⟨blobs, rfl, hrest⟩)
      refine ⟨sealing :: read, ?_, ?_, .cons hdecode hrecords⟩
      · intro other hother
        rcases List.mem_cons.mp hother with rfl | hother
        · exact ⟨hsealing, hkey, haad⟩
        · exact hread other hother
      · rw [frames_cons, hframes]
        rfl

end Refusals

theorem walCodec_exact (wal : WalCodec) (stateDir : String)
    (adminKey : AesKeyType) :
    wal.Exact stateDir adminKey where
  appends := appendsExact
  cuts := cutsRefused
  alterations := alterationsRefused
  reads := readsSealed

end WalCodec

/-! ## A record that stands in another's place -/

def ascii (text : String) : List UInt8 :=
  text.toList.map fun letter => UInt8.ofNat letter.toNat

def labelJson : Option String → List UInt8
  | none => ascii "null"
  | some label => ascii "\"" ++ (ascii label ++ ascii "\"")

/-- The encoding of an audit record without a key. -/
def auditJson (audit : AuditRecord) : List UInt8 :=
  ascii "\x7b\"Audit\":\x7b\"at\":" ++ (ascii (toString audit.atTime) ++
    (ascii ",\"action\":\"" ++ (ascii audit.action ++
      (ascii "\",\"key_id\":null,\"label\":" ++
        (labelJson audit.label ++ ascii "\x7d\x7d")))))

def sampleAudit (atTime : ℕ) (label : Option String) : WalRecord :=
  .audit ⟨atTime, "legacy_protocol_allow", none, label⟩

/-- A record with a label of a mebibyte. -/
@[irreducible]
def longAudit : WalRecord :=
  sampleAudit 100 (some (String.ofList (List.replicate maxWalRecord 'x')))

def sampleKey : AesKeyType := .replicate 32 9

def sampleNonce (atTime : ℕ) : StateNonce :=
  .replicate 12 (UInt8.ofNat atTime)

def sampleToVec : WalRecord → List UInt8
  | .audit audit => auditJson audit
  | .mutation _ _ | .adminReplay _ => []

def sampleFromSlice (bytes : List UInt8) : Except String WalRecord :=
  match [sampleAudit 100 none, sampleAudit 200 none, longAudit].find?
      (sampleToVec · = bytes) with
  | some record => .ok record
  | none => .error "expected value at line 1 column 1"

theorem sampleFromSlice_of_find {bytes : List UInt8} {record : WalRecord}
    (hfind : [sampleAudit 100 none, sampleAudit 200 none, longAudit].find?
      (sampleToVec · = bytes) = some record) :
    sampleFromSlice bytes = .ok record := by
  rw [sampleFromSlice, hfind]

def sampleWal : WalCodec where
  aead := Protocol.registeredAead
    ([100, 200].map fun atTime =>
      stateSeal sampleKey (sampleNonce atTime) (sampleToVec (sampleAudit atTime none)))
  toVec := sampleToVec
  fromSlice := sampleFromSlice

/-- The blob of a record without a label. -/
def sampleBlob (atTime : ℕ) : List UInt8 :=
  sampleWal.sealRecord sampleKey (sampleNonce atTime) (sampleAudit atTime none)

theorem stands_sampleBlob {atTime : ℕ} (htime : atTime ∈ [100, 200]) :
    sampleWal.Stands sampleKey (sampleBlob atTime) (sampleAudit atTime none) := by
  simp only [List.mem_cons, List.not_mem_nil, or_false] at htime
  rcases htime with rfl | rfl
  · exact ⟨by decide +kernel, WalCodec.openRecord_sealRecord rfl⟩
  · exact ⟨by decide +kernel, WalCodec.openRecord_sealRecord rfl⟩

theorem length_labelled (label : String) :
    (sampleToVec (sampleAudit 100 (some label))).length = 78 + label.length := by
  have hbefore : (ascii "\x7b\"Audit\":\x7b\"at\":").length = 15 := rfl
  have htime : (ascii (toString 100)).length = 3 := rfl
  have haction : (ascii ",\"action\":\"" ++ (ascii "legacy_protocol_allow" ++
      ascii "\",\"key_id\":null,\"label\":")).length = 56 := rfl
  have hend : (ascii "\"" ++ (ascii "\"" ++ ascii "\x7d\x7d")).length = 4 := rfl
  have hlabel : (ascii label).length = label.length := by
    rw [ascii, List.length_map, String.length_toList]
  simp only [List.length_append] at haction hend
  rw [sampleAudit, sampleToVec, auditJson, labelJson]
  simp only [List.length_append, hbefore, htime, hlabel]
  omega

theorem length_longAudit :
    (sampleToVec longAudit).length = 78 + maxWalRecord := by
  rw [longAudit, length_labelled, String.length_ofList, List.length_replicate]

/-- A long record would be decoded again, were it read. -/
theorem fromSlice_longAudit :
    sampleWal.fromSlice (sampleWal.toVec longAudit) = .ok longAudit := by
  have hother : ∀ atTime ∈ [100, 200],
      sampleToVec (sampleAudit atTime none) ≠ sampleToVec longAudit := by
    intro atTime htime heq
    have hshort := (stands_sampleBlob htime).length_le
    rw [sampleBlob, WalCodec.sealRecord, WalCodec.length_sealBlob] at hshort
    change 33 + (sampleToVec (sampleAudit atTime none)).length ≤ maxWalRecord
      at hshort
    rw [heq, length_longAudit] at hshort
    omega
  have hfind : [sampleAudit 100 none, sampleAudit 200 none, longAudit].find?
      (sampleToVec · = sampleToVec longAudit) = some longAudit := by
    rw [List.find?_cons_of_neg (by simpa using hother 100 (by decide)),
      List.find?_cons_of_neg (by simpa using hother 200 (by decide)),
      List.find?_cons_of_pos (by simp)]
  exact sampleFromSlice_of_find hfind

/-- The seals of the two records. -/
def sampleSeals : List Seal :=
  [100, 200].map fun atTime =>
    stateSeal sampleKey (sampleNonce atTime) (sampleToVec (sampleAudit atTime none))

/-- The stand-in puts out only what was registered, where no other tag occurs. -/
theorem authentic_sample {bytes : List UInt8}
    (hclean : ¬List.replicate codecTagLen 255 <:+: bytes) :
    Authentic sampleWal.aead sampleSeals bytes := by
  intro sealed hsealed key nonce aad plain hopen
  have hmem := Protocol.unforged_registered hclean sealed hsealed key nonce aad plain
    hopen
  refine ⟨⟨key, nonce, aad, plain⟩, hmem, rfl, rfl, rfl, ?_⟩
  simp only [sampleWal, Protocol.registeredAead, Option.ite_none_right_eq_some,
    Option.some.injEq] at hopen
  obtain ⟨htag, rfl⟩ := hopen
  exact htag

theorem length_longBlob :
    (sampleWal.sealRecord sampleKey (sampleNonce 100) longAudit).length =
      111 + maxWalRecord := by
  have hlength : (sampleWal.toVec longAudit).length = 78 + maxWalRecord :=
    length_longAudit
  rw [WalCodec.sealRecord, WalCodec.length_sealBlob, hlength, ← Nat.add_assoc]

theorem longBlob_lt :
    (sampleWal.sealRecord sampleKey (sampleNonce 100) longAudit).length < 2 ^ 32 := by
  rw [length_longBlob, maxWalRecord]
  decide

/-- A log that is too long to be read is written. -/
theorem longAudit_unreadable :
    ∃ file, sampleWal.appendWal "/state" sampleKey (sampleNonce 100) longAudit .done
        none = (.ok (), some file) ∧
      ∃ failure, sampleWal.readWal "/state" sampleKey (some file) =
        .error failure := by
  refine ⟨[] ++ frame 4 (sampleWal.sealRecord sampleKey (sampleNonce 100) longAudit),
    ?_, storeUnavailable "auth WAL record exceeds 1 MiB" false, ?_⟩
  · rw [WalCodec.appendWal, if_neg (Nat.not_le.mpr longBlob_lt), Option.getD_none]
  · have hlong : maxWalRecord <
        (sampleWal.sealRecord sampleKey (sampleNonce 100) longAudit).length := by
      rw [length_longBlob]
      omega
    rw [List.nil_append, ← List.append_nil (frame 4 _), WalCodec.readWal]
    exact WalCodec.readRecords_long_frame hlong longBlob_lt

/-- The log of two records, and the same bytes with the first blob in the place
of the second: another list is read, and no error.  A record may be too long to
be read back as well, and a log that was never opened is not empty. -/
theorem overwritten_record_is_read :
    (sampleWal.readWal "/state" sampleKey
        (some (frames 4 [sampleBlob 100, sampleBlob 200])) =
        .ok [sampleAudit 100 none, sampleAudit 200 none] ∧
      (sampleBlob 100).length = (sampleBlob 200).length ∧
      sampleBlob 100 ≠ sampleBlob 200 ∧
      Authentic sampleWal.aead sampleSeals
        (frames 4 [sampleBlob 100, sampleBlob 100]) ∧
      sampleWal.readWal "/state" sampleKey
        (some (frames 4 [sampleBlob 100, sampleBlob 100])) =
        .ok [sampleAudit 100 none, sampleAudit 100 none]) ∧
    (sampleWal.fromSlice (sampleWal.toVec longAudit) = .ok longAudit ∧
      ∃ file, sampleWal.appendWal "/state" sampleKey (sampleNonce 100) longAudit
          .done none = (.ok (), some file) ∧
        ∃ failure, sampleWal.readWal "/state" sampleKey (some file) =
          .error failure) ∧
    ∃ failure, sampleWal.readWal "/state" sampleKey none = .error failure := by
  have hfirst := stands_sampleBlob (List.mem_cons_self : 100 ∈ [100, 200])
  have hsecond := stands_sampleBlob
    (List.mem_cons_of_mem _ List.mem_cons_self : 200 ∈ [100, 200])
  refine ⟨⟨?_, by decide +kernel, by decide +kernel, ?_, ?_⟩,
    ⟨fromSlice_longAudit, longAudit_unreadable⟩, _, rfl⟩
  · exact WalCodec.readRecords_eq_ok_iff.mpr
      ⟨_, rfl, .cons hfirst (.cons hsecond .nil)⟩
  · exact authentic_sample (by decide +kernel)
  · exact WalCodec.readRecords_eq_ok_iff.mpr
      ⟨_, rfl, .cons hfirst (.cons hfirst .nil)⟩

/-- A report of no failure, or of one that may be retried. -/
def mayRetry : Except AuthFailure Unit → Bool
  | .ok () => true
  | .error failure => failure.retryable

/-- A record, one whose write fails and is taken back, and that one again. -/
def sampleCalls : List AppendCall :=
  [⟨sampleNonce 100, sampleAudit 100 none, .done⟩,
    ⟨sampleNonce 200, sampleAudit 200 none, .writeFails 7 "disk full" .done⟩,
    ⟨sampleNonce 200, sampleAudit 200 none, .done⟩]

/-- The first record with the last byte of its length changed. -/
def sampleAltered : List UInt8 :=
  [0, 0, 0, 0] ++ sampleBlob 100

theorem walCodec_exact_sample :
    sampleWal.Holds "/state" sampleKey
        (sampleWal.appendAll "/state" sampleKey sampleCalls none).2
        [sampleAudit 100 none, sampleAudit 200 none] ∧
      (∃ failure, sampleWal.readWal "/state" sampleKey
        (some ((frames 4 [sampleBlob 100]).take 50)) = .error failure) ∧
      (∃ failure, sampleWal.readWal "/state" sampleKey
        (some (frames 4 [sampleBlob 200] ++ sampleAltered)) = .error failure) := by
  have hexact := WalCodec.walCodec_exact sampleWal "/state" sampleKey
  have hwritable : ∀ call ∈ sampleCalls, sampleWal.Writable sampleKey call := by
    simp only [sampleCalls, List.forall_mem_cons]
    exact ⟨⟨rfl, by decide +kernel⟩, ⟨rfl, by decide +kernel⟩,
      ⟨rfl, by decide +kernel⟩, by simp⟩
  have hreports : (sampleWal.appendAll "/state" sampleKey sampleCalls none).1.all
      mayRetry = true := by decide +kernel
  have hboundary : ∀ count,
      50 ≠ (frames 4 ([sampleBlob 100].take count)).length := by
    intro count
    cases count with
    | zero => decide
    | succ count =>
        rw [List.take_succ_cons, List.take_nil]
        decide +kernel
  refine ⟨?_, ?_, ?_⟩
  · exact hexact.appends sampleCalls none [] rfl hwritable
      fun failure hfailure => List.all_eq_true.mp hreports _ hfailure
  · exact hexact.cuts [sampleBlob 100] 50 (by decide +kernel) (by decide +kernel)
      hboundary
  · exact hexact.alterations sampleSeals [sampleBlob 200] sampleAltered
      (authentic_sample (by decide +kernel)) (by decide +kernel)
      (by decide +kernel) (by decide +kernel)

end PbMapper.Auth
