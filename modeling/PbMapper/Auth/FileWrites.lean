import PbMapper.Auth.AdminKey
import PbMapper.Foundation.Fallible

/-!
# What file programs leave behind

Most programs on the state directory make a fixed list of changes in order, and
one that is cut short has made a first part of the list.  Appending to the log is
the exception: it can undo what it did, and it can leave a torn record.
-/

namespace PbMapper.Auth

open Effect

/-! ## Lists of changes -/

/-- The changes made one after the other. -/
def applyAll (changes : List (StateDir → StateDir)) (dir : StateDir) : StateDir :=
  changes.foldl (fun dir change => change dir) dir

@[simp]
theorem applyAll_nil (dir : StateDir) : applyAll [] dir = dir := rfl

theorem applyAll_append (changes more : List (StateDir → StateDir))
    (dir : StateDir) :
    applyAll (changes ++ more) dir = applyAll more (applyAll changes dir) :=
  List.foldl_append

/-- What every change keeps, a list of changes keeps. -/
theorem applyAll_preserves {motive : StateDir → Prop}
    {changes : List (StateDir → StateDir)}
    (hchange : ∀ change ∈ changes, ∀ dir, motive dir → motive (change dir))
    {dir : StateDir} (hdir : motive dir) : motive (applyAll changes dir) := by
  induction changes generalizing dir with
  | nil => exact hdir
  | cons change changes ih =>
      have hhead := hchange change List.mem_cons_self dir hdir
      exact ih (fun other hother => hchange other (List.mem_cons_of_mem _ hother))
        hhead

/-- The program makes the changes, and at an early end the first of them. -/
def Writes (changes : List (StateDir → StateDir)) (program : FileM Unit) : Prop :=
  ∀ dir, Triple (·.dir = dir) program
    (fun _ files => files.dir = applyAll changes dir)
    (fun _ files => ∃ made, made <+: changes ∧ files.dir = applyAll made dir)

theorem fileStep_triple (effect : Extent → StateDir → StateDir)
    (report : String → AuthFailure) (dir : StateDir) :
    Triple (·.dir = dir) (fileStep effect report)
      (fun _ files => files.dir = effect .whole dir)
      (fun cut files => (∃ extent, files.dir = effect extent dir) ∧
        ∀ failure, cut = .failed failure → ∃ error, failure = report error) := by
  rintro ⟨_, outcomes⟩ rfl
  rcases outcomes with _ | ⟨_ | ⟨extent, error⟩ | extent, rest⟩
  · exact rfl
  · exact rfl
  · refine ⟨⟨extent, rfl⟩, fun failure hfailure => ⟨error, ?_⟩⟩
    exact (Interruption.failed.inj hfailure).symm
  · exact ⟨⟨extent, rfl⟩, fun failure hfailure => nomatch hfailure⟩

theorem bareStep_triple (report : String → AuthFailure) (dir : StateDir) :
    Triple (·.dir = dir) (bareStep report) (fun _ files => files.dir = dir)
      (fun cut files => files.dir = dir ∧
        ∀ failure, cut = .failed failure → ∃ error, failure = report error) := by
  apply (fileStep_triple _ report dir).mono (fun _ => id) (fun _ _ => id)
  rintro cut files ⟨⟨extent, hextent⟩, hreport⟩
  exact ⟨hextent, hreport⟩

theorem wholeStep_triple (change : StateDir → StateDir)
    (report : String → AuthFailure) (dir : StateDir) :
    Triple (·.dir = dir) (wholeStep change report)
      (fun _ files => files.dir = change dir)
      (fun cut files => (files.dir = dir ∨ files.dir = change dir) ∧
        ∀ failure, cut = .failed failure → ∃ error, failure = report error) := by
  apply (fileStep_triple _ report dir).mono (fun _ => id)
  · intro value files hfiles
    exact hfiles.trans (if_pos rfl)
  · rintro cut files ⟨⟨extent, hextent⟩, hreport⟩
    by_cases hwhole : extent = .whole
    · exact ⟨.inr (hextent.trans (if_pos hwhole)), hreport⟩
    · exact ⟨.inl (hextent.trans (if_neg hwhole)), hreport⟩

theorem Writes.bareStep (report : String → AuthFailure) :
    Writes [] (bareStep report) := by
  intro dir
  apply (bareStep_triple report dir).mono (fun _ => id) (fun _ _ => id)
  rintro cut files ⟨hdir, -⟩
  exact ⟨[], List.nil_prefix, hdir⟩

theorem Writes.wholeStep (change : StateDir → StateDir)
    (report : String → AuthFailure) : Writes [change] (wholeStep change report) := by
  intro dir
  apply (wholeStep_triple change report dir).mono (fun _ => id) (fun _ _ => id)
  rintro cut files ⟨hdir | hdir, -⟩
  · exact ⟨[], List.nil_prefix, hdir⟩
  · exact ⟨[change], List.prefix_rfl, hdir⟩

theorem Writes.pure : Writes [] (Pure.pure ()) :=
  fun _ => .pure fun _ => id

theorem Writes.bind {first next : List (StateDir → StateDir)}
    {program rest : FileM Unit} (hprogram : Writes first program)
    (hrest : Writes next rest) :
    Writes (first ++ next) (program >>= fun _ => rest) := by
  intro dir
  apply Triple.bind _ ((hprogram dir).mono (fun _ => id) (fun _ _ => id)
    fun _ _ ⟨made, hmade, hdir⟩ =>
      ⟨made, hmade.trans (List.prefix_append first next), hdir⟩)
  intro _
  apply (hrest (applyAll first dir)).mono (fun _ => id)
  · intro value files hfiles
    rw [hfiles, applyAll_append]
  · rintro cut files ⟨made, hmade, hfiles⟩
    refine ⟨first ++ made, (List.prefix_append_right_inj first).mpr hmade, ?_⟩
    rw [hfiles, applyAll_append]

/-- A program that goes by what it reads. -/
theorem Writes.readDir {changes : List (StateDir → StateDir)}
    {next : StateDir → FileM Unit} (hnext : ∀ dir, Writes changes (next dir)) :
    Writes changes (readDir >>= next) := by
  intro dir
  exact Triple.bind (fun _ files => files.dir = dir)
    (.of fun _ hdir => hdir) fun read => hnext read dir

theorem Writes.ite {changes : List (StateDir → StateDir)} {condition : Prop}
    [Decidable condition] {program other : FileM Unit}
    (hprogram : Writes changes program) (hother : Writes changes other) :
    Writes changes (if condition then program else other) := by
  split
  · exact hprogram
  · exact hother

/-! ## The programs -/

theorem writes_atomicWrite (stateDir path : String)
    (install : StateDir → StateDir) :
    Writes [install] (atomicWrite stateDir path install) :=
  (Writes.bareStep _).bind ((Writes.bareStep _).bind ((Writes.bareStep _).bind
    ((Writes.bareStep _).bind ((Writes.wholeStep install _).bind
      (Writes.bareStep _)))))

theorem writes_truncateAuthWal (stateDir : String) :
    Writes [StateDir.truncateWal] (truncateAuthWal stateDir) :=
  .readDir fun _ => (Writes.wholeStep _ _).bind ((Writes.bareStep _).bind
    (.ite (Writes.bareStep _) .pure))

theorem writes_writeSnapshotAndTruncateWal (stateDir : String)
    (adminKey : Core.AesKeyType) (snapshot : PersistedSnapshot) :
    Writes [installSnapshot adminKey snapshot, StateDir.truncateWal]
      (writeSnapshotAndTruncateWal stateDir adminKey snapshot) :=
  (writes_atomicWrite _ _ _).bind (writes_truncateAuthWal _)

/-! ## Failures as values -/

theorem attempt_triple {Value : Type} {pre : Files → Prop} {program : FileM Value}
    {done : Value → Files → Prop} {cut : Interruption → Files → Prop}
    (hprogram : Triple pre program done cut) :
    Triple pre (attempt program)
      (fun result files =>
        match result with
        | .ok value => done value files
        | .error failure => cut (.failed failure) files)
      (fun stop files => stop = .stopped ∧ cut .stopped files) := by
  intro files hpre
  have hended := hprogram files hpre
  rw [attempt, exec_of]
  cases hexec : program.exec files with
  | mk result last =>
      rw [hexec] at hended
      rcases result with (failure | _) | value
      · exact hended
      · exact ⟨rfl, hended⟩
      · exact hended

theorem readDir_triple (dir : StateDir) :
    Triple (·.dir = dir) readDir (fun read files => read = dir ∧ files.dir = dir)
      (fun _ _ => False) :=
  .of fun _ hdir => ⟨hdir, hdir⟩

/-- Removing a file reports nothing. -/
theorem removeFile_triple (remove : StateDir → StateDir) (dir : StateDir) :
    Triple (·.dir = dir) (removeFile remove)
      (fun _ files => files.dir = dir ∨ files.dir = remove dir)
      (fun cut files => cut = .stopped ∧
        (files.dir = dir ∨ files.dir = remove dir)) := by
  refine Triple.bind (fun _ files => files.dir = dir ∨
    files.dir = remove dir) ?_ fun _ => .pure fun _ => id
  apply (attempt_triple (wholeStep_triple remove internal dir)).mono (fun _ => id)
  · rintro (failure | value) files hfiles
    · exact hfiles.1
    · exact .inr hfiles
  · exact fun cut files hfiles => ⟨hfiles.1, hfiles.2.1⟩

/-! ## Appending -/

/-- What an append that did not go well may leave. -/
inductive AppendLeaves (frame : WalFrame) (dir : StateDir) : StateDir → Prop where
  | nothing : AppendLeaves frame dir dir
  | opened : AppendLeaves frame dir { dir with wal := some dir.frames }
  | torn : AppendLeaves frame dir (dir.appendFrame .torn)
  | whole : AppendLeaves frame dir (dir.appendFrame frame)

/-- The log has the records it had. -/
def SameLog (dir dir' : StateDir) : Prop :=
  dir' = dir ∨ dir' = { dir with wal := some dir.frames }

theorem AppendLeaves.of_extent {frame : WalFrame} {dir opened : StateDir}
    (hopened : { dir with wal := some dir.frames } = opened) (extent : Extent) :
    AppendLeaves frame dir (appendExtent frame extent opened) := by
  subst hopened
  cases extent with
  | nothing => exact .opened
  | part => exact .torn
  | whole => exact .whole

/-- Undoing an append. -/
theorem appendExtent_undone (frame : WalFrame) (extent : Extent)
    (opened : StateDir) :
    { appendExtent frame extent opened with wal := opened.wal } = opened := by
  cases extent <;> rfl

theorem SameLog.leaves {dir dir' : StateDir} (hsame : SameLog dir dir')
    (frame : WalFrame) : AppendLeaves frame dir dir' := by
  rcases hsame with rfl | rfl
  · exact .nothing
  · exact .opened

/-- What holds after an attempt, by its answer. -/
def Answered {Value : Type} (done : Value → Files → Prop)
    (failed : AuthFailure → Files → Prop) : Except AuthFailure Value → Files → Prop
  | .ok value => done value
  | .error failure => failed failure

variable (crypto : AuthCrypto)

/-- An append that is cut short reports a retryable failure only if the log is
as it was. -/
theorem appendWal_triple (stateDir : String) (adminKey : Core.AesKeyType)
    (record : WalRecord) (dir : StateDir) :
    Triple (·.dir = dir) (appendWal crypto stateDir adminKey record)
      (fun _ files => files.dir = dir.appendFrame (.entire ⟨adminKey, record⟩))
      (fun cut files =>
        AppendLeaves (.entire ⟨adminKey, record⟩) dir files.dir ∧
          ∀ failure, cut = .failed failure → failure.retryable = true →
            SameLog dir files.dir) := by
  unfold appendWal
  simp only
  split
  · refine Triple.bind (fun _ _ => False) (.throw ?_) fun _ _ => False.elim
    rintro files rfl
    refine ⟨.nothing, fun failure hfailure hretryable => ?_⟩
    rw [← Interruption.failed.inj hfailure] at hretryable
    cases hretryable
  generalize hopened : ({ dir with wal := some dir.frames } : StateDir) = opened
  have hsame : SameLog dir opened := .inr hopened.symm
  -- the failures of the steps before the record is written
  have hearly : ∀ (cut : Interruption) (files : Files), files.dir = opened →
      AppendLeaves (.entire ⟨adminKey, record⟩) dir files.dir ∧
        ∀ failure, cut = .failed failure → failure.retryable = true →
          SameLog dir files.dir := by
    rintro cut files hfiles
    rw [hfiles]
    exact ⟨hsame.leaves _, fun _ _ _ => hsame⟩
  apply Triple.bind _ ((readDir_triple dir).mono (fun _ => id) (fun _ _ => id)
    fun _ _ => False.elim)
  intro read
  apply Triple.bind (fun _ files => files.dir = opened)
  · apply (wholeStep_triple _ _ dir).mono (fun _ h => h.2)
    · exact fun _ files hfiles => hfiles.trans hopened
    · rintro cut files ⟨hfiles | hfiles, -⟩
      · rw [hfiles]
        exact ⟨.nothing, fun _ _ _ => .inl rfl⟩
      · exact hearly cut files (hfiles.trans hopened)
  intro _
  apply Triple.bind _ ((bareStep_triple _ opened).mono (fun _ => id) (fun _ _ => id)
    fun cut files h => hearly cut files h.1)
  intro _
  apply Triple.bind _ ((bareStep_triple _ opened).mono (fun _ => id) (fun _ _ => id)
    fun cut files h => hearly cut files h.1)
  intro _
  apply Triple.bind _ ((readDir_triple opened).mono (fun _ => id) (fun _ _ => id)
    fun _ _ => False.elim)
  intro start
  apply Triple.assume
  rintro rfl
  apply Triple.bind (Answered
    (fun _ files => files.dir = start.appendFrame (.entire ⟨adminKey, record⟩))
    fun _ files => ∃ extent,
      files.dir = appendExtent (.entire ⟨adminKey, record⟩) extent start)
  · apply (attempt_triple (fileStep_triple _ _ start)).mono (fun _ => id)
    · rintro (failure | _) files hfiles
      · exact hfiles.1
      · exact hfiles
    · rintro cut files ⟨rfl, ⟨extent, hextent⟩, -⟩
      rw [hextent]
      exact ⟨.of_extent hopened extent, fun _ hfailed => by (cases hfailed)⟩
  rintro (failure | _)
  · -- the append failed, and is undone
    apply Triple.choose
    intro extent
    apply Triple.bind (Answered (fun _ files => files.dir = start)
      fun _ files => AppendLeaves (.entire ⟨adminKey, record⟩) dir files.dir)
    · apply (attempt_triple (wholeStep_triple _ _ _)).mono (fun _ => id)
      · rintro (failed | _) last hlast
        · change AppendLeaves _ _ last.dir
          rcases hlast.1 with hlast | hlast
          · rw [hlast]
            exact .of_extent hopened extent
          · rw [hlast, appendExtent_undone]
            exact hsame.leaves _
        · exact hlast.trans (appendExtent_undone _ extent start)
      · rintro cut last ⟨rfl, hlast | hlast, -⟩
        · rw [hlast]
          exact ⟨.of_extent hopened extent, fun _ hfailed => by (cases hfailed)⟩
        · rw [hlast, appendExtent_undone]
          exact ⟨hsame.leaves _, fun _ hfailed => by (cases hfailed)⟩
    · rintro (failed | _)
      · apply Triple.throw
        refine fun last hlast => ⟨hlast, fun reported hreported hretryable => ?_⟩
        rw [← Interruption.failed.inj hreported] at hretryable
        cases hretryable
      · apply Triple.throw
        exact fun last hlast => hearly _ last hlast
  · -- the record is written, and only the directory may fail to be synced
    have hwritten : start.appendFrame (.entire ⟨adminKey, record⟩) =
        dir.appendFrame (.entire ⟨adminKey, record⟩) := by
      rw [← hopened]
      rfl
    rw [hwritten]
    apply Triple.ite
    · apply (bareStep_triple _ _).mono (fun _ => id) (fun _ _ => id)
      rintro cut files ⟨hfiles, hreport⟩
      rw [hfiles]
      refine ⟨.whole, fun failure hfailed hretryable => ?_⟩
      obtain ⟨error, rfl⟩ := hreport failure hfailed
      cases hretryable
    · exact .pure fun _ => id

/-! ## Reading -/

variable {crypto}

/-- The log as an append after the other left it. -/
def entireFrames (adminKey : Core.AesKeyType) (records : List WalRecord) :
    List WalFrame :=
  records.map fun record => .entire ⟨adminKey, record⟩

/-- A log can be read if every record of it was appended whole, under the key it is
read with, and is not too long. -/
theorem readFrames_eq_ok_iff {adminKey : Core.AesKeyType} {frames : List WalFrame}
    {records : List WalRecord} :
    readFrames crypto adminKey frames = .ok records ↔
      frames = entireFrames adminKey records ∧
        ∀ record ∈ records, crypto.sealedLength record ≤ maxWalRecord := by
  induction frames generalizing records with
  | nil =>
      rw [readFrames]
      constructor
      · intro hread
        cases hread
        exact ⟨rfl, fun _ hrecord => absurd hrecord List.not_mem_nil⟩
      · rintro ⟨hframes, -⟩
        rw [List.map_eq_nil_iff.mp hframes.symm]
  | cons frame frames ih =>
      cases frame with
      | torn =>
          rw [readFrames]
          refine iff_of_false nofun ?_
          rintro ⟨hframes, -⟩
          cases records with
          | nil => cases hframes
          | cons record records => cases hframes
      | entire blob =>
          obtain ⟨key, plain⟩ := blob
          by_cases hlong : maxWalRecord < crypto.sealedLength plain
          · have hread : readFrames crypto adminKey (.entire ⟨key, plain⟩ :: frames) =
                .error (storeUnavailable "auth WAL record exceeds 1 MiB" false) := by
              rw [readFrames, if_pos hlong]
              rfl
            rw [hread]
            refine iff_of_false nofun ?_
            rintro ⟨hframes, hlengths⟩
            cases records with
            | nil => cases hframes
            | cons record records =>
                cases hframes
                exact absurd (hlengths plain List.mem_cons_self) (Nat.not_le.mpr hlong)
          by_cases hkey : key = adminKey
          · subst hkey
            have hread : readFrames crypto key (.entire ⟨key, plain⟩ :: frames) =
                (readFrames crypto key frames).map (plain :: ·) := by
              rw [readFrames, if_neg hlong]
              have hopen : openBlob key (⟨key, plain⟩ : Sealed WalRecord) =
                .ok plain := if_pos rfl
              simp only [hopen]
              cases readFrames crypto key frames <;> rfl
            rw [hread]
            constructor
            · intro hmapped
              cases hrest : readFrames crypto key frames with
              | error failure =>
                  rw [hrest] at hmapped
                  cases hmapped
              | ok rest =>
                  rw [hrest] at hmapped
                  cases hmapped
                  obtain ⟨rfl, hlengths⟩ := ih.mp hrest
                  refine ⟨rfl, fun record hrecord => ?_⟩
                  rcases List.mem_cons.mp hrecord with rfl | hrecord
                  · exact Nat.le_of_not_lt hlong
                  · exact hlengths record hrecord
            · rintro ⟨hframes, hlengths⟩
              cases records with
              | nil => cases hframes
              | cons record records =>
                  obtain ⟨hframe, hrest⟩ := List.cons.inj hframes
                  cases hframe
                  rw [ih.mpr ⟨hrest, fun other hother =>
                    hlengths other (List.mem_cons_of_mem _ hother)⟩]
                  rfl
          · have hread : readFrames crypto adminKey (.entire ⟨key, plain⟩ :: frames) =
                .error (storeUnavailable
                  "authentication state integrity check failed" false) := by
              have hopen : openBlob adminKey (⟨key, plain⟩ : Sealed WalRecord) =
                .error (storeUnavailable
                  "authentication state integrity check failed" false) := if_neg hkey
              rw [readFrames, if_neg hlong]
              simp only [hopen]
              rfl
            rw [hread]
            refine iff_of_false nofun ?_
            rintro ⟨hframes, -⟩
            cases records with
            | nil => cases hframes
            | cons record records =>
                cases hframes
                exact hkey rfl

/-- What a directory is loaded from: the snapshot, and the records of the log. -/
structure LoadedFrom (crypto : AuthCrypto) (config : AuthConfig)
    (adminKey : Core.AesKeyType) (instanceId : InstanceId) (dir : StateDir)
    (base : PersistedSnapshot) (records : List WalRecord) : Prop where
  snapshot : dir.snapshot = some ⟨adminKey, base⟩ ∨
    dir.snapshot = none ∧ base = initialSnapshot config instanceId
  schema : base.schemaVersion = snapshotSchemaVersion
  instanceId_eq : base.instanceId = instanceId
  wal : dir.frames = entireFrames adminKey records
  lengths : ∀ record ∈ records, crypto.sealedLength record ≤ maxWalRecord

/-- The snapshot with rows for a table of `capacity`. -/
def PersistedSnapshot.grown (snapshot : PersistedSnapshot) (capacity : ℕ) :
    PersistedSnapshot :=
  { snapshot with generations := growGenerations snapshot.generations capacity }

theorem tryLoadPersistedState_eq_ok_iff {config : AuthConfig}
    {adminKey : Core.AesKeyType} {instanceId : InstanceId} {dir : StateDir}
    {state : PersistedSnapshot} :
    tryLoadPersistedState crypto config adminKey instanceId dir = .ok state ↔
      ∃ base records,
        LoadedFrom crypto config adminKey instanceId dir base records ∧
          records.foldlM applyWalRecord (base.grown config.maxTemporaryKeys) =
            .ok state := by
  have hrest : ∀ base : PersistedSnapshot,
      (if base.schemaVersion ≠ snapshotSchemaVersion ∨
          base.instanceId ≠ instanceId then do
        throw (storeUnavailable
          "auth snapshot schema or server instance id does not match" false)
        let records ← readFrames crypto adminKey dir.frames
        records.foldlM applyWalRecord (base.grown config.maxTemporaryKeys)
      else do
        let records ← readFrames crypto adminKey dir.frames
        records.foldlM applyWalRecord (base.grown config.maxTemporaryKeys)) =
          .ok state ↔
        base.schemaVersion = snapshotSchemaVersion ∧
          base.instanceId = instanceId ∧ ∃ records,
            readFrames crypto adminKey dir.frames = .ok records ∧
              records.foldlM applyWalRecord (base.grown config.maxTemporaryKeys) =
                .ok state := by
    intro base
    by_cases hother : base.schemaVersion ≠ snapshotSchemaVersion ∨
        base.instanceId ≠ instanceId
    · rw [if_pos hother]
      refine iff_of_false nofun fun hboth => ?_
      rcases hother with hother | hother
      · exact hother hboth.1
      · exact hother hboth.2.1
    · rw [if_neg hother, Fallible.bind_eq_ok]
      rw [not_or, not_not, not_not] at hother
      exact ⟨fun hread => ⟨hother.1, hother.2, hread⟩, fun hread => hread.2.2⟩
  have hbase : ∀ base : PersistedSnapshot,
      (dir.snapshot = some ⟨adminKey, base⟩ ∨
        dir.snapshot = none ∧ base = initialSnapshot config instanceId) →
      ((base.schemaVersion = snapshotSchemaVersion ∧
        base.instanceId = instanceId ∧ ∃ records,
          readFrames crypto adminKey dir.frames = .ok records ∧
            records.foldlM applyWalRecord (base.grown config.maxTemporaryKeys) =
              .ok state) ↔
        ∃ records, LoadedFrom crypto config adminKey instanceId dir base records ∧
          records.foldlM applyWalRecord (base.grown config.maxTemporaryKeys) =
            .ok state) := by
    intro base hsnapshot
    constructor
    · rintro ⟨hschema, hid, records, hread, hfold⟩
      obtain ⟨hwal, hlengths⟩ := readFrames_eq_ok_iff.mp hread
      exact ⟨records, ⟨hsnapshot, hschema, hid, hwal, hlengths⟩, hfold⟩
    · rintro ⟨records, hloaded, hfold⟩
      exact ⟨hloaded.schema, hloaded.instanceId_eq, records,
        readFrames_eq_ok_iff.mpr ⟨hloaded.wal, hloaded.lengths⟩, hfold⟩
  unfold tryLoadPersistedState
  cases hsnapshot : dir.snapshot with
  | none =>
      refine ((hrest (initialSnapshot config instanceId)).trans
        (hbase _ (.inr ⟨hsnapshot, rfl⟩))).trans ⟨fun h => ⟨_, h⟩, ?_⟩
      rintro ⟨base, records, hloaded, hfold⟩
      rcases hloaded.snapshot with hfound | ⟨-, rfl⟩
      · rw [hsnapshot] at hfound
        cases hfound
      · exact ⟨records, hloaded, hfold⟩
  | some blob =>
      obtain ⟨key, plain⟩ := blob
      refine Fallible.bind_eq_ok.trans ⟨?_, ?_⟩
      · rintro ⟨base, hopen, hread⟩
        rw [openBlob] at hopen
        split at hopen
        · rename_i hkey
          cases hopen
          simp only at hkey
          subst hkey
          exact ⟨_, (hbase _ (.inl hsnapshot)).mp ((hrest _).mp hread)⟩
        · cases hopen
      · rintro ⟨base, records, hloaded, hfold⟩
        rcases hloaded.snapshot with hfound | ⟨hnone, -⟩
        · rw [hsnapshot] at hfound
          cases hfound
          exact ⟨plain, if_pos rfl,
            (hrest _).mpr ((hbase _ (.inl hsnapshot)).mpr ⟨records, hloaded, hfold⟩)⟩
        · rw [hsnapshot] at hnone
          cases hnone

end PbMapper.Auth
