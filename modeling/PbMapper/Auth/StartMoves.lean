import PbMapper.Auth.Moves
import Mathlib.Logic.Relation

/-!
# What a start can do

A start writes the two identity files if they are missing, finishes a rotation
or a reset that was cut short, and writes the loaded state back if times had to
be filled in.  Each write is made on a condition on the directory, so an
interrupted start is a chain of such writes.
-/

namespace PbMapper.Auth

open PbMapper.Core MachineWord Effect

variable (crypto : AuthCrypto)

/-! ## The writes of a start -/

/-- The snapshot belongs to the staged administrator key. -/
def StateDir.KeyStaged (dir : StateDir) (next : AesKeyType) : Prop :=
  ∃ current blob, dir.adminKey = some current ∧ dir.snapshot = some blob ∧
    opensWith current blob = false ∧ dir.adminKeyNext = some next ∧
      opensWith next blob = true

/-- The snapshot belongs to the staged instance id. -/
def StateDir.IdStaged (dir : StateDir) (next : InstanceId) : Prop :=
  ∃ current blob, dir.adminKey = some blob.key ∧ dir.snapshot = some blob ∧
    dir.instanceId = some current ∧ blob.plain.instanceId ≠ current ∧
      dir.instanceIdNext = some next ∧ blob.plain.instanceId = next

/-- No rotation is left to be finished. -/
def StateDir.KeySettled (dir : StateDir) (adminKey : AesKeyType) : Prop :=
  dir.adminKey = some adminKey ∧ ∀ next, ¬dir.KeyStaged next

/-- No reset is left to be finished. -/
def StateDir.IdSettled (dir : StateDir) (instanceId : InstanceId) : Prop :=
  dir.instanceId = some instanceId ∧ ∀ next, ¬dir.IdStaged next

/-- The administrator key a start goes on with. -/
def StateDir.KeyKept (adminKey : AesKeyType) (dir : StateDir) : Prop :=
  dir.KeySettled adminKey ∧ parseAdminKey adminKey = .ok adminKey

/-- One write of a start. -/
inductive StartWrite (dir : StateDir) : StateDir → Prop where
  | seedKey {key : AesKeyType} (hnone : dir.adminKey = none)
      (hstate : encryptedAuthStateExists dir = false ∨
        keyMatchesExistingState crypto dir key = true) :
      StartWrite dir { dir with adminKey := some key }
  | truncateForKey {next : AesKeyType} (hstaged : dir.KeyStaged next) :
      StartWrite dir dir.truncateWal
  | promoteKey {next : AesKeyType} (hstaged : dir.KeyStaged next)
      (hwal : dir.wal = some []) :
      StartWrite dir { dir with adminKey := some next }
  | dropNextKey {key : AesKeyType} {blob : Sealed PersistedSnapshot}
      (hkey : dir.adminKey = some key) (hblob : dir.snapshot = some blob)
      (hopens : opensWith key blob = true) :
      StartWrite dir { dir with adminKeyNext := none }
  | writeId {fresh : InstanceId} (hnone : dir.instanceId = none) :
      StartWrite dir { dir with instanceId := some fresh }
  | truncateForId {next : InstanceId} (hstaged : dir.IdStaged next) :
      StartWrite dir dir.truncateWal
  | promoteId {next : InstanceId} (hstaged : dir.IdStaged next)
      (hwal : dir.wal = some []) :
      StartWrite dir { dir with instanceId := some next }
  | dropNextId {current : InstanceId} (hid : dir.instanceId = some current)
      (hbelongs : ∀ blob, dir.snapshot = some blob →
        dir.adminKey = some blob.key ∧ blob.plain.instanceId = current) :
      StartWrite dir { dir with instanceIdNext := none }

/-- The writes of a start in their order. -/
abbrev StartWrites : StateDir → StateDir → Prop :=
  Relation.ReflTransGen (StartWrite crypto)

/-- Everything a start does: the memory of the server, if it comes up, and the
directory. -/
inductive StartMove (config : AuthConfig) (env : StartSurroundings)
    (dir : StateDir) : Option AuthMemory → StateDir → Prop where
  | safeMode {mid : StateDir} {adminKey : AesKeyType} {instanceId : InstanceId}
      (hwrites : StartWrites crypto dir mid) (hkey : mid.KeyKept adminKey)
      (hid : mid.IdSettled instanceId) :
      StartMove config env dir
        (some ((restoredMemory config adminKey instanceId none true (env.clock 0)
          (env.clock 1)).restoreLeases (env.clock 0))) mid
  | loaded {mid dir' : StateDir} {adminKey : AesKeyType} {instanceId : InstanceId}
      {state normal : PersistedSnapshot} {changed : Bool}
      (hwrites : StartWrites crypto dir mid) (hkey : mid.KeyKept adminKey)
      (hid : mid.IdSettled instanceId)
      (hload : tryLoadPersistedState crypto config adminKey instanceId mid = .ok state)
      (hnormal : normalizeTombstoneTimes state (env.clock 0) = (normal, changed))
      (hdir : dir' = if changed then mid.compacted adminKey normal else mid) :
      StartMove config env dir
        (some ((restoredMemory config adminKey instanceId (some normal) false
          (env.clock 0) (env.clock 1)).restoreLeases (env.clock 0))) dir'
  | cut {mid : StateDir} (hwrites : StartWrites crypto dir mid) :
      StartMove config env dir none mid
  | normalizeCut {mid : StateDir} {adminKey : AesKeyType} {instanceId : InstanceId}
      {state normal : PersistedSnapshot} {made : List (StateDir → StateDir)}
      (hwrites : StartWrites crypto dir mid) (hkey : mid.KeyKept adminKey)
      (hid : mid.IdSettled instanceId)
      (hload : tryLoadPersistedState crypto config adminKey instanceId mid = .ok state)
      (hnormal : normalizeTombstoneTimes state (env.clock 0) = (normal, true))
      (hmade : made <+: [installSnapshot adminKey normal, StateDir.truncateWal]) :
      StartMove config env dir none (applyAll made mid)

/-! ## A start makes these writes -/

variable {config : AuthConfig} {env : StartSurroundings} {Value : Type}

/-- The program makes writes of a start, and ends as `done` says. -/
def Starts (dir : StateDir) (program : FileM Value)
    (done : Value → StateDir → Prop) : Prop :=
  Triple (·.dir = dir) program
    (fun value files => StartWrites crypto dir files.dir ∧ done value files.dir)
    (fun _ files => StartWrites crypto dir files.dir)

variable {crypto} {dir : StateDir}

theorem Starts.bind {Next : Type} {program : FileM Value}
    {next : Value → FileM Next} {done : Next → StateDir → Prop}
    (middle : Value → StateDir → Prop)
    (hprogram : Starts crypto dir program middle)
    (hnext : ∀ value mid, middle value mid →
      Starts crypto mid (next value) done) :
    Starts crypto dir (program >>= next) done := by
  apply Triple.bind _ hprogram
  rintro value files ⟨hwrites, hmiddle⟩
  have hended := hnext value files.dir hmiddle files rfl
  cases hexec : (next value).exec files with
  | mk result last =>
      rw [hexec] at hended
      cases result with
      | ok value => exact ⟨hwrites.trans hended.1, hended.2⟩
      | error error => exact hwrites.trans hended

theorem Starts.pure {value : Value} {done : Value → StateDir → Prop}
    (hdone : done value dir) : Starts crypto dir (Pure.pure value) done := by
  rintro files rfl
  exact ⟨.refl, hdone⟩

theorem Starts.throw {stop : Interruption} {done : Value → StateDir → Prop} :
    Starts crypto dir (throw stop) done := by
  rintro files rfl
  exact .refl

theorem Starts.of_writes {changes : List (StateDir → StateDir)}
    {program : FileM Unit} (hwrites : Writes changes program)
    (hchain : ∀ made, made <+: changes →
      StartWrites crypto dir (applyAll made dir)) :
    Starts crypto dir program fun _ mid => mid = applyAll changes dir := by
  apply (hwrites dir).mono (fun _ => id)
  · intro _ files hdir
    rw [hdir]
    exact ⟨hchain changes List.prefix_rfl, rfl⟩
  · rintro _ files ⟨made, hmade, hdir⟩
    rw [hdir]
    exact hchain made hmade

/-- One write. -/
theorem Starts.of_write {change : StateDir → StateDir} {program : FileM Unit}
    (hwrites : Writes [change] program)
    (hwrite : StartWrite crypto dir (change dir)) :
    Starts crypto dir program fun _ mid => mid = change dir := by
  apply Starts.of_writes hwrites
  intro made hmade
  rcases List.prefix_cons_iff.mp hmade with rfl | ⟨rest, rfl, hrest⟩
  · exact .refl
  · rw [List.prefix_nil.mp hrest]
    exact .single hwrite

theorem starts_readDir : Starts crypto dir readDir
    fun read mid => read = dir ∧ mid = dir := by
  rintro files rfl
  exact ⟨.refl, rfl, rfl⟩

theorem starts_bareStep (report : String → AuthFailure) :
    Starts crypto dir (bareStep report) fun _ mid => mid = dir := by
  apply (bareStep_triple report dir).mono (fun _ => id)
  · rintro _ files rfl
    exact ⟨.refl, rfl⟩
  · rintro _ files ⟨rfl, -⟩
    exact .refl

theorem starts_readExisting {Content : Type} (report : String → AuthFailure)
    (content : Option Content) :
    Starts crypto dir (readExisting report content)
      fun value mid => value = content ∧ mid = dir := by
  cases content with
  | none => exact .pure ⟨rfl, rfl⟩
  | some content =>
      apply Starts.bind _ (starts_bareStep report)
      rintro _ mid rfl
      exact .pure ⟨rfl, rfl⟩

theorem starts_removeFile {remove : StateDir → StateDir}
    (hwrite : StartWrite crypto dir (remove dir)) :
    Starts crypto dir (removeFile remove)
      fun _ mid => mid = dir ∨ mid = remove dir := by
  have hchain : ∀ mid, mid = dir ∨ mid = remove dir →
      StartWrites crypto dir mid := by
    rintro mid (rfl | rfl)
    · exact .refl
    · exact .single hwrite
  apply (removeFile_triple remove dir).mono (fun _ => id)
  · exact fun _ files hdir => ⟨hchain _ hdir, hdir⟩
  · exact fun _ files hdir => hchain _ hdir.2

/-! ### The administrator key -/

theorem parseAdminKey_eq_ok {key parsed : AesKeyType}
    (hparse : parseAdminKey key = .ok parsed) : parsed = key := by
  rw [parseAdminKey] at hparse
  split at hparse
  · cases hparse
  split at hparse
  · exact (Except.ok.inj hparse).symm
  · cases hparse

theorem starts_seedAdminKey (stateDir : String) (source : KeySource)
    (hnone : dir.adminKey = none) :
    Starts crypto dir (seedAdminKey crypto stateDir source)
      fun key mid => mid.adminKey = some key := by
  have hwrite : ∀ key, encryptedAuthStateExists dir = false ∨
      keyMatchesExistingState crypto dir key = true →
        Starts crypto dir (writeAdminKey stateDir key >>= fun _ => Pure.pure key)
          fun key mid => mid.adminKey = some key := by
    intro key hstate
    apply Starts.bind _ (.of_write (writes_atomicWrite _ _ _)
      (.seedKey hnone hstate))
    rintro _ mid rfl
    exact .pure rfl
  cases source with
  | generated key =>
      apply Starts.bind _ starts_readDir
      rintro read mid ⟨rfl, rfl⟩
      simp only
      split
      · exact .bind (fun _ _ => False) .throw fun _ _ => False.elim
      · rename_i hnot
        exact hwrite key (.inl ((Bool.not_eq_true _).mp hnot))
  | configured key =>
      rw [seedAdminKey]
      simp only
      split
      · exact .bind (fun _ _ => False) .throw fun _ _ => False.elim
      · apply Starts.bind _ starts_readDir
        rintro read mid ⟨rfl, rfl⟩
        split
        · exact .bind (fun _ _ => False) .throw fun _ _ => False.elim
        · rename_i hnot
          apply hwrite key
          by_cases hexists : encryptedAuthStateExists mid = true
          · right
            simpa [hexists] using hnot
          · exact .inl ((Bool.not_eq_true _).mp hexists)

theorem starts_promoteKey (stateDir : String) {next : AesKeyType}
    (hstaged : dir.KeyStaged next) :
    Starts crypto dir (do
      truncateAuthWal stateDir
      writeAdminKey stateDir next
      removeNextAdminKey
      return next) fun key mid => mid.KeySettled key := by
  obtain ⟨current, blob, hcurrent, hblob, hclosed, hnext, hopens⟩ := hstaged
  have hstaged : dir.KeyStaged next :=
    ⟨current, blob, hcurrent, hblob, hclosed, hnext, hopens⟩
  have htruncated : dir.truncateWal.KeyStaged next :=
    ⟨current, blob, hcurrent, hblob, hclosed, hnext, hopens⟩
  apply Starts.bind _ (.of_write (writes_truncateAuthWal stateDir)
    (.truncateForKey hstaged))
  rintro _ truncated rfl
  apply Starts.bind _ (.of_write (writes_atomicWrite _ _ _)
    (.promoteKey htruncated rfl))
  rintro _ promoted hpromoted
  have hkey : promoted.adminKey = some next := congrArg StateDir.adminKey hpromoted
  have hsnapshot : promoted.snapshot = some blob :=
    (congrArg StateDir.snapshot hpromoted).trans hblob
  apply Starts.bind _ (starts_removeFile (.dropNextKey hkey hsnapshot hopens))
  rintro _ mid hmid
  apply Starts.pure
  have hkeep : mid.adminKey = some next ∧ mid.snapshot = some blob := by
    rcases hmid with rfl | rfl
    · exact ⟨hkey, hsnapshot⟩
    · exact ⟨hkey, hsnapshot⟩
  refine ⟨hkeep.1, ?_⟩
  rintro other ⟨key, found, hkey, hfound, hshut, -⟩
  rw [hkeep.1] at hkey
  rw [hkeep.2] at hfound
  cases hkey
  cases hfound
  rw [hopens] at hshut
  cases hshut

theorem starts_recoverAdminKey (stateDir : String) {current : AesKeyType}
    (hcurrent : dir.adminKey = some current) :
    Starts crypto dir (recoverAdminKeyAfterRotation stateDir current)
      fun key mid => mid.KeySettled key := by
  unfold recoverAdminKeyAfterRotation
  apply Starts.bind _ starts_readDir
  rintro read mid ⟨rfl, rfl⟩
  apply Starts.bind _ (starts_readExisting _ _)
  rintro found same ⟨rfl, rfl⟩
  cases hblob : same.snapshot with
  | none =>
      apply Starts.pure
      refine ⟨hcurrent, ?_⟩
      rintro next ⟨-, blob, -, hfound, -⟩
      rw [hblob] at hfound
      cases hfound
  | some blob =>
      simp only
      split
      · rename_i hopens
        apply Starts.pure
        refine ⟨hcurrent, ?_⟩
        rintro next ⟨key, found, hkey, hfound, hshut, -⟩
        rw [hcurrent] at hkey
        rw [hblob] at hfound
        cases hkey
        cases hfound
        rw [hopens] at hshut
        cases hshut
      · rename_i hclosed
        apply Starts.bind _ starts_readDir
        rintro read mid ⟨rfl, rfl⟩
        apply Starts.bind _ (starts_readExisting _ _)
        rintro staged last ⟨rfl, rfl⟩
        cases hnext : last.adminKeyNext with
        | none =>
            apply Starts.pure
            refine ⟨hcurrent, ?_⟩
            rintro next ⟨-, -, -, -, -, hfound, -⟩
            rw [hnext] at hfound
            cases hfound
        | some next =>
            simp only
            split
            · rename_i hshut
              apply Starts.pure
              refine ⟨hcurrent, ?_⟩
              rintro other ⟨-, found, -, hfound, -, hother, hopens⟩
              rw [hblob] at hfound
              rw [hnext] at hother
              cases hfound
              cases hother
              rw [hopens] at hshut
              cases hshut
            · rename_i hopens
              exact starts_promoteKey stateDir ⟨current, blob, hcurrent, hblob,
                (Bool.not_eq_true _).mp hclosed, hnext, by simpa using hopens⟩

theorem starts_settleAdminKey (stateDir : String) {raw : AesKeyType}
    {last : StateDir} (hraw : last.adminKey = some raw) :
    Starts crypto last (do
      let raw ← recoverAdminKeyAfterRotation stateDir raw
      match parseAdminKey raw with
      | .ok key => Pure.pure key
      | .error message => throw (.failed (administratorKeyInvalid message)))
      fun key mid => mid.KeySettled key ∧ parseAdminKey key = .ok key := by
  apply Starts.bind _ (starts_recoverAdminKey stateDir hraw)
  intro key mid hsettled
  cases hparse : parseAdminKey key with
  | error message => exact .throw
  | ok parsed =>
      obtain rfl := parseAdminKey_eq_ok hparse
      exact .pure ⟨hsettled, hparse⟩

theorem starts_loadServerAdminCredential (stateDir : String) (source : KeySource) :
    Starts crypto dir (loadServerAdminCredential crypto stateDir source)
      fun key mid => mid.KeySettled key ∧ parseAdminKey key = .ok key := by
  unfold loadServerAdminCredential
  apply Starts.bind _ starts_readDir
  rintro read mid ⟨rfl, rfl⟩
  apply Starts.bind _ (starts_readExisting _ _)
  rintro found same ⟨rfl, rfl⟩
  cases hkey : same.adminKey with
  | none =>
      exact .bind _ (starts_seedAdminKey stateDir source hkey) fun _ _ hraw =>
        starts_settleAdminKey stateDir hraw
  | some key =>
      exact .bind (fun raw last => last.adminKey = some raw) (.pure hkey)
        fun _ _ hraw => starts_settleAdminKey stateDir hraw

/-! ### The instance id -/

theorem StateDir.KeyKept.congr {dir dir' : StateDir} {adminKey : AesKeyType}
    (hkept : dir.KeyKept adminKey) (hkey : dir'.adminKey = dir.adminKey)
    (hnext : dir'.adminKeyNext = dir.adminKeyNext)
    (hsnapshot : dir'.snapshot = dir.snapshot) : dir'.KeyKept adminKey := by
  refine ⟨⟨hkey.trans hkept.1.1, fun next hstaged => hkept.1.2 next ?_⟩, hkept.2⟩
  rw [KeyStaged, hkey, hnext, hsnapshot] at hstaged
  exact hstaged

theorem starts_loadOrCreateInstanceId (stateDir : String) (fresh : InstanceId)
    {adminKey : AesKeyType} (hkept : dir.KeyKept adminKey) :
    Starts crypto dir (loadOrCreateInstanceId stateDir fresh)
      fun id mid => mid.instanceId = some id ∧ mid.KeyKept adminKey := by
  unfold loadOrCreateInstanceId
  apply Starts.bind _ starts_readDir
  rintro read mid ⟨rfl, rfl⟩
  apply Starts.bind _ (starts_readExisting _ _)
  rintro found same ⟨rfl, rfl⟩
  cases hid : same.instanceId with
  | some id => exact .pure ⟨hid, hkept⟩
  | none =>
      apply Starts.bind _ (.of_write (writes_atomicWrite _ _ _) (.writeId hid))
      rintro _ last rfl
      exact .pure ⟨rfl, hkept⟩

theorem starts_promoteId (stateDir : String) {next : InstanceId}
    {adminKey : AesKeyType} (hkept : dir.KeyKept adminKey)
    (hstaged : dir.IdStaged next) :
    Starts crypto dir (do
      truncateAuthWal stateDir
      writeInstanceId stateDir next
      removeNextInstanceId
      return next) fun id mid => mid.IdSettled id ∧ mid.KeyKept adminKey := by
  obtain ⟨current, blob, hkey, hblob, hcurrent, hother, hnext, hbelongs⟩ := hstaged
  have hstaged : dir.IdStaged next :=
    ⟨current, blob, hkey, hblob, hcurrent, hother, hnext, hbelongs⟩
  have htruncated : dir.truncateWal.IdStaged next :=
    ⟨current, blob, hkey, hblob, hcurrent, hother, hnext, hbelongs⟩
  apply Starts.bind _ (.of_write (writes_truncateAuthWal stateDir)
    (.truncateForId hstaged))
  rintro _ truncated rfl
  apply Starts.bind _ (.of_write (writes_atomicWrite _ _ _)
    (.promoteId htruncated rfl))
  rintro _ promoted hpromoted
  have hid : promoted.instanceId = some next :=
    congrArg StateDir.instanceId hpromoted
  have hsnapshot : promoted.snapshot = some blob :=
    (congrArg StateDir.snapshot hpromoted).trans hblob
  have hadmin : promoted.adminKey = some blob.key :=
    (congrArg StateDir.adminKey hpromoted).trans hkey
  have hbelongs' : ∀ found, promoted.snapshot = some found →
      promoted.adminKey = some found.key ∧ found.plain.instanceId = next := by
    intro found hfound
    rw [hsnapshot] at hfound
    cases hfound
    exact ⟨hadmin, hbelongs⟩
  have hpromotedKept : promoted.KeyKept adminKey :=
    hkept.congr (by rw [hpromoted]; rfl) (by rw [hpromoted]; rfl)
      (by rw [hpromoted]; rfl)
  apply Starts.bind _ (starts_removeFile (.dropNextId hid hbelongs'))
  rintro _ mid hmid
  apply Starts.pure
  have hsame : mid.instanceId = some next ∧ mid.snapshot = some blob ∧
      mid.KeyKept adminKey := by
    rcases hmid with rfl | rfl
    · exact ⟨hid, hsnapshot, hpromotedKept⟩
    · exact ⟨hid, hsnapshot, hpromotedKept.congr rfl rfl rfl⟩
  refine ⟨⟨hsame.1, ?_⟩, hsame.2.2⟩
  rintro other ⟨live, found, -, hfound, hlive, hne, -⟩
  rw [hsame.1] at hlive
  rw [hsame.2.1] at hfound
  cases hlive
  cases hfound
  exact hne hbelongs

theorem starts_recoverInstanceId (stateDir : String) {adminKey : AesKeyType}
    {current : InstanceId} (hkept : dir.KeyKept adminKey)
    (hcurrent : dir.instanceId = some current) :
    Starts crypto dir (recoverInstanceIdAfterReset stateDir adminKey current)
      fun id mid => mid.IdSettled id ∧ mid.KeyKept adminKey := by
  unfold recoverInstanceIdAfterReset
  apply Starts.bind _ starts_readDir
  rintro read mid ⟨rfl, rfl⟩
  apply Starts.bind _ (starts_readExisting _ _)
  rintro staged same ⟨rfl, rfl⟩
  cases hnext : same.instanceIdNext with
  | none =>
      apply Starts.pure
      refine ⟨⟨hcurrent, ?_⟩, hkept⟩
      rintro next ⟨-, -, -, -, -, -, hfound, -⟩
      rw [hnext] at hfound
      cases hfound
  | some next =>
      apply Starts.bind _ starts_readDir
      rintro read mid ⟨rfl, rfl⟩
      apply Starts.bind _ (starts_readExisting _ _)
      rintro found last ⟨rfl, rfl⟩
      -- a staged id that is not needed is removed
      have hdropped : (∀ blob, last.snapshot = some blob →
          last.adminKey = some blob.key ∧ blob.plain.instanceId = current) →
            Starts crypto last (do
              removeNextInstanceId
              return current)
              fun id mid => mid.IdSettled id ∧ mid.KeyKept adminKey := by
        intro hbelongs
        apply Starts.bind _ (starts_removeFile (.dropNextId hcurrent hbelongs))
        rintro _ mid hmid
        apply Starts.pure
        have hsame : mid.instanceId = some current ∧
            mid.snapshot = last.snapshot ∧ mid.KeyKept adminKey := by
          rcases hmid with rfl | rfl
          · exact ⟨hcurrent, rfl, hkept⟩
          · exact ⟨hcurrent, rfl, hkept.congr rfl rfl rfl⟩
        refine ⟨⟨hsame.1, ?_⟩, hsame.2.2⟩
        rintro other ⟨live, blob, -, hblob, hlive, hne, -⟩
        rw [hsame.1] at hlive
        rw [hsame.2.1] at hblob
        cases hlive
        exact hne (hbelongs blob hblob).2
      cases hblob : last.snapshot with
      | none =>
          apply hdropped
          intro blob hfound
          rw [hblob] at hfound
          cases hfound
      | some blob =>
          have hadmin := hkept.1.1
          by_cases hopens : blob.key = adminKey
          · have hread : openBlob adminKey blob = .ok blob.plain := if_pos hopens
            simp only [hread]
            split
            · rename_i hlive
              apply hdropped
              intro found hfound
              rw [hblob] at hfound
              cases hfound
              rw [hadmin, hopens]
              exact ⟨rfl, hlive⟩
            · rename_i hdead
              split
              · rename_i hother
                apply Starts.pure
                refine ⟨⟨hcurrent, ?_⟩, hkept⟩
                rintro staged ⟨live, found, -, hfound, -, -, hstaged, hbelongs⟩
                rw [hblob] at hfound
                rw [hnext] at hstaged
                cases hfound
                cases hstaged
                exact hother hbelongs
              · rename_i hbelongs
                rw [not_not] at hbelongs
                apply starts_promoteId stateDir hkept
                refine ⟨current, blob, ?_, hblob, hcurrent, hdead, hnext, hbelongs⟩
                rw [hadmin, hopens]
          · have hread : ∃ failure, openBlob adminKey blob = .error failure :=
              ⟨_, if_neg hopens⟩
            obtain ⟨failure, hread⟩ := hread
            simp only [hread]
            apply Starts.pure
            refine ⟨⟨hcurrent, ?_⟩, hkept⟩
            rintro staged ⟨live, found, hkey, hfound, -⟩
            rw [hblob] at hfound
            cases hfound
            rw [hadmin] at hkey
            exact hopens (Option.some.inj hkey).symm

/-! ### The start -/

/-- What is loaded is what the directory holds, or nothing is. -/
theorem loadPersistedState_triple (adminKey : AesKeyType) (instanceId : InstanceId)
    (dir : StateDir) :
    Triple (·.dir = dir) (loadPersistedState crypto config adminKey instanceId)
      (fun loaded files => files.dir = dir ∧
        (loaded = (none, true) ∨ ∃ state, loaded = (some state, false) ∧
          tryLoadPersistedState crypto config adminKey instanceId dir = .ok state))
      (fun _ files => files.dir = dir) := by
  unfold loadPersistedState
  apply Triple.bind _ ((readDir_triple dir).mono (fun _ => id) (fun _ _ => id)
    fun _ _ => False.elim)
  intro read
  apply Triple.assume
  rintro rfl
  have hreads : Writes [] (do
      if read.snapshot.isSome then
        bareStep (storeUnavailable · false)
      if read.wal.isSome then
        bareStep (storeUnavailable · false)) := by
    simp only
    split
    · exact (Writes.bareStep _).bind (.ite (Writes.bareStep _) .pure)
    · exact .ite (Writes.bareStep _) .pure
  have hsame : ∀ made, made <+: ([] : List (StateDir → StateDir)) →
      applyAll made read = read := by
    intro made hmade
    rw [List.prefix_nil.mp hmade, applyAll_nil]
  apply Triple.bind (fun _ files => files.dir = read)
  · apply (attempt_triple (hreads read)).mono (fun _ => id)
    · rintro (failure | _) files hfiles
      · obtain ⟨made, hmade, hdir⟩ := hfiles
        rw [hdir, hsame made hmade]
      · exact hfiles
    · rintro _ files ⟨-, made, hmade, hdir⟩
      rw [hdir, hsame made hmade]
  intro reads
  cases hload : tryLoadPersistedState crypto config adminKey instanceId read with
  | error failure =>
      cases reads with
      | ok _ => exact .pure fun files hfiles => ⟨hfiles, .inl rfl⟩
      | error _ => exact .pure fun files hfiles => ⟨hfiles, .inl rfl⟩
  | ok state =>
      cases reads with
      | ok _ => exact .pure fun files hfiles => ⟨hfiles, .inr ⟨state, rfl, rfl⟩⟩
      | error _ => exact .pure fun files hfiles => ⟨hfiles, .inl rfl⟩

theorem startLocked_moves {mid : StateDir} {adminKey : AesKeyType}
    (hwrites : StartWrites crypto dir mid) (hkept : mid.KeyKept adminKey) :
    Triple (·.dir = mid)
      (startLocked crypto config adminKey env.clock env.freshInstanceId)
      (fun memory files => StartMove crypto config env dir (some memory) files.dir)
      (fun _ files => StartMove crypto config env dir none files.dir) := by
  unfold startLocked
  apply Triple.bind _ (Triple.mono
    (starts_loadOrCreateInstanceId config.stateDir env.freshInstanceId hkept)
    (fun _ => id) (fun _ _ => id) fun _ files hmore => .cut (hwrites.trans hmore))
  rintro current created ⟨hcreated, hcurrent, hcreatedKey⟩
  refine Triple.bind _ (Triple.mono
    (starts_recoverInstanceId config.stateDir hcreatedKey hcurrent)
    (fun _ => id) (fun _ _ => id) fun _ files hmore =>
      .cut ((hwrites.trans hcreated).trans hmore)) ?_ created rfl
  rintro instanceId recovered ⟨hrecovered, hid, hkey⟩
  have hchain := (hwrites.trans hcreated).trans hrecovered
  refine Triple.bind _ (Triple.mono
    (loadPersistedState_triple adminKey instanceId recovered.dir) (fun _ => id)
    (fun _ _ => id) fun _ files hsame => ?_) ?_ recovered rfl
  · rw [hsame]
    exact .cut hchain
  rintro loaded read ⟨hread, rfl | ⟨state, rfl, hload⟩⟩
  · change StartMove crypto config env dir (some _) read.dir
    rw [hread]
    exact .safeMode hchain hkey hid
  cases hnormal : normalizeTombstoneTimes state (env.clock 0) with
  | mk normal changed =>
      have hprogram : normalizeLoaded config adminKey (env.clock 0) (some state) =
          (if changed then
              writeSnapshotAndTruncateWal config.stateDir adminKey normal
            else pure ()) >>= fun _ => pure (some normal) := by
        rw [normalizeLoaded, hnormal]
        cases changed <;> rfl
      have hwritten : Triple (·.dir = recovered.dir)
          (if changed then
            writeSnapshotAndTruncateWal config.stateDir adminKey normal
          else pure ())
          (fun _ files => files.dir = if changed then
            recovered.dir.compacted adminKey normal else recovered.dir)
          (fun _ files => StartMove crypto config env dir none files.dir) := by
        cases changed with
        | true =>
            apply (writes_writeSnapshotAndTruncateWal config.stateDir adminKey normal
              recovered.dir).mono (fun _ => id) (fun _ _ => id)
            rintro _ files ⟨made, hmade, hdir⟩
            rw [hdir]
            exact .normalizeCut hchain hkey hid hload hnormal hmade
        | false => exact .pure fun files hfiles => hfiles
      simp only [hprogram, bind_assoc]
      refine Triple.bind _ hwritten ?_ read hread
      rintro _ files hfiles
      exact .loaded hchain hkey hid hload hnormal hfiles

variable (crypto config env) in
/-- Everything a start does. -/
theorem start_moves (dir : StateDir) :
    Triple (·.dir = dir) (startServer crypto config env)
      (fun memory files => StartMove crypto config env dir (some memory) files.dir)
      (fun _ files => StartMove crypto config env dir none files.dir) := by
  unfold startServer
  apply Triple.bind _ (Triple.mono
    (starts_loadServerAdminCredential config.stateDir env.keySource) (fun _ => id)
    (fun _ _ => id) fun _ files => .cut)
  rintro adminKey files ⟨hfirst, hkey⟩
  exact startLocked_moves hfirst hkey files rfl

/-! ## Histories -/

/-- Everything an event does to a history. -/
inductive HistoryMove (crypto : AuthCrypto) (history : AuthHistory) :
    AuthEvent → AuthHistory → Prop where
  | started {config : AuthConfig} {env : StartSurroundings}
      {outcomes : List FileOutcome} {memory : AuthMemory} {dir : StateDir}
      (hidle : history.server = none)
      (hmove : StartMove crypto config env history.dir (some memory) dir) :
      HistoryMove crypto history (.start config env outcomes)
        ⟨dir, some ⟨config, memory⟩,
          history.records ++ [.started memory.inner.safeMode]⟩
  | startCut {config : AuthConfig} {env : StartSurroundings}
      {outcomes : List FileOutcome} {dir : StateDir}
      (hidle : history.server = none)
      (hmove : StartMove crypto config env history.dir none dir) :
      HistoryMove crypto history (.start config env outcomes)
        ⟨dir, none, history.records⟩
  | answered {server : AuthServer} {env : Surroundings} {authority : LeaseId}
      {command : AuthCommand} {outcomes : List FileOutcome}
      {result : Except AuthFailure AuthResponse} {last : AuthMemory}
      {dir : StateDir} (hserver : history.server = some server)
      (hmove : CommandMove crypto server.config env server.memory history.dir command
        (answer result) last dir) :
      HistoryMove crypto history (.command env authority command outcomes)
        ⟨dir, some ⟨server.config, last⟩,
          history.records ++ [.answered (env.clock 0) command result]⟩
  | commandStopped {server : AuthServer} {env : Surroundings} {authority : LeaseId}
      {command : AuthCommand} {outcomes : List FileOutcome} {last : AuthMemory}
      {dir : StateDir} (hserver : history.server = some server)
      (hmove : CommandMove crypto server.config env server.memory history.dir command
        (.error .stopped) last dir) :
      HistoryMove crypto history (.command env authority command outcomes)
        ⟨dir, none, history.records⟩
  | ticked {server : AuthServer} {now : Seconds} {outcomes : List FileOutcome}
      {result : Except AuthFailure Unit} {last : AuthMemory} {dir : StateDir}
      (hserver : history.server = some server)
      (hmove : TickMove now server.memory history.dir (answer result) last dir) :
      HistoryMove crypto history (.tick now outcomes)
        ⟨dir, some ⟨server.config, last⟩, history.records⟩
  | tickStopped {server : AuthServer} {now : Seconds} {outcomes : List FileOutcome}
      {last : AuthMemory} {dir : StateDir} (hserver : history.server = some server)
      (hmove :
        TickMove now server.memory history.dir (.error .stopped) last dir) :
      HistoryMove crypto history (.tick now outcomes) ⟨dir, none, history.records⟩
  | authenticate {server : AuthServer} {keyId : KeyId} {presentedKey : AesKeyType}
      {now : Seconds} (hserver : history.server = some server) :
      HistoryMove crypto history (.authenticate keyId presentedKey now)
        { history with
          server := some { server with
            memory := (server.memory.authenticatePresented crypto keyId
              presentedKey now).2 } }
  | check {server : AuthServer} {check : CredentialCheck}
      (hserver : history.server = some server) :
      HistoryMove crypto history (.check check)
        { history with
          server := some { server with
            memory := server.memory.check crypto check } }
  | stop {server : AuthServer} (hserver : history.server = some server) :
      HistoryMove crypto history .stop { history with server := none }

theorem step_moves {history next : AuthHistory} {event : AuthEvent}
    (hstep : history.step crypto event = some next) :
    HistoryMove crypto history event next := by
  cases event with
  | start config env outcomes =>
      rw [AuthHistory.step] at hstep
      split at hstep
      · rename_i hidle
        rw [← Option.some.inj hstep, AuthHistory.start]
        have hmoves := start_moves crypto config env history.dir
          ⟨history.dir, outcomes⟩ rfl
        split
        · rename_i memory files hexec
          rw [hexec] at hmoves
          exact .started hidle hmoves
        · rename_i stop files hexec
          rw [hexec] at hmoves
          exact .startCut hidle hmoves
      · cases hstep
  | command env authority command outcomes =>
      obtain ⟨server, hserver, hnext⟩ := Option.bind_eq_some_iff.mp hstep
      rw [← Option.some.inj hnext]
      have hmoves := command_moves crypto server.config env authority command
        ⟨server.memory, ⟨history.dir, outcomes⟩⟩ ⟨rfl, rfl⟩
      cases hexec : (actorCommand crypto server.config env authority command).exec
          ⟨server.memory, ⟨history.dir, outcomes⟩⟩ with
      | mk ended world =>
          rw [hexec] at hmoves
          rcases ended with (failure | _) | response
          · change CommandMove _ _ _ _ _ _ (answer (.error failure)) _ _ at hmoves
            exact .answered hserver hmoves
          · exact .commandStopped hserver hmoves
          · change CommandMove _ _ _ _ _ _ (answer (.ok response)) _ _ at hmoves
            exact .answered hserver hmoves
  | tick now outcomes =>
      obtain ⟨server, hserver, hnext⟩ := Option.bind_eq_some_iff.mp hstep
      rw [← Option.some.inj hnext]
      have hmoves := tick_moves server.config now
        ⟨server.memory, ⟨history.dir, outcomes⟩⟩ ⟨rfl, rfl⟩
      cases hexec : (actorTick server.config now).exec
          ⟨server.memory, ⟨history.dir, outcomes⟩⟩ with
      | mk ended world =>
          rw [hexec] at hmoves
          rcases ended with (failure | _) | ⟨⟩
          · change TickMove _ _ _ (answer (.error failure)) _ _ at hmoves
            rw [AuthHistory.finish, List.append_nil]
            exact .ticked hserver hmoves
          · exact .tickStopped hserver hmoves
          · change TickMove _ _ _ (answer (.ok ())) _ _ at hmoves
            rw [AuthHistory.finish, List.append_nil]
            exact .ticked hserver hmoves
  | authenticate keyId presentedKey now =>
      obtain ⟨server, hserver, hnext⟩ := Option.bind_eq_some_iff.mp hstep
      rw [← Option.some.inj hnext]
      exact .authenticate hserver
  | check check =>
      obtain ⟨server, hserver, hnext⟩ := Option.bind_eq_some_iff.mp hstep
      rw [← Option.some.inj hnext]
      exact .check hserver
  | stop =>
      obtain ⟨server, hserver, hnext⟩ := Option.bind_eq_some_iff.mp hstep
      rw [← Option.some.inj hnext]
      exact .stop hserver

end PbMapper.Auth
