import PbMapper.Foundation.Table
import Mathlib.Algebra.Group.Nat.Defs
import Mathlib.Data.List.Nodup

/-!
# Connection identities

The manager's bookkeeping of connection identities: which identities are free
for reuse, and which have a channel signed up.  An identity is handed out from
the free list or minted, and becomes free again when its channel is
deregistered.
-/

namespace PbMapper.Relay

/-- `RemoteConnId(u32)`. -/
structure RemoteConnId where
  asU32 : ℕ
  lt : asU32 < 2 ^ 32
deriving Repr

namespace RemoteConnId

@[ext]
theorem ext {left right : RemoteConnId} (heq : left.asU32 = right.asU32) :
    left = right := by
  cases left
  cases right
  simp_all

instance : DecidableEq RemoteConnId := fun _ _ =>
  decidable_of_iff _ RemoteConnId.ext_iff.symm

theorem zero_lt : 0 < 2 ^ 32 := Nat.two_pow_pos _

theorem mod_lt (value : ℕ) : value % 2 ^ 32 < 2 ^ 32 := Nat.mod_lt _ zero_lt

def default : RemoteConnId := ⟨0, zero_lt⟩

/-- `RemoteConnId::from(u32)`. -/
def ofNat (value : ℕ) : RemoteConnId := ⟨value % 2 ^ 32, mod_lt value⟩

end RemoteConnId

/-! ## The provider -/

structure RemoteIdProvider where
  nextId : RemoteConnId
deriving DecidableEq

namespace RemoteIdProvider

def new : RemoteIdProvider := ⟨.default⟩

/-- The id counter wraps, as unchecked `u32` addition does in a release
build. -/
def getNextId (provider : RemoteIdProvider) : RemoteConnId × RemoteIdProvider :=
  (provider.nextId, ⟨.ofNat (provider.nextId.asU32 + 1)⟩)

def isValidId (provider : RemoteIdProvider) (id : RemoteConnId) : Bool :=
  id.asU32 < provider.nextId.asU32

end RemoteIdProvider

/-! ## The task manager -/

/-- The identity state of `TaskManager`; the head of `idleConnIdList` is the end
of the vector, where it is pushed and popped. -/
structure TaskManager (Sender : Type*) where
  connIdProvider : RemoteIdProvider
  idleConnIdList : List RemoteConnId
  activeConnMap : Table RemoteConnId Sender

namespace TaskManager

variable {Sender : Type*}

def new : TaskManager Sender := ⟨.new, [], ∅⟩

variable (manager : TaskManager Sender)

def getConnSenderChan (connId : RemoteConnId) : Option Sender :=
  manager.activeConnMap.lookup connId

def deregisterConn (connId : RemoteConnId) : TaskManager Sender × Bool :=
  if (manager.activeConnMap.lookup connId).isNone then (manager, false)
  else
    ({ manager with
        activeConnMap := manager.activeConnMap.erase connId
        idleConnIdList :=
          if connId ∈ manager.idleConnIdList then manager.idleConnIdList
          else connId :: manager.idleConnIdList }, true)

/-- Whether a popped identity is handed out. -/
def reusable (actionServerIds : List RemoteConnId) (connId : RemoteConnId) :
    Bool :=
  manager.connIdProvider.isValidId connId &&
    (manager.activeConnMap.lookup connId).isNone &&
      !actionServerIds.contains connId

/-- The loop of `get_conn_id` over the free list; unusable entries are
dropped. -/
def popIdle (actionServerIds : List RemoteConnId) :
    List RemoteConnId → RemoteConnId × TaskManager Sender
  | [] =>
      let (connId, provider) := manager.connIdProvider.getNextId
      (connId, { manager with
        connIdProvider := provider
        idleConnIdList := [] })
  | connId :: rest =>
      if manager.reusable actionServerIds connId then
        (connId, { manager with idleConnIdList := rest })
      else popIdle actionServerIds rest

def getConnId (actionServerIds : List RemoteConnId) :
    RemoteConnId × TaskManager Sender :=
  manager.popIdle actionServerIds manager.idleConnIdList

def signUpConnSender (connId : RemoteConnId) (sender : Sender) :
    TaskManager Sender :=
  if manager.connIdProvider.isValidId connId then
    { manager with activeConnMap := manager.activeConnMap.insert connId sender }
  else manager

/-! ## What the operations do -/

section Deregister

variable {manager} {connId other : RemoteConnId}

@[simp]
theorem deregisterConn_provider :
    (manager.deregisterConn connId).1.connIdProvider =
      manager.connIdProvider := by
  unfold deregisterConn
  split <;> rfl

/-- Deregistering removes the channel of one identity. -/
theorem lookup_deregisterConn :
    (manager.deregisterConn connId).1.activeConnMap.lookup other =
      if other = connId then none
      else manager.activeConnMap.lookup other := by
  unfold deregisterConn
  split
  · rename_i hnone
    split
    · rename_i heq
      subst heq
      exact Option.isNone_iff_eq_none.mp hnone
    · rfl
  · exact Table.lookup_erase _ _ _

/-- An identity becomes free exactly when its channel is removed. -/
theorem mem_idle_deregisterConn :
    other ∈ (manager.deregisterConn connId).1.idleConnIdList ↔
      other ∈ manager.idleConnIdList ∨
        other = connId ∧ manager.activeConnMap.lookup connId ≠ none := by
  unfold deregisterConn
  split
  · rename_i hnone
    simp [Option.isNone_iff_eq_none.mp hnone]
  · rename_i hsome
    have hne : manager.activeConnMap.lookup connId ≠ none := by
      simpa using hsome
    split
    · rename_i hmem
      refine ⟨.inl, ?_⟩
      rintro (hold | ⟨rfl, -⟩)
      · exact hold
      · exact hmem
    · rw [List.mem_cons]
      exact ⟨fun h => h.elim (fun heq => .inr ⟨heq, hne⟩) .inl,
        fun h => h.elim .inr fun heq => .inl heq.1⟩

end Deregister

section GetConnId

variable {manager} {actionServerIds : List RemoteConnId}

end GetConnId

section SignUp

variable {manager} {connId other : RemoteConnId} {sender : Sender}

@[simp]
theorem signUpConnSender_provider :
    (manager.signUpConnSender connId sender).connIdProvider =
      manager.connIdProvider := by
  unfold signUpConnSender
  split <;> rfl

@[simp]
theorem signUpConnSender_idle :
    (manager.signUpConnSender connId sender).idleConnIdList =
      manager.idleConnIdList := by
  unfold signUpConnSender
  split <;> rfl

theorem lookup_signUpConnSender_ne (hne : other ≠ connId) :
    (manager.signUpConnSender connId sender).activeConnMap.lookup other =
      manager.activeConnMap.lookup other := by
  unfold signUpConnSender
  split
  · exact AList.lookup_insert_ne hne
  · rfl

end SignUp

end TaskManager

end PbMapper.Relay
