import PbMapper.Auth.Ids
import PbMapper.Core.Checksum

/-!
# Shared types of the authentication crate
-/

namespace PbMapper.Auth

/-- A refusal as it is reported to a peer. -/
structure AuthFailure where
  code : String
  message : String
  retryable : Bool
deriving DecidableEq, Repr

/-- Where the lease of a credential lives: a `Weak<AuthLease>`. -/
abbrev LeaseId := ℕ

def adminNamespace : UInt64 := 0

/-- The namespace `AuthContext::from_lease` gives a credential. -/
def leaseNamespace (keyId : KeyId) (isAdmin : Bool) : UInt64 :=
  if isAdmin then adminNamespace else UInt64.ofNat keyId.asU64

/-- An authenticated credential.  Contexts are built from a lease only, so the
namespace is the one of the key. -/
structure AuthContext where
  keyId : KeyId
  nameSpace : UInt64
  isAdmin : Bool
  lease : LeaseId
  nameSpace_eq : nameSpace = leaseNamespace keyId isAdmin
deriving DecidableEq

def AuthContext.fromLease (keyId : KeyId) (isAdmin : Bool) (lease : LeaseId) :
    AuthContext :=
  ⟨keyId, leaseNamespace keyId isAdmin, isAdmin, lease, rfl⟩

end PbMapper.Auth
