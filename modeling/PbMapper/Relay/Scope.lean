import PbMapper.Auth.Types
import PbMapper.Foundation.Hexadecimal
import PbMapper.Foundation.MachineWord
import Mathlib.Data.List.TakeWhile

/-!
# Namespaces and scoped service keys

Services are routed by one string, made of the namespace of the credential and
the service name.  The string is built by `scopedServiceKey` from names that
were checked, and every per-namespace count and list takes it apart again with
`splitScopedServiceKey`; the two are inverse.
-/

namespace PbMapper.Relay

open Auth

/-- `Arc<str>`: the text of a routing key. -/
abbrev ImutableKey := List Char

/-! ## Admission -/

def resolveNamespace (context : AuthContext) (requested : Option UInt64)
    (forceRegisterNamespace isRegister : Bool) : Except AuthFailure UInt64 :=
  let nameSpace := requested.getD context.nameSpace
  if !context.isAdmin && nameSpace != context.nameSpace then
    .error ⟨"namespace_access_denied",
      "temporary credentials can only access their own namespace", false⟩
  else if context.isAdmin && isRegister && nameSpace != 0 &&
      !forceRegisterNamespace then
    .error ⟨"namespace_force_required",
      "administrator registration in a temporary namespace requires --force",
      false⟩
  else .ok nameSpace

/-- `str::len`. -/
def byteLength (text : List Char) : ℕ := (text.map Char.utf8Size).sum

/-- The bytes temporary keys may use in service names. -/
def isServiceNameChar (c : Char) : Bool :=
  ('a' ≤ c && c ≤ 'z') || ('A' ≤ c && c ≤ 'Z') || ('0' ≤ c && c ≤ '9') ||
    c == '.' || c == '_' || c == ':' || c == '-'

def nul : Char := '\x00'

/-- The key of a service name in a namespace, `@{namespace:016x}\0{name}`
outside namespace 0. -/
def scopeKey (nameSpace : UInt64) (serviceName : List Char) : ImutableKey :=
  if nameSpace = 0 then serviceName
  else '@' :: Hexadecimal.format 16 nameSpace.toNat ++ nul :: serviceName

def scopedServiceKey (context : AuthContext) (nameSpace : UInt64)
    (serviceName : List Char) : Except AuthFailure ImutableKey :=
  if serviceName = [] ∨ 1024 < byteLength serviceName ∨ nul ∈ serviceName then
    .error ⟨"service_name_invalid",
      "service names must be 1-1024 bytes and must not contain NUL", false⟩
  else if !context.isAdmin &&
      (128 < byteLength serviceName || !serviceName.all isServiceNameChar) then
    .error ⟨"service_name_invalid",
      "temporary-key service names must be 1-128 ASCII bytes from " ++
        "[A-Za-z0-9._:-]", false⟩
  else .ok (scopeKey nameSpace serviceName)

theorem scopedServiceKey_eq_ok {context : AuthContext} {nameSpace : UInt64}
    {serviceName : List Char} {key : ImutableKey}
    (hscoped : scopedServiceKey context nameSpace serviceName = .ok key) :
    nul ∉ serviceName ∧ key = scopeKey nameSpace serviceName := by
  unfold scopedServiceKey at hscoped
  split at hscoped
  · cases hscoped
  · rename_i hname
    split at hscoped
    · cases hscoped
    · exact ⟨fun hmem => hname (.inr (.inr hmem)),
        (Except.ok.inj hscoped).symm⟩

/-! ## Splitting -/

/-- `str::split_once`. -/
def splitOnce (separator : Char) (text : List Char) :
    Option (List Char × List Char) :=
  match text.dropWhile (· != separator) with
  | [] => none
  | _ :: rest => some (text.takeWhile (· != separator), rest)

theorem splitOnce_append {separator : Char} {first rest : List Char}
    (hfirst : separator ∉ first) :
    splitOnce separator (first ++ separator :: rest) = some (first, rest) := by
  have hall : ∀ c ∈ first, (c != separator) = true := by
    rintro c hmem
    simpa using ne_of_mem_of_not_mem hmem hfirst
  simp [splitOnce, List.dropWhile_append_of_pos hall,
    List.takeWhile_append_of_pos hall]

theorem splitOnce_eq_none {separator : Char} {text : List Char}
    (htext : separator ∉ text) : splitOnce separator text = none := by
  have hdrop : text.dropWhile (· != separator) = [] := by
    rw [List.dropWhile_eq_nil_iff]
    rintro c hmem
    simpa using ne_of_mem_of_not_mem hmem htext
  simp [splitOnce, hdrop]

def splitScopedServiceKey (key : ImutableKey) : UInt64 × List Char :=
  match splitOnce nul key with
  | some ('@' :: hex, name) =>
      match Hexadecimal.parse MachineWord.u64Max hex with
      | some nameSpace => (UInt64.ofNat nameSpace, name)
      | none => (0, key)
  | _ => (0, key)

/-- Splitting undoes scoping. -/
theorem splitScopedServiceKey_scopeKey {nameSpace : UInt64}
    {serviceName : List Char} (hname : nul ∉ serviceName) :
    splitScopedServiceKey (scopeKey nameSpace serviceName) =
      (nameSpace, serviceName) := by
  unfold splitScopedServiceKey
  by_cases hzero : nameSpace = 0
  · rw [scopeKey, if_pos hzero, splitOnce_eq_none hname, hzero]
  · have hhex : nul ∉ '@' :: Hexadecimal.format 16 nameSpace.toNat := by
      rw [List.mem_cons, not_or]
      exact ⟨by decide, fun hmem => (Hexadecimal.ne_of_mem_format hmem).2 rfl⟩
    have hlt : nameSpace.toNat < 2 ^ 64 := nameSpace.toNat_lt
    have hparse : Hexadecimal.parse MachineWord.u64Max
        (Hexadecimal.format 16 nameSpace.toNat) = some nameSpace.toNat :=
      Hexadecimal.parse_format (by decide) (by omega)
        (by rw [MachineWord.u64Max]; omega)
    rw [scopeKey, if_neg hzero, splitOnce_append hhex]
    simp [hparse]

/-! ## Scoped services -/

/-- A service name that passed the checks, with the credential and namespace it
was presented under. -/
structure ScopedService where
  context : AuthContext
  nameSpace : UInt64
  serviceName : List Char
  key : ImutableKey
  isScoped : scopedServiceKey context nameSpace serviceName = .ok key

namespace ScopedService

theorem split_key (service : ScopedService) :
    splitScopedServiceKey service.key =
      (service.nameSpace, service.serviceName) := by
  obtain ⟨hname, hkey⟩ := scopedServiceKey_eq_ok service.isScoped
  rw [hkey]
  exact splitScopedServiceKey_scopeKey hname

/-- A routing key has one namespace and one service name. -/
theorem eq_of_key_eq {service other : ScopedService}
    (hkey : service.key = other.key) :
    service.nameSpace = other.nameSpace ∧
      service.serviceName = other.serviceName := by
  have hsplit := service.split_key
  rw [hkey, split_key] at hsplit
  exact ⟨(congrArg Prod.fst hsplit).symm, (congrArg Prod.snd hsplit).symm⟩

end ScopedService

/-- `scope_service_or_reject`, with the evidence its caller keeps. -/
def scopeServiceOrReject (context : AuthContext) (nameSpace : UInt64)
    (serviceName : List Char) : Except AuthFailure ScopedService :=
  match hscoped : scopedServiceKey context nameSpace serviceName with
  | .ok key => .ok ⟨context, nameSpace, serviceName, key, hscoped⟩
  | .error failure => .error failure

end PbMapper.Relay
