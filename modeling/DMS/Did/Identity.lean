import DMS.Core.GoText

/-! # Decentralised identifiers and what resolves them

The identifier type of `lib/did/did.go` and the parts of the `Anchor`, `Provider`
and `TrustContext` interfaces that capability tokens use. Key material, hardware
wallets and the network resolver stay behind these interfaces.
-/

namespace DMS.Did

structure DID where
  uri : GoString
deriving DecidableEq, Repr

namespace DID

/-- The zero value `did.DID{}`. -/
def zero : DID := ⟨[]⟩

def equal (did other : DID) : Bool := decide (did.uri = other.uri)

def empty (did : DID) : Bool := decide (did.uri = [])

def fromString (s : GoString) : Except String DID :=
  if s = [] then .ok zero
  else
    let parts := s.splitOn 58
    if parts.length ≠ 3 ∨ [] ∈ parts then .error ("invalid DID: " ++ printed s)
    else .ok ⟨s⟩

@[simp] theorem equal_iff {did other : DID} : did.equal other = true ↔ did = other := by
  cases did; cases other; simp [equal]

@[simp] theorem equal_eq_false_iff {did other : DID} : did.equal other = false ↔ did ≠ other := by
  cases did; cases other; simp [equal]

theorem fromString_eq_ok {s did} (h : fromString s = .ok did) : did.uri = s := by
  unfold fromString at h
  split at h
  · next hnil =>
    cases h
    exact hnil.symm
  dsimp only at h
  split at h
  · cases h
  · cases h
    rfl

end DID

/-- A public key that checks a signature over some data; the error is its text. -/
structure Anchor where
  verify : (data sig : GoString) → Except GoString Unit

structure Provider where
  did : DID
  sign : (data : GoString) → Except GoString GoString

structure TrustContext where
  getAnchor : DID → Except GoString Anchor
  getProvider : DID → Except GoString Provider

end DMS.Did
