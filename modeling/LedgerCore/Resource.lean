/-
Fungible resources: the address that names one, and the definition that a
resource substate carries. One address is reserved for the native resource,
the one that fees are paid in.
-/
import LedgerCore.Authority

namespace LedgerCore

/-- The address of a resource definition. -/
structure ResourceAddr where
  bytes : Bytes
deriving DecidableEq

namespace ResourceAddr

/-- The resource that pays fees, unless a ledger says otherwise. -/
def native : ResourceAddr := ⟨[0x01]⟩

/-- Whether an address is that of the native resource. -/
def isNative (addr : ResourceAddr) : Bool := addr == native

/-- Hexadecimal text. -/
def text (addr : ResourceAddr) : String := Bytes.hex addr.bytes

instance : Inhabited ResourceAddr := ⟨native⟩
instance : Ord ResourceAddr := ⟨compareOn bytes⟩

instance : Std.TransOrd ResourceAddr := inferInstanceAs (Std.TransCmp (compareOn bytes))

end ResourceAddr

/-- What a ledger knows of a resource. -/
structure ResourceDefinition where
  addr : ResourceAddr
  mutable : Bool
  owner : Option SignerKey
deriving DecidableEq

end LedgerCore
