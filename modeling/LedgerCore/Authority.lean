/-
Who may do what. A transaction, and each rule it invokes, runs under one of
three ordered permission levels; a transaction may also carry the key it
was signed with.
-/
import LedgerCore.Bytes

namespace LedgerCore

-- ====================================================== permission levels

/-- The privilege a transaction or a single procedure runs under, from the
least to the most. -/
inductive PermissionLevel where
  | user
  | superUser
  | system
deriving DecidableEq

namespace PermissionLevel

/-- Position in the order of privilege. -/
def rank : PermissionLevel → Nat
  | user => 0
  | superUser => 1
  | system => 2

/-- The name a level goes by. -/
def text : PermissionLevel → String
  | user => "user"
  | superUser => "super_user"
  | system => "system"

instance : Inhabited PermissionLevel := ⟨user⟩
instance : LT PermissionLevel := ⟨fun a b => a.rank < b.rank⟩
instance : LE PermissionLevel := ⟨fun a b => a.rank ≤ b.rank⟩
instance (a b : PermissionLevel) : Decidable (a < b) :=
  inferInstanceAs (Decidable (a.rank < b.rank))
instance (a b : PermissionLevel) : Decidable (a ≤ b) :=
  inferInstanceAs (Decidable (a.rank ≤ b.rank))
instance : Ord PermissionLevel := ⟨compareOn rank⟩

end PermissionLevel

-- ============================================================ signer keys

/-- The public key a transaction was signed with. -/
structure SignerKey where
  bytes : Bytes
deriving DecidableEq

end LedgerCore
