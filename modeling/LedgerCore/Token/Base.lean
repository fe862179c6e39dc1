/-
The base rules of the token ledger. Consuming tokens in the void state
opens a transfer of their amount, creating tokens within a transfer spends
it, and a transfer that is spent or closed ends; only privileged
transactions create tokens out of nothing. Resources, parents and
validators may be created, consumed and read by anyone, resources as far
as the context allows it.
-/
import LedgerCore.Token.Rule

namespace LedgerCore.Token

/-- The type tags of the token ledger's objects. -/
def tokensTag : TypeTag := ⟨2⟩

@[inherit_doc tokensTag]
def resourceTag : TypeTag := ⟨3⟩

@[inherit_doc tokensTag]
def parentTag : TypeTag := ⟨4⟩

@[inherit_doc tokensTag]
def validatorTag : TypeTag := ⟨5⟩

/-- The state of a group that has tokens left to hand on. -/
def transfer : ReducerKind := ⟨"transfer"⟩

/-- The state of a group that counted substates. -/
def counted : ReducerKind := ⟨"count"⟩

/-- A rule anyone may invoke, without an authorizer. -/
def anyone (reducer : ReducerKind) (op : OpSignature) (steps : List Step) : Rule :=
  ⟨⟨reducer, op⟩, .user, none, none, steps⟩

/-- A rule anyone may invoke on tokens that are theirs. -/
def owned (reducer : ReducerKind) (op : OpSignature) (steps : List Step) : Rule :=
  { anyone reducer op steps with checks := some [.owner] }

/-- A rule on objects of a type that are of no concern to transfers. -/
def free (op : Op) (tag : TypeTag) (steps : List Step) : Rule :=
  anyone .void (.substate op tag) (steps ++ [.clear])

/-- The base rules. -/
def baseRules : List Rule := [
  anyone .void .syscall [.syscall, .clear],
  owned .void (.substate .down tokensTag) [.take transfer],
  owned transfer (.substate .down tokensTag) [.add],
  anyone transfer (.substate .up tokensTag) [.sub],
  anyone transfer .close [],
  { free .up tokensTag [] with level := .superUser },
  free .read tokensTag [],
  free .up resourceTag [.act .checkAllocation],
  free .down resourceTag [.act .checkAllocation],
  free .read resourceTag [],
  free .up parentTag [],
  free .down parentTag [],
  free .read parentTag [],
  free .up validatorTag [],
  free .down validatorTag [],
  free .read validatorTag [],
  anyone .void (.substate .downIndex tokensTag) [.pull none false, .setSum transfer],
  anyone .void (.substate .readIndex tokensTag) [.pull none false, .setCount counted],
  anyone counted .close [.clear]]

end LedgerCore.Token
