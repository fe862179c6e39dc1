/-
Tokens are neither made nor lost. Under the plain rules and under the base
rules, in every group of a transaction that a user gets verified, the
tokens consumed are as many as the tokens created. It does not matter which
store and which encodings the ledger has, what its meter charges, whether
the transaction is signed and whether its authorizers are asked.

A transfer is worth the tokens that remain to be handed on, any other
reducer state is worth nothing. What is left is one account for each rule,
from what its body does. Most rules have nothing to do with tokens
(`idle`); the rule that makes tokens out of nothing is privileged, and a
user's context does not permit it.
-/
import LedgerCore.Proofs.Token.Script

namespace LedgerCore.Token

open StateUpdate hiding id

variable {R : Type} {signature : OpSignature} {input : Input Object}

-- ================================================================ idle calls

/-- Only tokens are tokens. -/
theorem amount_of_tag_ne {object : Object} (h : StateObject.tag object ≠ tokensTag) :
    object.amount = 0 := by
  cases object with
  | tokens owner amount => exact absurd rfl h
  | resource definition => rfl
  | parent data => rfl
  | validator key => rfl

/-- What a rule reads off its input is what the object is worth. -/
theorem amount_of_tokenAmount? {object : Object} {amount : Nat}
    (h : tokenAmount? (.substate object) = some amount) : object.amount = amount := by
  rw [Object.amount, h]
  rfl

/-- Calls that only look, and calls on objects of other types, neither
create tokens nor consume any. -/
theorem idle (pulled : Nat) (state : R → Nat) (takes : signature.Takes input)
    (scan : signature.op ≠ .downIndex)
    (other : signature.op = .read ∨ signature.target ≠ some tokensTag) :
    (⟨Object.amount, state⟩ : Worth Object R).created signature.op input = 0
      ∧ (⟨Object.amount, state⟩ : Worth Object R).consumed signature.op pulled input = 0 := by
  cases input with
  | call data => exact ⟨rfl, rfl⟩
  | close => exact ⟨rfl, rfl⟩
  | index selection => exact ⟨rfl, if_neg scan⟩
  | substate object =>
      rcases other with hread | htag
      · simp [Worth.created, Worth.consumed, hread]
      · have hnone : object.amount = 0 :=
          amount_of_tag_ne fun h => htag (takes.1.trans (congrArg some h))
        simp [Worth.created, Worth.consumed, hnone]

/-- The input of a rule that creates, consumes or reads substates. -/
theorem object_of_takes {op : Op} {tag : TypeTag} (h : op ≠ .downIndex ∧ op ≠ .readIndex)
    (takes : (OpSignature.substate op tag).Takes input) :
    ∃ object, input = .substate object ∧ StateObject.tag object = tag := by
  cases input with
  | call data => cases takes
  | close => cases takes
  | index selection =>
      rcases takes.2 with hop | hop
      · exact absurd hop h.1
      · exact absurd hop h.2
  | substate object => exact ⟨object, rfl, (Option.some.inj takes.1).symm⟩

/-- The input of a rule that scans. -/
theorem index_of_takes {op : Op} {tag : TypeTag} (h : op = .downIndex ∨ op = .readIndex)
    (takes : (OpSignature.substate op tag).Takes input) :
    ∃ selection, input = .index selection := by
  cases input with
  | call data => cases takes
  | close => cases takes
  | index selection => exact ⟨selection, rfl⟩
  | substate object =>
      have hop := takes.2
      rcases h with rfl | rfl
      · simp [OpSignature.substate] at hop
      · simp [OpSignature.substate] at hop

-- ============================================================== the base rules

/-- What is worth tokens under the base rules. -/
def holdings : Worth Object Holding :=
  ⟨Object.amount, fun holding => if holding.kind = transfer then holding.value else 0⟩

/-- Only a transfer holds tokens. -/
theorem held_of_kind_ne {state : Option Holding} (h : reducerKind state ≠ transfer) :
    holdings.held state = 0 := by
  cases state with
  | none => rfl
  | some holding => exact if_neg h

/-- No state holds none. -/
theorem held_of_void {state : Option Holding} (h : reducerKind state = .void) :
    holdings.held state = 0 := by
  refine held_of_kind_ne ?_
  rw [h]
  decide

/-- A transfer holds some number of tokens. -/
theorem transfer_of_kind {state : Option Holding} (h : reducerKind state = transfer) :
    ∃ value, state = some ⟨transfer, value⟩ := by
  cases state with
  | none => exact absurd h (by decide)
  | some holding =>
      obtain ⟨kind, value⟩ := holding
      exact ⟨value, by rw [show kind = transfer from h]⟩

@[simp] theorem held_transfer (value : Nat) :
    holdings.held (some ⟨transfer, value⟩) = value := by
  simp [holdings, Worth.held]

@[simp] theorem held_unlessZero (value : Nat) :
    holdings.held (Step.unlessZero transfer value) = value := by
  unfold Step.unlessZero
  split
  · next hzero =>
      rw [hzero]
      rfl
  · exact held_transfer value

/-- A rule accounts for the tokens it is called on, given what its steps
make of the registers. -/
def Rule.Accounts (rule : Rule) : Prop :=
  ∀ {input : Input Object} {state : Option Holding} {after : Registers},
    rule.key.op.Takes input → reducerKind state = rule.key.reducer →
    Step.MovesAll input rule.steps ⟨state, 0, 0⟩ after →
    holdings.held after.state + holdings.created rule.key.op.op input
      = holdings.held state + holdings.consumed rule.key.op.op after.sum input

namespace Rule

/-- Steps that end by dropping the state. -/
theorem state_of_movesAll_clear {steps : List Step} {before after : Registers}
    (h : Step.MovesAll input (steps ++ [.clear]) before after) : after.state = none := by
  induction steps generalizing before with
  | nil =>
      obtain ⟨mid, cleared, rfl⟩ := h
      exact cleared
  | cons step rest ih =>
      obtain ⟨mid, -, h⟩ := h
      exact ih h

/-- A rule that is idle and ends by dropping a state worth nothing. -/
theorem accounts_of_idle {rule : Rule} (steps : List Step) (hsteps : rule.steps = steps ++ [.clear])
    (kind : rule.key.reducer ≠ transfer) (scan : rule.key.op.op ≠ .downIndex)
    (other : rule.key.op.op = .read ∨ rule.key.op.target ≠ some tokensTag) : rule.Accounts := by
  intro input state after takes hkind moves
  rw [hsteps] at moves
  have worthless : reducerKind state ≠ transfer := hkind ▸ kind
  rw [state_of_movesAll_clear moves, held_of_kind_ne worthless]
  obtain ⟨created, consumed⟩ := idle after.sum holdings.state takes scan other
  rw [show holdings.created _ input = 0 from created,
    show holdings.consumed _ after.sum input = 0 from consumed]
  rfl

/-- The rules that are free to all are about other types, or only look. -/
theorem accounts_free (op : Op) (tag : TypeTag) (steps : List Step) (scan : op ≠ .downIndex)
    (other : op = .read ∨ tag ≠ tokensTag) : (free op tag steps).Accounts :=
  accounts_of_idle steps rfl (show ReducerKind.void ≠ transfer by decide) scan
    (other.imp_right fun h h' => h (Option.some.inj h'))

/-- Consuming tokens opens a transfer of them. -/
theorem accounts_take :
    (owned .void (.substate .down tokensTag) [.take transfer]).Accounts := by
  intro input state after takes hkind moves
  obtain ⟨object, rfl, -⟩ := object_of_takes (by decide) takes
  obtain ⟨mid, ⟨amount, hamount, hstate⟩, rfl⟩ := moves
  rw [hstate, held_of_void hkind, held_transfer]
  show amount + 0 = 0 + object.amount
  rw [amount_of_tokenAmount? hamount]
  omega

/-- A rule of one step that exchanges tokens with a transfer: what the transfer
gains or loses has to be what the substate at hand is worth. -/
theorem accounts_exchange {rule : Rule} {op : Op} {step : Step}
    (key : rule.key = ⟨transfer, .substate op tokensTag⟩) (steps : rule.steps = [step])
    (named : op ≠ .downIndex ∧ op ≠ .readIndex)
    (exchange : ∀ {object : Object} {value : Nat} {after : Registers},
      step.Moves (.substate object) ⟨some ⟨transfer, value⟩, 0, 0⟩ after →
        holdings.held after.state + holdings.created op (.substate object)
          = value + holdings.consumed op after.sum (.substate object)) : rule.Accounts := by
  intro input state after takes hkind moves
  rw [key] at takes hkind
  rw [steps] at moves
  obtain ⟨object, rfl, -⟩ := object_of_takes named takes
  obtain ⟨value, rfl⟩ := transfer_of_kind hkind
  obtain ⟨mid, moves, rfl⟩ := moves
  rw [key, held_transfer]
  exact exchange moves

/-- Consuming more of them adds to the transfer. -/
theorem accounts_add :
    (owned transfer (.substate .down tokensTag) [.add]).Accounts := by
  refine accounts_exchange rfl rfl (by decide) ?_
  rintro object value after ⟨amount, holding, hamount, hbefore, hstate⟩
  cases hbefore
  rw [hstate, held_transfer]
  show value + amount + 0 = value + object.amount
  rw [amount_of_tokenAmount? hamount]
  rfl

/-- Creating tokens takes them out of the transfer, which covers them. -/
theorem accounts_sub :
    (anyone transfer (.substate .up tokensTag) [.sub]).Accounts := by
  refine accounts_exchange rfl rfl (by decide) ?_
  rintro object value after ⟨amount, holding, hamount, hbefore, covered, hstate⟩
  cases hbefore
  rw [hstate, held_unlessZero]
  show value - amount + object.amount = value + 0
  rw [amount_of_tokenAmount? hamount]
  exact Nat.sub_add_cancel covered

/-- A transfer that is closed with tokens left keeps them, so that the group
cannot be closed. -/
theorem accounts_keep : (anyone transfer .close []).Accounts := by
  intro input state after takes hkind moves
  obtain rfl : after = _ := moves
  obtain ⟨created, consumed⟩ := idle 0 holdings.state takes (by decide) (.inr (by decide))
  rw [show holdings.created _ input = 0 from created,
    show holdings.consumed _ _ input = 0 from consumed]

/-- A consuming scan opens a transfer of what it pulled, or none if that is
worth nothing. -/
theorem accounts_sweep :
    (anyone .void (.substate .downIndex tokensTag)
      [.pull none false, .setSum transfer]).Accounts := by
  intro input state after takes hkind moves
  obtain ⟨selection, rfl⟩ := index_of_takes (by decide) takes
  obtain ⟨mid, hpull, last, hsum, rfl⟩ := moves
  rw [show after.state = _ from hsum, held_of_void hkind, held_unlessZero]
  show after.sum + 0 = 0 + after.sum
  omega

/-- A reading scan counts, and a count holds no tokens. -/
theorem accounts_count :
    (anyone .void (.substate .readIndex tokensTag)
      [.pull none false, .setCount counted]).Accounts := by
  intro input state after takes hkind moves
  obtain ⟨selection, rfl⟩ := index_of_takes (by decide) takes
  obtain ⟨mid, hpull, last, hcount, rfl⟩ := moves
  have counts : holdings.held (some ⟨counted, after.count⟩) = 0 :=
    held_of_kind_ne (show counted ≠ transfer by decide)
  rw [show after.state = _ from hcount, held_of_void hkind, counts]
  rfl

end Rule

/-- The base rules conserve tokens where a user runs them. -/
theorem baseRules_conserve {ctx : Context} (user : ctx.level = .user) :
    (Rule.table baseRules).Conserve holdings ctx := by
  intro signature procedure input state next resource start final found takes permits fresh ran
  obtain ⟨rule, hrule, hkey, rfl⟩ := Rule.exists_of_get found
  obtain ⟨after, moves, rfl, sums⟩ := Rule.body_ok ran fresh
  suffices accounts : rule.Accounts by
    have hop : rule.key.op = signature := congrArg ProcedureKey.op hkey
    have hkind : rule.key.reducer = reducerKind state := congrArg ProcedureKey.reducer hkey
    subst hop
    rw [show sumOver holdings.object _ = after.sum from sums.symm]
    exact accounts takes hkind.symm moves
  simp only [baseRules, List.mem_cons, List.not_mem_nil, or_false] at hrule
  rcases hrule with rfl | rfl | rfl | rfl | rfl | rfl | rfl | rfl | rfl | rfl | rfl | rfl | rfl
    | rfl | rfl | rfl | rfl | rfl | rfl
  · -- system calls
    exact Rule.accounts_of_idle [.syscall] rfl (by decide) (by decide) (.inr (by decide))
  -- a transfer: opened, added to, handed out, kept
  · exact Rule.accounts_take
  · exact Rule.accounts_add
  · exact Rule.accounts_sub
  · exact Rule.accounts_keep
  · -- the rule that creates tokens out of nothing is not for users
    have hle : PermissionLevel.superUser ≤ ctx.level := permits.1
    rw [user] at hle
    exfalso
    exact absurd hle (by decide)
  · exact Rule.accounts_free .read tokensTag [] (by decide) (.inl rfl)
  -- resources, parents and validators are no tokens
  · exact Rule.accounts_free .up resourceTag [.act .checkAllocation] (by decide) (.inr (by decide))
  · exact Rule.accounts_free .down resourceTag [.act .checkAllocation] (by decide)
      (.inr (by decide))
  · exact Rule.accounts_free .read resourceTag [] (by decide) (.inl rfl)
  · exact Rule.accounts_free .up parentTag [] (by decide) (.inr (by decide))
  · exact Rule.accounts_free .down parentTag [] (by decide) (.inr (by decide))
  · exact Rule.accounts_free .read parentTag [] (by decide) (.inl rfl)
  · exact Rule.accounts_free .up validatorTag [] (by decide) (.inr (by decide))
  · exact Rule.accounts_free .down validatorTag [] (by decide) (.inr (by decide))
  · exact Rule.accounts_free .read validatorTag [] (by decide) (.inl rfl)
  -- the two scans, and the end of a count
  · exact Rule.accounts_sweep
  · exact Rule.accounts_count
  · exact Rule.accounts_of_idle [] rfl (by decide) (by decide) (.inr (by decide))

-- ============================================================= the plain rules

/-- What is worth tokens under the plain rules. -/
def flows : Worth Object Flow where
  object := Object.amount
  state
    | .transfer _ remaining => remaining
    | .count _ => 0

/-- Where no reducer is at work, there is no state. -/
theorem state_of_void {state : Option Flow} (h : reducerKind state = .void) : state = none := by
  rcases state with _ | ⟨owner, remaining⟩ | number
  · rfl
  · exact absurd h (show transfer ≠ ReducerKind.void by decide)
  · exact absurd h (show counted ≠ ReducerKind.void by decide)

/-- A transfer has an owner and some tokens left. -/
theorem flow_of_transfer {state : Option Flow} (h : reducerKind state = transfer) :
    ∃ owner remaining, state = some (.transfer owner remaining) := by
  rcases state with _ | ⟨owner, remaining⟩ | number
  · exact absurd h (show ReducerKind.void ≠ transfer by decide)
  · exact ⟨owner, remaining, rfl⟩
  · exact absurd h (show counted ≠ transfer by decide)

namespace Plain

open Script

variable {resource : ResourceAddr → Except ExecutionError ResourceDefinition}
  {start final : BodyState Object}

/-- A handler accounts for the tokens it is called on under a key. -/
def Accounts (key : ProcedureKey) (handler : Handler) : Prop :=
  ∀ (input : Input Object) (state next : Option Flow)
    (resource : ResourceAddr → Except ExecutionError ResourceDefinition)
    (start final : BodyState Object),
    key.op.Takes input → reducerKind state = key.reducer → pulledTokens start = 0 →
    (handler input state).exec resource start = (.ok next, final) →
    flows.held next + flows.created key.op.op input
      = flows.held state + flows.consumed key.op.op (pulledTokens final) input

/-- A handler that never leaves a state. -/
def Voids (handler : Handler) : Prop :=
  ∀ (input : Input Object) (state next : Option Flow)
    (resource : ResourceAddr → Except ExecutionError ResourceDefinition)
    (start final : BodyState Object),
    (handler input state).exec resource start = (.ok next, final) → next = none

/-- A handler that is idle and leaves no state. -/
theorem accounts_of_idle {key : ProcedureKey} {handler : Handler} (void : Voids handler)
    (kind : key.reducer ≠ transfer) (scan : key.op.op ≠ .downIndex)
    (other : key.op.op = .read ∨ key.op.target ≠ some tokensTag) : Accounts key handler := by
  intro input state next resource start final takes hkind fresh ran
  obtain ⟨created, consumed⟩ := idle (pulledTokens final) flows.state takes scan other
  -- a state that is no transfer is a count, or none
  have worthless : flows.held state = 0 := by
    rcases state with _ | ⟨owner, remaining⟩ | number
    · rfl
    · exact absurd hkind.symm kind
    · rfl
  rw [void _ _ _ _ _ _ ran, worthless, show flows.created _ input = 0 from created,
    show flows.consumed _ _ input = 0 from consumed]
  rfl

theorem drop_voids : Voids drop :=
  fun _ _ _ _ _ _ ran => (exec_pure_ok ran).1

/-- A resource is created or removed within one instruction. -/
theorem allocate_voids : Voids allocate := by
  intro input state next resource start final ran
  obtain ⟨_, _, _, ended⟩ := exec_bind_ok ran
  exact (exec_pure_ok ended).1

/-- A system call leaves no state behind, whatever it asked for. -/
theorem syscall_voids : Voids syscall := by
  intro input state next resource start final ran
  unfold syscall at ran
  split at ran
  · dsimp only at ran
    split at ran
    · obtain ⟨_, _, hreject, _⟩ := exec_bind_ok ran
      cases hreject
    · obtain ⟨_, _, _, ended⟩ := exec_bind_ok ran
      exact (exec_pure_ok ended).1
  · obtain ⟨_, _, _, rest⟩ := exec_bind_ok ran
    obtain ⟨_, _, _, ended⟩ := exec_bind_ok rest
    exact (exec_pure_ok ended).1
  · cases ran
  · cases ran

/-- Consuming tokens opens a transfer of all of them. -/
theorem accounts_takeUp : Accounts ⟨.void, .substate .down tokensTag⟩ takeUp := by
  intro input state next resource start final takes hkind fresh ran
  obtain ⟨object, rfl, htag⟩ := object_of_takes (by decide) takes
  obtain rfl := state_of_void hkind
  cases object with
  | tokens owner amount =>
      obtain ⟨rfl, -⟩ := exec_pure_ok ran
      show amount + 0 = 0 + amount
      omega
  | resource definition => cases ran
  | parent data => cases ran
  | validator key => cases ran

/-- Creating tokens takes them out of the transfer, and the last of them ends
it. -/
theorem accounts_handOver : Accounts ⟨transfer, .substate .up tokensTag⟩ handOver := by
  intro input state next resource start final takes hkind fresh ran
  obtain ⟨object, rfl, htag⟩ := object_of_takes (by decide) takes
  obtain ⟨owner, remaining, rfl⟩ := flow_of_transfer hkind
  cases object with
  | tokens holder amount =>
      dsimp only [handOver] at ran
      split at ran
      · obtain ⟨_, _, hreject, _⟩ := exec_bind_ok ran
        cases hreject
      · next covered =>
          obtain ⟨rfl, -⟩ := exec_pure_ok ran
          split
          · next all =>
              show 0 + amount = remaining + 0
              omega
          · show remaining - amount + amount = remaining + 0
            omega
  | resource definition => cases ran
  | parent data => cases ran
  | validator key => cases ran

theorem accounts_keep : Accounts ⟨transfer, .close⟩ keep := by
  intro input state next resource start final takes hkind fresh ran
  obtain ⟨rfl, -⟩ := exec_pure_ok ran
  obtain ⟨created, consumed⟩ := idle (pulledTokens final) flows.state takes
    (by decide) (.inr (by decide))
  rw [show flows.created _ input = 0 from created, show flows.consumed _ _ input = 0 from consumed]

/-- A sweep adds up the tokens it pulls, and knows an owner if there are any. -/
theorem sweep_ok {left : Nat} {owner first : Option UInt8} {total sum : Nat}
    (h : (sweep left owner total).exec resource start = (.ok (first, sum), final))
    (sums : total = pulledTokens start) (owned : owner = none → total = 0) :
    sum = pulledTokens final ∧ (first = none → sum = 0) := by
  induction left generalizing owner total start with
  | zero =>
      obtain ⟨heq, rfl⟩ := exec_pure_ok h
      cases heq
      exact ⟨sums, owned⟩
  | succ left ih =>
      obtain ⟨offer, mid, hpull, h⟩ := exec_bind_ok h
      have pulled := exec_pull_ok hpull
      split at h
      · obtain ⟨heq, rfl⟩ := exec_pure_ok h
        cases heq
        refine ⟨?_, owned⟩
        rw [sums, pulledTokens, pulledTokens, show final.pulled = start.pulled from pulled]
      · cases h
      · next holder amount =>
          obtain ⟨entry, hentry, hmid⟩ := pulled
          have more := pulledTokens_append hmid
          rw [hentry] at more
          dsimp only at h
          split at h
          · obtain ⟨_, _, hreject, _⟩ := exec_bind_ok h
            cases hreject
          · refine ih h ?_ ?_
            · rw [more, sums]
              rfl
            · intro unowned
              cases owner with
              | none => cases unowned
              | some first => cases unowned
      · -- other substates are consumed with the tokens, and add nothing
        next object hother =>
          obtain ⟨entry, hentry, hmid⟩ := pulled
          have more := pulledTokens_append hmid
          have none_more : entry.object.amount = 0 := by
            rw [hentry]
            cases object with
            | tokens holder amount => exact absurd rfl (hother holder amount)
            | _ => rfl
          exact ih h (by rw [more, none_more, sums]; rfl) owned

/-- A consuming scan opens a transfer of what it pulled, if that is worth
anything; then there was an owner. -/
theorem accounts_sweepAll : Accounts ⟨.void, .substate .downIndex tokensTag⟩ sweepAll := by
  intro input state next resource start final takes hkind fresh ran
  obtain ⟨selection, rfl⟩ := index_of_takes (by decide) takes
  obtain rfl := state_of_void hkind
  obtain ⟨offered, mid, hpending, rest⟩ := exec_bind_ok ran
  have same := pulledTokens_of_only (.pending ⟨nofun, nofun⟩) hpending
  obtain ⟨⟨owner, total⟩, swept, hsweep, ended⟩ := exec_bind_ok rest
  obtain ⟨sums, owned⟩ := sweep_ok hsweep (by rw [same, fresh]) (fun _ => rfl)
  obtain ⟨rfl, rfl⟩ := exec_pure_ok ended
  show flows.held (if total = 0 then none else owner.map (.transfer · total)) + 0
    = 0 + pulledTokens final
  rw [← sums]
  by_cases hzero : total = 0
  · rw [if_pos hzero, hzero]
    rfl
  · rw [if_neg hzero]
    cases owner with
    | none => exact absurd (owned rfl) hzero
    | some holder =>
        show total + 0 = 0 + total
        omega

/-- A reading scan leaves a count, which holds no tokens. -/
theorem accounts_tallyAll : Accounts ⟨.void, .substate .readIndex tokensTag⟩ tallyAll := by
  intro input state next resource start final takes hkind fresh ran
  obtain ⟨selection, rfl⟩ := index_of_takes (by decide) takes
  obtain rfl := state_of_void hkind
  obtain ⟨offered, mid, hpending, rest⟩ := exec_bind_ok ran
  obtain ⟨number, counted, hcount, ended⟩ := exec_bind_ok rest
  obtain ⟨rfl, -⟩ := exec_pure_ok ended
  rfl

end Plain

/-- The plain rules conserve tokens where a user runs them. -/
theorem plainRules_conserve {ctx : Context} (user : ctx.level = .user) :
    (Procedures.ofList plainRules).Conserve flows ctx := by
  intro signature procedure input state next resource start final found takes permits fresh ran
  have unpulled : pulledTokens start = 0 := by
    rw [pulledTokens, fresh]
    rfl
  have registered := Procedures.mem_of_get_ofList found
  generalize hkey : (⟨reducerKind state, signature⟩ : ProcedureKey) = key at registered
  have hkind : reducerKind state = key.reducer := hkey ▸ rfl
  obtain rfl : signature = key.op := hkey ▸ rfl
  -- of the body nothing matters but that it accounts for its key
  have settle : ∀ {handler : Plain.Handler}, Plain.Accounts key handler →
      (handler input state).exec resource start = (.ok next, final) →
      flows.held next + flows.created key.op.op input
        = flows.held state + flows.consumed key.op.op (pulledTokens final) input :=
    fun accounts ran => accounts input state next resource start final takes hkind unpulled ran
  simp only [plainRules, List.mem_cons, Prod.mk.injEq, List.not_mem_nil, or_false] at registered
  rcases registered with ⟨rfl, rfl⟩ | ⟨rfl, rfl⟩ | ⟨rfl, rfl⟩ | ⟨rfl, rfl⟩ | ⟨rfl, rfl⟩ | ⟨rfl, rfl⟩
    | ⟨rfl, rfl⟩ | ⟨rfl, rfl⟩ | ⟨rfl, rfl⟩ | ⟨rfl, rfl⟩ | ⟨rfl, rfl⟩ | ⟨rfl, rfl⟩ | ⟨rfl, rfl⟩
    | ⟨rfl, rfl⟩
  · -- system calls
    exact settle (Plain.accounts_of_idle Plain.syscall_voids (by decide) (by decide)
      (.inr (by decide))) ran
  -- a transfer: opened, handed out, kept
  · exact settle Plain.accounts_takeUp ran
  · exact settle Plain.accounts_handOver ran
  · exact settle Plain.accounts_keep ran
  · -- the rule that creates tokens out of nothing is not for users
    have hle : PermissionLevel.superUser ≤ ctx.level := permits.1
    rw [user] at hle
    exact absurd hle (by decide)
  -- what is dropped at once, for tokens that are read and for the other types
  · exact settle (Plain.accounts_of_idle Plain.drop_voids (by decide) (by decide) (.inl rfl)) ran
  · exact settle (Plain.accounts_of_idle Plain.allocate_voids (by decide) (by decide)
      (.inr (by decide))) ran
  · exact settle (Plain.accounts_of_idle Plain.drop_voids (by decide) (by decide) (.inl rfl)) ran
  · exact settle (Plain.accounts_of_idle Plain.drop_voids (by decide) (by decide)
      (.inr (by decide))) ran
  · exact settle (Plain.accounts_of_idle Plain.drop_voids (by decide) (by decide)
      (.inr (by decide))) ran
  · exact settle (Plain.accounts_of_idle Plain.drop_voids (by decide) (by decide) (.inl rfl)) ran
  -- the two scans, and the end of a count
  · exact settle Plain.accounts_sweepAll ran
  · exact settle Plain.accounts_tallyAll ran
  · exact settle (Plain.accounts_of_idle Plain.drop_voids (by decide) (by decide)
      (.inr (by decide))) ran

-- ================================================================ transactions

/-- The tokens among the substates that some records created. -/
def tokensCreated (updates : List (StateUpdate Object)) : Nat :=
  sumOver Object.amount ((births updates).map StateUpdate.object)

/-- The tokens among the substates that some records consumed. -/
def tokensConsumed (updates : List (StateUpdate Object)) : Nat :=
  sumOver Object.amount ((removals updates).map StateUpdate.object)

/-- No user makes tokens or loses any. In every group of a transaction that
is verified for a user, as many tokens are consumed as are created, under
the plain rules and under the base rules, whatever the encodings, the
meter, the store and the rest of the context. -/
theorem tokens_conserved (format : SubstateFormat Object) (meter : Meter) (store : CommittedStore)
    (ctx : Context) (instructions : List Instruction) (user : ctx.level = .user) :
    (∀ groups, (Machine.verify ⟨.ofList plainRules, format, meter⟩ store ctx instructions).outcome
        = .ok groups → ∀ group ∈ groups, tokensConsumed group = tokensCreated group)
      ∧ ∀ groups, (Machine.verify ⟨Rule.table baseRules, format, meter⟩ store ctx
          instructions).outcome = .ok groups →
          ∀ group ∈ groups, tokensConsumed group = tokensCreated group :=
  ⟨fun _ accepted => Machine.groups_balanced flows (plainRules_conserve user) accepted,
    fun _ accepted => Machine.groups_balanced holdings (baseRules_conserve user) accepted⟩

/-- The plain rules, free of charge. -/
def plainMachine : Machine Object Flow := ⟨.ofList plainRules, format, .free⟩

/-- Tokens that are left over keep a group from being closed. -/
example : ((plainMachine.verify oneHolding.toStore userContext
    [.down (.committed (.stored [1])), .up (.stored [5]) [2, 8, 0, 0, 0, 0, 0, 0, 0, 2],
      .close]).outcome.map fun _ => ())
      = .error ⟨2, some (.transfer 7 3), .unclosedGroup transfer⟩ := by
  decide +kernel

/-- Hands on five tokens in two parts, then whatever a scan finds. -/
def splitThenSweep : List Instruction := [
  .down (.committed (.stored [1])), .up (.stored [5]) [2, 8, 0, 0, 0, 0, 0, 0, 0, 2],
  .up (.stored [6]) [2, 7, 0, 0, 0, 0, 0, 0, 0, 3], .close,
  .downIndex allTokens, .up (.stored [8]) fiveTokens, .close]

/-- Two groups of five tokens each, under either table. -/
theorem split_then_sweep_conserves :
    userContext.level = .user
      ∧ (∃ groups, (plainMachine.verify oneHolding.toStore userContext splitThenSweep).outcome
            = .ok groups
          ∧ groups.map tokensCreated = [5, 5]
          ∧ ∀ group ∈ groups, tokensConsumed group = tokensCreated group)
      ∧ ∃ groups, (freeMachine.verify oneHolding.toStore userContext splitThenSweep).outcome
            = .ok groups
          ∧ groups.map tokensCreated = [5, 5]
          ∧ ∀ group ∈ groups, tokensConsumed group = tokensCreated group := by
  obtain ⟨plain, base⟩ :=
    tokens_conserved format .free oneHolding.toStore userContext splitThenSweep rfl
  have plainAmounts : (plainMachine.verify oneHolding.toStore userContext
      splitThenSweep).outcome.toOption.map (·.map tokensCreated) = some [5, 5] := by
    decide +kernel
  have baseAmounts : (freeMachine.verify oneHolding.toStore userContext
      splitThenSweep).outcome.toOption.map (·.map tokensCreated) = some [5, 5] := by
    decide +kernel
  obtain ⟨groups, accepted, amounts⟩ := Machine.verify_ok_of_toOption_map plainAmounts
  obtain ⟨groups', accepted', amounts'⟩ := Machine.verify_ok_of_toOption_map baseAmounts
  exact ⟨rfl, ⟨groups, accepted, amounts, plain groups accepted⟩,
    groups', accepted', amounts', base groups' accepted'⟩

end LedgerCore.Token
