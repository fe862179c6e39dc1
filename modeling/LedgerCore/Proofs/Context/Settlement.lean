/-
The settlement law. Reserve and loan move with every operation, and what was
deposited and spent is only found in the answers. `Context.Balanced` ties them
together: reserve and spending make up deposit and loan, exactly. Every
operation keeps this (`Balanced.step`), so every run does (`Balanced.perform`).
Settling compares reserve and loan, which is therefore comparing spending and
deposit.

The one exception is a loan that overflows the reserve: it has been booked, but
was not credited. Runs with such a loan are left out.
-/
import LedgerCore.Proofs.Context.Books

namespace LedgerCore

namespace Context

-- ================================================================== performance

/-- An operation that was performed, and what it answered. -/
structure Entry where
  op : ContextOp
  answer : Except ExecutionError ContextAnswer

/-- Performs operations one after the other, whatever they answer. -/
def perform (ctx : Context) : List ContextOp → List Entry × Context
  | [] => ([], ctx)
  | op :: rest =>
      let (answer, after) := op.run ctx
      let (entries, last) := perform after rest
      (⟨op, answer⟩ :: entries, last)

namespace Entry

/-- What was deposited. -/
def deposit? : Entry → Option Amount
  | ⟨.deposit _ amount, .ok _⟩ => some amount
  | _ => none

/-- What was withdrawn or charged. -/
def taken : Entry → Nat
  | ⟨.withdraw amount, .ok _⟩ => amount.toNat
  | ⟨.charge amount, .ok _⟩ => amount.toNat
  | _ => 0

/-- The one-time fee of a transaction, if its charge went through. -/
def oneTimeFee? (txn : Txn) : Entry → Option Amount
  | ⟨.chargeOnce fee, .ok _⟩ => (fee txn).toOption
  | _ => none

/-- Nothing was deposited or spent. -/
structure Quiet (txn : Txn) (entry : Entry) : Prop where
  deposit : entry.deposit? = none
  taken : entry.taken = 0
  fee : entry.oneTimeFee? txn = none

theorem Quiet.of_error (txn : Txn) (op : ContextOp) (cause : ExecutionError) :
    Quiet txn ⟨op, .error cause⟩ := by
  cases op <;> exact ⟨rfl, rfl, rfl⟩

end Entry

/-- All that was deposited. -/
def deposited (entries : List Entry) : Nat :=
  (entries.filterMap Entry.deposit?).foldl (fun total amount => total + amount.toNat) 0

/-- All that was withdrawn and charged. -/
def taken (entries : List Entry) : Nat :=
  entries.foldl (fun total entry => total + entry.taken) 0

/-- The fee of the first one-time charge that went through; later ones charge
nothing. -/
def oneTimeFee? (txn : Txn) (entries : List Entry) : Option Amount :=
  entries.findSome? (Entry.oneTimeFee? txn)

/-- All that was spent. -/
def spent (txn : Txn) (entries : List Entry) : Nat :=
  taken entries + ((oneTimeFee? txn entries).map Amount.toNat).getD 0

variable {txn : Txn} {entries : List Entry} {entry : Entry} {ctx after : Context}

/-- One more answer adds what it deposited. -/
theorem deposited_concat :
    deposited (entries ++ [entry])
      = deposited entries + (entry.deposit?.map Amount.toNat).getD 0 := by
  unfold deposited
  rw [List.filterMap_append, List.foldl_append]
  cases hdeposit : entry.deposit? <;> simp [hdeposit]

theorem taken_concat : taken (entries ++ [entry]) = taken entries + entry.taken := by
  rw [taken, List.foldl_append]
  rfl

/-- The first charge on record is the one that counts. -/
theorem oneTimeFee?_concat :
    oneTimeFee? txn (entries ++ [entry])
      = (oneTimeFee? txn entries).or (entry.oneTimeFee? txn) := by
  simp [oneTimeFee?, List.findSome?_append]

-- ====================================================================== balance

/-- The books agree with what was performed so far. -/
structure Balanced (txn : Txn) (entries : List Entry) (ctx : Context) : Prop where
  same : ctx.txn = txn
  /-- There is one deposit at most. -/
  deposit : entries.filterMap Entry.deposit? = ctx.feeDeposit.toList
  charged : (oneTimeFee? txn entries).isSome = ctx.oneTimeFeeCharged
  balance : ctx.reserve.toNat + spent txn entries
    = deposited entries + ctx.systemLoan.toNat

namespace Balanced

/-- What was deposited is what the books say was. -/
theorem deposited_eq (balanced : Balanced txn entries ctx) :
    deposited entries = (ctx.feeDeposit.getD .zero).toNat := by
  rw [deposited, balanced.deposit]
  cases ctx.feeDeposit <;> simp

/-- One operation more: what it answered has to agree with what it did. -/
theorem concat (balanced : Balanced txn entries ctx) (same : after.txn = ctx.txn)
    (deposit : after.feeDeposit.toList = ctx.feeDeposit.toList ++ entry.deposit?.toList)
    (charged : after.oneTimeFeeCharged
      = (ctx.oneTimeFeeCharged || (entry.oneTimeFee? txn).isSome))
    (balance : after.reserve.toNat + ctx.systemLoan.toNat + entry.taken
        + (if ctx.oneTimeFeeCharged then 0
            else ((entry.oneTimeFee? txn).map Amount.toNat).getD 0)
      = ctx.reserve.toNat + after.systemLoan.toNat
        + (entry.deposit?.map Amount.toNat).getD 0) :
    Balanced txn (entries ++ [entry]) after := by
  refine ⟨same.trans balanced.same, ?_, ?_, ?_⟩
  · rw [List.filterMap_append, balanced.deposit, deposit]
    cases hdeposit : entry.deposit? <;> simp [hdeposit]
  · rw [oneTimeFee?_concat, Option.isSome_or, balanced.charged, charged]
  -- a fee counts if none was charged before
  · have hfee : ((oneTimeFee? txn (entries ++ [entry])).map Amount.toNat).getD 0
        = ((oneTimeFee? txn entries).map Amount.toNat).getD 0
          + (if ctx.oneTimeFeeCharged then 0
              else ((entry.oneTimeFee? txn).map Amount.toNat).getD 0) := by
      rw [oneTimeFee?_concat, ← balanced.charged]
      cases oneTimeFee? txn entries <;> simp
    have hbefore := balanced.balance
    rw [spent] at hbefore
    rw [deposited_concat, spent, hfee, taken_concat]
    omega

/-- An operation that shifts loan and reserve alike, or nothing, keeps the
balance. -/
theorem shift (balanced : Balanced txn entries ctx) (quiet : entry.Quiet txn)
    (shifts : ctx.Shifts after) : Balanced txn (entries ++ [entry]) after := by
  have htogether := shifts.together
  refine balanced.concat shifts.txn ?_ ?_ ?_
  · rw [shifts.deposit, quiet.deposit, Option.toList_none, List.append_nil]
  · rw [shifts.charged, quiet.fee, Option.isSome_none, Bool.or_false]
  · rw [quiet.taken, quiet.fee, quiet.deposit]
    simpa using htogether

/-- A withdrawal or a charge takes from the reserve what it says. -/
theorem debit (balanced : Balanced txn entries ctx) {amount : Amount}
    (h : ctx.debit amount = (.ok (), after)) (hdeposit : entry.deposit? = none)
    (hfee : entry.oneTimeFee? txn = none) (htaken : entry.taken = amount.toNat) :
    Balanced txn (entries ++ [entry]) after := by
  obtain ⟨hcovered, rfl⟩ := debit_eq_ok_iff.mp h
  rw [Amount.le_def] at hcovered
  refine balanced.concat rfl ?_ ?_ ?_
  · rw [hdeposit, Option.toList_none, List.append_nil]
  · rw [hfee, Option.isSome_none, Bool.or_false]
  · rw [hdeposit, hfee, htaken]
    simp only [Amount.toNat_monus, Option.map_none, Option.getD_none, ite_self]
    omega

/-- A deposit adds to both sides. -/
theorem depositFeeReserve (balanced : Balanced txn entries ctx) {resource : ResourceAddr}
    {amount : Amount} {answer : ContextAnswer}
    (h : ctx.depositFeeReserve resource amount = (.ok (), after)) :
    Balanced txn (entries ++ [⟨.deposit resource amount, .ok answer⟩]) after := by
  obtain ⟨hfirst, reserve, hreserve, rfl⟩ := depositFeeReserve_ok h
  refine balanced.concat rfl ?_ ?_ ?_
  · rw [hfirst]
    rfl
  · exact (Bool.or_false _).symm
  · simp only [Entry.deposit?, Entry.taken, Entry.oneTimeFee?, Option.map_none,
      Option.map_some, Option.getD_none, Option.getD_some, ite_self]
    omega

/-- A charge takes its amount from the reserve and counts as spent, unless
there was one before. -/
theorem chargeOneTimeFee (balanced : Balanced txn entries ctx)
    {fee : Txn → Except ExecutionError Amount} {answer : ContextAnswer}
    (h : ctx.chargeOneTimeFee fee = (.ok (), after)) :
    Balanced txn (entries ++ [⟨.chargeOnce fee, .ok answer⟩]) after := by
  rcases chargeOneTimeFee_ok h with ⟨hcharged, rfl⟩ | ⟨hfirst, amount, hamount, hcovered, rfl⟩
  -- charged before, so this answer does not count
  · refine balanced.concat rfl ?_ ?_ ?_
    · exact (List.append_nil _).symm
    · rw [hcharged, Bool.true_or]
    · simp [Entry.deposit?, Entry.taken, hcharged]
  · rw [balanced.same] at hamount
    have hfee : Entry.oneTimeFee? txn ⟨.chargeOnce fee, .ok answer⟩ = some amount := by
      rw [Entry.oneTimeFee?, hamount]
      rfl
    rw [Amount.le_def] at hcovered
    refine balanced.concat rfl ?_ ?_ ?_
    · exact (List.append_nil _).symm
    · rw [hfee, Option.isSome_some, Bool.or_true]
    · rw [hfee, hfirst]
      simp only [Entry.deposit?, Entry.taken, Amount.toNat_monus, Bool.false_eq_true,
        if_false, Option.map_none, Option.map_some, Option.getD_none, Option.getD_some]
      omega

/-- One operation keeps the books balanced, unless it is a loan that
overflows. -/
theorem step (balanced : Balanced txn entries ctx) (op : ContextOp)
    (hlend : ∀ amount, op = .lend amount → (op.run ctx).1 ≠ .error .amountOverflow) :
    Balanced txn (entries ++ [⟨op, (op.run ctx).1⟩]) (op.run ctx).2 := by
  rcases hrun : op.run ctx with ⟨cause | answer, after⟩
  · rw [hrun] at hlend
    refine balanced.shift (.of_error txn op cause) (shifts_of_error hrun ?_)
    intro amount hop heq
    exact hlend amount hop (congrArg Except.error heq)
  -- what succeeds moves reserve, loan, deposit and charge as it says
  cases op with
  | deposit resource amount => exact balanced.depositFeeReserve (silent_eq_ok_iff.mp hrun).1
  | withdraw amount =>
      unfold ContextOp.run at hrun
      dsimp only at hrun
      split at hrun
      · next taken paid hpaid =>
          cases hrun
          exact balanced.debit (withdrawFeeReserve_ok hpaid) rfl rfl rfl
      · cases hrun
  | charge amount =>
      exact balanced.debit (silent_eq_ok_iff.mp hrun).1 rfl rfl rfl
  | chargeOnce fee => exact balanced.chargeOneTimeFee (silent_eq_ok_iff.mp hrun).1
  | lend amount =>
      exact balanced.shift ⟨rfl, rfl, rfl⟩ (shifts_addSystemLoan (silent_eq_ok_iff.mp hrun).1)
  | payOffLoan =>
      have hafter : ctx.payOffLoan.2 = after :=
        congrArg Prod.snd (silent_eq_ok_iff.mp hrun).1
      exact balanced.shift ⟨rfl, rfl, rfl⟩ (hafter ▸ shifts_payOffLoan ctx)
  | settle =>
      have hafter : ctx.settle.2 = after := congrArg Prod.snd (silent_eq_ok_iff.mp hrun).1
      rw [settle_snd] at hafter
      exact balanced.shift ⟨rfl, rfl, rfl⟩ (hafter ▸ shifts_payOffLoan ctx)
  | checkPermission level =>
      obtain rfl : ctx = after := congrArg Prod.snd (silent_eq_ok_iff.mp hrun).1
      exact balanced.shift ⟨rfl, rfl, rfl⟩ (.refl ctx)
  | checkAllocation =>
      obtain rfl : ctx = after := congrArg Prod.snd (silent_eq_ok_iff.mp hrun).1
      exact balanced.shift ⟨rfl, rfl, rfl⟩ (.refl ctx)
  | spendSig =>
      have hspent := (silent_eq_ok_iff.mp hrun).1
      unfold spendSig at hspent
      split at hspent
      · cases hspent
      · cases hspent
        exact balanced.shift ⟨rfl, rfl, rfl⟩ ⟨rfl, rfl, rfl, rfl⟩
  | setKey key =>
      cases hrun
      exact balanced.shift ⟨rfl, rfl, rfl⟩ ⟨rfl, rfl, rfl, rfl⟩
  | setAllocationDisabled disabled =>
      cases hrun
      exact balanced.shift ⟨rfl, rfl, rfl⟩ ⟨rfl, rfl, rfl, rfl⟩
  | emit event =>
      cases hrun
      exact balanced.shift ⟨rfl, rfl, rfl⟩ ⟨rfl, rfl, rfl, rfl⟩
  | takeEvents =>
      cases hrun
      exact balanced.shift ⟨rfl, rfl, rfl⟩ ⟨rfl, rfl, rfl, rfl⟩
  | txnSize =>
      cases hrun
      exact balanced.shift ⟨rfl, rfl, rfl⟩ (.refl ctx)

/-- So does any run of operations. -/
theorem perform (balanced : Balanced txn entries ctx) (ops : List ContextOp)
    (hlend : ∀ amount, ⟨.lend amount, .error .amountOverflow⟩ ∉ (ctx.perform ops).1) :
    Balanced txn (entries ++ (ctx.perform ops).1) (ctx.perform ops).2 := by
  induction ops generalizing entries ctx with
  | nil =>
      rw [Context.perform, List.append_nil]
      exact balanced
  | cons op rest ih =>
      have hfirst : (ctx.perform (op :: rest)).1
          = ⟨op, (op.run ctx).1⟩ :: ((op.run ctx).2.perform rest).1 := rfl
      rw [hfirst] at hlend ⊢
      rw [List.append_cons]
      refine ih (balanced.step op fun amount hop heq => ?_)
        fun amount hmem => hlend amount (List.mem_cons_of_mem _ hmem)
      refine hlend amount (List.mem_cons.mpr (.inl ?_))
      rw [heq, hop]

end Balanced

-- ============================================================== the settlement law

/-- A fresh context that fees are payable to in a given resource. -/
def opened (txn : Txn) (level : PermissionLevel) (sigs : Nat) (skip : Bool)
    (feeResource : ResourceAddr) : Context :=
  { fresh txn level sigs with skipAuthorization := skip, feeResource := feeResource }

/-- From a fresh context on, whatever operations are performed, reserve and
spending make up deposit and loan. So a settlement that follows succeeds
exactly if what was deposited was spent; if more was spent the loan defaults by
the difference, and if less was spent the difference is left over. -/
theorem settlement_law (level : PermissionLevel) (sigs : Nat) (skip : Bool)
    (feeResource : ResourceAddr) {ops : List ContextOp}
    (performed : (opened txn level sigs skip feeResource).perform ops = (entries, ctx))
    (lent : ∀ amount, ⟨.lend amount, .error .amountOverflow⟩ ∉ entries) :
    (entries.filterMap Entry.deposit?).length ≤ 1
      ∧ ctx.reserve.toNat + spent txn entries = deposited entries + ctx.systemLoan.toNat
      ∧ (ctx.settle.1 = .ok () ↔ deposited entries = spent txn entries)
      ∧ (ctx.settle.1 = .ok () →
          ctx.settle.2.reserve = .zero ∧ ctx.settle.2.systemLoan = .zero)
      ∧ ((∃ shortfall deposit, ctx.settle.1 = .error (.defaultedSystemLoan shortfall deposit)
            ∧ deposited entries + shortfall.toNat = spent txn entries
            ∧ deposit.toNat = deposited entries)
          ↔ deposited entries < spent txn entries)
      ∧ ((∃ left, ctx.settle.1 = .error (.reserveNotEmpty left)
            ∧ spent txn entries + left.toNat = deposited entries)
          ↔ spent txn entries < deposited entries) := by
  have balanced : Balanced txn entries ctx := by
    have start : Balanced txn [] (opened txn level sigs skip feeResource) :=
      ⟨rfl, rfl, rfl, rfl⟩
    have hrun := start.perform ops
    rw [performed] at hrun
    exact hrun lent
  have hbalance := balanced.balance
  refine ⟨?_, hbalance, ?_⟩
  · rw [balanced.deposit]
    exact Option.length_toList_le
  rcases Nat.lt_trichotomy ctx.reserve.toNat ctx.systemLoan.toNat with hless | hsame | hmore
  · -- the reserve is short of the loan: a default
    rw [settle_of_lt hless]
    refine ⟨iff_of_false nofun (by omega), nofun, iff_of_true ⟨_, _, rfl, ?_, ?_⟩ (by omega),
      iff_of_false nofun (by omega)⟩
    · rw [Amount.toNat_monus]
      omega
    · exact balanced.deposited_eq.symm
  · -- deposits and charges come out even
    rw [settle_of_eq (Amount.ext hsame)]
    exact ⟨iff_of_true rfl (by omega), fun _ => ⟨rfl, rfl⟩, iff_of_false nofun (by omega),
      iff_of_false nofun (by omega)⟩
  · -- more was paid in than is owed
    rw [settle_of_gt hmore]
    refine ⟨iff_of_false nofun (by omega), nofun, iff_of_false nofun (by omega),
      iff_of_true ⟨_, rfl, ?_⟩ (by omega)⟩
    rw [Amount.toNat_monus]
    omega

/-- A loan that is repaid on the way, a second deposit and a second one-time
charge: what was deposited is spent. -/
def repaidOnTheWay : List ContextOp :=
  [.lend (.clamp 5), .deposit .native (.clamp 7), .chargeOnce fun _ => .ok (.clamp 4),
    .deposit .native (.clamp 1), .payOffLoan, .chargeOnce fun _ => .ok (.clamp 9),
    .withdraw (.clamp 3)]

/-- A loan paid back by the transaction itself leaves a reserve of what was
deposited less what was spent, and books that settle at zero. -/
theorem repaid_on_the_way_settles :
    ∃ entries ctx,
      (opened default .user 0 false .native).perform repaidOnTheWay = (entries, ctx)
        ∧ deposited entries = 7 ∧ spent default entries = 7 ∧ ctx.settle.1 = .ok () := by
  have unfailing : ((opened default .user 0 false .native).perform repaidOnTheWay).1.all
      (fun entry => match entry.answer with
        | .ok _ => true
        | .error cause => cause != .amountOverflow) = true := by decide +kernel
  have lent : ∀ amount, (⟨.lend amount, .error .amountOverflow⟩ : Entry)
      ∉ ((opened default .user 0 false .native).perform repaidOnTheWay).1 := by
    intro amount hmem
    have hsound := List.all_eq_true.mp unfailing _ hmem
    exact Bool.false_ne_true hsound
  have law := settlement_law .user 0 false .native rfl lent
  have hdeposited : deposited
      ((opened default .user 0 false .native).perform repaidOnTheWay).1 = 7 := by decide +kernel
  have hspent : spent default
      ((opened default .user 0 false .native).perform repaidOnTheWay).1 = 7 := by decide +kernel
  exact ⟨_, _, rfl, hdeposited, hspent, law.2.2.1.mpr (hdeposited.trans hspent.symm)⟩

end Context

end LedgerCore
