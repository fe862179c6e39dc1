/-
Rules of the token ledger, as data. A rule says for which key it is, which
permission level it needs, whom its authorizer lets pass, and by which
steps its body folds an input into the reducer state, which is a kind with
a number. `Rule.toProcedure` is what a rule does; rules and their checks
note in the journal what they are applied to.
-/
import LedgerCore.Machine
import LedgerCore.Token.Object

namespace LedgerCore.Token

-- ========================================================== reducer state

/-- What a group of the token ledger is reduced to: a kind and a number. -/
structure Holding where
  kind : ReducerKind
  value : Nat
deriving DecidableEq

namespace Holding

instance : ReducerState Holding := ⟨kind⟩

/-- Kind and number, separated by a colon. -/
def text (holding : Holding) : String := holding.kind.name ++ ":" ++ holding.value.repr

end Holding

/-- The text of a reducer state, or of there being none. -/
def stateText : Option Holding → String
  | some holding => holding.text
  | none => "void"

-- ================================================================= inputs

/-- The text of an input. -/
def inputText : Input Object → String
  | .call data => "call:" ++ Bytes.hex data
  | .substate object => object.text
  | .index selection => "index:" ++ Bytes.hex selection.lead
  | .close => "end"

/-- The amount of an input that is tokens. -/
def tokenAmount? : Input Object → Option Nat
  | .substate (.tokens _ amount) => some amount
  | _ => none

-- ================================================================== rules

/-- A condition an authorizer checks. -/
inductive Check where
  /-- The tokens' owner signed the transaction. -/
  | owner
  /-- Never met. -/
  | deny (reason : String)
  /-- The owner of a resource signed the transaction. -/
  | resourceOwner (addr : ResourceAddr)
deriving DecidableEq

/-- One step of a rule's body. -/
inductive Step where
  /-- Fails. -/
  | fail (reason : String)
  /-- Drops the state. -/
  | clear
  /-- Replaces the state. -/
  | set (holding : Holding)
  /-- Opens a state with the amount of the tokens. -/
  | take (kind : ReducerKind)
  /-- Adds the amount of the tokens to the state. -/
  | add
  /-- Takes the amount of the tokens from the state; nothing left is no state. -/
  | sub
  /-- Pulls substates from the scan, all or up to a limit. An error among
  them fails the rule, unless it is lenient. -/
  | pull (limit : Option Nat) (lenient : Bool)
  /-- Opens a state with the sum of the tokens pulled; nothing is no state. -/
  | setSum (kind : ReducerKind)
  /-- Opens a state with the number of substates pulled. -/
  | setCount (kind : ReducerKind)
  /-- Carries out a system call. -/
  | syscall
  /-- Looks up a resource and emits its address as an event. -/
  | resource (addr : ResourceAddr)
  /-- Operates on the context; a failure fails the rule. -/
  | act (op : ContextOp)
  /-- Operates on the context and notes how that went. -/
  | tryAct (op : ContextOp)
  /-- Notes the diagnostic form of the input. -/
  | debug

/-- A rule of the token ledger. -/
structure Rule where
  key : ProcedureKey
  level : PermissionLevel
  /-- Above this amount of tokens, the other level is needed. -/
  above : Option (Nat × PermissionLevel)
  /-- The checks of the authorizer, if the rule has one. -/
  checks : Option (List Check)
  steps : List Step

-- ============================================================ authorizers

namespace Check

/-- Checks one condition on an input. -/
def run (check : Check) (input : Input Object) : Authorizer :=
  match check with
  | owner =>
      .perform (E := authorizerEffects) .view fun view =>
        match input with
        | .substate (.tokens holder _) =>
            if view.key = some ⟨[holder]⟩ then Authorizer.allow
            else refuse "tokens not signed by owner"
        | _ => refuse "tokens not signed by owner"
  | deny reason => refuse reason
  | resourceOwner addr =>
      .perform (E := authorizerEffects) (.resource addr) fun found =>
        match found with
        | .error cause => refuse cause.message
        | .ok definition =>
            .perform (E := authorizerEffects) .view fun view =>
              if definition.owner = view.key then Authorizer.allow
              else refuse "not the resource owner"
where
  /-- A refusal. -/
  refuse (reason : String) : Authorizer := .done (.error ⟨reason⟩)

/-- Checks conditions in order, up to the first that is not met. -/
def runAll : List Check → Input Object → Authorizer
  | [], _ => Authorizer.allow
  | check :: rest, input =>
      (check.run input).bind fun result =>
        match result with
        | .ok () => runAll rest input
        | .error cause => .done (.error cause)

end Check

-- ================================================================= bodies

/-- A piece of a body: a program that may fail. -/
abbrev Script := ExceptT ExecutionError (Program (bodyEffects Object))

namespace Script

/-- Operates on the context, failing as the operation does. -/
def act (op : ContextOp) : Script ContextAnswer :=
  ExceptT.mk (Program.ask (E := bodyEffects Object) (.act op))

/-- Operates on the context and answers how that went. -/
def attempt (op : ContextOp) : Script (Except ExecutionError ContextAnswer) :=
  ExceptT.lift (Program.ask (E := bodyEffects Object) (.act op))

/-- Looks up a resource, failing as the look-up does. -/
def resource (addr : ResourceAddr) : Script ResourceDefinition :=
  ExceptT.mk (Program.ask (E := bodyEffects Object) (.resource addr))

/-- How many substates the scan still offers. -/
def pending : Script Nat :=
  ExceptT.lift (Program.ask (E := bodyEffects Object) .pending)

/-- Pulls the next substate from the scan. -/
def pull : Script (Option (Except ExecutionError Object)) :=
  ExceptT.lift (Program.ask (E := bodyEffects Object) .pull)

/-- Leaves a note. -/
def note (line : String) : Script Unit :=
  ExceptT.lift (Program.ask (E := bodyEffects Object) (.note line))

/-- Fails with a reason of the rule's own. -/
def reject {α : Type} (reason : String) : Script α := throw (.procedure reason)

end Script

/-- What the steps of a body work on: the reducer state, and the sum and
number of what was pulled so far. -/
structure Registers where
  state : Option Holding
  sum : Nat
  count : Nat
deriving DecidableEq

namespace Registers

/-- The registers once one more object was pulled. -/
def addPulled (registers : Registers) (object : Object) : Registers :=
  { registers with
    count := registers.count + 1
    sum := registers.sum + (tokenAmount? (.substate object)).getD 0 }

end Registers

/-- Pulls up to a number of substates, stopping at the end of the scan. -/
def pullUpTo (lenient : Bool) : Nat → Registers → Script Registers
  | 0, registers => pure registers
  | left + 1, registers => do
      match ← Script.pull with
      | none => return registers
      | some (.ok object) =>
          Script.note ("pulled " ++ object.text)
          pullUpTo lenient left (registers.addPulled object)
      | some (.error cause) =>
          if lenient then
            Script.note ("pulled error " ++ cause.name)
            pullUpTo lenient left registers
          else throw cause

/-- Looks up a resource, emits its address and notes what was found. -/
def announceResource (addr : ResourceAddr) : Script Unit := do
  let definition ← Script.resource addr
  let _ ← Script.act (.emit definition.addr.bytes)
  Script.note ("found " ++ Object.definitionText definition)

/-- The amount of a system call: the eight bytes behind its first. -/
def callAmount (arguments : Bytes) : Script Amount :=
  if arguments.length < 8 then Script.reject "bad syscall data"
  else pure (Amount.clamp (Bytes.toNatBE (arguments.take 8)))

/-- Carries out a system call, which the first byte of its data names. -/
def runSyscall (data : Bytes) : Script Unit := do
  match data with
  | 0 :: arguments => perform (.deposit .native (← callAmount arguments))
  | 1 :: addr => announceResource ⟨addr⟩
  | 2 :: event => perform (.emit event)
  | 3 :: arguments => perform (.charge (← callAmount arguments))
  | 4 :: arguments => perform (.withdraw (← callAmount arguments))
  | 5 :: arguments => perform (.lend (← callAmount arguments))
  | _ => Script.reject "unknown syscall"
where
  /-- Operates on the context for the effect only. -/
  perform (op : ContextOp) : Script Unit := do
    let _ ← Script.act op
    return ()

namespace Step

/-- The amount of an input that has to be tokens. -/
def requireTokens (input : Input Object) : Script Nat :=
  match tokenAmount? input with
  | some amount => pure amount
  | none => Script.reject "expected tokens"

/-- The reducer state that has to be there. -/
def requireState (registers : Registers) : Script Holding :=
  match registers.state with
  | some holding => pure holding
  | none => Script.reject "no state"

/-- A state of that kind and number, where nothing is no state. -/
def unlessZero (kind : ReducerKind) (value : Nat) : Option Holding :=
  if value = 0 then none else some ⟨kind, value⟩

/-- Carries out one step. -/
def run (input : Input Object) (registers : Registers) : Step → Script Registers
  | fail reason => Script.reject reason
  | clear => pure { registers with state := none }
  | set holding => pure { registers with state := some holding }
  | take kind => do
      let amount ← requireTokens input
      return { registers with state := some ⟨kind, amount⟩ }
  | add => do
      let amount ← requireTokens input
      let holding ← requireState registers
      return { registers with state := some { holding with value := holding.value + amount } }
  | sub => do
      let amount ← requireTokens input
      let holding ← requireState registers
      if holding.value < amount then Script.reject "transfer overspends input"
      return { registers with state := unlessZero holding.kind (holding.value - amount) }
  | pull limit lenient =>
      match input with
      | .index _ => do
          let offered ← Script.pending
          pullUpTo lenient (min offered (limit.getD offered)) registers
      | _ => Script.reject "expected index scan"
  | setSum kind => pure { registers with state := unlessZero kind registers.sum }
  | setCount kind => pure { registers with state := some ⟨kind, registers.count⟩ }
  | syscall =>
      match input with
      | .call data => do
          runSyscall data
          return registers
      | _ => Script.reject "expected call data"
  | resource addr => do
      announceResource addr
      return registers
  | act op => do
      let _ ← Script.act op
      return registers
  | tryAct op => do
      match ← Script.attempt op with
      | .ok _ => Script.note "try ok"
      | .error cause => Script.note ("try " ++ cause.name)
      return registers
  | debug => do
      Script.note ("debug " ++ input.diagnostic Object.text)
      return registers

/-- Carries out steps in order. -/
def runAll (input : Input Object) : List Step → Registers → Script Registers
  | [], registers => pure registers
  | step :: rest, registers => do
      let registers ← step.run input registers
      runAll input rest registers

end Step

-- ============================================================= procedures

namespace Rule

/-- The level a rule needs for an input. -/
def requiredLevel (rule : Rule) (input : Input Object) : PermissionLevel :=
  match rule.above, tokenAmount? input with
  | some (limit, level), some amount => if limit < amount then level else rule.level
  | _, _ => rule.level

/-- A rule's authorizer. -/
def authorizer (rule : Rule) (input : Input Object) : Authorizer :=
  match rule.above, rule.checks with
  | none, some checks =>
      .perform (E := authorizerEffects)
        (.note ("auth " ++ rule.key.text ++ " " ++ inputText input))
        fun _ => Check.runAll checks input
  | _, _ => Authorizer.allow

/-- A rule's body. -/
def body (rule : Rule) (input : Input Object) (state : Option Holding) :
    Script (Option Holding) := do
  Script.note ("call " ++ rule.key.text ++ " " ++ inputText input ++ " " ++ stateText state)
  let registers ← Step.runAll input rule.steps ⟨state, 0, 0⟩
  return registers.state

/-- What a rule does. -/
def toProcedure (rule : Rule) : Procedure Object Holding where
  requiredLevel := rule.requiredLevel
  authorize := rule.authorizer
  body input state := rule.body input state

/-- The table of a list of rules, of which later ones win. -/
def table (rules : List Rule) : Procedures Object Holding :=
  .ofList (rules.map fun rule => (rule.key, rule.toProcedure))

end Rule

end LedgerCore.Token
