import Polyrust.Runtime.Prepare
import Polyrust.Signing.Venue
import Polyrust.Tasks

/-!
# The program

All of `main.rs` that signs and posts, around the tasks: the gates of the start, the spawned task of
every BUY, and the exit loop. The two counters that number signals and SELLs are the salts of the
orders. A SELL is planned again under the lock of the core, signed without it and posted by a task
of its own, so that these are three steps, and other tasks may come between them. What was handed to
`submit_order` is kept as it was posted, in order; the venue and what it answers are steps of their
own.

A spawned task that aborts ends alone, with its claim still pending; it holds no lock.
-/

namespace Polyrust

open IntWidth

/-- How far the task of a BUY has come. -/
inductive BuyStage where
  /-- the order is prepared next -/
  | claimed
  /-- the order is at the venue -/
  | posted
  /-- preparing the order has aborted the task -/
  | panicked
  deriving DecidableEq, Repr

/-- The spawned task of a BUY. -/
structure BuyTask where
  intent : BuyIntent
  policy : BuySubmitPolicy
  salt : BitVec 64
  claimId : SubmitId
  stage : BuyStage
  deriving DecidableEq, Repr

/-- The spawned task of a SELL, which posts an order that is signed. -/
structure SellTask where
  plan : SellPlan
  inputs : SignInputs
  body : SignedFakOrderBody
  deriving DecidableEq, Repr

/-- An order that was handed to `submit_order`, with what it was signed for. -/
inductive Posted where
  | buy (task : BuyTask) (inputs : SignInputs) (body : SignedFakOrderBody)
  | sell (plan : SellPlan) (inputs : SignInputs) (body : SignedFakOrderBody)
  deriving DecidableEq, Repr

/-- What the task posts. -/
def SellTask.order (task : SellTask) : Posted := .sell task.plan task.inputs task.body

/-- What was posted. -/
def Posted.body : Posted → SignedFakOrderBody
  | .buy _ _ body | .sell _ _ body => body

/-- What is fresh in the order. -/
def Posted.inputs : Posted → SignInputs
  | .buy _ inputs _ | .sell _ inputs _ => inputs

/-- The side of the order. -/
def Posted.side : Posted → OrderSide
  | .buy .. => .buy
  | .sell .. => .sell

/-- The program: its tasks, what they sign with, and what they have spawned. -/
structure Program (F Key : Type) where
  /-- the tasks around the core -/
  tasks : TaskSystem F
  /-- `order_signer`, which is there together with the submitter -/
  signer : Option (OrderSigner Key)
  signalId : BitVec 64
  sellId : BitVec 64
  /-- the spawned BUY tasks, with the submits in flight in one order -/
  buys : List BuyTask
  /-- the exits of the batch that are not yet refreshed -/
  exits : List ExitDecision
  /-- the plan of an exit that is refreshed and not yet signed -/
  selling : Option SellPlan
  /-- the spawned tasks of the SELLs that are signed -/
  sells : List SellTask
  posted : List Posted

/-- The credentials of the user channel, as they are given or derived. -/
structure Credentials where
  apiKey : String
  apiSecret : String
  passphrase : String
  address : String

/-- One of the credentials that are needed in shadow mode, too, is empty. -/
def Credentials.missing (c : Credentials) : Bool :=
  c.apiKey.isEmpty || c.apiSecret.isEmpty || c.passphrase.isEmpty

/-- What the program does not start without. -/
inductive StartError where
  | credentials
  | orderSigner (e : SigningError)
  | submitter
  | noOrderSigner
  | liveCredentials
  deriving DecidableEq, Repr

namespace Program

/-- The steps of the program; `nowMs` is the time of the clock. The spawned tasks run in any order,
and so do their steps among those of the others. -/
inductive Op (F : Type) where
  | task (op : TaskSystem.Op F)
  | prepareBuy (index : Nat) (nowMs : BitVec 128)
  | resolveBuy (index : Nat) (outcome : SubmitOutcome) (rtt : Rtt) (nowTsUs : Int)
  | refreshSell
  | signSell (nowMs : BitVec 128)
  | postSell (index : Nat)

section
variable {F Key Point : Type} [F64 F] (lib : SigningLib Key Point) (pl : Platform)

/-! ## The start -/

/-- `order_signer`: there is one when orders are live and a private key is given. -/
def orderSigner (live : Bool) (apiKey privateKey : String) (funder : Option H160)
    (kind : SignatureKind) : Except StartError (Option (OrderSigner Key)) :=
  if live && !privateKey.isEmpty then
    match OrderSigner.new lib privateKey apiKey funder kind Signing.POLYGON_CHAIN_ID
        Signing.EXCHANGE_V2_NORMAL with
    | .ok signer => .ok (some signer)
    | .error e => .error (.orderSigner e)
  else .ok none

/-- What live orders need. -/
def liveGates (submitter : Bool) (signer : Option (OrderSigner Key)) (c : Credentials) :
    Except StartError Unit :=
  if !submitter then .error .submitter
  else if signer.isNone then .error .noOrderSigner
  else if c.missing || c.address.isEmpty then .error .liveCredentials
  else .ok ()

/-- The gates of the start, and the program when its tasks are spawned. `funder` and `kind` are
those of the launch configuration; `submitter` says whether the L2 signer and the HTTP client can be
built. -/
def start (config : Config F) (core : RuntimeCore F) (credentials : Credentials)
    (privateKey : String) (funder : Option H160) (kind : SignatureKind) (submitter : Bool) :
    Except StartError (Program F Key) := do
  if credentials.missing then throw .credentials
  let signer ←
    orderSigner lib config.allowLiveOrders credentials.apiKey privateKey funder kind
  if config.allowLiveOrders then liveGates submitter signer credentials
  return { tasks := .start config core, signer := signer, signalId := 0, sellId := 0
           buys := [], exits := [], selling := none, sells := [], posted := [] }

/-! ## BUY submits -/

/-- The first half of a sample, under the lock of the core: the core after it, and the intent. -/
def decision (s : RuntimeSystem F) (sample : BinanceSample F) (now : TsUs) :
    Exec (RuntimeCore F × Option BuyIntent) :=
  match s.core.state.market with
  | none => return ({ s.core with signal := (s.core.signal.push sample).1 }, none)
  | some market =>
    let tteUs := i64.saturatingSub (i64.saturatingMul market.endTs 1000000) now.micros
    s.core.onBinanceSample pl.build sample now tteUs

/-- The task of an intent, with the next number and the next claim. -/
def buyTask (s : Program F Key) (intent : BuyIntent) (now : TsUs) : BuyTask :=
  { intent := intent, policy := s.tasks.core.buyPolicy, salt := s.signalId
    claimId := (s.tasks.core.inventory.claimEntry intent.token .buy ⟨1⟩ now.micros).2
    stage := .claimed }

/-- An intent takes the next number; when orders are live, its claim is in flight and its task is
spawned. -/
def spawn (s : Program F Key) (intent : BuyIntent) (now : TsUs) : Program F Key :=
  { s with
    tasks := { s.tasks with runtime := s.tasks.runtime.submit intent now }
    signalId := s.signalId + 1
    buys := if s.tasks.runtime.live && s.signer.isSome then s.buys ++ [s.buyTask intent now]
            else s.buys }

/-- The decision and the claim, under one lock of the core, and the task that is spawned. -/
def decideEntry (s : Program F Key) : Exec (Program F Key) := do
  match s.tasks.binance with
  | .pushed sample now =>
    let (core, intent) ← decision pl s.tasks.runtime sample now
    let s := { s with tasks := { s.tasks.withCore core with binance := .idle } }
    match intent with
    | none => return s
    | some intent => return s.spawn intent now
  | _ => return s

/-- The same tasks after a submit has left the list of those in flight. -/
def settle (s : Program F Key) (index : Nat) (op : BackgroundOp) : Exec (Program F Key) := do
  let tasks ← s.tasks.step pl (.background op)
  return { s with tasks := tasks, buys := s.buys.eraseIdx index }

/-- The task of a BUY prepares its order and posts it, or releases its claim. -/
def prepareBuy (s : Program F Key) (index : Nat) (nowMs : BitVec 128) : Exec (Program F Key) := do
  match s.signer, s.buys[index]? with
  | some signer, some task =>
    if task.stage ≠ .claimed then return s
    let inputs : SignInputs := { salt := task.salt, timestampMs := nowMs }
    match prepareBuySubmit lib pl.build task.intent task.policy signer inputs task.claimId with
    | .error _ => return { s with buys := s.buys.set index { task with stage := .panicked } }
    | .ok (.error _) => s.settle pl index (.abandon index)
    | .ok (.ok prepared) =>
      return { s with
        buys := s.buys.set index { task with stage := .posted }
        posted := s.posted ++ [.buy task inputs prepared.body] }
  | _, _ => return s

/-- The outcome of an order that is at the venue. -/
def resolveBuy (s : Program F Key) (index : Nat) (outcome : SubmitOutcome) (rtt : Rtt)
    (nowTsUs : Int) : Exec (Program F Key) :=
  match s.buys[index]? with
  | some task =>
    if task.stage = .posted then s.settle pl index (.resolve index outcome rtt nowTsUs)
    else return s
  | none => return s

/-! ## The exit loop -/

/-- A round of the exit loop plans a batch, once the last one is signed. -/
def planExits (s : Program F Key) (nowTsUs : Int) : Exec (Program F Key) := do
  if s.signer.isNone || !s.exits.isEmpty || s.selling.isSome then return s
  let (core, exits) ← s.tasks.core.planExits pl.build nowTsUs
  return { s with tasks := s.tasks.withCore core, exits := exits }

omit [F64 F] in
/-- The plan of the next exit of the batch is made again, under the lock of the core. -/
def refreshSell (s : Program F Key) : Exec (Program F Key) := do
  match s.selling, s.exits with
  | none, exit :: exits =>
    let plan ← s.tasks.core.refreshSellPlan pl.build exit.plan.token
    return { s with exits := exits, selling := plan }
  | _, _ => return s

omit [F64 F] in
/-- A refreshed plan is signed without the lock, and a task is spawned that posts it. A plan that
cannot be signed has used up its salt. -/
def signSell (s : Program F Key) (nowMs : BitVec 128) : Program F Key :=
  match s.signer, s.selling with
  | some signer, some plan =>
    let inputs : SignInputs := { salt := s.sellId, timestampMs := nowMs }
    let s := { s with selling := none, sellId := s.sellId + 1 }
    match plan.sign lib signer inputs with
    | .error _ => s
    | .ok prepared => { s with sells := s.sells ++ [⟨plan, inputs, prepared.body⟩] }
  | _, _ => s

omit [F64 F] in
/-- A spawned task posts its order, whatever has happened to the core since it was planned. -/
def postSell (s : Program F Key) (index : Nat) : Program F Key :=
  match s.sells[index]? with
  | some task => { s with sells := s.sells.eraseIdx index, posted := s.posted ++ [task.order] }
  | none => s

/-! ## The machine -/

/-- The program after a step. The submits in flight and the exits have steps of their own. -/
def step (s : Program F Key) : Op F → Exec (Program F Key)
  | .task .decideEntry => s.decideEntry pl
  | .task (.background (.planExits now)) => s.planExits pl now
  | .task (.background (.resolve ..)) | .task (.background (.abandon _)) => return s
  | .task op => return { s with tasks := ← s.tasks.step pl op }
  | .prepareBuy index nowMs => s.prepareBuy lib pl index nowMs
  | .resolveBuy index outcome rtt now => s.resolveBuy pl index outcome rtt now
  | .refreshSell => s.refreshSell pl
  | .signSell nowMs => return s.signSell lib nowMs
  | .postSell index => return s.postSell index

/-- What the program is started with. -/
structure Setup (F : Type) where
  config : Config F
  credentials : Credentials
  privateKey : String
  funder : Option H160
  kind : SignatureKind
  submitter : Bool

/-- The steps lead from the start of the program to `s`. -/
def Runs (setup : Setup F) (ops : List (Op F)) (s : Program F Key) : Prop :=
  ∃ core s₀, RuntimeCore.new setup.config = .ok core ∧
    start lib setup.config core setup.credentials setup.privateKey setup.funder setup.kind
      setup.submitter = .ok s₀ ∧
    Machine.runM (step lib pl) s₀ ops = .ok s

end

end Program

end Polyrust
