import OriGateway.Foundation.Bytes
import OriGateway.Foundation.GoMap
import OriGateway.Foundation.Gate
import OriGateway.MqttAuth.SigningClock

/-! # The decision to stop

Work comes into the gateway as broker callbacks, webhook requests and posture fetches. Each is let
in by a gate, and released once it is done; a callback may hand its message to a pool, which lets it
in again and handles it on a goroutine of its own, in turn with the other messages of its device
where the pool is ordered. The decision to stop closes every gate and stops the signing clock, and
may be taken several times, by several goroutines at once. In **`Gateway.step`** one goroutine goes
on by one critical section, or something arrives from outside. -/

namespace OriGateway

open Foundation

/-! ## Pools -/

/-- What a device holds of a family. -/
structure PoolKey where
  device : Bytes
  family : Bytes
  deriving DecidableEq

/-- A message that a pool has accepted. -/
structure PendingRequest where
  topic : Bytes
  payload : Bytes
  family : Bytes
  unit : Nat
  deriving DecidableEq

/-- A pool of handlers. -/
structure RequestPool where
  /-- Whether the messages of a device are handled one at a time, in the order of arrival. -/
  ordered : Bool
  limits : Bytes → Int
  configured : List Bytes
  held : GoMap PoolKey Int
  /-- The messages that wait, in the order of arrival, each with its device: the source's slices of
  all devices in one list. -/
  queued : List (Bytes × PendingRequest)
  draining : List Bytes

/-- How a pool is set up. -/
structure PoolConfig where
  ordered : Bool
  limits : Bytes → Int
  configured : List Bytes

def newRequestPool (c : PoolConfig) : RequestPool := ⟨c.ordered, c.limits, c.configured, ∅, [], []⟩

namespace RequestPool

def heldOf (p : RequestPool) (key : PoolKey) : Int := (p.held.lookup key).getD 0

def hold (p : RequestPool) (key : PoolKey) : RequestPool :=
  { p with held := p.held.insert key (p.heldOf key + 1) }

def unhold (p : RequestPool) (key : PoolKey) : RequestPool :=
  if p.heldOf key - 1 = 0 then { p with held := p.held.erase key }
  else { p with held := p.held.insert key (p.heldOf key - 1) }

def waits (p : RequestPool) (device : Bytes) : Bool := p.queued.any fun r => r.1 == device

def append (p : RequestPool) (device : Bytes) (req : PendingRequest) : RequestPool :=
  { p with queued := p.queued ++ [(device, req)] }

/-- Take a device's oldest request. -/
def pop (p : RequestPool) (device : Bytes) : Option (PendingRequest × RequestPool) :=
  match p.queued.find? fun r => r.1 == device with
  | none => none
  | some r => some (r.2, { p with queued := p.queued.erase r })

def startDraining (p : RequestPool) (device : Bytes) : RequestPool :=
  { p with draining := device :: p.draining }

def stopDraining (p : RequestPool) (device : Bytes) : RequestPool :=
  { p with draining := p.draining.filter (· ≠ device) }

end RequestPool

def requestDeviceSegment (topic : Bytes) : Bytes :=
  if (ascii "ori/").isPrefixOf topic then (topic.drop 4).takeWhile (· ≠ 47) else []

def RequestPool.deviceOf (p : RequestPool) (topic : Bytes) : Bytes :=
  if requestDeviceSegment topic ∈ p.configured then requestDeviceSegment topic else []

/-! ## Goroutines -/

/-- A gate of the gateway. -/
inductive GateName where
  /-- Broker callbacks, and the messages of the pools. -/
  | callbacks
  | webhook
  | posture
  deriving DecidableEq

/-- How a subscription handles a message. -/
inductive Job where
  | inline
  | pooled (pool : Nat) (family : Bytes)
  deriving DecidableEq

/-- Where a broker callback is. -/
inductive CallbackPhase where
  | arriving
  | handling (u : Nat)
  /-- In a pool's handler, over the bound: the message is to be released. -/
  | dropping (u v : Nat)
  /-- The handler has returned, or panicked: its release is deferred. -/
  | leaving (u : Nat)
  deriving DecidableEq

/-- Where the handling of a message of a pool is. -/
inductive RunPhase where
  | checking
  | handling
  /-- The handler has returned, or panicked: the deferred part is to run. -/
  | finishing
  /-- The message is to be released; whether it was the last one of its device. -/
  | releasing (last : Bool)
  deriving DecidableEq

/-- Where a decision to stop is. -/
inductive DecisionPhase where
  | refuseCallbacks
  | refuseWebhook
  | refusePosture
  /-- It is to stop the clock, unless that is done or being done. -/
  | stopSigning
  | stoppingClock
  | cancel
  | returned
  deriving DecidableEq

/-- Where the closing of a gate is. -/
inductive ClosePhase where
  | refusing
  | waiting
  | returned
  deriving DecidableEq

/-- A goroutine. -/
inductive Routine where
  | callback (job : Job) (topic payload : Bytes) (phase : CallbackPhase)
  /-- The goroutine of a device of an ordered pool, about to take the next message. -/
  | draining (pool : Nat) (device : Bytes)
  /-- A message of a pool is handled: by the goroutine of its device, or by its own. -/
  | running (pool : Nat) (device : Bytes) (req : PendingRequest) (drains : Bool) (phase : RunPhase)
  | request (u : Option Nat)
  /-- A posture fetch of a device, while it is marked as in flight or after. -/
  | fetching (device : Bytes) (u : Nat) (inflight : Bool)
  | deciding (phase : DecisionPhase)
  | closing (gate : GateName) (phase : ClosePhase)
  | ended
  deriving DecidableEq

/-! ## The gateway -/

/-- How far a call that is made once has come. -/
inductive Once where
  | unused
  | running
  | done
  deriving DecidableEq

/-- The gateway, as far as stopping goes. -/
structure Gateway where
  gates : GateName → Gate
  inflight : List Bytes
  pools : List RequestPool
  clock : Option ClockRun
  stopOnce : Once
  cancelled : Bool
  routines : List Routine

/-- What can happen. -/
inductive GatewayEvent where
  /-- The broker delivers a message of a subscription. -/
  | deliver (job : Job) (topic payload : Bytes)
  | request
  | decide
  | close (gate : GateName)
  /-- A callback's handler asks for a posture fetch of a device. -/
  | tryStart (i : Nat) (device : Bytes)
  /-- Something happens to the signing clock; it is stopped by a decision alone. -/
  | sign (e : ClockEvent)
  | run (i : Nat)

namespace Gateway

/-- A gateway as it starts. -/
def started (pools : List PoolConfig) (clock : Option ClockRun) : Gateway where
  gates _ := Gate.fresh
  inflight := []
  pools := pools.map newRequestPool
  clock := clock
  stopOnce := .unused
  cancelled := false
  routines := []

def setGate (s : Gateway) (name : GateName) (g : Gate) : Gateway :=
  { s with gates := Function.update s.gates name g }

def setPool (s : Gateway) (k : Nat) (p : RequestPool) : Gateway :=
  { s with pools := s.pools.set k p }

def put (s : Gateway) (i : Nat) (t : Routine) : Gateway := { s with routines := s.routines.set i t }

def spawn (s : Gateway) (t : Routine) : Gateway := { s with routines := s.routines ++ [t] }

def release (s : Gateway) (name : GateName) (u : Nat) : Gateway :=
  s.setGate name ((s.gates name).release u)

/-- A pool has accepted a message: it is handled at once, or waits for its turn. -/
def accept (s : Gateway) (k : Nat) (p : RequestPool) (device : Bytes) (req : PendingRequest) :
    Gateway :=
  let p := p.hold ⟨device, req.family⟩
  if p.ordered then
    let p := p.append device req
    if device ∈ p.draining then s.setPool k p
    else (s.setPool k (p.startDraining device)).spawn (.draining k device)
  else (s.setPool k p).spawn (.running k device req false .checking)

/-- A callback hands its message to a pool, which lets it in under its lock: the message is refused,
is over the bound of its device, or is accepted. -/
def handOver (s : Gateway) (i k : Nat) (family topic payload : Bytes) (u : Nat) : Option Gateway :=
  match s.pools[k]? with
  | none => none
  | some p =>
    match (s.gates .callbacks).enter with
    | none => some (s.put i (.callback (.pooled k family) topic payload (.leaving u)))
    | some (v, g) =>
      let s := s.setGate .callbacks g
      let device := p.deviceOf topic
      if p.heldOf ⟨device, family⟩ ≥ p.limits family then
        some (s.put i (.callback (.pooled k family) topic payload (.dropping u v)))
      else
        some ((s.put i (.callback (.pooled k family) topic payload (.leaving u))).accept k p device
          ⟨topic, payload, family, v⟩)

/-- A step of a callback. -/
def callbackStep (s : Gateway) (i : Nat) (job : Job) (topic payload : Bytes) : CallbackPhase →
    Option Gateway
  | .arriving =>
    match (s.gates .callbacks).enter with
    | none => some (s.put i .ended)
    | some (u, g) =>
      some ((s.setGate .callbacks g).put i (.callback job topic payload (.handling u)))
  | .handling u =>
    match job with
    | .inline => some (s.put i (.callback job topic payload (.leaving u)))
    | .pooled k family => s.handOver i k family topic payload u
  | .dropping u v =>
    some ((s.release .callbacks v).put i (.callback job topic payload (.leaving u)))
  | .leaving u => some ((s.release .callbacks u).put i .ended)

/-- The deferred part of the handling of a message, under the pool's lock. -/
def finish (p : RequestPool) (device : Bytes) (req : PendingRequest) : Bool × RequestPool :=
  let p := p.unhold ⟨device, req.family⟩
  if p.ordered ∧ p.waits device = false then (true, p.stopDraining device) else (false, p)

/-- A step of a request's handler. -/
def runStep (s : Gateway) (i k : Nat) (device : Bytes) (req : PendingRequest) (drains : Bool) :
    RunPhase → Option Gateway
  | .checking =>
    if (s.gates .callbacks).closed then some (s.put i (.running k device req drains .finishing))
    else some (s.put i (.running k device req drains .handling))
  | .handling => some (s.put i (.running k device req drains .finishing))
  | .finishing =>
    match s.pools[k]? with
    | none => none
    | some p =>
      let r := finish p device req
      some ((s.setPool k r.2).put i (.running k device req drains (.releasing r.1)))
  | .releasing last =>
    let s := s.release .callbacks req.unit
    if drains ∧ last = false then some (s.put i (.draining k device)) else some (s.put i .ended)

/-- A step of a device's goroutine. -/
def drainStep (s : Gateway) (i k : Nat) (device : Bytes) : Option Gateway :=
  match s.pools[k]? with
  | none => none
  | some p =>
    match p.pop device with
    | none => none
    | some (req, p) => some ((s.setPool k p).put i (.running k device req true .checking))

/-- A step of the stop. -/
def decisionStep (s : Gateway) (i : Nat) : DecisionPhase → Option Gateway
  | .refuseCallbacks =>
    some ((s.setGate .callbacks (s.gates .callbacks).refuse).put i (.deciding .refuseWebhook))
  | .refuseWebhook =>
    some ((s.setGate .webhook (s.gates .webhook).refuse).put i (.deciding .refusePosture))
  | .refusePosture =>
    some ((s.setGate .posture (s.gates .posture).refuse).put i (.deciding .stopSigning))
  | .stopSigning =>
    match s.clock, s.stopOnce with
    -- without message auth there is nothing to stop
    | none, _ => some (s.put i (.deciding .cancel))
    | some _, .unused => some ({ s with stopOnce := .running }.put i (.deciding .stoppingClock))
    -- a call made meanwhile waits for the one that is made
    | some _, .running => none
    | some _, .done => some (s.put i (.deciding .cancel))
  | .stoppingClock =>
    some ({ s with clock := s.clock.map ClockRun.stop, stopOnce := .done }.put i
      (.deciding .cancel))
  | .cancel => some ({ s with cancelled := true }.put i (.deciding .returned))
  | .returned => none

/-- The closing of a gate goes on: it waits until nothing is counted as running. -/
def closeStep (s : Gateway) (i : Nat) (name : GateName) : ClosePhase → Option Gateway
  | .refusing => some ((s.setGate name (s.gates name).refuse).put i (.closing name .waiting))
  | .waiting =>
    if (s.gates name).running = 0 then some (s.put i (.closing name .returned)) else none
  | .returned => none

/-- A step of a goroutine. -/
def advance (s : Gateway) (i : Nat) : Routine → Option Gateway
  | .callback job topic payload phase => s.callbackStep i job topic payload phase
  | .draining k device => s.drainStep i k device
  | .running k device req drains phase => s.runStep i k device req drains phase
  | .request none =>
    match (s.gates .webhook).enter with
    | none => some (s.put i .ended)
    | some (u, g) => some ((s.setGate .webhook g).put i (.request (some u)))
  -- the release is deferred: a handler that panics is released as well
  | .request (some u) => some ((s.release .webhook u).put i .ended)
  | .fetching device u true =>
    some ({ s with inflight := s.inflight.filter (· ≠ device) }.put i (.fetching device u false))
  | .fetching _ u false => some ((s.release .posture u).put i .ended)
  | .deciding phase => s.decisionStep i phase
  | .closing name phase => s.closeStep i name phase
  | .ended => none

/-- A posture fetch is let in, unless one of the device is in flight or none is let in any more. -/
def tryStart (s : Gateway) (device : Bytes) : Gateway :=
  match (s.gates .posture).enter with
  | none => s
  | some (u, g) =>
    if device ∈ s.inflight then s
    else
      ({ s with inflight := device :: s.inflight }.setGate .posture g).spawn
        (.fetching device u true)

def serves (s : Gateway) : Job → Bool
  | .inline => true
  | .pooled k _ => decide (k < s.pools.length)

/-- **What an event does**, when it can happen. -/
def step (s : Gateway) : GatewayEvent → Option Gateway
  | .deliver job topic payload =>
    if s.serves job then some (s.spawn (.callback job topic payload .arriving)) else none
  | .request => some (s.spawn (.request none))
  | .decide => some (s.spawn (.deciding .refuseCallbacks))
  | .close name => some (s.spawn (.closing name .refusing))
  | .tryStart i device =>
    match s.routines[i]? with
    | some (.callback .inline _ _ (.handling _)) => some (s.tryStart device)
    | _ => none
  | .sign e =>
    match s.clock, e with
    | _, .stop => none
    | none, _ => none
    | some clock, e => (clock.step e).map fun clock => { s with clock := some clock }
  | .run i =>
    match s.routines[i]? with
    | none => none
    | some t => s.advance i t

end Gateway

end OriGateway
