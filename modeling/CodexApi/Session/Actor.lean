import CodexApi.Lib.List
import CodexApi.Lib.Transition
import CodexApi.Session.Cache
import CodexApi.Session.Prepare

/-!
# Session actors

The protocol between `stream`, the actors it spawns and the cache, as a transition system. A
caller picks an actor under the cache lock and hands it the turn afterwards, without the lock; an
actor passes through its loop (`idle`, `running`, `finished`, `delivering`) and then leaves: it
removes its entry and drops its channel in two steps. Every step of a caller or an actor can come
between two steps of another, and the hash map may reorder at any time.

The field `turn` of an actor is a ghost: the caller whose turn the actor has been given and not
released yet.
-/

namespace CodexApi

open Transition

/-- A turn in a channel, with the caller it came from. -/
structure Job where
  caller : Nat
  turn : Turn
deriving DecidableEq

/-- Where an actor is. After `respond` it is `finished` until `ready` has released its key;
after its loop it is `leaving` until its entry is removed and `closing` until its channel is. -/
inductive ActorPhase
  | idle
  | running (job : Job)
  | finished (job : Job)
  | delivering
  | leaving
  | closing
  | gone
deriving DecidableEq

/-- The turn an actor works on. -/
def ActorPhase.job : ActorPhase → Option Job
  | .running job | .finished job => some job
  | _ => none

/-- Whether an actor has ended, its entry removed. -/
def ActorPhase.departed : ActorPhase → Bool
  | .closing | .gone => true
  | _ => false

/-- An actor, its channel of one place, its session and what it has processed. -/
structure Actor where
  key : Option SessionKey
  queue : Option Job
  phase : ActorPhase
  session : Session
  log : List (Job × TurnEvents)
  turn : Option Nat

/-- Where a call of `stream` is. -/
inductive CallPhase
  /-- It has picked an actor and is about to send. -/
  | handing (actor : Nat)
  /-- It waits for the reply, or has it. -/
  | waiting
  /-- The session was busy. -/
  | rejected
  /-- The channel was closed. -/
  | refused
  | gone
deriving DecidableEq

/-- A call of `stream`. -/
structure Caller where
  key : Option SessionKey
  turn : Turn
  phase : CallPhase
deriving DecidableEq

/-- All sessions of a process. -/
structure Sessions where
  cache : Cache
  actors : List Actor
  callers : List Caller
  shutdown : Bool

/-- No session yet. -/
def Sessions.init : Sessions := ⟨⟨[], 0⟩, [], [], false⟩

/-- The steps of callers and actors. -/
inductive SessionsAction
  | call (key : Option SessionKey) (turn : Turn) (requestKey : String) (now : Nat)
  | send (caller : Nat)
  | disconnect (caller : Nat)
  | receive (actor : Nat)
  | hangUp (actor : Nat)
  | stop (actor : Nat)
  | respond (actor : Nat) (events : TurnEvents)
  | ready (actor now : Nat)
  | deliver (actor : Nat)
  | message (actor : Nat) (event : UpstreamEvent)
  | expire (actor : Nat)
  | leave (actor : Nat)
  | close (actor : Nat)
  | shutdown
  | rehash (entries : Entries)

/-- The actor that takes a step. -/
def SessionsAction.actor : SessionsAction → Option Nat
  | .receive i | .hangUp i | .stop i | .respond i _ | .ready i _ | .deliver i | .message i _
  | .expire i | .leave i | .close i => some i
  | _ => none

namespace Sessions

/-- An actor moves on. -/
def setActor (s : Sessions) (i : Nat) (actor : Actor) : Sessions :=
  { s with actors := s.actors.set i actor }

/-- A caller moves on. -/
def setCaller (s : Sessions) (c : Nat) (caller : Caller) (phase : CallPhase) : Sessions :=
  { s with callers := s.callers.set c { caller with phase } }

/-- `stream` under the lock when a new actor is needed. -/
def spawn (s : Sessions) (key : Option SessionKey) (turn : Turn) (requestKey : String)
    (now : Nat) : Sessions :=
  { s with
    cache := s.cache.addActor key now
    actors := s.actors ++
      [⟨key, none, .idle, .new key.isSome requestKey, [], some s.callers.length⟩]
    callers := s.callers ++ [⟨key, turn, .handing s.cache.nextId⟩] }

/-- `stream` under the lock when the actor of the key is idle. -/
def mark (s : Sessions) (key : SessionKey) (id : Nat) (turn : Turn) : Sessions :=
  { s with
    cache := s.cache.markBusy key
    actors := s.actors.modify id fun actor => { actor with turn := some s.callers.length }
    callers := s.callers ++ [⟨some key, turn, .handing id⟩] }

/-- `stream` under the lock. -/
def call (s : Sessions) (key : Option SessionKey) (turn : Turn) (requestKey : String)
    (now : Nat) : Sessions :=
  match key with
  | none => s.spawn none turn requestKey now
  | some key =>
    match s.cache.entries.get key with
    | none => s.spawn (some key) turn requestKey now
    | some entry =>
      if entry.busy then { s with callers := s.callers ++ [⟨some key, turn, .rejected⟩] }
      else s.mark key entry.id turn

/-- `try_send`, which fails on a channel that is closed or full. -/
def send (s : Sessions) (c : Nat) (caller : Caller) (i : Nat) (actor : Actor) : Sessions :=
  if actor.phase = .gone ∨ actor.queue.isSome then s.setCaller c caller .refused
  else (s.setActor i { actor with queue := some ⟨c, caller.turn⟩ }).setCaller c caller .waiting

/-- Whether somebody can still send to an actor. -/
def hasSender (s : Sessions) (i : Nat) : Bool :=
  s.cache.entries.any (·.2.id = i) || s.callers.any (·.phase = .handing i)

/-- The step of an actor. -/
def act (snapshotBytes : Snapshot → Nat) (s : Sessions) (i : Nat) (actor : Actor) :
    SessionsAction → Option Sessions
  | .receive _ =>
    match actor.phase, actor.queue with
    | .idle, some job =>
      -- The biased select looks at the shutdown first.
      if s.shutdown then none
      else some (s.setActor i { actor with phase := .running job, queue := none })
    | _, _ => none
  | .hangUp _ =>
    if actor.phase = .idle ∧ actor.queue = none ∧ s.hasSender i = false then
      some (s.setActor i { actor with phase := .leaving })
    else none
  | .stop _ =>
    if actor.phase = .idle ∧ s.shutdown then some (s.setActor i { actor with phase := .leaving })
    else none
  | .respond _ events =>
    match actor.phase with
    | .running job =>
      some (s.setActor i { actor with
        phase := .finished job
        session := (actor.session.respond snapshotBytes job.turn events).1
        log := actor.log ++ [(job, events)] })
    | _ => none
  | .ready _ now =>
    match actor.phase with
    | .finished _ =>
      let s := s.setActor i { actor with phase := .delivering, turn := none }
      match actor.key with
      | some key => some { s with cache := s.cache.ready key i actor.session.bytes now }
      | none => some s
    | _ => none
  | .deliver _ =>
    if actor.phase = .delivering then some (s.setActor i { actor with phase := .idle }) else none
  | .message _ event =>
    if actor.phase = .idle ∧ actor.session.upstream then
      some (s.setActor i { actor with session := actor.session.idleMessage event })
    else none
  | .expire _ =>
    if actor.phase = .idle then
      match actor.key with
      | none => some (s.setActor i { actor with phase := .leaving })
      | some key =>
        match s.cache.removeIdle key i with
        | (_, false) => some s
        | (cache, true) => some { s.setActor i { actor with phase := .leaving } with cache }
    else none
  | .leave _ =>
    if actor.phase = .leaving then
      let s := s.setActor i { actor with phase := .closing }
      match actor.key with
      | some key => some { s with cache := s.cache.removeOwn key i }
      | none => some s
    else none
  | .close _ =>
    if actor.phase = .closing then
      some (s.setActor i { actor with phase := .gone, queue := none })
    else none
  | _ => none

end Sessions

/-- One step. -/
def sessionsStep (snapshotBytes : Snapshot → Nat) (s : Sessions) (a : SessionsAction) :
    Option Sessions :=
  match a with
  | .call key turn requestKey now => some (s.call key turn requestKey now)
  | .send c =>
    match s.callers[c]? with
    | none => none
    | some caller =>
      match caller.phase with
      | .handing i => (s.actors[i]?).map (s.send c caller i)
      | _ => none
  | .disconnect c =>
    match s.callers[c]? with
    | none => none
    | some caller =>
      match caller.phase with
      -- Between the lock and the send there is no await.
      | .handing _ => none
      | _ => some (s.setCaller c caller .gone)
  | .shutdown => some { s with shutdown := true }
  | .rehash entries =>
    if entries.Perm s.cache.entries then some { s with cache := { s.cache with entries } } else none
  | a => a.actor.bind fun i => (s.actors[i]?).bind fun actor => s.act snapshotBytes i actor a

/-- The interleavings of callers and actors. -/
abbrev SessionsRun (snapshotBytes : Snapshot → Nat) := Run (ofFun (sessionsStep snapshotBytes))

end CodexApi
