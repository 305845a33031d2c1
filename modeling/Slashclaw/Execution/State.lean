import Slashclaw.Effect.Prog
import Mathlib.Logic.Relation

namespace Slashclaw

namespace Prog

-- A handler that has answered or crashed takes no further step.
def Done : Prog α → Prop
  | exec _ _ => False
  | _ => True

instance : DecidablePred (Done : Prog α → Prop) := fun p =>
  match p with
  | .exec _ _ => isFalse id
  | .pure _ => isTrue trivial
  | .crash => isTrue trivial

-- What a handler has answered, if it has.
def result : Prog α → Option α
  | pure a => some a
  | _ => none

end Prog

namespace Execution

structure Proc (Req α : Type) where
  req : Req
  prog : Prog α

-- One effect performed: by which request, at what time, on which world.
structure Entry where
  proc : Nat
  time : Time
  world : World
  event : Prog.Event

-- The server at one moment: the shared world, every request received so far with what remains
-- of its handler, and the trace of the effects performed. The trace is ghost state: no step
-- reads it.
structure State (Req α : Type) where
  world : World
  procs : List (Proc Req α)
  trace : List Entry

variable {Req α : Type} (handle : Req → Prog α)

def traceLog (trace : List Entry) (i : Nat) : List Prog.Event :=
  trace.filterMap fun x => if x.proc = i then some x.event else none

namespace State

def start (w : World) : State Req α :=
  ⟨w, [], []⟩

def init (t : Time) : State Req α :=
  start (.init t)

def spawn (s : State Req α) (req : Req) : State Req α :=
  { s with procs := s.procs ++ [⟨req, handle req⟩] }

-- Request `i` performs its next effect, answered by the environment's choice `c`.
def exec (s : State Req α) (i : Nat) (c : Choice) : Option (State Req α) :=
  match s.procs[i]? with
  | some ⟨req, .exec e k⟩ =>
    let r := e.run c s.world
    some ⟨r.2, s.procs.set i ⟨req, k r.1⟩, s.trace ++ [⟨i, c.time, s.world, ⟨e, r.1⟩⟩]⟩
  | _ => none

-- A tick of the goroutine of `StartCleanup`.
def cleanup (s : State Req α) (t : Time) : State Req α :=
  { s with world := { s.world with limiter := s.world.limiter.cleanup t, clock := t } }

-- The effects request `i` has performed, in order.
def log (s : State Req α) (i : Nat) : List Prog.Event :=
  traceLog s.trace i

def Quiescent (s : State Req α) : Prop :=
  ∀ p ∈ s.procs, p.prog.Done

instance (s : State Req α) : Decidable s.Quiescent :=
  inferInstanceAs (Decidable (∀ p ∈ s.procs, p.prog.Done))

end State

-- Requests arrive at any time, and any request in flight may take the next step: every
-- interleaving of the handlers' effects is a run.
inductive Step : State Req α → State Req α → Prop
  | spawn (s : State Req α) (req : Req) : Step s (s.spawn handle req)
  | exec {s s' : State Req α} (i : Nat) (c : Choice) (hc : s.world.clock ≤ c.time)
      (h : s.exec i c = some s') : Step s s'
  | cleanup (s : State Req α) (t : Time) (ht : s.world.clock ≤ t) : Step s (s.cleanup t)

-- The runs in which requests are served one at a time: a request arrives only when every
-- earlier one has answered.
inductive SeqStep : State Req α → State Req α → Prop
  | spawn {s : State Req α} (hq : s.Quiescent) (req : Req) : SeqStep s (s.spawn handle req)
  | exec {s s' : State Req α} (i : Nat) (c : Choice) (hc : s.world.clock ≤ c.time)
      (h : s.exec i c = some s') : SeqStep s s'
  | cleanup (s : State Req α) (t : Time) (ht : s.world.clock ≤ t) : SeqStep s (s.cleanup t)

def Reachable (s : State Req α) : Prop :=
  ∃ t, Relation.ReflTransGen (Step handle) (.init t) s

def SeqReachable (s : State Req α) : Prop :=
  ∃ t, Relation.ReflTransGen (SeqStep handle) (.init t) s

end Execution

end Slashclaw
