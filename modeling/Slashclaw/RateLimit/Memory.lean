import Slashclaw.Store.Rows

namespace Slashclaw

structure Bucket where
  count : Int
  resetTime : Time
  deriving DecidableEq, Repr

-- The `buckets` map of a `MemoryLimiter`; its mutex makes each method one atomic step.
structure MemoryLimiter where
  buckets : String → Option Bucket

namespace MemoryLimiter

def new : MemoryLimiter :=
  ⟨fun _ => none⟩

def set (l : MemoryLimiter) (key : String) (b : Bucket) : MemoryLimiter :=
  ⟨fun k => if k = key then some b else l.buckets k⟩

variable (l : MemoryLimiter) (key : String) (now : Time)

def allow (limit : Int) (window : Duration) : Bool × MemoryLimiter :=
  match l.buckets key with
  | some b =>
    if now > b.resetTime then (true, l.set key ⟨1, now + window⟩)
    else if b.count ≥ limit then (false, l)
    else (true, l.set key { b with count := b.count + 1 })
  | none => (true, l.set key ⟨1, now + window⟩)

def remaining (limit : Int) : Int :=
  match l.buckets key with
  | some b => if now > b.resetTime then limit else max (limit - b.count) 0
  | none => limit

def retryAfter : Duration :=
  match l.buckets key with
  | some b => if now > b.resetTime then 0 else b.resetTime - now
  | none => 0

def cleanup : MemoryLimiter :=
  ⟨fun k => match l.buckets k with
    | some b => if now > b.resetTime then none else some b
    | none => none⟩

end MemoryLimiter

end Slashclaw
