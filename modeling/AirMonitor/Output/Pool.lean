import AirMonitor.Output.Sink
import AirMonitor.Sync.Semaphore

/-!
A pool of `B` message buffers of `L` bytes. A lease copies a message into a free
buffer and gives every sink a permit on it; the buffer is free again when the last
permit is back. A semaphore counts the free buffers. A shorter message leaves what
was in the rest of the buffer behind, unread.
-/
namespace AirMonitor

/-- One buffer. -/
structure Buffer where
  store : Bytes
  /-- How many bytes of `store` are the message. -/
  size : Nat
  /-- The sinks that still hold a permit. -/
  permits : UInt8
deriving DecidableEq, Repr

/-- The permits of all sinks. -/
def allPermits : UInt8 := SinkId.console.bit ||| SinkId.wifi.bit

namespace Buffer

def blank (length : Nat) : Buffer := ⟨List.replicate length 0, 0, 0⟩

def isFree (b : Buffer) : Bool := b.permits = 0

/-- A sink holds a permit. -/
def holds (sink : SinkId) (b : Buffer) : Bool := b.permits &&& sink.bit ≠ 0

/-- The buffer with as much of a message as `length` bytes hold, and all permits. -/
def fill (length : Nat) (message : Bytes) (b : Buffer) : Buffer :=
  let kept := message.take length
  ⟨kept ++ b.store.drop kept.length, kept.length, allPermits⟩

/-- The bytes of the message. -/
def bytes (b : Buffer) : Bytes := b.store.take b.size

@[simp] theorem bytes_fill (length : Nat) (message : Bytes) (b : Buffer) :
    (b.fill length message).bytes = message.take length := by
  simp [bytes, fill]

end Buffer

structure BufferPool (B L : Nat) where
  buffers : Vector Buffer B := Vector.replicate B (.blank L)
  free : Semaphore := ⟨.ofNat B⟩

/-- A buffer that was just filled. -/
structure Leased where
  index : UInt16
  /-- The bytes kept. -/
  size : Nat
  /-- The message was longer than the buffer. -/
  truncated : Bool
deriving DecidableEq, Repr

namespace BufferPool
variable {B L : Nat}

/-- Copies a message into the first free buffer. -/
def lease? (message : Bytes) (p : BufferPool B L) : Option (Leased × BufferPool B L) :=
  match p.free.acquire?, p.buffers.findFinIdx? Buffer.isFree with
  | some free, some i =>
    some (⟨.ofNat i, min message.length L, decide (L < message.length)⟩,
      ⟨p.buffers.set i (p.buffers[i].fill L message), free⟩)
  | _, _ => none

/-- Copies a message into the first free buffer, running a hook whenever there is none. -/
def leaseWith (hooks : List (BufferPool B L → BufferPool B L)) (message : Bytes) (p : BufferPool B L) :
    Waited (BufferPool B L) Leased :=
  wait (lease? message) hooks p

/-- The message in a buffer, while a sink holds its permit. -/
def payload? (index : UInt16) (sink : SinkId) (p : BufferPool B L) : Option Bytes :=
  match p.buffers[index.toNat]? with
  | some b => if b.holds sink then some b.bytes else none
  | none => none

/-- Gives a sink's permit back, and tells whether that made the buffer free. A permit that is not held stays back. -/
def release (index : UInt16) (sink : SinkId) (p : BufferPool B L) : Bool × BufferPool B L :=
  if h : index.toNat < B then
    let b := p.buffers[index.toNat]
    if b.holds sink then
      let buffers := p.buffers.set index.toNat { b with permits := b.permits &&& ~~~sink.bit }
      if b.permits = sink.bit then (true, ⟨buffers, p.free.release⟩) else (false, ⟨buffers, p.free⟩)
    else (false, p)
  else (false, p)

/-- Gives back every permit there is. -/
def releaseAll (p : BufferPool B L) : BufferPool B L :=
  (List.range B).foldl (fun p i => SinkId.all.foldl (fun p sink => (p.release (.ofNat i) sink).2) p) p

/-- The number of free buffers. -/
def available (p : BufferPool B L) : Nat := p.free.available

/-- The permits still held on a buffer. -/
def permits (index : UInt16) (p : BufferPool B L) : UInt8 :=
  match p.buffers[index.toNat]? with
  | some b => b.permits
  | none => 0

end BufferPool
end AirMonitor
