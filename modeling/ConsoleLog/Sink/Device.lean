import ConsoleLog.Sink

/-!
# Byte devices

A device takes bytes until it is full: of a write that does not fit it takes as much as there is
room for, and the write fails. Flushes are counted, the failing ones too.
-/

namespace ConsoleLog

structure Device where
  accepted : List UInt8
  /-- How many bytes it takes in all; without a limit if absent. -/
  capacity : Option Nat
  flushes : Nat
  /-- The numbers of the flushes that fail, counted from 0. -/
  flushFaults : List Nat

namespace Device

def new (capacity : Option Nat) (flushFaults : List Nat) : Device := ⟨[], capacity, 0, flushFaults⟩

def fits (d : Device) (bytes : List UInt8) : Bool :=
  match d.capacity with
  | none => true
  | some n => d.accepted.length + bytes.length ≤ n

def admitted (d : Device) (bytes : List UInt8) : List UInt8 :=
  match d.capacity with
  | none => bytes
  | some n => bytes.take (n - d.accepted.length)

def write (d : Device) (bytes : List UInt8) : Outcome String × Device :=
  (if d.fits bytes then .done else .failed "writer full",
    { d with accepted := d.accepted ++ d.admitted bytes })

def flush (d : Device) : Outcome String × Device :=
  (if d.flushFaults.contains d.flushes then .failed "flush failed" else .done,
    { d with flushes := d.flushes + 1 })

end Device

end ConsoleLog
