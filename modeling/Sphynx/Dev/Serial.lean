import Sphynx.Lib.Ports

/-!
# The serial port (`serial.hpp`, `serial.cpp`)

`Stream` on a bus of ports. Its loops wait under a bound on their turns.
-/

namespace Sphynx.Dev
open Lib

inductive ComPort where
  | com1 | com2 | com3 | com4 | com5 | com6 | com7 | com8
deriving DecidableEq, Repr

def ComPort.base : ComPort → Port
  | .com1 => 0x3F8
  | .com2 => 0x2F8
  | .com3 => 0x3E8
  | .com4 => 0x2E8
  | .com5 => 0x5F8
  | .com6 => 0x4F8
  | .com7 => 0x5E8
  | .com8 => 0x4E8

def errorFailedToInit : BitVec 8 := 0x01

structure Stream where
  port : ComPort
  isError : Bool
  error : BitVec 8
deriving DecidableEq, Repr

namespace Stream
variable {δ : Type} (bus : PortBus δ)

/-- The constructor, in memory where `error` holds `before`; it is left so when nothing fails. -/
def construct (port : ComPort) (before : BitVec 8) (s : PortState δ) : Stream × PortState δ :=
  let s := bus.outb (port.base + 1) 0x00 s
  let s := bus.outb (port.base + 3) 0x80 s
  let s := bus.outb (port.base + 0) 0x03 s
  let s := bus.outb (port.base + 1) 0x00 s
  let s := bus.outb (port.base + 3) 0x03 s
  let s := bus.outb (port.base + 2) 0xC7 s
  let s := bus.outb (port.base + 4) 0x0B s
  let s := bus.outb (port.base + 4) 0x1E s
  let s := bus.outb (port.base + 0) 0x69 s
  let (echo, s) := bus.inb (port.base + 0) s
  if echo ≠ 0x69 then ({ port := port, isError := true, error := errorFailedToInit }, s)
  else
    let s := bus.outb (port.base + 4) 0x0F s
    ({ port := port, isError := false, error := before }, s)

variable (stream : Stream)

def isTransmitEmpty (s : PortState δ) : Bool × PortState δ :=
  let (status, s) := bus.inb (stream.port.base + 5) s
  (status &&& 0x20 ≠ 0, s)

def serialRecived (s : PortState δ) : Bool × PortState δ :=
  let (status, s) := bus.inb (stream.port.base + 5) s
  (status &&& 0x01 ≠ 0, s)

def read (fuel : Nat) (s : PortState δ) : Option (BitVec 8 × PortState δ) := do
  let s ← waitFor (stream.serialRecived bus) fuel s
  return bus.inb stream.port.base s

def write (data : BitVec 8) (fuel : Nat) (s : PortState δ) : Option (PortState δ) := do
  let s ← waitFor (stream.isTransmitEmpty bus) fuel s
  return bus.outb stream.port.base data s

def hasError : Bool := stream.isError

end Stream

/-! ## Sequences of calls -/

inductive StreamCall where
  | read
  | write (data : BitVec 8)
deriving DecidableEq, Repr

namespace Stream
variable {δ : Type} (bus : PortBus δ) (stream : Stream)

/-- The bytes that the reads among `calls` return, and the state behind the last call. -/
def runCalls (fuel : Nat) : List StreamCall → PortState δ → Option (List (BitVec 8) × PortState δ)
  | [], s => some ([], s)
  | .read :: calls, s => do
      let (data, s) ← stream.read bus fuel s
      let (bytes, s) ← runCalls fuel calls s
      return (data :: bytes, s)
  | .write data :: calls, s => do
      let s ← stream.write bus data fuel s
      runCalls fuel calls s

end Stream

def StreamCall.written : StreamCall → List (BitVec 8)
  | .read => []
  | .write data => [data]

end Sphynx.Dev
