import Sphynx.Lib.Ports

/-!
# A 16550 UART

The registers a polling driver uses: divisor latch, interrupt enable, FIFO, line and modem control,
line status, and the two FIFOs behind the data register. By itself it shifts bytes out of the one and
takes arriving bytes into the other; in loopback what it shifts out arrives, and the line does not.
Identification, modem status and scratch registers are left out and read as zero.
-/

namespace Lib

/-- The registers that only the driver writes. -/
structure UartRegisters where
  divisorLow : BitVec 8 := 0
  divisorHigh : BitVec 8 := 0
  interruptEnable : BitVec 8 := 0
  fifoControl : BitVec 8 := 0
  lineControl : BitVec 8 := 0
  modemControl : BitVec 8 := 0
deriving DecidableEq, Repr

namespace UartRegisters
variable (r : UartRegisters)

def latch : Bool := r.lineControl.getLsbD 7

def loopback : Bool := r.modemControl.getLsbD 4

def write (offset : Port) (value : BitVec 8) : UartRegisters :=
  if offset = 0 then if r.latch then { r with divisorLow := value } else r
  else if offset = 1 then
    if r.latch then { r with divisorHigh := value } else { r with interruptEnable := value }
  else if offset = 2 then { r with fifoControl := value }
  else if offset = 3 then { r with lineControl := value }
  else if offset = 4 then { r with modemControl := value }
  else r

end UartRegisters

/-- The bytes `waiting` are to be shifted out, the bytes `sent` have gone out on the line; of the
bytes `accepted` from the line, those that are `pending` have not been read. -/
structure Uart where
  registers : UartRegisters := {}
  waiting : List (BitVec 8) := []
  sent : List (BitVec 8) := []
  pending : List (BitVec 8) := []
  accepted : List (BitVec 8) := []
  lastRead : BitVec 8 := 0
deriving DecidableEq, Repr

inductive UartMove where
  | shift
  | arrive (data : BitVec 8)
deriving DecidableEq, Repr

namespace Uart
variable (u : Uart)

def capacity : Nat := if u.registers.fifoControl.getLsbD 0 then 16 else 1

/-- A byte that finds no room is lost. -/
def accept (data : BitVec 8) : Uart :=
  if u.pending.length < u.capacity then
    { u with pending := u.pending ++ [data], accepted := u.accepted ++ [data] }
  else u

def move : UartMove → Uart
  | .shift => match u.waiting with
      | [] => u
      | data :: waiting =>
          if u.registers.loopback then ({ u with waiting := waiting }).accept data
          else { u with waiting := waiting, sent := u.sent ++ [data] }
  | .arrive data => if u.registers.loopback then u else u.accept data

def status : BitVec 8 :=
  (if u.pending = [] then 0 else 0x01) ||| (if u.waiting = [] then 0x60 else 0)

def readData : BitVec 8 × Uart :=
  if u.registers.latch then (u.registers.divisorLow, u) else
  match u.pending with
  | [] => (u.lastRead, u)
  | data :: pending => (data, { u with pending := pending, lastRead := data })

/-- What a write does to the FIFOs. -/
def writeQueues (offset : Port) (value : BitVec 8) : Uart :=
  if offset = 0 then
    if ¬ u.registers.latch ∧ u.waiting.length < u.capacity then
      { u with waiting := u.waiting ++ [value] }
    else u
  else if offset = 2 then
    { u with
      pending := if value.getLsbD 1 then [] else u.pending
      waiting := if value.getLsbD 2 then [] else u.waiting }
  else u

def read (offset : Port) : BitVec 8 × Uart :=
  if offset = 0 then u.readData
  else if offset = 1 then
    (if u.registers.latch then u.registers.divisorHigh else u.registers.interruptEnable, u)
  else if offset = 3 then (u.registers.lineControl, u)
  else if offset = 4 then (u.registers.modemControl, u)
  else if offset = 5 then (u.status, u)
  else (0, u)

def write (offset : Port) (value : BitVec 8) : Uart :=
  { u.writeQueues offset value with registers := u.registers.write offset value }

end Uart

/-- A UART at `base`, which makes the moves `timing n` before the access number `n`. -/
def uartBus (base : Port) (timing : Nat → List UartMove) : PortBus Uart where
  read port u := u.read (port - base)
  write port value u := u.write (port - base) value
  moves n u := (timing n).foldl Uart.move u

/-! ## What a move leaves alone -/

namespace Uart
variable (u : Uart)

theorem accept_registers (data : BitVec 8) : (u.accept data).registers = u.registers := by
  unfold accept
  split_ifs <;> rfl

theorem move_registers (m : UartMove) : (u.move m).registers = u.registers := by
  cases m with
  | shift =>
      cases queue : u.waiting with
      | nil => simp only [move, queue]
      | cons data waiting =>
          simp only [move, queue]
          split_ifs
          · exact accept_registers { u with waiting := waiting } data
          · rfl
  | arrive data =>
      unfold move
      split_ifs
      · rfl
      · exact accept_registers u data

theorem moves_registers (moves : List UartMove) :
    (moves.foldl move u).registers = u.registers := by
  induction moves generalizing u with
  | nil => rfl
  | cons m moves ih => exact (ih (u.move m)).trans (u.move_registers m)

/-! ## What a move does to the queues -/

theorem accept_queues (data : BitVec 8) :
    (u.accept data).sent = u.sent ∧ (u.accept data).waiting = u.waiting ∧
      ∃ new, (u.accept data).accepted = u.accepted ++ new ∧
        (u.accept data).pending = u.pending ++ new := by
  unfold accept
  split_ifs
  · exact ⟨rfl, rfl, [data], rfl, rfl⟩
  · exact ⟨rfl, rfl, [], (List.append_nil _).symm, (List.append_nil _).symm⟩

theorem move_line (m : UartMove) (line : u.registers.loopback = false) :
    (u.move m).sent ++ (u.move m).waiting = u.sent ++ u.waiting ∧
      ∃ new, (u.move m).accepted = u.accepted ++ new ∧ (u.move m).pending = u.pending ++ new := by
  cases m with
  | shift =>
      cases queue : u.waiting with
      | nil => simp [move, queue]
      | cons data waiting => simp [move, queue, line]
  | arrive data =>
      obtain ⟨sent, waiting, input⟩ := u.accept_queues data
      simp only [move, line, Bool.false_eq_true, if_false, sent, waiting, true_and]
      exact input

theorem move_idle (m : UartMove) (idle : u.waiting = []) : (u.move m).waiting = [] := by
  cases m with
  | shift => simp only [move, idle]
  | arrive data =>
      unfold move
      split_ifs
      · exact idle
      · rw [(u.accept_queues data).2.1, idle]

theorem status_transmit : u.status &&& 0x20 ≠ 0 ↔ u.waiting = [] := by
  unfold status
  by_cases none : u.pending = [] <;> by_cases idle : u.waiting = [] <;>
    simp only [none, idle, if_true, if_false, iff_true, iff_false] <;> decide

theorem status_receive : u.status &&& 0x01 ≠ 0 ↔ u.pending ≠ [] := by
  unfold status
  by_cases none : u.pending = [] <;> by_cases idle : u.waiting = [] <;>
    simp only [none, idle, if_true, if_false, ne_eq, not_true_eq_false, not_false_eq_true, iff_true,
      iff_false] <;> decide

theorem read_registers (offset : Port) : (u.read offset).2.registers = u.registers := by
  unfold read readData
  split_ifs <;> first | rfl | (cases u.pending <;> rfl)

theorem move_waiting (m : UartMove) : (u.move m).waiting.length ≤ u.waiting.length := by
  cases m with
  | shift =>
      cases queue : u.waiting with
      | nil => simp [move, queue]
      | cons data waiting =>
          simp only [move, queue]
          split_ifs
          · simp [(accept_queues { u with waiting := waiting } data).2.1]
          · simp
  | arrive data =>
      unfold move
      split_ifs
      · exact Nat.le_refl _
      · rw [(u.accept_queues data).2.1]

theorem moves_waiting (moves : List UartMove) :
    (moves.foldl move u).waiting.length ≤ u.waiting.length := by
  induction moves generalizing u with
  | nil => exact Nat.le_refl _
  | cons m moves ih => exact (ih (u.move m)).trans (u.move_waiting m)

theorem shift_waiting (busy : u.waiting ≠ []) : (u.move .shift).waiting.length < u.waiting.length := by
  obtain ⟨data, waiting, queue⟩ := List.exists_cons_of_ne_nil busy
  simp only [move, queue]
  split_ifs
  · simp [(accept_queues { u with waiting := waiting } data).2.1]
  · simp

theorem moves_shift {moves : List UartMove} (shifts : .shift ∈ moves)
    (busy : (moves.foldl move u).waiting ≠ []) :
    (moves.foldl move u).waiting.length < u.waiting.length := by
  induction moves generalizing u with
  | nil => contradiction
  | cons m moves ih =>
      have first := u.move_waiting m
      rcases List.mem_cons.mp shifts with rfl | later
      · have kept : u.waiting ≠ [] := by
          intro idle
          have none := moves_waiting (u.move .shift) moves
          rw [u.move_idle .shift idle, List.length_nil] at none
          exact busy (List.length_eq_zero_iff.mp (Nat.le_zero.mp none))
        exact Nat.lt_of_le_of_lt (moves_waiting _ moves) (u.shift_waiting kept)
      · exact Nat.lt_of_lt_of_le (ih (u.move m) later busy) first

theorem capacity_pos : 0 < u.capacity := by
  unfold capacity
  split_ifs <;> decide

end Uart

end Lib
