import Sphynx.Dev.Serial
import Sphynx.Lib.Uart

/-!
# What a stream transfers (`serial.cpp`)

To a driver that polls, a port with a line behind it is two queues. Whatever the timing, calls of
`read` and `write` neither lose nor repeat a byte of either.
-/

namespace Sphynx.Dev
open Lib

/-- A line as its driver may think of it: all that was put out, all that came in, and what of that is
still to be read. -/
structure Line where
  output : List (BitVec 8)
  accepted : List (BitVec 8)
  pending : List (BitVec 8)

/-- From `l` to `l'` the driver has written `written` and read `returned`. -/
structure Line.Transfer (l l' : Line) (written returned : List (BitVec 8)) : Prop where
  output : l'.output = l.output ++ written
  input : ∃ new, l'.accepted = l.accepted ++ new ∧ returned ++ l'.pending = l.pending ++ new

/-- What a port promises a driver that polls it: the two bits of the status register tell when a byte
can be written and read, and what a move adds to the line does not undo either. -/
structure Channels {δ : Type} (bus : PortBus δ) (port : Port) where
  ready : δ → Prop
  idle : δ → Prop
  line : δ → Line
  moves : ∀ n d, ready d → ready (bus.moves n d) ∧ (idle d → idle (bus.moves n d)) ∧
    (line d).Transfer (line (bus.moves n d)) [] []
  status : ∀ d, ready d → ready (bus.read (port + 5) d).2 ∧
    (idle d → idle (bus.read (port + 5) d).2) ∧ line (bus.read (port + 5) d).2 = line d
  transmit : ∀ d, ready d → ((bus.read (port + 5) d).1 &&& 0x20 ≠ 0 ↔ idle d)
  receive : ∀ d, ready d → ((bus.read (port + 5) d).1 &&& 0x01 ≠ 0 ↔ (line d).pending ≠ [])
  take : ∀ d data pending, ready d → (line d).pending = data :: pending →
    (bus.read port d).1 = data ∧ ready (bus.read port d).2 ∧
      line (bus.read port d).2 = { line d with pending := pending }
  put : ∀ d data, ready d → idle d → ready (bus.write port data d) ∧
    line (bus.write port data d) = { line d with output := (line d).output ++ [data] }

/-! ## Transfers -/

section
variable {l l' l'' : Line} {written written' returned returned' : List (BitVec 8)}

theorem Line.Transfer.refl (l : Line) : l.Transfer l [] [] :=
  ⟨(List.append_nil _).symm, [], by simp, by simp⟩

theorem Line.Transfer.trans (h : l.Transfer l' written returned)
    (h' : l'.Transfer l'' written' returned') :
    l.Transfer l'' (written ++ written') (returned ++ returned') := by
  obtain ⟨output, new, accepted, pending⟩ := h
  obtain ⟨output', new', accepted', pending'⟩ := h'
  refine ⟨?_, new ++ new', ?_, ?_⟩
  · rw [output', output, List.append_assoc]
  · rw [accepted', accepted, List.append_assoc]
  · rw [List.append_assoc, pending', ← List.append_assoc, pending, List.append_assoc]

theorem Line.Transfer.pending_ne (h : l.Transfer l' [] []) (some : l.pending ≠ []) :
    l'.pending ≠ [] := by
  obtain ⟨-, new, -, pending⟩ := h
  rw [List.nil_append] at pending
  rw [pending]
  simp [some]

end

/-! ## The calls of a stream -/

section
variable {δ : Type} {bus : PortBus δ} {stream : Stream} {s s' : PortState δ} {fuel : Nat}
  {data : BitVec 8} {bytes : List (BitVec 8)} {calls : List StreamCall}

/-- The device is ready, and the line has come from `l` by a transfer. -/
def Since (c : Channels bus stream.port.base) (l : Line) (written returned : List (BitVec 8))
    (s : PortState δ) : Prop :=
  c.ready s.device ∧ l.Transfer (c.line s.device) written returned

variable {c : Channels bus stream.port.base} {l : Line} {written returned : List (BitVec 8)}

theorem Since.moved (h : Since c l written returned s) :
    Since c l written returned ⟨bus.moved s, s.accesses⟩ := by
  obtain ⟨ready, transfer⟩ := h
  obtain ⟨ready', -, moves⟩ := c.moves s.accesses s.device ready
  have whole := transfer.trans moves
  rw [List.append_nil, List.append_nil] at whole
  exact ⟨ready', whole⟩

theorem Since.status (h : Since c l written returned s) :
    Since c l written returned (bus.inb (stream.port.base + 5) s).2 := by
  obtain ⟨ready, transfer⟩ := h.moved
  obtain ⟨ready', -, line⟩ := c.status _ ready
  refine ⟨ready', ?_⟩
  change l.Transfer (c.line (bus.read (stream.port.base + 5) (bus.moved s)).2) written returned
  rw [line]
  exact transfer

theorem serialRecived_iff : (stream.serialRecived bus s).1 = true ↔
    (bus.read (stream.port.base + 5) (bus.moved s)).1 &&& 0x01 ≠ 0 :=
  decide_eq_true_iff

theorem isTransmitEmpty_iff : (stream.isTransmitEmpty bus s).1 = true ↔
    (bus.read (stream.port.base + 5) (bus.moved s)).1 &&& 0x20 ≠ 0 :=
  decide_eq_true_iff

theorem Since.received (h : Since c l written returned s) (some : (c.line s.device).pending ≠ []) :
    Since c l written (returned ++ [(bus.inb stream.port.base s).1]) (bus.inb stream.port.base s).2 := by
  obtain ⟨ready, transfer⟩ := h.moved
  obtain ⟨-, -, moves⟩ := c.moves s.accesses s.device h.1
  obtain ⟨data, pending, queue⟩ := List.exists_cons_of_ne_nil (moves.pending_ne some)
  obtain ⟨value, ready', line⟩ := c.take _ data pending ready queue
  refine ⟨ready', ?_⟩
  change l.Transfer (c.line (bus.read stream.port.base (bus.moved s)).2) written
    (returned ++ [(bus.read stream.port.base (bus.moved s)).1])
  have step : (c.line (bus.moved s)).Transfer
      { c.line (bus.moved s) with pending := pending } [] [data] :=
    ⟨(List.append_nil _).symm, [], (List.append_nil _).symm, queue.symm.trans (List.append_nil _).symm⟩
  have whole := transfer.trans step
  rw [List.append_nil] at whole
  rw [value, line]
  exact whole

theorem read_transfers (h : Since c l written returned s)
    (run : stream.read bus fuel s = some (data, s')) :
    Since c l written (returned ++ [data]) s' := by
  simp only [Stream.read, bind, Option.bind_eq_some_iff] at run
  obtain ⟨found, waited, taken⟩ := run
  obtain ⟨t, since, yes, rfl⟩ := waitFor_end h (fun s since _ => since.status) waited
  have some : (c.line (bus.moved t)).pending ≠ [] :=
    (c.receive _ since.moved.1).mp (serialRecived_iff.mp yes)
  have same : (c.line (stream.serialRecived bus t).2.device).pending ≠ [] := by
    obtain ⟨-, -, line⟩ := c.status _ since.moved.1
    change (c.line (bus.read (stream.port.base + 5) (bus.moved t)).2).pending ≠ []
    rwa [line]
  cases Option.some.inj taken
  exact since.status.received same

theorem Since.sent (h : Since c l written returned s) (idle : c.idle s.device) (data : BitVec 8) :
    Since c l (written ++ [data]) returned (bus.outb stream.port.base data s) := by
  obtain ⟨ready, transfer⟩ := h.moved
  obtain ⟨-, still, -⟩ := c.moves s.accesses s.device h.1
  obtain ⟨ready', line⟩ := c.put _ data ready (still idle)
  refine ⟨ready', ?_⟩
  change l.Transfer (c.line (bus.write stream.port.base data (bus.moved s))) _ _
  have step : (c.line (bus.moved s)).Transfer
      { c.line (bus.moved s) with output := (c.line (bus.moved s)).output ++ [data] } [data] [] :=
    ⟨rfl, [], (List.append_nil _).symm, (List.append_nil _).symm⟩
  have whole := transfer.trans step
  rw [List.append_nil] at whole
  rw [line]
  exact whole

theorem write_transfers (h : Since c l written returned s)
    (run : stream.write bus data fuel s = some s') : Since c l (written ++ [data]) returned s' := by
  simp only [Stream.write, bind, Option.bind_eq_some_iff] at run
  obtain ⟨found, waited, put⟩ := run
  obtain ⟨t, since, yes, rfl⟩ := waitFor_end h (fun s since _ => since.status) waited
  have idle : c.idle (bus.moved t) := (c.transmit _ since.moved.1).mp (isTransmitEmpty_iff.mp yes)
  obtain ⟨-, still, -⟩ := c.status _ since.moved.1
  cases put
  exact since.status.sent (still idle) data

theorem runCalls_since (h : Since c l written returned s)
    (run : stream.runCalls bus fuel calls s = some (bytes, s')) :
    Since c l (written ++ calls.flatMap StreamCall.written) (returned ++ bytes) s' := by
  induction calls generalizing s written returned bytes with
  | nil =>
      cases run
      simpa using h
  | cons call calls ih =>
      cases call with
      | read =>
          simp only [Stream.runCalls, bind, Option.bind_eq_some_iff] at run
          obtain ⟨⟨data, t⟩, first, ⟨rest, last⟩, later, result⟩ := run
          cases result
          have whole := ih (read_transfers h first) later
          simpa [StreamCall.written] using whole
      | write data =>
          simp only [Stream.runCalls, bind, Option.bind_eq_some_iff] at run
          obtain ⟨t, first, later⟩ := run
          have whole := ih (write_transfers h first) later
          simpa [StreamCall.written] using whole

end

/-! ## A UART has channels -/

section
variable {base : Port} {timing : Nat → List UartMove} {u : Uart} {moves : List UartMove}
  {value : BitVec 8}

/-- The registers let data through: the divisor latch is closed, and the UART is on its line. -/
def OnLine (u : Uart) : Prop := u.registers.latch = false ∧ u.registers.loopback = false

def uartLine (u : Uart) : Line := ⟨u.sent ++ u.waiting, u.accepted, u.pending⟩

theorem move_transfer (m : UartMove) (online : OnLine u) :
    (uartLine u).Transfer (uartLine (u.move m)) [] [] := by
  obtain ⟨output, new, accepted, pending⟩ := u.move_line m online.2
  exact ⟨output.trans (List.append_nil _).symm, new, accepted, pending⟩

theorem moves_transfer (moves : List UartMove) (online : OnLine u) :
    (u.waiting = [] → (moves.foldl Uart.move u).waiting = []) ∧
      (uartLine u).Transfer (uartLine (moves.foldl Uart.move u)) [] [] := by
  induction moves generalizing u with
  | nil => exact ⟨id, .refl _⟩
  | cons m moves ih =>
      have online' : OnLine (u.move m) := by
        unfold OnLine
        rw [u.move_registers m]
        exact online
      obtain ⟨idle, transfer⟩ := ih online'
      exact ⟨fun empty => idle (u.move_idle m empty), (move_transfer m online).trans transfer⟩

theorem uartBus_read (base offset : Port) (u : Uart) :
    (uartBus base timing).read (base + offset) u = u.read offset := by
  have back : base + offset - base = offset := by bv_omega
  change u.read (base + offset - base) = _
  rw [back]

theorem uartBus_write (base offset : Port) (value : BitVec 8) (u : Uart) :
    (uartBus base timing).write (base + offset) value u = u.write offset value := by
  have back : base + offset - base = offset := by bv_omega
  change u.write (base + offset - base) value = _
  rw [back]

theorem uartBus_status (base : Port) (u : Uart) :
    (uartBus base timing).read (base + 5) u = (u.status, u) :=
  uartBus_read base 5 u

theorem uartBus_take (base : Port) (u : Uart) : (uartBus base timing).read base u = u.readData := by
  have origin : base + 0 = base := BitVec.add_zero base
  have zero : (uartBus base timing).read (base + 0) u = u.read 0 := uartBus_read base 0 u
  rwa [origin] at zero

theorem uartBus_put (base : Port) (value : BitVec 8) (u : Uart) :
    (uartBus base timing).write base value u = u.write 0 value := by
  have origin : base + 0 = base := BitVec.add_zero base
  have zero : (uartBus base timing).write (base + 0) value u = u.write 0 value :=
    uartBus_write base 0 value u
  rwa [origin] at zero

def uartChannels (base : Port) (timing : Nat → List UartMove) : Channels (uartBus base timing) base where
  ready := OnLine
  idle u := u.waiting = []
  line := uartLine
  moves n u online := by
    obtain ⟨idle, transfer⟩ := moves_transfer (timing n) online
    refine ⟨?_, idle, transfer⟩
    change OnLine ((timing n).foldl Uart.move u)
    unfold OnLine
    rw [u.moves_registers]
    exact online
  status u online := by
    rw [uartBus_status]
    exact ⟨online, id, rfl⟩
  transmit u _ := by
    rw [uartBus_status]
    exact u.status_transmit
  receive u _ := by
    rw [uartBus_status]
    exact u.status_receive
  take u data pending online queue := by
    have taken : u.readData = (data, { u with pending := pending, lastRead := data }) := by
      have queue' : u.pending = data :: pending := queue
      rw [Uart.readData, online.1, queue']
      rfl
    rw [uartBus_take, taken]
    exact ⟨rfl, online, rfl⟩
  put u data online idle := by
    have room : ¬ u.registers.latch = true ∧ u.waiting.length < u.capacity := by
      rw [online.1, idle]
      exact ⟨Bool.false_ne_true, u.capacity_pos⟩
    have put : u.write 0 data = { u with waiting := u.waiting ++ [data] } := by
      have registers : u.registers.write 0 data = u.registers := by
        simp only [UartRegisters.write, online.1, if_true, Bool.false_eq_true, if_false]
      have queues : u.writeQueues 0 data = { u with waiting := u.waiting ++ [data] } := if_pos room
      rw [Uart.write, registers, queues]
    rw [uartBus_put, put]
    refine ⟨online, ?_⟩
    simp only [uartLine, List.append_assoc]

/-! ## The constructor -/

theorem outb_registers (base offset : Port) (value : BitVec 8) (s : PortState Uart) :
    ((uartBus base timing).outb (base + offset) value s).device.registers =
      s.device.registers.write offset value := by
  change ((uartBus base timing).write (base + offset) value ((uartBus base timing).moved s)).registers = _
  rw [uartBus_write]
  change ((timing s.accesses).foldl Uart.move s.device).registers.write offset value = _
  rw [Uart.moves_registers]

theorem inb_registers (base offset : Port) (s : PortState Uart) :
    ((uartBus base timing).inb (base + offset) s).2.device.registers = s.device.registers := by
  change ((uartBus base timing).read (base + offset) ((uartBus base timing).moved s)).2.registers = _
  rw [uartBus_read, Uart.read_registers]
  exact Uart.moves_registers _ _

/-- The registers as the constructor sets them. What it writes first to the interrupt enable register
goes to the divisor when the latch is found open. -/
def constructed (before : UartRegisters) (isError : Bool) : UartRegisters where
  divisorLow := 0x03
  divisorHigh := 0x00
  interruptEnable := if before.latch then before.interruptEnable else 0x00
  fifoControl := 0xC7
  lineControl := 0x03
  modemControl := if isError then 0x1E else 0x0F

theorem constructed_latch (r : UartRegisters) (isError : Bool) :
    (constructed r isError).latch = false := by
  simp [constructed, UartRegisters.latch]

theorem constructed_loopback (r : UartRegisters) (isError : Bool) :
    (constructed r isError).loopback = isError := by
  cases isError <;> simp [constructed, UartRegisters.loopback]

theorem constructed_looped (r : UartRegisters) :
    ((((((((r.write 1 0x00).write 3 0x80).write 0 0x03).write 1 0x00).write 3 0x03).write 2 0xC7).write
      4 0x0B).write 4 0x1E).write 0 0x69 = constructed r true := by
  simp [UartRegisters.write, UartRegisters.latch, constructed]
  split_ifs <;> rfl

theorem construct_registers (port : ComPort) (timing : Nat → List UartMove) (before : BitVec 8)
    (s : PortState Uart) :
    (Stream.construct (uartBus port.base timing) port before s).2.device.registers =
      constructed s.device.registers
        (Stream.construct (uartBus port.base timing) port before s).1.isError := by
  unfold Stream.construct
  simp only
  split_ifs with wrong
  · simp only [inb_registers, outb_registers]
    exact constructed_looped _
  · simp only [inb_registers, outb_registers, constructed_looped]
    rfl

end

section
variable {δ : Type} {bus : PortBus δ} {stream : Stream} {s s' : PortState δ} {fuel : Nat}
  {bytes : List (BitVec 8)} {calls : List StreamCall} {P : δ → Prop}
  (moves : ∀ n d, P d → P (bus.moves n d))
  (status : ∀ d, P d → P (bus.read (stream.port.base + 5) d).2)
  (data : ∀ d, P d → P (bus.read stream.port.base d).2)
  (put : ∀ d value, P d → P (bus.write stream.port.base value d))
include moves status data put

end

/-! ## A stream on a UART -/

section
variable {port : ComPort} {timing : Nat → List UartMove} {s t : PortState Uart} {calls : List StreamCall}
  {bytes : List (BitVec 8)} {fuel : Nat} {stream : Stream}

theorem online_transfers (online : OnLine s.device)
    (run : stream.runCalls (uartBus stream.port.base timing) fuel calls s = some (bytes, t)) :
    OnLine t.device ∧
      (uartLine s.device).Transfer (uartLine t.device) (calls.flatMap StreamCall.written) bytes := by
  have start : Since (uartChannels stream.port.base timing) (uartLine s.device) [] [] s :=
    ⟨online, .refl _⟩
  obtain ⟨ready, transfer⟩ := runCalls_since start run
  rw [List.nil_append, List.nil_append] at transfer
  exact ⟨ready, transfer⟩

theorem construct_online (port : ComPort) (timing : Nat → List UartMove) (before : BitVec 8)
    (s : PortState Uart)
    (fine : (Stream.construct (uartBus port.base timing) port before s).1.hasError = false) :
    OnLine (Stream.construct (uartBus port.base timing) port before s).2.device := by
  have flag : (Stream.construct (uartBus port.base timing) port before s).1.isError = false := fine
  unfold OnLine
  rw [construct_registers, flag]
  exact ⟨constructed_latch _ false, constructed_loopback _ false⟩

def shifting : Nat → List UartMove := fun n => if n = 12 then [.arrive 0x41] else [.shift]

def openedStream : Stream × PortState Uart :=
  Stream.construct (uartBus ComPort.com1.base shifting) .com1 0 ⟨{}, 0⟩

/-- However long it takes, the UART shifts again. -/
def Shifts (timing : Nat → List UartMove) : Prop := ∀ n, ∃ m, n ≤ m ∧ .shift ∈ timing m

def polled (timing : Nat → List UartMove) (s : PortState Uart) : PortState Uart :=
  ⟨(timing s.accesses).foldl Uart.move s.device, s.accesses + 1⟩

theorem isTransmitEmpty_snd (stream : Stream) (timing : Nat → List UartMove) (s : PortState Uart) :
    (stream.isTransmitEmpty (uartBus stream.port.base timing) s).2 = polled timing s := by
  unfold Stream.isTransmitEmpty PortBus.inb
  rw [uartBus_status]
  rfl

theorem isTransmitEmpty_idle (stream : Stream) (timing : Nat → List UartMove) (s : PortState Uart) :
    (stream.isTransmitEmpty (uartBus stream.port.base timing) s).1 = true ↔
      (polled timing s).device.waiting = [] := by
  rw [isTransmitEmpty_iff, uartBus_status]
  exact Uart.status_transmit _

/-- Some poll from `s` on finds the UART idle. -/
def BecomesIdle (stream : Stream) (timing : Nat → List UartMove) (s : PortState Uart) : Prop :=
  ∃ n, (stream.isTransmitEmpty (uartBus stream.port.base timing)
    (asked (stream.isTransmitEmpty (uartBus stream.port.base timing)) n s)).1 = true

theorem BecomesIdle.of_polled (later : BecomesIdle stream timing (polled timing s)) :
    BecomesIdle stream timing s := by
  obtain ⟨n, found⟩ := later
  rw [← isTransmitEmpty_snd stream] at found
  exact ⟨n + 1, found⟩

theorem becomesIdle (shifts : Shifts timing) (stream : Stream) (s : PortState Uart) :
    BecomesIdle stream timing s := by
  -- A poll finds the UART idle, or brings its next shift nearer; each shift leaves one byte less.
  obtain ⟨k, size⟩ : ∃ k, s.device.waiting.length ≤ k := ⟨_, Nat.le_refl _⟩
  induction k generalizing s with
  | zero =>
      have idle : s.device.waiting = [] := List.length_eq_zero_iff.mp (Nat.le_zero.mp size)
      have still := Uart.moves_waiting s.device (timing s.accesses)
      rw [idle, List.length_nil, Nat.le_zero, List.length_eq_zero_iff] at still
      exact ⟨0, (isTransmitEmpty_idle stream timing s).mpr still⟩
  | succ k ih =>
      obtain ⟨m, later, shift⟩ := shifts s.accesses
      obtain ⟨gap, rfl⟩ := Nat.exists_eq_add_of_le later
      clear later
      induction gap generalizing s with
      | zero =>
          by_cases idle : (polled timing s).device.waiting = []
          · exact ⟨0, (isTransmitEmpty_idle stream timing s).mpr idle⟩
          · have fewer : (polled timing s).device.waiting.length < s.device.waiting.length :=
              Uart.moves_shift s.device shift idle
            exact .of_polled (ih _ (by omega))
      | succ gap inner =>
          have fewer : (polled timing s).device.waiting.length ≤ s.device.waiting.length :=
            Uart.moves_waiting s.device (timing s.accesses)
          have nearer : (polled timing s).accesses + gap = s.accesses + (gap + 1) := by
            simp only [polled]
            omega
          exact .of_polled (inner _ (fewer.trans size) (by rwa [nearer]))

theorem write_yields (shifts : Shifts timing) (stream : Stream) (data : BitVec 8) (s : PortState Uart) :
    ∃ t, Yields (fun fuel => stream.write (uartBus stream.port.base timing) data fuel s) t := by
  obtain ⟨n, idle⟩ := becomesIdle shifts stream s
  obtain ⟨t, waited⟩ := waitFor_yields idle
  have put := yields_pure ((uartBus stream.port.base timing).outb stream.port.base data t)
  exact ⟨_, waited.bind put⟩

theorem writes_yield (shifts : Shifts timing) (stream : Stream) (text : List (BitVec 8))
    (s : PortState Uart) : ∃ t, Yields (fun fuel =>
      stream.runCalls (uartBus stream.port.base timing) fuel (text.map .write) s) ([], t) := by
  induction text generalizing s with
  | nil => exact ⟨s, yields_pure _⟩
  | cons data text ih =>
      obtain ⟨t, first⟩ := write_yields shifts stream data s
      obtain ⟨t', later⟩ := ih t
      exact ⟨t', first.bind later⟩

/-- Writing a text to a stream comes to an end, with the text behind what was there to be sent. -/
theorem text_sent (stream : Stream) (shifts : Shifts timing) (online : OnLine s.device)
    (text : List (BitVec 8)) :
    ∃ t, Yields (fun fuel => stream.runCalls (uartBus stream.port.base timing) fuel
        (text.map .write) s) ([], t) ∧
      t.device.sent ++ t.device.waiting = s.device.sent ++ s.device.waiting ++ text := by
  obtain ⟨t, yields⟩ := writes_yield shifts stream text s
  obtain ⟨fuel, enough⟩ := yields
  obtain ⟨-, transfer⟩ := online_transfers online (enough fuel (Nat.le_refl _))
  have written : (text.map StreamCall.write).flatMap StreamCall.written = text := by
    rw [List.flatMap_map]
    exact List.flatMap_singleton' text
  rw [written] at transfer
  exact ⟨t, ⟨fuel, enough⟩, transfer.output⟩

theorem shifting_shifts : Shifts shifting := by
  intro n
  refine ⟨n + 13, Nat.le_add_right n 13, ?_⟩
  have other : n + 13 ≠ 12 := by omega
  rw [shifting, if_neg other]
  exact List.mem_singleton_self _

theorem text_sent_greeting :
    ∃ t, Yields (fun fuel => openedStream.1.runCalls (uartBus ComPort.com1.base shifting) fuel
        ([0x48, 0x69].map .write) openedStream.2) ([], t) ∧
      t.device.sent ++ t.device.waiting =
        openedStream.2.device.sent ++ openedStream.2.device.waiting ++ [0x48, 0x69] :=
  text_sent openedStream.1 shifting_shifts (construct_online .com1 shifting 0 _ rfl) [0x48, 0x69]

end

end Sphynx.Dev
