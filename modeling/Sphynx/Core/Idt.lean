import Mathlib.Data.List.Infix

/-!
# The interrupt descriptor table (`idt.hpp`, `idt.cpp`)

`IDT::init` as the sequence of instructions by which it and `load_idt` change what an interrupt
meets: the table, IDTR and the interrupt flag. Instructions that touch none of these are left out,
except around `lidt`, so a point between two instructions of the model stands for at least one point
of the machine code.
-/

namespace Sphynx.Core

structure IdtEntry where
  offsetLow : UInt16
  selector : UInt16
  ist : UInt8
  flags : UInt8
  offsetMiddle : UInt16
  offsetHigh : UInt32
  zero : UInt32
deriving DecidableEq, Repr

structure IdtPointer where
  limit : UInt16
  base : UInt64
deriving DecidableEq, Repr

/-- `int_frame_t`, in the order of its fields. -/
structure IntFrame where
  ds : BitVec 64
  cr2 : BitVec 64
  cr3 : BitVec 64
  r15 : BitVec 64
  r14 : BitVec 64
  r13 : BitVec 64
  r12 : BitVec 64
  r11 : BitVec 64
  r10 : BitVec 64
  r9 : BitVec 64
  r8 : BitVec 64
  rbp : BitVec 64
  rdi : BitVec 64
  rsi : BitVec 64
  rdx : BitVec 64
  rcx : BitVec 64
  rbx : BitVec 64
  rax : BitVec 64
  vector : BitVec 64
  err : BitVec 64
  rip : BitVec 64
  cs : BitVec 64
  rflags : BitVec 64
  rsp : BitVec 64
  ss : BitVec 64

inductive GateField where
  | offsetLow (value : UInt16)
  | selector (value : UInt16)
  | ist (value : UInt8)
  | flags (value : UInt8)
  | offsetMiddle (value : UInt16)
  | offsetHigh (value : UInt32)
  | zero (value : UInt32)
deriving DecidableEq, Repr

def GateField.assign (descriptor : IdtEntry) : GateField → IdtEntry
  | .offsetLow value => { descriptor with offsetLow := value }
  | .selector value => { descriptor with selector := value }
  | .ist value => { descriptor with ist := value }
  | .flags value => { descriptor with flags := value }
  | .offsetMiddle value => { descriptor with offsetMiddle := value }
  | .offsetHigh value => { descriptor with offsetHigh := value }
  | .zero value => { descriptor with zero := value }

inductive Instruction where
  | storeLimit (value : UInt16)
  | storeBase (value : UInt64)
  | storeGate (interrupt : UInt8) (field : GateField)
  | lidt
  | sti
  | cli
  | other
deriving DecidableEq, Repr

/-- What an interrupt meets. `inhibited` holds behind an `sti` that raised the flag, until the end
of the next instruction. -/
structure InterruptState where
  idtP : IdtPointer
  idt : UInt8 → IdtEntry
  idtr : IdtPointer
  interruptFlag : Bool
  inhibited : Bool := false

namespace InterruptState

def step (s : InterruptState) : Instruction → InterruptState
  | .storeLimit value =>
      { s with idtP := { s.idtP with limit := value }, inhibited := false }
  | .storeBase value =>
      { s with idtP := { s.idtP with base := value }, inhibited := false }
  | .storeGate interrupt field =>
      { s with
        idt := fun v => if v = interrupt then field.assign (s.idt v) else s.idt v
        inhibited := false }
  | .lidt => { s with idtr := s.idtP, inhibited := false }
  | .sti => { s with interruptFlag := true, inhibited := !s.interruptFlag }
  | .cli => { s with interruptFlag := false, inhibited := false }
  | .other => { s with inhibited := false }

def run (s : InterruptState) (program : List Instruction) : InterruptState := program.foldl step s

def Deliverable (s : InterruptState) : Prop := s.interruptFlag = true ∧ s.inhibited = false

end InterruptState

def idtEntries : Nat := 256

def idtEntrySize : Nat := 16

def setGate (interrupt : UInt8) (base : UInt64) (flags : Int8) : List Instruction :=
  [ .storeGate interrupt (.offsetLow (base &&& 0xFFFF).toUInt16),
    .storeGate interrupt (.selector 0x8),
    .storeGate interrupt (.ist 0),
    .storeGate interrupt (.flags flags.toUInt8),
    .storeGate interrupt (.offsetMiddle ((base >>> 16) &&& 0xFFFF).toUInt16),
    .storeGate interrupt (.offsetHigh ((base >>> 32) &&& 0xFFFFFFFF).toUInt32),
    .storeGate interrupt (.zero 0) ]

def loadIdt : List Instruction := [.other, .lidt, .sti, .other]

def setGates (isrTable : UInt8 → UInt64) : List Instruction :=
  (List.range 32).flatMap (fun i => setGate i.toUInt8 (isrTable i.toUInt8) 0b10001111) ++
    (List.range' 32 (idtEntries - 32)).flatMap fun i =>
      setGate i.toUInt8 (isrTable i.toUInt8) 0b10001110

/-- `IDT::init`, with the table `idt` at `idtAddress`. -/
def idtInit (idtAddress : UInt64) (isrTable : UInt8 → UInt64) : List Instruction :=
  .storeLimit (idtEntrySize * idtEntries - 1).toUInt16 :: .storeBase idtAddress :: .sti ::
    (setGates isrTable ++ loadIdt ++ [.cli])

/-! ## What an interrupt may meet -/

variable {idtAddress : UInt64} {isrTable : UInt8 → UInt64} {s : InterruptState} {v : UInt8}
  {executed rest : List Instruction}

def GateWritten (executed : List Instruction) (v : UInt8) : Prop :=
  ∃ base flags, setGate v base flags <:+: executed

def RefersTo (idtr : IdtPointer) (idtAddress : UInt64) : Prop := idtr = ⟨4095, idtAddress⟩

/-- Wherever `IDT::init` can be interrupted, IDTR refers to the kernel's table and all gates have
been written. -/
def ReadyWhenDeliverable (idtAddress : UInt64) (isrTable : UInt8 → UInt64) (s : InterruptState) :
    Prop :=
  ∀ executed rest, idtInit idtAddress isrTable = executed ++ rest → (s.run executed).Deliverable →
    RefersTo (s.run executed).idtr idtAddress ∧ ∀ v, GateWritten executed v

theorem gateWritten_length (written : GateWritten executed v) : 7 ≤ executed.length := by
  obtain ⟨base, flags, inside⟩ := written
  exact inside.length_le

theorem InterruptState.run_append (s : InterruptState) (executed rest : List Instruction) :
    s.run (executed ++ rest) = (s.run executed).run rest :=
  List.foldl_append

/-! ## The window

It opens behind the first `sti` and closes with `lidt`.
-/

theorem run_stores (stores : ∀ i ∈ executed, ∃ v field, i = .storeGate v field) :
    (s.run executed).idtP = s.idtP ∧ (s.run executed).idtr = s.idtr ∧
      (s.run executed).interruptFlag = s.interruptFlag := by
  induction executed generalizing s with
  | nil => exact ⟨rfl, rfl, rfl⟩
  | cons i executed ih =>
      obtain ⟨v, field, rfl⟩ := stores i (by simp)
      exact ih fun j member => stores j (by simp [member])

theorem setGates_stores (isrTable : UInt8 → UInt64) :
    ∀ i ∈ setGates isrTable, ∃ v field, i = .storeGate v field := by
  intro i member
  have call (v : UInt8) (base : UInt64) (flags : Int8) (inside : i ∈ setGate v base flags) :
      ∃ v field, i = .storeGate v field := by
    simp only [setGate, List.mem_cons, List.not_mem_nil, or_false] at inside
    rcases inside with h | h | h | h | h | h | h <;> exact ⟨v, _, h⟩
  simp only [setGates, List.mem_append, List.mem_flatMap] at member
  rcases member with ⟨n, -, inside⟩ | ⟨n, -, inside⟩
  · exact call _ _ _ inside
  · exact call _ _ _ inside

theorem infix_flatMap {α β : Type} {f : α → List β} {l : List α} {a : α} (member : a ∈ l) :
    f a <:+: l.flatMap f := by
  obtain ⟨before, after, rfl⟩ := List.append_of_mem member
  exact ⟨before.flatMap f, after.flatMap f, by simp⟩

theorem setGates_written (isrTable : UInt8 → UInt64) (v : UInt8) :
    GateWritten (setGates isrTable) v := by
  have vector : v.toNat.toUInt8 = v := by simp
  have bound := v.toNat_lt
  unfold GateWritten setGates
  by_cases exception : v.toNat < 32
  · refine ⟨isrTable v, 0b10001111, ?_⟩
    have call := infix_flatMap (f := fun i : Nat => setGate i.toUInt8 (isrTable i.toUInt8) 0b10001111)
      (List.mem_range.mpr exception)
    rw [vector] at call
    exact call.trans (List.infix_append' [] _ _)
  · refine ⟨isrTable v, 0b10001110, ?_⟩
    have member : v.toNat ∈ List.range' 32 (idtEntries - 32) := by
      rw [List.mem_range'_1]
      unfold idtEntries
      omega
    have call := infix_flatMap (f := fun i : Nat => setGate i.toUInt8 (isrTable i.toUInt8) 0b10001110)
      member
    rw [vector] at call
    exact call.trans (List.suffix_append _ _).isInfix

def throughLidt (idtAddress : UInt64) (isrTable : UInt8 → UInt64) : List Instruction :=
  .storeLimit 4095 :: .storeBase idtAddress :: .sti :: (setGates isrTable ++ [.other, .lidt])

theorem idtInit_eq (idtAddress : UInt64) (isrTable : UInt8 → UInt64) :
    idtInit idtAddress isrTable = throughLidt idtAddress isrTable ++ [.sti, .other, .cli] := by
  simp [idtInit, throughLidt, loadIdt, idtEntrySize, idtEntries]

theorem throughLidt_idtr (idtAddress : UInt64) (isrTable : UInt8 → UInt64) (s : InterruptState) :
    RefersTo (s.run (throughLidt idtAddress isrTable)).idtr idtAddress := by
  have split : throughLidt idtAddress isrTable =
      [.storeLimit 4095, .storeBase idtAddress, .sti] ++ setGates isrTable ++ [.other, .lidt] := by
    simp [throughLidt]
  have loads (t : InterruptState) : (t.run [.other, .lidt]).idtr = t.idtP := rfl
  obtain ⟨idtP, -, -⟩ := run_stores (setGates_stores isrTable)
    (s := s.run [.storeLimit 4095, .storeBase idtAddress, .sti])
  rw [split, InterruptState.run_append, InterruptState.run_append, loads, idtP]
  rfl

theorem ready_of_throughLidt (done : throughLidt idtAddress isrTable <+: executed)
    (split : idtInit idtAddress isrTable = executed ++ rest) :
    RefersTo (s.run executed).idtr idtAddress ∧ ∀ v, GateWritten executed v := by
  obtain ⟨tail, rfl⟩ := done
  rw [idtInit_eq, List.append_assoc, List.append_cancel_left_eq] at split
  constructor
  · have keeps (t : InterruptState) (program : List Instruction) (inside : program <+: [.sti, .other, .cli]) :
        (t.run program).idtr = t.idtr := by
      simp only [List.prefix_cons_iff, List.prefix_nil] at inside
      rcases inside with rfl | ⟨_, rfl, rfl | ⟨_, rfl, rfl | ⟨_, rfl, rfl⟩⟩⟩ <;> rfl
    rw [InterruptState.run_append, keeps _ tail ⟨rest, split.symm⟩]
    exact throughLidt_idtr idtAddress isrTable s
  · intro v
    obtain ⟨base, flags, call⟩ := setGates_written isrTable v
    refine ⟨base, flags, call.trans ⟨[.storeLimit 4095, .storeBase idtAddress, .sti],
      [.other, .lidt] ++ tail, ?_⟩⟩
    simp [throughLidt]

def opening (idtAddress : UInt64) (isrTable : UInt8 → UInt64) : List Instruction :=
  (idtInit idtAddress isrTable).take 4

theorem opening_eq (idtAddress : UInt64) (isrTable : UInt8 → UInt64) :
    opening idtAddress isrTable =
      [.storeLimit 4095, .storeBase idtAddress, .sti,
        .storeGate 0 (.offsetLow (isrTable 0 &&& 0xFFFF).toUInt16)] :=
  rfl

theorem opening_deliverable (idtAddress : UInt64) (isrTable : UInt8 → UInt64)
    (s : InterruptState) : (s.run (opening idtAddress isrTable)).Deliverable := by
  rw [opening_eq]
  exact ⟨rfl, rfl⟩

theorem opening_unwritten (idtAddress : UInt64) (isrTable : UInt8 → UInt64) (v : UInt8) :
    ¬ GateWritten (opening idtAddress isrTable) v := by
  intro written
  have long := gateWritten_length written
  rw [opening_eq] at long
  contradiction

theorem ReadyWhenDeliverable.opening_written (ready : ReadyWhenDeliverable idtAddress isrTable s)
    (v : UInt8) : GateWritten (opening idtAddress isrTable) v := by
  have split : idtInit idtAddress isrTable =
      opening idtAddress isrTable ++ (idtInit idtAddress isrTable).drop 4 :=
    (List.take_append_drop 4 _).symm
  exact (ready _ _ split (opening_deliverable idtAddress isrTable s)).2 v

theorem idtInit_exposed (idtAddress : UInt64) (isrTable : UInt8 → UInt64) (s : InterruptState) :
    ¬ ReadyWhenDeliverable idtAddress isrTable s := by
  intro ready
  exact opening_unwritten idtAddress isrTable 0 (ready.opening_written 0)

def offState : InterruptState where
  idtP := ⟨0, 0⟩
  idt := fun _ => ⟨0, 0, 0, 0, 0, 0, 0⟩
  idtr := ⟨0, 0⟩
  interruptFlag := false

theorem idtInit_exposed_offState :
    ¬ ReadyWhenDeliverable 0x100000 (fun v => 0x200000 + 16 * v.toUInt64) offState := by
  intro ready
  exact opening_unwritten _ _ 0x20 (ready.opening_written 0x20)

end Sphynx.Core
