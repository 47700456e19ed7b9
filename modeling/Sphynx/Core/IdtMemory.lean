import Sphynx.Core.Gdt

/-!
# The interrupt descriptor table in memory

The instructions of `IDT::init` on memory and on the processor, with the table and the register
image, both packed, at their addresses. What they come to is read off the run of `Idt`.
-/

namespace Sphynx.Core
open Lib Lib.X86

/-! ## An entry in memory -/

def bytesOf {w : Nat} (n : Nat) (value : BitVec w) : List (BitVec 8) :=
  (List.range n).map fun i => value.extractLsb' (8 * i) 8

namespace GateField

/-- Where the field lies in its entry. -/
def offset : GateField → Nat
  | .offsetLow _ => 0
  | .selector _ => 2
  | .ist _ => 4
  | .flags _ => 5
  | .offsetMiddle _ => 6
  | .offsetHigh _ => 8
  | .zero _ => 12

def bytes : GateField → List (BitVec 8)
  | .offsetLow value | .selector value | .offsetMiddle value => bytesOf 2 value.toBitVec
  | .ist value | .flags value => bytesOf 1 value.toBitVec
  | .offsetHigh value | .zero value => bytesOf 4 value.toBitVec

end GateField

def IdtEntry.ofBytes (byte : Nat → BitVec 8) : IdtEntry where
  offsetLow := .ofBitVec (byte 1 ++ byte 0)
  selector := .ofBitVec (byte 3 ++ byte 2)
  ist := .ofBitVec (byte 4)
  flags := .ofBitVec (byte 5)
  offsetMiddle := .ofBitVec (byte 7 ++ byte 6)
  offsetHigh := .ofBitVec (byte 11 ++ byte 10 ++ byte 9 ++ byte 8)
  zero := .ofBitVec (byte 15 ++ byte 14 ++ byte 13 ++ byte 12)

def gateAt (mem : Memory) (idt : Word) (v : UInt8) : IdtEntry :=
  .ofBytes fun i => mem.byte idt (idtEntrySize * v.toNat + i)

def sizeofIdt : Nat := idtEntrySize * idtEntries

/-! ## The instructions -/

variable {gdt idt idtP x : Word} {mem mem' : Memory} {c c' d : Cpu} {s : InterruptState}
  {i : Instruction} {program rest : List Instruction} {v : UInt8}

@[simp]
theorem length_bytesOf {w : Nat} (n : Nat) (value : BitVec w) : (bytesOf n value).length = n := by
  rw [bytesOf, List.length_map, List.length_range]

theorem GateField.fits (field : GateField) : field.offset + field.bytes.length ≤ idtEntrySize := by
  cases field <;> simp [offset, bytes, idtEntrySize]

theorem ofBytes_congr {byte byte' : Nat → BitVec 8} (same : ∀ i < idtEntrySize, byte i = byte' i) :
    IdtEntry.ofBytes byte = .ofBytes byte' := by
  simp (disch := decide) only [IdtEntry.ofBytes, same]

theorem gateAt_congr (same : ∀ x, InRange idt sizeofIdt x → mem x = mem' x) (v : UInt8) :
    gateAt mem idt v = gateAt mem' idt v := by
  have vector := v.toNat_lt
  apply ofBytes_congr
  intro i inside
  apply same
  unfold sizeofIdt idtEntries idtEntrySize at *
  rw [InRange, Memory.sub_toNat_of_lt idt (by omega)]
  omega

structure Untouched (idt idtP : Word) (c c' : Cpu) : Prop where
  gdtr : c'.gdtr = c.gdtr
  es : c'.es = c.es
  cs : c'.machine.cs = c.machine.cs
  ss : c'.machine.ss = c.machine.ss
  ds : c'.machine.ds = c.machine.ds
  mem : ∀ x, ¬ InRange idt sizeofIdt x → ¬ InRange idtP 10 x → c'.machine.mem x = c.machine.mem x

theorem Untouched.refl (idt idtP : Word) (c : Cpu) : Untouched idt idtP c c :=
  ⟨rfl, rfl, rfl, rfl, rfl, fun _ _ _ => rfl⟩

theorem Untouched.trans (h : Untouched idt idtP c c') (h' : Untouched idt idtP c' d) :
    Untouched idt idtP c d :=
  ⟨h'.gdtr.trans h.gdtr, h'.es.trans h.es, h'.cs.trans h.cs, h'.ss.trans h.ss, h'.ds.trans h.ds,
    fun x table image => (h'.mem x table image).trans (h.mem x table image)⟩

/-- Where the table and the register image lie. -/
structure IdtPlaces (gdt idt idtP : Word) : Prop where
  canonical : Canonical idt
  image : Apart idt sizeofIdt idtP 10
  gdtTable : Apart gdt sizeofGdt idt sizeofIdt
  gdtImage : Apart gdt sizeofGdt idtP 10

/-- The kernel's segments, and the table of `IDT::init` behind IDTR. -/
structure KernelTables (gdt idt : Word) (isrTable : UInt8 → UInt64) (c : Cpu) : Prop extends
    KernelSegments gdt c.toProcessor where
  idtr : c.idtr = ⟨4095, idt⟩
  gates : ∀ v, (gateAt c.machine.mem idt v).Decodes v (isrTable v)

theorem Untouched.segments (kept : Untouched idt idtP c c') (places : IdtPlaces gdt idt idtP)
    (segments : KernelSegments gdt c.toProcessor) : KernelSegments gdt c'.toProcessor where
  table := ⟨kept.gdtr.trans segments.table.gdtr, segments.table.words.congr
    (fun x inside => kept.mem x (places.gdtTable x inside) (places.gdtImage x inside)) (by decide)⟩
  cs := kept.cs.trans segments.cs
  ss := kept.ss.trans segments.ss
  ds := kept.ds.trans segments.ds
  es := kept.es.trans segments.es

theorem KernelSegments.ring {p : Processor} (segments : KernelSegments gdt p) : p.cpl = 0 := by
  rw [Processor.cpl, segments.cs]
  decide

/-- Where `IDT::init` starts. -/
def seen (idt idtP : Word) (c : Cpu) : InterruptState where
  idtP := ⟨.ofBitVec (c.machine.mem.load16 idtP), .ofBitVec (c.machine.mem.load (idtP + 2))⟩
  idt := gateAt c.machine.mem idt
  idtr := ⟨.ofBitVec c.idtr.limit, .ofBitVec c.idtr.base⟩
  interruptFlag := c.machine.rflags.getLsbD 9

theorem InterruptState.run_cons (s : InterruptState) (i : Instruction) (program : List Instruction) :
    s.run (i :: program) = (s.step i).run program :=
  rfl

end Sphynx.Core
