import Sphynx.Core.IdtMemory
import Sphynx.Core.InterruptedProgram

/-!
# From IDTR to a stub

What the processor checks when it takes an interrupt: the table of `IDT::init`, in memory, leads it
into a segment of the table of `GDT::init`.
-/

namespace Sphynx.Core
open Lib Lib.X86

variable {gdt idt idtP lastRbp bottom x : Word} {c : Cpu} {m m' m'' : Machine} {v : UInt8}
  {isrTable : UInt8 → UInt64} {program : Machine → Machine} {dead : Machine → Word → Prop} {n : Nat}

theorem KernelTables.within (tables : KernelTables gdt idt isrTable c) (v : UInt8) :
    ¬ c.idtr.limit.toNat < idtEntrySize * v.toNat + (idtEntrySize - 1) := by
  have vector := v.toNat_lt
  have limit : c.idtr.limit.toNat = 4095 := by
    rw [tables.idtr]
    rfl
  unfold idtEntrySize
  omega

/-- The segments are those they were, and so are the bytes of both tables. -/
structure KeepsTables (gdt idt : Word) (m m' : Machine) : Prop where
  cs : m'.cs = m.cs
  ss : m'.ss = m.ss
  ds : m'.ds = m.ds
  gdtBytes : ∀ x, InRange gdt sizeofGdt x → m'.mem x = m.mem x
  idtBytes : ∀ x, InRange idt sizeofIdt x → m'.mem x = m.mem x

theorem KeepsTables.trans (h : KeepsTables gdt idt m m') (h' : KeepsTables gdt idt m' m'') :
    KeepsTables gdt idt m m'' :=
  ⟨h'.cs.trans h.cs, h'.ss.trans h.ss, h'.ds.trans h.ds,
    fun x inside => (h'.gdtBytes x inside).trans (h.gdtBytes x inside),
    fun x inside => (h'.idtBytes x inside).trans (h.idtBytes x inside)⟩

theorem KernelTables.kept (tables : KernelTables gdt idt isrTable c)
    (kept : KeepsTables gdt idt c.machine m) :
    KernelTables gdt idt isrTable { c with machine := m } where
  table := ⟨tables.table.gdtr, tables.table.words.congr kept.gdtBytes (by decide)⟩
  cs := kept.cs.trans tables.cs
  ss := kept.ss.trans tables.ss
  ds := kept.ds.trans tables.ds
  es := tables.es
  idtr := tables.idtr
  gates := fun v => by
    have same : gateAt m.mem idt v = gateAt c.machine.mem idt v := gateAt_congr kept.idtBytes v
    change (gateAt m.mem idt v).Decodes v (isrTable v)
    rw [same]
    exact tables.gates v

end Sphynx.Core
