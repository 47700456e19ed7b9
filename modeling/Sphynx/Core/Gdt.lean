import Sphynx.Core.IdtGates
import Sphynx.Lib.Block
import Sphynx.Lib.Segments

/-!
# The global descriptor table (`gdt.hpp`, `gdt.cpp`)

`GDT::init` writes five descriptors and the register image that `reload` loads; `reload` returns far
to its own next instruction to load CS, and loads ES, SS and DS.
-/

namespace Sphynx.Core
open Lib Lib.X86

/-- `descriptor_t`, in the order of its fields. -/
structure GdtDescriptor where
  limitLow : BitVec 16
  baseLow : BitVec 16
  baseMid : BitVec 8
  accessByte : BitVec 8
  limitHighAndFlags : BitVec 8
  baseHigh : BitVec 8
deriving DecidableEq

def GdtDescriptor.word (d : GdtDescriptor) : Descriptor :=
  d.baseHigh ++ d.limitHighAndFlags ++ d.accessByte ++ d.baseMid ++ d.baseLow ++ d.limitLow

def gdtEntries : List GdtDescriptor :=
  [ ⟨0, 0, 0, 0, 0, 0⟩,
    ⟨0, 0, 0, 0b10011010, 0b10100000, 0⟩,
    ⟨0, 0, 0, 0b10010010, 0b10100000, 0⟩,
    ⟨0, 0, 0, 0b11111010, 0b10100000, 0⟩,
    ⟨0, 0, 0, 0b11110010, 0b10100000, 0⟩ ]

def sizeofGdt : Nat := 40

/-- `reload`, with `gdtr` at `gdtrAddress` and the label `1` at `label`. -/
def gdtReload (gdtrAddress label : Word) : List SegmentInstr :=
  [ .mov .rdi gdtrAddress,
    .lgdt .rdi,
    .pushImm 0x8,
    .mov .rax label,
    .push .rax,
    .lretq,
    .mov16 .rax 0x10,
    .movSegment .es .rax,
    .movSegment .ss .rax,
    .movSegment .ds .rax ]

def gdtWords : List Descriptor := gdtEntries.map GdtDescriptor.word

/-- The assignments of `GDT::init`; the register image is packed. -/
def gdtMemory (gdt gdtrAddress : Word) (mem : Memory) : Memory :=
  ((mem.storeWords gdt gdtWords).store16 gdtrAddress (BitVec.ofNat 16 (sizeofGdt - 1))).store
    (gdtrAddress + 2) gdt

/-- `GDT::init`, with the table `gdt` at `gdt`. -/
def gdtInit (gdt gdtrAddress label : Word) (p : Processor) : Except SegmentFault Processor :=
  (p.withMem (gdtMemory gdt gdtrAddress p.machine.mem)).run (gdtReload gdtrAddress label)

/-! ## The table in memory -/

/-- Where `GDT::init` may write: the table, the register image, and the two words it pushes. -/
structure GdtPlaces (gdt gdtrAddress label : Word) (p : Processor) : Prop where
  ring : p.cpl = 0
  canonical : Canonical gdt
  canonicalLabel : Canonical label
  image : Apart gdt sizeofGdt gdtrAddress 10
  stack : Apart gdt sizeofGdt (p.machine.rsp - 16) 16

variable {gdt gdtrAddress label x : Word} {mem : Memory} {p q : Processor}

theorem gdtMemory_frame (table : ¬ InRange gdt sizeofGdt x) (image : ¬ InRange gdtrAddress 10 x) :
    gdtMemory gdt gdtrAddress mem x = mem x := by
  unfold gdtMemory
  rw [Memory.store_of_not_inRange, Memory.store16_of_not_inRange]
  · exact Memory.storeWords_frame (by decide) table
  · exact fun within => image (within.mono (by decide))
  · exact fun within => image (InRange.of_add (n := 2) within (by decide))

theorem gdtMemory_words (image : Apart gdt sizeofGdt gdtrAddress 10) (mem : Memory) :
    (gdtMemory gdt gdtrAddress mem).Words gdt gdtWords := by
  have stored : (mem.storeWords gdt gdtWords).Words gdt gdtWords := Memory.storeWords_words (by decide)
  refine stored.congr (fun y inside => ?_) (by decide)
  have outside : ¬ InRange gdtrAddress 10 y := image y inside
  unfold gdtMemory
  rw [Memory.store_of_not_inRange, Memory.store16_of_not_inRange]
  · exact fun within => outside (within.mono (by decide))
  · exact fun within => outside (InRange.of_add (n := 2) within (by decide))

theorem gdtMemory_image (gdt gdtrAddress : Word) (mem : Memory) :
    (gdtMemory gdt gdtrAddress mem).load16 gdtrAddress = 39 ∧
      (gdtMemory gdt gdtrAddress mem).load (gdtrAddress + 2) = gdt := by
  constructor
  · have before : (gdtMemory gdt gdtrAddress mem).load16 gdtrAddress =
        ((mem.storeWords gdt gdtWords).store16 gdtrAddress 39).load16 gdtrAddress := by
      apply Memory.load16_congr
      intro y inside
      apply Memory.store_of_not_inRange
      unfold InRange at inside ⊢
      bv_omega
    rw [before, Memory.load16_store16]
  · exact Memory.load_store _ _ _

/-! ## `reload` -/

structure Holds (gdt : Word) (table : List Descriptor) (p : Processor) : Prop where
  gdtr : p.gdtr = ⟨39, gdt⟩
  words : p.machine.mem.Words gdt table

def kernelCode : Descriptor := (⟨0, 0, 0, 0b10011010, 0b10100000, 0⟩ : GdtDescriptor).word

def kernelData : Descriptor := (⟨0, 0, 0, 0b10010010, 0b10100000, 0⟩ : GdtDescriptor).word

def codeWords : List Descriptor := gdtWords.set 1 kernelCode.accessed

/-- The table when all segments have been loaded. -/
def loadedWords : List Descriptor := codeWords.set 2 kernelData.accessed

theorem kernelCode_isCode (d : Descriptor) (same : d = kernelCode ∨ d = kernelCode.accessed) :
    d.IsCode 0 := by
  rcases same with rfl | rfl <;> exact ⟨by decide, by decide, by decide, by decide, by decide, by decide⟩

theorem kernelData_isData (d : Descriptor) (same : d = kernelData ∨ d = kernelData.accessed) :
    d.IsData 0 := by
  rcases same with rfl | rfl <;> exact ⟨by decide, by decide, by decide, by decide, by decide⟩

def pushed (label : Word) (p : Processor) : Processor :=
  { p with machine := ((p.machine.push 0x8).setReg .rax label).push label }

theorem run_pushes (label : Word) (p : Processor) :
    p.run [.pushImm 0x8, .mov .rax label, .push .rax] = .ok (pushed label p) := rfl

theorem pushed_rsp (label : Word) (p : Processor) :
    (pushed label p).machine.rsp = p.machine.rsp - 16 := by
  have aside : ((p.machine.push 0x8).setReg .rax label).rsp = (p.machine.push 0x8).rsp := rfl
  rw [pushed, rsp_push, aside, rsp_push]
  bv_omega

theorem pushed_mem (label : Word) (p : Processor) :
    (pushed label p).machine.mem =
      (p.machine.mem.store (p.machine.rsp - 8) 0x8).store (p.machine.rsp - 8 - 8) label := by
  have aside : ((p.machine.push 0x8).setReg .rax label).rsp = (p.machine.push 0x8).rsp := rfl
  rw [pushed, mem_push, aside, rsp_push, mem_setReg, mem_push]

theorem pushed_frame (outside : ¬ InRange (p.machine.rsp - 16) 16 x) :
    (pushed label p).machine.mem x = p.machine.mem x := by
  rw [pushed_mem, Memory.store_of_not_inRange, Memory.store_of_not_inRange]
  · unfold InRange at outside ⊢
    bv_omega
  · unfold InRange at outside ⊢
    bv_omega

theorem pushed_stack (label : Word) (p : Processor) :
    (pushed label p).machine.mem.load (pushed label p).machine.rsp = label ∧
      (pushed label p).machine.mem.load ((pushed label p).machine.rsp + 8) = 0x8 := by
  have top : p.machine.rsp - 16 = p.machine.rsp - 8 - 8 := by bv_omega
  have next : p.machine.rsp - 16 + 8 = p.machine.rsp - 8 := by bv_omega
  rw [pushed_rsp, next, pushed_mem, top, Memory.load_store]
  refine ⟨rfl, (Memory.load_congr fun y inside => ?_).trans (Memory.load_store p.machine.mem _ _)⟩
  apply Memory.store_of_not_inRange
  unfold InRange at inside ⊢
  bv_omega

theorem Holds.descriptor {table : List Descriptor} {s : Selector} (held : Holds gdt table p)
    (five : table.length = 5) (global : s.isLocal = false) (inside : s.index < 5) :
    p.descriptor s = .ok (table.getD s.index 0) := by
  have words := held.words
  have base : p.gdtr.base = gdt := by rw [held.gdtr]
  have limit : p.gdtr.limit.toNat = 39 := by rw [held.gdtr]; rfl
  rw [← base] at words
  rw [Processor.descriptor_of_words words global (by omega) (by omega),
    List.getD_eq_getElem _ _ (by omega)]

theorem Holds.access {table : List Descriptor} {s : Selector} (held : Holds gdt table p)
    (five : table.length = 5) (inside : s.index < 5) (d : Descriptor) :
    Holds gdt (table.set s.index d.accessed) (p.access s (some d)) := by
  have base : p.gdtr.base = gdt := by rw [held.gdtr]
  have words := held.words
  rw [← base] at words
  refine ⟨held.gdtr, ?_⟩
  rw [← base]
  exact Processor.access_words words (by omega) (by omega) d

theorem Holds.access_frame {table : List Descriptor} {s : Selector} (held : Holds gdt table p)
    (inside : s.index < 5) (d : Option Descriptor) (outside : ¬ InRange gdt sizeofGdt x) :
    (p.access s d).machine.mem x = p.machine.mem x := by
  have base : p.gdtr.base = gdt := by rw [held.gdtr]
  apply Processor.access_frame (n := 5) s d (by decide) inside
  rwa [base]

/-- CS holds the kernel's code segment, and the table is as the far return leaves it. -/
structure CodeLoaded (gdt : Word) (p q : Processor) : Prop where
  table : Holds gdt codeWords q
  cs : q.machine.cs = 0x8
  rsp : q.machine.rsp = p.machine.rsp
  regs : ∀ r, r ≠ .rax → r ≠ .rsp → q.machine.regs r = p.machine.regs r
  mem : ∀ x, ¬ InRange gdt sizeofGdt x → ¬ InRange (p.machine.rsp - 16) 16 x →
    q.machine.mem x = p.machine.mem x

theorem run_farReturn (held : Holds gdt gdtWords p) (ring : p.cpl = 0) (canonical : Canonical label)
    (stack : Apart gdt sizeofGdt (p.machine.rsp - 16) 16) :
    ∃ q, p.run [.pushImm 0x8, .mov .rax label, .push .rax, .lretq] = .ok q ∧
      CodeLoaded gdt p q := by
  have held' : Holds gdt gdtWords (pushed label p) :=
    ⟨held.gdtr, held.words.congr (fun y inside => pushed_frame (stack y inside)) (by decide)⟩
  have ring' : (pushed label p).cpl = 0 := ring
  obtain ⟨top, next⟩ := pushed_stack label p
  have found : (pushed label p).descriptor 0x8 = .ok kernelCode :=
    held'.descriptor rfl (by decide) (by decide)
  have segment := Processor.codeSegment_eq (by decide) found
    (by rw [ring']; exact kernelCode_isCode _ (Or.inl rfl)) (.generalProtection 0x8)
  have step := Processor.step_lretq top (by rw [next]; rfl) (by rw [ring']; decide) canonical segment
  have run : p.run [.pushImm 0x8, .mov .rax label, .push .rax, .lretq] =
      (pushed label p).run [.lretq] :=
    Processor.run_append (run_pushes label p)
  refine ⟨_, (run.trans (Processor.run_cons step)).trans rfl, ?_⟩
  have table := held'.access (s := 0x8) rfl (by decide) kernelCode
  refine ⟨⟨table.gdtr, table.words⟩, rfl, ?_, fun r rax rsp => ?_, fun x outside above => ?_⟩
  · change ((pushed label p).machine.setReg .rsp ((pushed label p).machine.rsp + 16)).rsp = _
    rw [rsp_setReg, pushed_rsp]
    bv_omega
  · change ((pushed label p).machine.setReg .rsp ((pushed label p).machine.rsp + 16)).regs r = _
    rw [regs_setReg _ _ rsp, pushed, regs_push _ _ rsp, regs_setReg _ _ rax, regs_push _ _ rsp]
  · have kept : ((pushed label p).access 0x8 (some kernelCode)).machine.mem x =
        (pushed label p).machine.mem x :=
      held'.access_frame (by decide) (some kernelCode) outside
    exact kept.trans (pushed_frame above)

/-- Registers, and memory outside the table, are as they were. -/
structure Kept (gdt : Word) (p q : Processor) : Prop where
  regs : q.machine.regs = p.machine.regs
  cs : q.machine.cs = p.machine.cs
  mem : ∀ x, ¬ InRange gdt sizeofGdt x → q.machine.mem x = p.machine.mem x

theorem Kept.trans {p q r : Processor} (h : Kept gdt q r) (h' : Kept gdt p q) : Kept gdt p r :=
  ⟨h.regs.trans h'.regs, h.cs.trans h'.cs,
    fun x outside => (h.mem x outside).trans (h'.mem x outside)⟩

theorem Holds.kept {table : List Descriptor} (held : Holds gdt table p) (d : Descriptor)
    (segment : SegmentReg) : Kept gdt p ((p.access 0x10 (some d)).setSegment segment 0x10) := by
  have mem (x : Word) (outside : ¬ InRange gdt sizeofGdt x) :
      (p.access 0x10 (some d)).machine.mem x = p.machine.mem x :=
    held.access_frame (by decide) (some d) outside
  cases segment <;> exact ⟨rfl, rfl, mem⟩

/-- Loading one more segment with the selector `0x10` changes nothing but the segment and the
descriptor's accessed bit. -/
theorem step_dataSegment {table : List Descriptor} {d : Descriptor} (held : Holds gdt table p)
    (five : table.length = 5) (entry : table.getD 2 0 = d) (same : d = kernelData ∨ d = kernelData.accessed)
    (ring : p.cpl = 0) (segment : SegmentReg) (r : Reg)
    (value : (p.machine.regs r).setWidth 16 = (0x10 : Selector)) :
    p.step (.movSegment segment r) = .ok ((p.access 0x10 (some d)).setSegment segment 0x10) ∧
      Holds gdt (table.set 2 kernelData.accessed) ((p.access 0x10 (some d)).setSegment segment 0x10) ∧
      Kept gdt p ((p.access 0x10 (some d)).setSegment segment 0x10) := by
  have found : p.descriptor 0x10 = .ok d := by
    rw [held.descriptor five (by decide) (by decide)]
    exact congrArg Except.ok entry
  have checked := Processor.checkSegment_eq (by decide) found
    (by rw [ring]; exact kernelData_isData d same) (by rw [ring]; decide) segment
  have accessed : d.accessed = kernelData.accessed := by
    rcases same with rfl | rfl <;> decide
  have table' := held.access (s := 0x10) five (by decide) d
  rw [accessed] at table'
  refine ⟨Processor.step_movSegment value checked, ?_, held.kept d segment⟩
  cases segment <;> exact ⟨table'.gdtr, table'.words⟩

/-- The segments the kernel runs with, and the table they were loaded from. -/
structure KernelSegments (gdt : Word) (p : Processor) : Prop where
  table : Holds gdt loadedWords p
  cs : p.machine.cs = 0x8
  ss : p.machine.ss = 0x10
  ds : p.machine.ds = 0x10
  es : p.es = 0x10

theorem low_half (high : BitVec 48) (low : BitVec 16) : (high ++ low).setWidth 16 = low := by
  apply BitVec.eq_of_getLsbD_eq
  intro i inside
  rw [BitVec.getLsbD_setWidth, BitVec.getLsbD_append]
  simp [inside]

def withAx (value : BitVec 16) (p : Processor) : Processor :=
  { p with machine := p.machine.setReg .rax ((p.machine.regs .rax).extractLsb' 16 48 ++ value) }

theorem withAx_rax (value : BitVec 16) (p : Processor) :
    ((withAx value p).machine.regs .rax).setWidth 16 = value := by
  have written : (withAx value p).machine.regs .rax =
      (p.machine.regs .rax).extractLsb' 16 48 ++ value := rfl
  rw [written]
  exact low_half _ value

theorem run_dataSegments (held : Holds gdt codeWords p) (ring : p.cpl = 0) (cs : p.machine.cs = 0x8) :
    ∃ q, p.run [.mov16 .rax 0x10, .movSegment .es .rax, .movSegment .ss .rax, .movSegment .ds .rax] =
        .ok q ∧ KernelSegments gdt q ∧ Kept gdt (withAx 0x10 p) q := by
  have held' : Holds gdt codeWords (withAx 0x10 p) := ⟨held.gdtr, held.words⟩
  have value := withAx_rax 0x10 p
  have start : p.step (.mov16 .rax 0x10) = .ok (withAx 0x10 p) := rfl
  obtain ⟨loadEs, held₁, kept₁⟩ := step_dataSegment held' rfl rfl (Or.inl rfl) ring .es .rax value
  obtain ⟨loadSs, held₂, kept₂⟩ := step_dataSegment held₁ rfl rfl (Or.inr rfl) ring .ss .rax value
  obtain ⟨loadDs, held₃, kept₃⟩ := step_dataSegment held₂ rfl rfl (Or.inr rfl) ring .ds .rax value
  refine ⟨_, ?_, ⟨held₃, cs, rfl, rfl, rfl⟩, kept₃.trans (kept₂.trans kept₁)⟩
  rw [Processor.run_cons start, Processor.run_cons loadEs, Processor.run_cons loadSs,
    Processor.run_cons loadDs]
  rfl

/-! ## `GDT::init` -/

def imaged (gdt gdtrAddress : Word) (p : Processor) : Processor :=
  { p with machine := { p.machine.setReg .rdi gdtrAddress with
    mem := gdtMemory gdt gdtrAddress p.machine.mem } }

theorem run_lgdt (places : GdtPlaces gdt gdtrAddress label p) :
    (p.withMem (gdtMemory gdt gdtrAddress p.machine.mem)).run [.mov .rdi gdtrAddress, .lgdt .rdi] =
      .ok { imaged gdt gdtrAddress p with gdtr := ⟨39, gdt⟩ } := by
  obtain ⟨size, offset⟩ := gdtMemory_image gdt gdtrAddress p.machine.mem
  have moved : (p.withMem (gdtMemory gdt gdtrAddress p.machine.mem)).step (.mov .rdi gdtrAddress) =
      .ok (imaged gdt gdtrAddress p) := rfl
  have loaded : (imaged gdt gdtrAddress p).step (.lgdt .rdi) =
      .ok { imaged gdt gdtrAddress p with gdtr := ⟨39, gdt⟩ } :=
    Processor.step_lgdt size offset places.ring places.canonical
  rw [Processor.run_cons moved, Processor.run_cons loaded]
  rfl

theorem gdtInit_loads (places : GdtPlaces gdt gdtrAddress label p) :
    ∃ q, gdtInit gdt gdtrAddress label p = .ok q ∧ KernelSegments gdt q ∧
      (∀ r, r ≠ .rax → r ≠ .rdi → q.machine.regs r = p.machine.regs r) ∧
      ∀ x, ¬ InRange gdt sizeofGdt x → ¬ InRange gdtrAddress 10 x →
        ¬ InRange (p.machine.rsp - 16) 16 x → q.machine.mem x = p.machine.mem x := by
  have code : gdtReload gdtrAddress label = [.mov .rdi gdtrAddress, .lgdt .rdi] ++
      ([.pushImm 0x8, .mov .rax label, .push .rax, .lretq] ++
        [.mov16 .rax 0x10, .movSegment .es .rax, .movSegment .ss .rax, .movSegment .ds .rax]) := rfl
  have first := run_lgdt places
  have held : Holds gdt gdtWords { imaged gdt gdtrAddress p with gdtr := ⟨39, gdt⟩ } :=
    ⟨rfl, gdtMemory_words places.image p.machine.mem⟩
  obtain ⟨q, second, loaded⟩ := run_farReturn held places.ring places.canonicalLabel places.stack
  have ring : q.cpl = 0 := by
    rw [Processor.cpl, loaded.cs]
    decide
  obtain ⟨r, third, segments, kept⟩ := run_dataSegments loaded.table ring loaded.cs
  refine ⟨r, ?_, segments, fun reg rax rdi => ?_, fun x table image stack => ?_⟩
  · rw [gdtInit, code, Processor.run_append first, Processor.run_append second, third]
  · have aside : (withAx 0x10 q).machine.regs reg = q.machine.regs reg := regs_setReg _ _ rax
    rw [kept.regs, aside]
    by_cases top : reg = .rsp
    · subst top
      exact loaded.rsp
    · rw [loaded.regs reg rax top]
      exact regs_setReg _ _ rdi
  · rw [kept.mem x table]
    refine (loaded.mem x table stack).trans ?_
    exact gdtMemory_frame table image

/-- A machine as a boot loader may hand it to the kernel, with a table and segments of its own. -/
def loaderProcessor : Processor where
  machine :=
    { regs := fun r => if r = .rsp then 0x80000 else 0
      mem := fun _ => 0
      rip := 0x101000
      rflags := 0x2
      cs := 0x28
      ss := 0x30
      ds := 0x30
      cr2 := 0
      cr3 := 0x1000 }
  gdtr := ⟨0x37, 0x9000⟩
  es := 0x30

theorem gdtInit_loads_loader :
    ∃ q, gdtInit 0x105000 0x106000 0x107000 loaderProcessor = .ok q ∧ KernelSegments 0x105000 q := by
  have image : Apart 0x105000 sizeofGdt 0x106000 10 := by
    intro x table image
    unfold InRange sizeofGdt at *
    bv_omega
  have stack : Apart 0x105000 sizeofGdt (loaderProcessor.machine.rsp - 16) 16 := by
    intro x table stack
    have top : loaderProcessor.machine.rsp - 16 = 0x7FFF0 := by decide
    rw [top] at stack
    unfold InRange sizeofGdt at *
    bv_omega
  obtain ⟨q, run, segments, -⟩ := gdtInit_loads (p := loaderProcessor)
    ⟨by decide, by decide, (by decide : Canonical 0x107000), image, stack⟩
  exact ⟨q, run, segments⟩

end Sphynx.Core
