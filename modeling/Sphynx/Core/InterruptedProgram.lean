import Sphynx.Core.IdtStub
import Sphynx.Lib.InterruptedRun

/-!
# Programs under interrupts

What a program of the kernel computes when interrupts are taken between its instructions, any number
of them and anywhere. The stubs save and restore below the stack pointer and in `last_rbp`; the
kernel is built without a red zone, so that this is memory the program does not count on.
-/

namespace Sphynx.Core
open Lib Lib.X86

/-! ## What a program counts on -/

/-- Two moments between which a program cannot tell: they differ at most in memory that is dead to it
there. -/
structure Alike (dead : Machine → Word → Prop) (a b : Machine) : Prop where
  regs : a.regs = b.regs
  rip : a.rip = b.rip
  rflags : a.rflags = b.rflags
  cs : a.cs = b.cs
  ss : a.ss = b.ss
  ds : a.ds = b.ds
  cr2 : a.cr2 = b.cr2
  cr3 : a.cr3 = b.cr3
  mem : ∀ x, ¬ dead a x → a.mem x = b.mem x

/-- The memory that any interrupt may change: `last_rbp`, and the stack from `bottom` up to the stack
pointer. -/
def Scratch (lastRbp bottom : Word) (m : Machine) (x : Word) : Prop :=
  InRange lastRbp 8 x ∨ bottom ≤ x ∧ x < m.rsp

/-- A run of `excp_handler` that changes nothing but its own stack. -/
structure QuietRun (bottom : Word) (entry : Machine) extends Interrupted.HandlerRun entry where
  ds : exit.ds = entry.ds
  cr2 : exit.cr2 = entry.cr2
  cr3 : exit.cr3 = entry.cr3
  stack : ∀ x, ¬ (bottom ≤ x ∧ x < entry.rsp + 8) → exit.mem x = entry.mem x

/-- An interrupt from its delivery to behind `iretq`, with room for its frame on the stack. -/
def Interruption (lastRbp bottom : Word) (m m' : Machine) : Prop :=
  ∃ (s : Interrupted) (v : UInt8) (handler : QuietRun bottom (s.atHandler v)),
    s.machine = m ∧ s.lastRbp = lastRbp ∧ 32 ≤ v ∧ bottom.toNat + 231 ≤ m.rsp.toNat ∧
      m' = (s.atIretq v handler.toHandlerRun).iretq

variable {dead : Machine → Word → Prop} {lastRbp bottom x : Word} {a b c m m' : Machine}
  {s : Interrupted} {v : UInt8} {n : Nat}

theorem Alike.refl (dead : Machine → Word → Prop) (m : Machine) : Alike dead m m :=
  ⟨rfl, rfl, rfl, rfl, rfl, rfl, rfl, rfl, fun _ _ => rfl⟩

/-! ## An interrupt -/

def SameSystem (a b : Machine) : Prop := a.ds = b.ds ∧ a.cr2 = b.cr2 ∧ a.cr3 = b.cr3

theorem SameSystem.trans (h : SameSystem a b) (h' : SameSystem b c) : SameSystem a c :=
  ⟨h.1.trans h'.1, h.2.1.trans h'.2.1, h.2.2.trans h'.2.2⟩

theorem run_sameSystem (m : Machine) (code : List Instr) : SameSystem (m.run code) m := by
  induction code generalizing m with
  | nil => exact ⟨rfl, rfl, rfl⟩
  | cons i code ih =>
      have first : SameSystem (m.step i) m := by
        cases i <;> exact ⟨rfl, rfl, rfl⟩
      exact (ih (m.step i)).trans first

theorem atHandler_sameSystem (s : Interrupted) (v : UInt8) :
    SameSystem (s.atHandler v) s.machine := by
  have delivered : SameContext (s.delivered v) s.machine := sameContext_deliver ..
  have stub := run_sameSystem (s.delivered v) (isr v ++ intStubSave s.lastRbp)
  have called : SameSystem (s.atHandler v) ((s.delivered v).run (isr v ++ intStubSave s.lastRbp)) :=
    ⟨rfl, rfl, rfl⟩
  exact called.trans (stub.trans ⟨delivered.ds, delivered.cr2, delivered.cr3⟩)

theorem iretq_sameSystem (m : Machine) : SameSystem m.iretq m := ⟨rfl, rfl, rfl⟩

theorem resumed_sameSystem (s : Interrupted) (v : UInt8) (handler : QuietRun bottom (s.atHandler v)) :
    SameSystem (s.atIretq v handler.toHandlerRun).iretq s.machine := by
  have restored := run_sameSystem handler.exit intStubRestore
  have handled : SameSystem handler.exit (s.atHandler v) := ⟨handler.ds, handler.cr2, handler.cr3⟩
  exact (iretq_sameSystem _).trans (restored.trans (handled.trans (atHandler_sameSystem s v)))

theorem resumed_mem (s : Interrupted) (v : UInt8) (irq : 32 ≤ v)
    (handler : QuietRun bottom (s.atHandler v)) (room : bottom.toNat + 231 ≤ s.machine.rsp.toNat)
    (kept : ¬ Scratch s.lastRbp bottom s.machine x) :
    (s.atIretq v handler.toHandlerRun).iretq.mem x = s.machine.mem x := by
  obtain ⟨stub, noCode⟩ := Interrupted.irq_vectors irq
  obtain ⟨mem, -⟩ := s.atIretq_restores (iff_of_false stub noCode) handler.toHandlerRun
  obtain ⟨global, above⟩ := not_or.mp kept
  obtain ⟨d, small, top⟩ := stackTop_eq s.machine
  have entry : (s.atHandler v).rsp + 8 = s.machine.rsp - BitVec.ofNat 64 (d + 200) := by
    rw [Interrupted.atHandler_rsp, Interrupted.length_opening_irq s irq, top, BitVec.ofNat_add]
    bv_omega
  calc (s.atIretq v handler.toHandlerRun).iretq.mem x
      = (s.atIretq v handler.toHandlerRun).mem x := rfl
    _ = handler.exit.mem x := by rw [mem]
    _ = (s.atHandler v).mem x := by
        apply handler.stack
        rw [entry]
        rintro ⟨low, high⟩
        refine above ⟨low, ?_⟩
        bv_omega
    _ = s.machine.mem x := by
        apply s.atHandler_frame v global
        intro inside
        apply above
        have below := s.stack_below inside
        unfold InRange at below
        constructor
        · bv_omega
        · bv_omega

theorem Interruption.alike (covers : ∀ m x, Scratch lastRbp bottom m x → dead m x)
    (same : Alike dead a b) (interrupted : Interruption lastRbp bottom b c) : Alike dead a c := by
  obtain ⟨s, v, handler, rfl, rfl, irq, room, rfl⟩ := interrupted
  obtain ⟨regs, rip, rflags, cs, ss⟩ := interrupt_resumes s v irq handler.toHandlerRun
  obtain ⟨ds, cr2, cr3⟩ := resumed_sameSystem s v handler
  refine ⟨same.regs.trans regs.symm, same.rip.trans rip.symm, same.rflags.trans rflags.symm,
    same.cs.trans cs.symm, same.ss.trans ss.symm, same.ds.trans ds.symm, same.cr2.trans cr2.symm,
    same.cr3.trans cr3.symm, fun x live => ?_⟩
  rw [same.mem x live]
  refine (resumed_mem s v irq handler room fun scratch => live (covers a x ?_)).symm
  unfold Scratch Machine.rsp at *
  rwa [same.regs]

/-! ## A program -/

theorem program_undisturbed (program : Machine → Machine)
    (covers : ∀ m x, Scratch lastRbp bottom m x → dead m x)
    (blind : ∀ k < n, Blind program (Alike dead) (program^[k] m))
    (run : InterruptedRun program (Interruption lastRbp bottom) m n m') :
    Alike dead (program^[n] m) m' :=
  run.related (.refl dead m) blind fun _ _ _ same interrupted => interrupted.alike covers same

theorem push_blind (lastRbp bottom : Word) (r : Reg) (m : Machine) :
    Blind (fun m => m.step (.push r)) (Alike (Scratch lastRbp bottom)) m := by
  intro m' same
  have rsp : m.rsp = m'.rsp := congrFun same.regs .rsp
  refine ⟨?_, same.rip, same.rflags, same.cs, same.ss, same.ds, same.cr2, same.cr3, fun x live => ?_⟩
  · simp only [Machine.step, Machine.push, Machine.rsp, same.regs]
  · change m.mem.store (m.rsp - 8) (m.regs r) x = m'.mem.store (m'.rsp - 8) (m'.regs r) x
    rw [← rsp, ← same.regs]
    by_cases written : InRange (m.rsp - 8) 8 x
    · rw [Memory.store, Memory.store, if_pos written, if_pos written]
    · rw [Memory.store_of_not_inRange _ _ written, Memory.store_of_not_inRange _ _ written]
      apply same.mem x
      rintro (global | ⟨low, high⟩)
      · exact live (Or.inl global)
      · refine live (Or.inr ⟨low, ?_⟩)
        change x < (m.push (m.regs r)).rsp
        rw [rsp_push]
        unfold InRange at written
        bv_omega

def pushedState : Interrupted where
  machine := kernelState.machine.step (.push .rax)
  gate := kernelState.gate
  errorCode := 0
  returnAddress := kernelState.returnAddress
  lastRbp := kernelState.lastRbp
  reserved := by decide
  apart := by
    intro x inside overlap
    have base : (kernelState.machine.step (.push .rax)).stackTop - BitVec.ofNat 64 stackNeed =
        0x7FF18 := by decide
    rw [base] at overlap
    unfold InRange stackNeed at *
    change (x - 0x104000).toNat < 8 at inside
    bv_omega

def returnQuietly (bottom : Word) (entry : Machine) : QuietRun bottom entry where
  toHandlerRun := returnAtOnce entry
  ds := rfl
  cr2 := rfl
  cr3 := rfl
  stack := fun _ _ => rfl

theorem program_undisturbed_pushes :
    Alike (Scratch 0x104000 0x70000)
      ((fun m => m.step (.push .rax))^[2] kernelState.machine)
      ((pushedState.atIretq 0x20 (returnAtOnce _)).iretq.step (.push .rax)) :=
  program_undisturbed (fun m => m.step (.push .rax)) (fun _ _ scratch => scratch)
    (fun _ _ => push_blind _ _ .rax _)
    (.step (.interrupt (.step .start)
      ⟨pushedState, 0x20, returnQuietly 0x70000 _, rfl, rfl, by decide, by decide, rfl⟩))

end Sphynx.Core
