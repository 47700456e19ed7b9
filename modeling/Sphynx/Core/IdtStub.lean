import Sphynx.Lib.X86
import Sphynx.Sys.Cpu

/-!
# The interrupt stubs (`idt-stub.asm`)

From the delivery of an interrupt to `excp_handler`, and from its return to `iretq`. `intStubSave`
is `_int_stub` up to its call, `intStubRestore` what lies between the call and `iretq`. The frame the
handler receives by value lies in memory just above the return address.
-/

namespace Sphynx.Core
open Lib Lib.X86 Dev External Sys Function

/-! ## The code -/

def pushaq : List Instr :=
  [ .push .rax, .push .rbx, .push .rcx, .push .rdx, .push .rsi, .push .rdi, .push .rbp,
    .push .r8, .push .r9, .push .r10, .push .r11, .push .r12, .push .r13, .push .r14, .push .r15,
    .movCr3 .rax, .push .rax,
    .movCr2 .rax, .push .rax,
    .movDs .rax, .push .rax ]

def popaq : List Instr :=
  [ .pop .rax, .pop .rax, .pop .rax,
    .pop .r15, .pop .r14, .pop .r13, .pop .r12, .pop .r11, .pop .r10, .pop .r9, .pop .r8,
    .pop .rbp, .pop .rdi, .pop .rsi, .pop .rdx, .pop .rcx, .pop .rbx, .pop .rax ]

def intStubSave (lastRbp : Word) : List Instr := .storeReg lastRbp .rbp :: (pushaq ++ [.cld])

def intStubRestore : List Instr := popaq ++ [.addRsp 16]

def immediate (v : UInt8) : Word := v.toBitVec.setWidth 64

def isrNoerr (v : UInt8) : List Instr := [.cli, .pushImm 0, .pushImm (immediate v)]

def isrErr (v : UInt8) : List Instr := [.cli, .pushImm (immediate v)]

/-- The vectors whose stub is an `_isr_err`. -/
def isrErrVectors : List UInt8 := [8, 10, 11, 12, 13, 14, 17, 30]

def isr (v : UInt8) : List Instr := if v ∈ isrErrVectors then isrErr v else isrNoerr v

/-- The vectors for which the processor pushes an error code. -/
def errorCodeVectors : List UInt8 := [8, 10, 11, 12, 13, 14, 17, 21, 29, 30]

/-! ## An interrupt -/

def stackNeed : Nat := 216

/-- A moment at which an interrupt is taken, with what linking has fixed: where `last_rbp` and the
instruction behind the call lie. The second bit of `rflags` is always set, and the stack is not
where `last_rbp` is. -/
structure Interrupted where
  machine : Machine
  gate : Machine.Gate
  errorCode : Word
  returnAddress : Word
  lastRbp : Word
  reserved : machine.rflags.getLsbD 1 = true
  apart : ∀ x, InRange lastRbp 8 x →
    ¬ InRange (machine.stackTop - BitVec.ofNat 64 stackNeed) stackNeed x

def IntFrame.ofWords (word : Nat → Word) : IntFrame where
  ds := word 0
  cr2 := word 1
  cr3 := word 2
  r15 := word 3
  r14 := word 4
  r13 := word 5
  r12 := word 6
  r11 := word 7
  r10 := word 8
  r9 := word 9
  r8 := word 10
  rbp := word 11
  rdi := word 12
  rsi := word 13
  rdx := word 14
  rcx := word 15
  rbx := word 16
  rax := word 17
  vector := word 18
  err := word 19
  rip := word 20
  cs := word 21
  rflags := word 22
  rsp := word 23
  ss := word 24

def IntFrame.loadFrom (mem : Memory) (a : Word) : IntFrame :=
  .ofWords fun i => mem.load (a + BitVec.ofNat 64 (8 * i))

namespace Interrupted
variable (s : Interrupted) (v : UInt8)

def pushedError : Option Word := if v ∈ errorCodeVectors then some s.errorCode else none

def delivered : Machine := s.machine.deliver s.gate (s.pushedError v)

def atHandler : Machine :=
  ((s.delivered v).run (isr v ++ intStubSave s.lastRbp)).push s.returnAddress

def argument : IntFrame := .loadFrom (s.atHandler v).mem ((s.atHandler v).rsp + 8)

/-- The frame that tells the interrupted state. -/
def frame : IntFrame where
  ds := s.machine.ds.setWidth 64
  cr2 := s.machine.cr2
  cr3 := s.machine.cr3
  r15 := s.machine.regs .r15
  r14 := s.machine.regs .r14
  r13 := s.machine.regs .r13
  r12 := s.machine.regs .r12
  r11 := s.machine.regs .r11
  r10 := s.machine.regs .r10
  r9 := s.machine.regs .r9
  r8 := s.machine.regs .r8
  rbp := s.machine.regs .rbp
  rdi := s.machine.regs .rdi
  rsi := s.machine.regs .rsi
  rdx := s.machine.regs .rdx
  rcx := s.machine.regs .rcx
  rbx := s.machine.regs .rbx
  rax := s.machine.regs .rax
  vector := immediate v
  err := (s.pushedError v).getD 0
  rip := s.machine.rip
  cs := s.machine.cs.setWidth 64
  rflags := s.machine.rflags
  rsp := s.machine.rsp
  ss := s.machine.ss.setWidth 64

end Interrupted

/-! ## What the stubs push -/

def general : List Reg :=
  [.rax, .rbx, .rcx, .rdx, .rsi, .rdi, .rbp, .r8, .r9, .r10, .r11, .r12, .r13, .r14, .r15]

def saves (m : Machine) : List Word := general.map m.regs ++ [m.cr3, m.cr2, m.ds.setWidth 64]

def isrWords (v : UInt8) : List Word :=
  if v ∈ isrErrVectors then [immediate v] else [0, immediate v]

variable {s : Interrupted} {v : UInt8} {m : Machine}

theorem run_isr (m : Machine) (v : UInt8) :
    m.run (isr v) =
      { m.pushAll (isrWords v) with rflags := m.rflags &&& ~~~((1 : Word) <<< 9) } := by
  unfold isr isrWords
  split_ifs <;> rfl

theorem pushaq_eq : pushaq = general.map .push ++
    [.movCr3 .rax, .push .rax, .movCr2 .rax, .push .rax, .movDs .rax, .push .rax] :=
  rfl

theorem run_pushaq (m : Machine) : SameStack (m.run pushaq) (m.pushAll (saves m)) := by
  have kept := pushAll_eq m (general.map m.regs)
  rw [pushaq_eq, Machine.run_append, run_push m (by decide), saves, Machine.pushAll_append]
  generalize m.pushAll (general.map m.regs) = m' at kept ⊢
  have code : m'.run [.movCr3 .rax, .push .rax, .movCr2 .rax, .push .rax, .movDs .rax, .push .rax] =
      (((((m'.setReg .rax m'.cr3).push m'.cr3).setReg .rax m'.cr2).push m'.cr2).setReg .rax
        (m'.ds.setWidth 64)).push (m'.ds.setWidth 64) :=
    rfl
  have cr3 : m'.cr3 = m.cr3 := by rw [kept]
  have cr2 : m'.cr2 = m.cr2 := by rw [kept]
  have ds : m'.ds = m.ds := by rw [kept]
  rw [code, cr3, cr2, ds]
  apply SameStack.push
  apply (sameStack_setReg _ _ (by decide)).trans
  apply SameStack.push
  apply (sameStack_setReg _ _ (by decide)).trans
  apply SameStack.push
  exact sameStack_setReg _ _ (by decide)

/-! ## The stack at the handler -/

namespace Interrupted

def opening (s : Interrupted) (v : UInt8) : List Word :=
  s.machine.interruptRecord ++ (s.pushedError v).toList ++ isrWords v

def aligned (s : Interrupted) : Machine := s.machine.setReg .rsp s.machine.stackTop

theorem length_opening (s : Interrupted) (v : UInt8) : (s.opening v).length ≤ 8 := by
  unfold opening Machine.interruptRecord pushedError isrWords
  split_ifs <;> simp

def stubbed (s : Interrupted) (v : UInt8) : Machine := (s.delivered v).run (isr v)

theorem stubbed_sameStack (s : Interrupted) (v : UInt8) :
    SameStack (s.stubbed v) (s.aligned.pushAll (s.opening v)) := by
  have delivered := deliver_sameStack s.machine s.gate (s.pushedError v)
  rw [stubbed, run_isr, opening, Machine.pushAll_append]
  exact delivered.pushAll (isrWords v)

theorem saves_congr {a b : Machine} (same : SameContext a b) : saves a = saves b := by
  have registers : general.map a.regs = general.map b.regs := by
    apply List.map_congr_left
    intro r member
    apply same.regs r
    rintro rfl
    revert member
    decide
  rw [saves, saves, registers, same.cr3, same.cr2, same.ds]

theorem stubbed_saves (s : Interrupted) (v : UInt8) : saves (s.stubbed v) = saves s.machine := by
  have delivered : SameContext (s.delivered v) s.machine := sameContext_deliver ..
  obtain ⟨regs, cr3, cr2, ds⟩ := (sameContext_pushAll (s.delivered v) (isrWords v)).trans delivered
  apply saves_congr
  rw [stubbed, run_isr]
  exact ⟨regs, cr3, cr2, ds⟩

def stored (s : Interrupted) (v : UInt8) : Machine := (s.stubbed v).step (.storeReg s.lastRbp .rbp)

theorem atHandler_sameStack (s : Interrupted) (v : UInt8) :
    SameStack (s.atHandler v) ((s.stored v).pushAll (saves s.machine ++ [s.returnAddress])) := by
  have code : s.atHandler v =
      (((s.stored v).run pushaq).step .cld).push s.returnAddress := by
    rw [atHandler, intStubSave, Machine.run_append, Machine.run]
    rw [List.foldl_cons, List.foldl_append]
    rfl
  have saved := run_pushaq (s.stored v)
  rw [show saves (s.stored v) = saves (s.stubbed v) from rfl, stubbed_saves] at saved
  have flag : SameStack (((s.stored v).run pushaq).step .cld) ((s.stored v).run pushaq) := ⟨rfl, rfl⟩
  rw [code, Machine.pushAll_append]
  exact (flag.trans saved).push _

theorem stored_rsp (s : Interrupted) (v : UInt8) :
    (s.stored v).rsp = s.machine.stackTop - BitVec.ofNat 64 (8 * (s.opening v).length) := by
  change (s.stubbed v).rsp = _
  have base : s.aligned.rsp = s.machine.stackTop := rsp_setReg ..
  rw [(stubbed_sameStack s v).2, rsp_pushAll, base]

theorem stored_words (s : Interrupted) (v : UInt8) :
    (s.stored v).mem.Words (s.stored v).rsp (s.opening v).reverse := by
  have short := length_opening s v
  have pushed := words_pushAll (Memory.words_nil s.aligned.mem s.aligned.rsp) (s.opening v)
    (by rw [List.length_nil]; omega)
  rw [List.append_nil, ← (stubbed_sameStack s v).1, ← (stubbed_sameStack s v).2] at pushed
  refine pushed.congr (fun x inside => ?_) (by rw [List.length_reverse]; omega)
  apply Memory.store_of_not_inRange
  intro overlap
  apply s.apart x overlap
  have rsp : (s.stubbed v).rsp = _ := stored_rsp s v
  rw [rsp, List.length_reverse] at inside
  exact inside.below le_rfl (by unfold stackNeed; omega) (by decide)

def frameWords (s : Interrupted) (v : UInt8) : List Word :=
  (saves s.machine).reverse ++ (s.opening v).reverse

theorem atHandler_words (s : Interrupted) (v : UInt8) :
    (s.atHandler v).mem.Words ((s.atHandler v).rsp + 8) (s.frameWords v) := by
  have short := length_opening s v
  have held := words_pushAll (stored_words s v) (saves s.machine ++ [s.returnAddress])
    (by simp [saves, general]; omega)
  rw [← (atHandler_sameStack s v).1, ← (atHandler_sameStack s v).2, List.reverse_append,
    List.reverse_singleton, List.append_assoc, List.singleton_append] at held
  exact words_tail held

end Interrupted

theorem IntFrame.ofWords_congr {f g : Nat → Word} (same : ∀ i < 25, f i = g i) :
    IntFrame.ofWords f = IntFrame.ofWords g := by
  unfold ofWords
  simp only [same, Nat.reduceLT]

theorem IntFrame.loadFrom_words {mem : Memory} {a : Word} {ws : List Word} (held : mem.Words a ws)
    (enough : 25 ≤ ws.length) : loadFrom mem a = ofWords fun i => ws.getD i 0 := by
  apply ofWords_congr
  intro i small
  rw [held i (by omega), List.getD_eq_getElem?_getD, List.getElem?_eq_getElem (by omega),
    Option.getD_some]

/-! ## The frame the handler receives -/

theorem balanced_iff (v : UInt8) :
    (v ∈ isrErrVectors ↔ v ∈ errorCodeVectors) ↔ v ≠ 21 ∧ v ≠ 29 := by
  constructor
  · intro balanced
    constructor
    · rintro rfl
      exact absurd (balanced.mpr (by decide)) (by decide)
    · rintro rfl
      exact absurd (balanced.mpr (by decide)) (by decide)
  · rintro ⟨not21, not29⟩
    simp [isrErrVectors, errorCodeVectors, not21, not29]

namespace Interrupted

theorem isrErr_subset (err : v ∈ isrErrVectors) : v ∈ errorCodeVectors := by
  simp only [isrErrVectors, errorCodeVectors, List.mem_cons] at err ⊢
  tauto

theorem length_frameWords (s : Interrupted) (v : UInt8) : 25 ≤ (s.frameWords v).length := by
  unfold frameWords opening saves general Machine.interruptRecord pushedError isrWords
  by_cases err : v ∈ isrErrVectors
  · simp [err, isrErr_subset err]
  · simp [err]

theorem argument_eq (s : Interrupted) (v : UInt8) :
    s.argument v = .ofWords fun i => (s.frameWords v).getD i 0 :=
  IntFrame.loadFrom_words (atHandler_words s v) (length_frameWords s v)

theorem frameWords_balanced (s : Interrupted) (balanced : v ∈ isrErrVectors ↔ v ∈ errorCodeVectors) :
    s.frameWords v = (saves s.machine).reverse ++ [immediate v, (s.pushedError v).getD 0] ++
      s.machine.interruptRecord.reverse := by
  unfold frameWords opening pushedError isrWords
  by_cases err : v ∈ errorCodeVectors
  · simp [err, balanced.mpr err]
  · simp [err, mt balanced.mp err]

theorem frameWords_shifted (s : Interrupted) (stub : v ∉ isrErrVectors)
    (pushed : v ∈ errorCodeVectors) :
    s.frameWords v = (saves s.machine).reverse ++ [immediate v, 0, s.errorCode] ++
      s.machine.interruptRecord.reverse := by
  unfold frameWords opening pushedError isrWords
  simp [stub, pushed]

theorem argument_shifted (s : Interrupted) (stub : v ∉ isrErrVectors)
    (pushed : v ∈ errorCodeVectors) :
    (s.argument v).rip = s.errorCode ∧ (s.argument v).cs = s.machine.rip ∧
      (s.argument v).rflags = s.machine.cs.setWidth 64 ∧ (s.argument v).err = 0 := by
  rw [argument_eq, frameWords_shifted s stub pushed]
  exact ⟨rfl, rfl, rfl, rfl⟩

theorem argument_balanced (s : Interrupted) (balanced : v ∈ isrErrVectors ↔ v ∈ errorCodeVectors) :
    s.argument v = s.frame v := by
  rw [argument_eq, frameWords_balanced s balanced]
  rfl

theorem shifted_ne (s : Interrupted) (stub : v ∉ isrErrVectors) (pushed : v ∈ errorCodeVectors) :
    s.argument v ≠ s.frame v := by
  intro same
  obtain ⟨rip, cs, rflags, err⟩ := argument_shifted s stub pushed
  rw [same] at rip cs rflags err
  -- Equal frames would pass the 0 in `err` from slot to slot up to the flags.
  have code : (s.pushedError v).getD 0 = s.errorCode := by rw [pushedError, if_pos pushed]; rfl
  have zero : s.machine.rflags = 0 := by
    calc s.machine.rflags = s.machine.cs.setWidth 64 := rflags
      _ = s.machine.rip := cs
      _ = s.errorCode := rip
      _ = 0 := code.symm.trans err
  have reserved := s.reserved
  rw [zero] at reserved
  contradiction

end Interrupted

theorem argument_faithful_iff (s : Interrupted) (v : UInt8) :
    s.argument v = s.frame v ↔ v ≠ 21 ∧ v ≠ 29 := by
  rw [← balanced_iff]
  constructor
  · intro same
    constructor
    · exact Interrupted.isrErr_subset
    · intro pushed
      by_contra stub
      exact s.shifted_ne stub pushed same
  · exact s.argument_balanced

def kernelState : Interrupted where
  machine :=
    { regs := fun r => if r = .rsp then 0x80000 else 0
      mem := fun _ => 0
      rip := 0x101000
      rflags := 0x202
      cs := 0x8
      ss := 0x10
      ds := 0x10
      cr2 := 0
      cr3 := 0x1000 }
  gate := ⟨0x102000, 0x8, true⟩
  errorCode := 3
  returnAddress := 0x103000
  lastRbp := 0x104000
  reserved := by decide
  apart := by
    intro x inside overlap
    have base : (0x80000 &&& ~~~15 : Word) - BitVec.ofNat 64 stackNeed = 0x7FF28 := by decide
    change InRange ((0x80000 &&& ~~~15 : Word) - BitVec.ofNat 64 stackNeed) stackNeed x at overlap
    rw [base] at overlap
    unfold InRange stackNeed at *
    bv_omega

theorem controlProtection_misframed :
    (kernelState.argument 21).rip = 3 ∧ kernelState.argument 21 ≠ kernelState.frame 21 :=
  ⟨(kernelState.argument_shifted (by decide) (by decide)).1,
    kernelState.shifted_ne (by decide) (by decide)⟩

/-! ## The way back -/

namespace Interrupted

/-- A run of `excp_handler`, from its first instruction to behind its return. It may leave anything
in registers and memory but what the calling convention keeps, and leaves its argument as it is. -/
structure HandlerRun (entry : Machine) where
  exit : Machine
  rsp : exit.rsp = entry.rsp + 8
  preserved : ∀ r ∈ [Reg.rbx, .rbp, .r12, .r13, .r14, .r15], exit.regs r = entry.regs r
  argument : ∀ x, InRange (entry.rsp + 8) 200 x → exit.mem x = entry.mem x

def atIretq (s : Interrupted) (v : UInt8) (handler : HandlerRun (s.atHandler v)) : Machine :=
  handler.exit.run intStubRestore

def restored : List Reg := [.rax, .rax, .rax] ++ general.reverse

theorem popaq_eq : popaq = restored.map .pop := rfl

theorem saves_reverse (m : Machine) :
    (saves m).reverse = [m.ds.setWidth 64, m.cr2, m.cr3] ++ general.reverse.map m.regs :=
  rfl

theorem mem_general {r : Reg} (other : r ≠ .rsp) : r ∈ general.reverse := by
  cases r <;> first | exact absurd rfl other | decide

theorem assign_restored (regs : Reg → Word) (m : Machine) {r : Reg} (other : r ≠ .rsp) :
    assign regs restored (saves m).reverse r = m.regs r := by
  -- The first three pops go to `rax`, which the last one overwrites.
  rw [saves_reverse, restored]
  simp only [List.cons_append, List.nil_append, assign]
  rw [assign_map, if_pos (mem_general other)]

theorem run_popaq {saved : Machine} {old : List Word}
    (held : m.mem.Words m.rsp ((saves saved).reverse ++ old)) :
    (m.run popaq).mem = m.mem ∧ (m.run popaq).rsp = m.rsp + 144 ∧
      ∀ r, r ≠ .rsp → (m.run popaq).regs r = saved.regs r := by
  have each : (saves saved).reverse.length = restored.length := rfl
  obtain ⟨mem, rsp, regs⟩ := run_pop held each (by decide)
  rw [← popaq_eq] at mem rsp regs
  refine ⟨mem, rsp, fun r other => ?_⟩
  rw [regs r other]
  exact assign_restored m.regs saved other

theorem run_intStubRestore {saved : Machine} {old : List Word}
    (held : m.mem.Words m.rsp ((saves saved).reverse ++ old)) :
    (m.run intStubRestore).mem = m.mem ∧ (m.run intStubRestore).rsp = m.rsp + 160 ∧
      ∀ r, r ≠ .rsp → (m.run intStubRestore).regs r = saved.regs r := by
  obtain ⟨mem, rsp, regs⟩ := run_popaq held
  have code : m.run intStubRestore = (m.run popaq).setReg .rsp ((m.run popaq).rsp + 16) := by
    rw [intStubRestore, Machine.run_append, run_addRsp]
  rw [code]
  refine ⟨?_, ?_, fun r other => ?_⟩
  · rw [mem_setReg, mem]
  · rw [rsp_setReg, rsp]
    bv_omega
  · rw [regs_setReg _ _ other, regs r other]

theorem exit_words (s : Interrupted) (balanced : v ∈ isrErrVectors ↔ v ∈ errorCodeVectors)
    (handler : HandlerRun (s.atHandler v)) :
    handler.exit.mem.Words handler.exit.rsp ((saves s.machine).reverse ++
      ([immediate v, (s.pushedError v).getD 0] ++ s.machine.interruptRecord.reverse)) := by
  have words := s.frameWords_balanced balanced
  have length : (s.frameWords v).length = 25 := by
    rw [words]
    rfl
  rw [← List.append_assoc, ← words, handler.rsp]
  refine (s.atHandler_words v).congr (fun x inside => handler.argument x ?_) (by omega)
  rwa [length] at inside

theorem atIretq_restores (s : Interrupted) (balanced : v ∈ isrErrVectors ↔ v ∈ errorCodeVectors)
    (handler : HandlerRun (s.atHandler v)) :
    (s.atIretq v handler).mem = handler.exit.mem ∧
      (s.atIretq v handler).rsp = (s.atHandler v).rsp + 168 ∧
      (∀ r, r ≠ .rsp → (s.atIretq v handler).regs r = s.machine.regs r) ∧
      (s.atIretq v handler).mem.Words (s.atIretq v handler).rsp
        s.machine.interruptRecord.reverse := by
  have held := s.exit_words balanced handler
  obtain ⟨mem, rsp, regs⟩ := run_intStubRestore held
  have record := held.drop.drop
  have offset : handler.exit.rsp + BitVec.ofNat 64 (8 * (saves s.machine).reverse.length) +
      BitVec.ofNat 64 (8 * [immediate v, (s.pushedError v).getD 0].length) =
        handler.exit.rsp + 160 := by
    change handler.exit.rsp + 144 + 16 = _
    bv_omega
  rw [offset] at record
  unfold atIretq
  refine ⟨mem, ?_, regs, ?_⟩
  · rw [rsp, handler.rsp]
    bv_omega
  · rw [mem, rsp]
    exact record

/-! ## What the stub writes -/

theorem atHandler_rsp (s : Interrupted) (v : UInt8) :
    (s.atHandler v).rsp =
      s.machine.stackTop - BitVec.ofNat 64 (8 * (s.opening v).length + 152) := by
  have saved : (saves s.machine ++ [s.returnAddress]).length = 19 := rfl
  rw [(atHandler_sameStack s v).2, rsp_pushAll, stored_rsp, saved, BitVec.ofNat_add]
  bv_omega

theorem atHandler_frame (s : Interrupted) (v : UInt8) {x : Word} (global : ¬ InRange s.lastRbp 8 x)
    (stack : ¬ InRange (s.machine.stackTop - BitVec.ofNat 64 stackNeed) stackNeed x) :
    (s.atHandler v).mem x = s.machine.mem x := by
  have short := length_opening s v
  have saved : (saves s.machine ++ [s.returnAddress]).length = 19 := rfl
  have below (n k : Nat) (ends : k ≤ n) (fits : n ≤ 216) :
      ¬ InRange (s.machine.stackTop - BitVec.ofNat 64 n) k x := fun inside =>
    stack (inside.below ends fits (by decide))
  calc (s.atHandler v).mem x
      = ((s.stored v).pushAll (saves s.machine ++ [s.returnAddress])).mem x := by
        rw [(atHandler_sameStack s v).1]
    _ = (s.stored v).mem x := by
        apply mem_pushAll _ _ (by rw [saved]; decide)
        have base : (s.stored v).rsp - BitVec.ofNat 64 (8 * 19) =
            s.machine.stackTop - BitVec.ofNat 64 (8 * (s.opening v).length + 152) := by
          rw [stored_rsp, BitVec.ofNat_add]
          bv_omega
        rw [saved, base]
        exact below _ _ (by omega) (by omega)
    _ = (s.stubbed v).mem x := Memory.store_of_not_inRange _ _ global
    _ = (s.aligned.pushAll (s.opening v)).mem x := by rw [(stubbed_sameStack s v).1]
    _ = s.machine.mem x := by
        apply mem_pushAll _ _ (by omega)
        rw [aligned, rsp_setReg]
        exact below _ _ le_rfl (by omega)

theorem stack_below (s : Interrupted) {x : Word}
    (inside : InRange (s.machine.stackTop - BitVec.ofNat 64 stackNeed) stackNeed x) :
    InRange (s.machine.rsp - 231) 231 x := by
  obtain ⟨d, small, top⟩ := stackTop_eq s.machine
  have base : s.machine.stackTop - BitVec.ofNat 64 stackNeed =
      s.machine.rsp - BitVec.ofNat 64 (d + stackNeed) := by
    rw [top, BitVec.ofNat_add]
    bv_omega
  rw [base] at inside
  have wide := inside.below (m := 231) (Nat.le_add_left _ _) (by unfold stackNeed; omega) (by decide)
  exact wide

/-! ## Interrupts -/

theorem irq_vectors (irq : 32 ≤ v) : v ∉ isrErrVectors ∧ v ∉ errorCodeVectors := by
  have bound : 32 ≤ v.toNat := irq
  have exceptions : ∀ u ∈ errorCodeVectors, u.toNat < 32 := by simp [errorCodeVectors]
  have noCode : v ∉ errorCodeVectors := fun member =>
    absurd (exceptions v member) (Nat.not_lt.mpr bound)
  exact ⟨mt isrErr_subset noCode, noCode⟩

theorem delivered_record (s : Interrupted) (noError : s.pushedError v = none) :
    (s.delivered v).rsp = s.machine.stackTop - 40 ∧
      (s.delivered v).mem.Words (s.delivered v).rsp s.machine.interruptRecord.reverse := by
  have same := deliver_sameStack s.machine s.gate (s.pushedError v)
  rw [noError, Option.toList_none, List.append_nil] at same
  constructor
  · rw [delivered, noError, same.2, rsp_pushAll, rsp_setReg]
    rfl
  · have pushed := words_pushAll (Memory.words_nil s.aligned.mem s.aligned.rsp)
      s.machine.interruptRecord (by change 8 * (5 + 0) ≤ 2 ^ 64; decide)
    rw [List.append_nil, aligned, ← same.1, ← same.2] at pushed
    rw [delivered, noError]
    exact pushed

theorem length_opening_irq (s : Interrupted) (irq : 32 ≤ v) : (s.opening v).length = 7 := by
  obtain ⟨stub, noCode⟩ := irq_vectors irq
  unfold opening Machine.interruptRecord pushedError isrWords
  simp [stub, noCode]

theorem atIretq_rsp (s : Interrupted) (irq : 32 ≤ v) (handler : HandlerRun (s.atHandler v)) :
    (s.atIretq v handler).rsp = s.machine.stackTop - 40 := by
  obtain ⟨stub, noCode⟩ := irq_vectors irq
  obtain ⟨-, rsp, -, -⟩ := s.atIretq_restores (iff_of_false stub noCode) handler
  rw [rsp, atHandler_rsp, length_opening_irq s irq]
  change s.machine.stackTop - 208 + 168 = _
  bv_omega

end Interrupted

theorem interrupt_transparent (s : Interrupted) (v : UInt8) (irq : 32 ≤ v)
    (handler : Interrupted.HandlerRun (s.atHandler v)) :
    (∀ r, r ≠ .rsp → (s.atIretq v handler).regs r = s.machine.regs r) ∧
      (s.atIretq v handler).rsp = (s.delivered v).rsp ∧
      (s.delivered v).mem.Words (s.delivered v).rsp s.machine.interruptRecord.reverse ∧
      (s.atIretq v handler).mem.Words (s.delivered v).rsp s.machine.interruptRecord.reverse ∧
      (s.atIretq v handler).mem = handler.exit.mem ∧
      ∀ x, ¬ InRange s.lastRbp 8 x → ¬ InRange (s.machine.rsp - 231) 231 x →
        (s.atHandler v).mem x = s.machine.mem x := by
  obtain ⟨stub, noCode⟩ := Interrupted.irq_vectors irq
  obtain ⟨mem, -, regs, record⟩ := s.atIretq_restores (iff_of_false stub noCode) handler
  obtain ⟨top, pushed⟩ := s.delivered_record (if_neg noCode)
  have same : (s.atIretq v handler).rsp = (s.delivered v).rsp := by
    rw [s.atIretq_rsp irq handler, top]
  rw [same] at record
  refine ⟨regs, same, pushed, record, mem, fun x global below => ?_⟩
  exact s.atHandler_frame v global fun inside => below (s.stack_below inside)

def returnAtOnce (entry : Machine) : Interrupted.HandlerRun entry where
  exit := entry.setReg .rsp (entry.rsp + 8)
  rsp := rsp_setReg ..
  preserved := by
    intro r member
    apply regs_setReg _ _
    rintro rfl
    revert member
    decide
  argument := fun _ _ => rfl

/-- `kernelState` with a value of its own in each register. -/
def busyState : Interrupted where
  machine := { kernelState.machine with
    regs := fun r => if r = .rsp then 0x80000 else 0x1000 + BitVec.ofNat 64 (general.idxOf r) }
  gate := kernelState.gate
  errorCode := 0
  returnAddress := kernelState.returnAddress
  lastRbp := kernelState.lastRbp
  reserved := kernelState.reserved
  apart := kernelState.apart

/-- A handler that leaves nothing as it was but what it must. -/
def clobberAll (entry : Machine) : Interrupted.HandlerRun entry where
  exit :=
    { entry with
      regs := fun r =>
        if r ∈ [Reg.rbx, .rbp, .r12, .r13, .r14, .r15] then entry.regs r
        else if r = .rsp then entry.rsp + 8
        else 0xDEAD
      mem := fun x => if InRange (entry.rsp + 8) 200 x then entry.mem x else 0xCC }
  rsp := rfl
  preserved := fun _ member => if_pos member
  argument := fun _ inside => if_pos inside

theorem interrupt_transparent_timer :
    (busyState.atIretq 0x20 (clobberAll _)).regs .rax = 0x1000 ∧
      (busyState.atIretq 0x20 (clobberAll _)).regs .rbp = 0x1006 ∧
      (busyState.atIretq 0x20 (clobberAll _)).regs .r11 = 0x100A ∧
      (busyState.atIretq 0x20 (clobberAll _)).rsp = (busyState.delivered 0x20).rsp ∧
      (busyState.atIretq 0x20 (clobberAll _)).mem.Words (busyState.delivered 0x20).rsp
        [0x101000, 0x8, 0x202, 0x80000, 0x10] := by
  obtain ⟨regs, rsp, -, record, -⟩ :=
    interrupt_transparent busyState 0x20 (by decide) (clobberAll _)
  exact ⟨regs .rax (by decide), regs .rbp (by decide), regs .r11 (by decide), rsp, record⟩

theorem interrupt_resumes (s : Interrupted) (v : UInt8) (irq : 32 ≤ v)
    (handler : Interrupted.HandlerRun (s.atHandler v)) :
    let resumed := (s.atIretq v handler).iretq
    resumed.regs = s.machine.regs ∧ resumed.rip = s.machine.rip ∧
      resumed.rflags = s.machine.rflags ∧ resumed.cs = s.machine.cs ∧ resumed.ss = s.machine.ss := by
  obtain ⟨stub, noCode⟩ := Interrupted.irq_vectors irq
  obtain ⟨-, -, regs, record⟩ := s.atIretq_restores (iff_of_false stub noCode) handler
  intro resumed
  have taken : resumed = _ := iretq_record record
  rw [taken]
  refine ⟨?_, rfl, rfl, rfl, rfl⟩
  funext r
  change update (s.atIretq v handler).regs .rsp s.machine.rsp r = s.machine.regs r
  by_cases top : r = .rsp
  · rw [top, update_self]
  · rw [update_of_ne top, regs r top]

/-! ## The handler -/

def reasons : List (List UInt8) :=
  [ ascii "Division by Zero",
    ascii "Debug",
    ascii "Non-Maskable-Interrupt",
    ascii "Breakpoint",
    ascii "Overflow",
    ascii "Bound Range Exceeded",
    ascii "Invalid opcode",
    ascii "Device (FPU) not available",
    ascii "Double Fault",
    ascii "Resereved Vector",
    ascii "Invalid TSS",
    ascii "Segment not present",
    ascii "Stack Segment Fault",
    ascii "General Protection Fault ",
    ascii "Page Fault ",
    ascii "Resereved Vector",
    ascii "x87 FP Exception",
    ascii "Alignment Check",
    ascii "Machine Check (Internal Error)",
    ascii "SIMD FP Exception",
    ascii "Virtualization Exception",
    ascii "Control  Protection Exception",
    ascii "Resereved Vector",
    ascii "Resereved Vector",
    ascii "Resereved Vector",
    ascii "Resereved Vector",
    ascii "Resereved Vector",
    ascii "Resereved Vector",
    ascii "Hypervisor Injection Exception",
    ascii "VMM Communication Exception",
    ascii "Security Exception",
    ascii "Resereved Vector" ]

def excpHandler (frame : IntFrame) : Run Unit := do
  if frame.vector < 0x20 then
    kpanic (some frame) (reasons.getD frame.vector.toNat []) (ascii "src/core/idt.cpp") 110
    hcf
  else if 0x20 ≤ frame.vector ∧ frame.vector ≤ 0x2f then
    return
  else if frame.vector = 0x80 then
    return

theorem excpHandler_outcome (frame : IntFrame) :
    Outcome (excpHandler frame) (if frame.vector < 0x20 then .error .hcf else .ok ()) := by
  unfold excpHandler
  by_cases exception : frame.vector < 0x20
  · rw [if_pos exception, if_pos exception]
    exact .bind_error (kpanic_outcome _ _ _ _)
  · rw [if_neg exception, if_neg exception]
    split_ifs <;> exact .pure ()

theorem Interrupted.argument_vector (s : Interrupted) (v : UInt8) :
    (s.argument v).vector = immediate v := by
  by_cases balanced : v ∈ isrErrVectors ↔ v ∈ errorCodeVectors
  · rw [s.argument_balanced balanced]
    rfl
  · have stub : v ∉ isrErrVectors := fun err => balanced (iff_of_true err (isrErr_subset err))
    have pushed : v ∈ errorCodeVectors := by
      by_contra noCode
      exact balanced (iff_of_false stub noCode)
    rw [s.argument_eq, s.frameWords_shifted stub pushed]
    rfl

theorem interrupt_handled (s : Interrupted) (v : UInt8) :
    Outcome (excpHandler (s.argument v)) (if v < 0x20 then .error .hcf else .ok ()) := by
  have handled := excpHandler_outcome (s.argument v)
  have vector : (s.argument v).vector < 0x20 ↔ v < 0x20 := by
    rw [s.argument_vector, immediate]
    exact ⟨fun small => by simpa [BitVec.lt_def, UInt8.lt_iff_toNat_lt] using small,
      fun small => by simpa [BitVec.lt_def, UInt8.lt_iff_toNat_lt] using small⟩
  simpa only [vector] using handled

theorem Interrupted.argument_rip (s : Interrupted) (v : UInt8) :
    (s.argument v).rip = if v = 21 ∨ v = 29 then s.errorCode else s.machine.rip := by
  split_ifs with shifted
  · rcases shifted with rfl | rfl
    · exact (s.argument_shifted (by decide) (by decide)).1
    · exact (s.argument_shifted (by decide) (by decide)).1
  · rw [s.argument_balanced ((balanced_iff v).mpr (not_or.mp shifted))]
    rfl

end Sphynx.Core
