import Sphynx.Lib.X86

/-!
# Segments in 64-bit mode

The global descriptor table as the processor reads it from memory, and the instructions that load
it and its segments, with the checks they make. Every memory access succeeds, and there is no local
table. Where control would go to another ring or stack it is not followed: `otherStack`.
-/

namespace Lib

/-! ## Half words -/

namespace Memory

/-- Words stored one behind the other. -/
def storeWords (mem : Memory) (base : Word) : List Word → Memory
  | [] => mem
  | w :: ws => storeWords (mem.store base w) (base + 8) ws

def load16 (mem : Memory) (a : Word) : BitVec 16 := mem.byte a 1 ++ mem.byte a 0

def store16 (mem : Memory) (a : Word) (w : BitVec 16) : Memory := fun x =>
  if InRange a 2 x then w.extractLsb' (8 * (x - a).toNat) 8 else mem x

variable {mem mem' : Memory} {a b base w x : Word} {i n : Nat} {ws : List Word}

theorem load16_congr (same : ∀ x, InRange a 2 x → mem x = mem' x) : load16 mem a = load16 mem' a := by
  have byte (i : Nat) (h : i < 2) : mem.byte a i = mem'.byte a i := by
    apply same _
    rw [InRange, sub_toNat_of_lt a (by omega)]
    exact h
  unfold load16
  rw [byte 1 (by decide), byte 0 (by decide)]

theorem load16_store16 (mem : Memory) (a : Word) (w : BitVec 16) :
    load16 (store16 mem a w) a = w := by
  have byte (i : Nat) (h : i < 2) : (store16 mem a w).byte a i = w.extractLsb' (8 * i) 8 := by
    have offset := sub_toNat_of_lt a (n := i) (by omega)
    have inside : InRange a 2 (a + BitVec.ofNat 64 i) := by
      rw [InRange, offset]
      exact h
    rw [Memory.byte, store16, if_pos inside, offset]
  unfold load16
  rw [byte 1 (by decide), byte 0 (by decide),
    BitVec.extractLsb'_append_extractLsb'_eq_extractLsb' (by decide)]
  exact BitVec.extractLsb'_eq_self

theorem store16_of_not_inRange (mem : Memory) (w : BitVec 16) (outside : ¬ InRange a 2 x) :
    store16 mem a w x = mem x :=
  if_neg outside

theorem storeWords_frame (fits : 8 * ws.length ≤ 2 ^ 64)
    (outside : ¬ InRange base (8 * ws.length) x) : mem.storeWords base ws x = mem x := by
  induction ws generalizing mem base with
  | nil => rfl
  | cons w ws ih =>
      rw [List.length_cons] at fits outside
      unfold InRange at outside
      have far : (x - (base + 8)).toNat = (x - base).toNat - 8 := by bv_omega
      rw [storeWords, ih (by omega) (by unfold InRange; omega)]
      apply store_of_not_inRange
      unfold InRange
      omega

theorem storeWords_words (fits : 8 * ws.length ≤ 2 ^ 64) : (mem.storeWords base ws).Words base ws := by
  induction ws generalizing mem base with
  | nil => exact words_nil mem base
  | cons w ws ih =>
      rw [List.length_cons] at fits
      intro i inside
      cases i with
      | zero =>
          rw [Nat.mul_zero, BitVec.add_zero, List.getElem_cons_zero]
          refine (load_congr fun x near => ?_).trans (load_store mem base w)
          rw [storeWords]
          refine storeWords_frame (by omega) ?_
          unfold InRange at near ⊢
          bv_omega
      | succ i =>
          have next : base + BitVec.ofNat 64 (8 * (i + 1)) = base + 8 + BitVec.ofNat 64 (8 * i) := by
            rw [Nat.mul_add, BitVec.ofNat_add]
            bv_omega
          rw [next, List.getElem_cons_succ]
          exact ih (by omega) i (by simpa using inside)

theorem Words.store (held : Words mem base ws) (fits : 8 * ws.length ≤ 2 ^ 64)
    (inside : i < ws.length) (w : Word) :
    Words (store mem (base + BitVec.ofNat 64 (8 * i)) w) base (ws.set i w) := by
  intro j within
  rw [List.length_set] at within
  by_cases here : i = j
  · subst here
    rw [load_store, List.getElem_set_self]
  · rw [List.getElem_set_ne here, ← held j within]
    apply load_congr
    intro x near
    apply store_of_not_inRange
    unfold InRange at near ⊢
    have apart : x - (base + BitVec.ofNat 64 (8 * i)) =
        x - (base + BitVec.ofNat 64 (8 * j)) +
          (BitVec.ofNat 64 (8 * j) - BitVec.ofNat 64 (8 * i)) := by bv_omega
    rw [apart]
    generalize x - (base + BitVec.ofNat 64 (8 * j)) = y at near ⊢
    rw [BitVec.toNat_add, BitVec.toNat_sub, BitVec.toNat_ofNat, BitVec.toNat_ofNat,
      Nat.mod_eq_of_lt (by omega : 8 * i < 2 ^ 64), Nat.mod_eq_of_lt (by omega : 8 * j < 2 ^ 64)]
    omega

end Memory

namespace X86

/-! ## Descriptors and selectors -/

def Canonical (w : Word) : Prop := w = (w.setWidth 48).signExtend 64

instance (w : Word) : Decidable (Canonical w) := inferInstanceAs (Decidable (_ = _))

abbrev Selector := BitVec 16

namespace Selector

def rpl (s : Selector) : BitVec 2 := s.setWidth 2

def isLocal (s : Selector) : Bool := s.getLsbD 2

def index (s : Selector) : Nat := (s >>> 3).toNat

def isNull (s : Selector) : Prop := s >>> 2 = 0

instance (s : Selector) : Decidable s.isNull := inferInstanceAs (Decidable (_ = _))

end Selector

/-- The eight bytes of a segment descriptor, as a word. -/
abbrev Descriptor := Word

namespace Descriptor
variable (d : Descriptor)

def accessed : Descriptor := d ||| (1 : Word) <<< 40
def readWrite : Bool := d.getLsbD 41
def conforming : Bool := d.getLsbD 42
def executable : Bool := d.getLsbD 43
def isSegment : Bool := d.getLsbD 44
def dpl : BitVec 2 := d.extractLsb' 45 2
def present : Bool := d.getLsbD 47
def long : Bool := d.getLsbD 53
def default32 : Bool := d.getLsbD 54

end Descriptor

inductive SegmentFault where
  | generalProtection (selector : Selector)
  | notPresent (selector : Selector)
  | stackSegment (selector : Selector)
  | otherStack
deriving DecidableEq, Repr

structure TableRegister where
  limit : BitVec 16
  base : Word
deriving DecidableEq

/-- A machine with the registers that segments are found by. -/
structure Processor where
  machine : Machine
  gdtr : TableRegister
  es : Selector

inductive SegmentReg where
  | es
  | ss
  | ds
deriving DecidableEq, Repr

inductive SegmentInstr where
  | mov (r : Reg) (value : Word)
  | mov16 (r : Reg) (value : BitVec 16)
  | push (r : Reg)
  | pushImm (value : Word)
  | lgdt (address : Reg)
  | lretq
  | movSegment (segment : SegmentReg) (r : Reg)
deriving DecidableEq, Repr

namespace Processor
variable (p : Processor)

def cpl : BitVec 2 := Selector.rpl p.machine.cs

def slot (s : Selector) : Word := p.gdtr.base + BitVec.ofNat 64 (8 * s.index)

def descriptor (s : Selector) : Except SegmentFault Descriptor :=
  if s.isLocal ∨ p.gdtr.limit.toNat < 8 * s.index + 7 then .error (.generalProtection s)
  else .ok (p.machine.mem.load (p.slot s))

/-- The code segment that control may go to, in the ring it comes from; `inner` is what comes of a
segment of an inner ring. -/
def codeSegment (s : Selector) (inner : SegmentFault) : Except SegmentFault Descriptor := do
  if s.isNull then throw (.generalProtection 0)
  let d ← p.descriptor s
  if ¬ (d.isSegment ∧ d.executable) then throw (.generalProtection s)
  if p.cpl < d.dpl then throw (.generalProtection s)
  if ¬ d.conforming ∧ d.dpl ≠ p.cpl then throw inner
  if ¬ d.present then throw (.notPresent s)
  if ¬ (d.long ∧ ¬ d.default32) then throw (.generalProtection s)
  return d

def dataSegment (s : Selector) : Except SegmentFault (Option Descriptor) := do
  if s.isNull then return none
  let d ← p.descriptor s
  if ¬ (d.isSegment ∧ (d.executable → d.readWrite)) then throw (.generalProtection s)
  if ¬ (d.executable ∧ d.conforming) ∧ (d.dpl < s.rpl ∨ d.dpl < p.cpl) then
    throw (.generalProtection s)
  if ¬ d.present then throw (.notPresent s)
  return some d

def stackSegment (s : Selector) : Except SegmentFault (Option Descriptor) := do
  if s.isNull then
    if p.cpl < 3 ∧ s.rpl = p.cpl then return none else throw (.generalProtection 0)
  let d ← p.descriptor s
  if s.rpl ≠ p.cpl then throw (.generalProtection s)
  if ¬ (d.isSegment ∧ ¬ d.executable ∧ d.readWrite) then throw (.generalProtection s)
  if d.dpl ≠ p.cpl then throw (.generalProtection s)
  if ¬ d.present then throw (.stackSegment s)
  return some d

def withMem (mem : Memory) : Processor := { p with machine := { p.machine with mem := mem } }

/-- Loading a segment sets the accessed bit of its descriptor. -/
def access (s : Selector) : Option Descriptor → Processor
  | none => p
  | some d => p.withMem (p.machine.mem.store (p.slot s) d.accessed)

def setSegment (segment : SegmentReg) (s : Selector) : Processor :=
  match segment with
  | .es => { p with es := s }
  | .ss => { p with machine := { p.machine with ss := s } }
  | .ds => { p with machine := { p.machine with ds := s } }

def checkSegment (segment : SegmentReg) (s : Selector) : Except SegmentFault (Option Descriptor) :=
  match segment with
  | .ss => p.stackSegment s
  | .es | .ds => p.dataSegment s

def lgdt (address : Word) : Except SegmentFault Processor :=
  let base := p.machine.mem.load (address + 2)
  if p.cpl ≠ 0 ∨ ¬ Canonical base then .error (.generalProtection 0)
  else .ok { p with gdtr := ⟨p.machine.mem.load16 address, base⟩ }

def lretq : Except SegmentFault Processor := do
  let rip := p.machine.mem.load p.machine.rsp
  let s : Selector := (p.machine.mem.load (p.machine.rsp + 8)).setWidth 16
  if s.rpl ≠ p.cpl then throw .otherStack
  let d ← p.codeSegment s (.generalProtection s)
  if ¬ Canonical rip then throw (.generalProtection 0)
  let q := p.access s (some d)
  return { q with machine :=
    { q.machine.setReg .rsp (p.machine.rsp + 16) with rip := rip, cs := s } }

def step : SegmentInstr → Except SegmentFault Processor
  | .mov r value => .ok { p with machine := p.machine.setReg r value }
  | .mov16 r value =>
      .ok { p with machine :=
        p.machine.setReg r ((p.machine.regs r).extractLsb' 16 48 ++ value) }
  | .push r => .ok { p with machine := p.machine.push (p.machine.regs r) }
  | .pushImm value => .ok { p with machine := p.machine.push value }
  | .lgdt address => p.lgdt (p.machine.regs address)
  | .lretq => p.lretq
  | .movSegment segment r => do
      let s : Selector := (p.machine.regs r).setWidth 16
      let d ← p.checkSegment segment s
      return (p.access s d).setSegment segment s

def run (code : List SegmentInstr) : Except SegmentFault Processor := code.foldlM step p

end Processor

/-- A processor with the register that interrupts are found by. -/
structure Cpu extends Processor where
  idtr : TableRegister

namespace Cpu
variable (c : Cpu)

def withMem (mem : Memory) : Cpu := { c with toProcessor := c.toProcessor.withMem mem }

def lidt (address : Word) : Except SegmentFault Cpu :=
  let base := c.machine.mem.load (address + 2)
  if c.cpl ≠ 0 ∨ ¬ Canonical base then .error (.generalProtection 0)
  else .ok { c with idtr := ⟨c.machine.mem.load16 address, base⟩ }

end Cpu

/-! ## Segments of one ring -/

structure Descriptor.IsCode (d : Descriptor) (ring : BitVec 2) : Prop where
  isSegment : d.isSegment = true
  executable : d.executable = true
  dpl : d.dpl = ring
  present : d.present = true
  long : d.long = true
  default32 : d.default32 = false

structure Descriptor.IsData (d : Descriptor) (ring : BitVec 2) : Prop where
  isSegment : d.isSegment = true
  executable : d.executable = false
  readWrite : d.readWrite = true
  dpl : d.dpl = ring
  present : d.present = true

/-! ## Loading from a table -/

variable {p q : Processor} {s : Selector} {ds : List Descriptor} {d : Descriptor}
  {code code' : List SegmentInstr} {x : Word}

namespace Processor

theorem run_cons {i : SegmentInstr} (first : p.step i = .ok q) :
    p.run (i :: code) = q.run code := by
  rw [run, List.foldlM_cons, first]
  rfl

theorem run_append (first : p.run code = .ok q) : p.run (code ++ code') = q.run code' := by
  unfold run at first ⊢
  rw [List.foldlM_append, first]
  rfl

theorem descriptor_of_words (held : p.machine.mem.Words p.gdtr.base ds)
    (global : s.isLocal = false) (inside : s.index < ds.length)
    (limit : 8 * s.index + 7 ≤ p.gdtr.limit.toNat) : p.descriptor s = .ok ds[s.index] := by
  unfold descriptor
  rw [if_neg (by rw [global]; simp; omega), slot, held s.index inside]

theorem codeSegment_eq (nonnull : ¬ s.isNull) (found : p.descriptor s = .ok d)
    (kind : d.IsCode p.cpl) (inner : SegmentFault) : p.codeSegment s inner = .ok d := by
  have ring : ¬ p.cpl < p.cpl := by bv_omega
  simp [codeSegment, nonnull, found, kind.isSegment, kind.executable, kind.dpl, kind.present,
    kind.long, kind.default32, ring, bind, Except.bind, pure, Except.pure]

theorem checkSegment_eq (nonnull : ¬ s.isNull) (found : p.descriptor s = .ok d)
    (kind : d.IsData p.cpl) (ring : s.rpl = p.cpl) (segment : SegmentReg) :
    p.checkSegment segment s = .ok (some d) := by
  have own : ¬ p.cpl < p.cpl := by bv_omega
  cases segment <;>
    simp [checkSegment, stackSegment, dataSegment, nonnull, found, kind.isSegment, kind.executable,
      kind.dpl, kind.present, kind.readWrite, ring, own, bind, Except.bind, pure, Except.pure]

theorem step_movSegment {segment : SegmentReg} {r : Reg} (value : (p.machine.regs r).setWidth 16 = s)
    (checked : p.checkSegment segment s = .ok (some d)) :
    p.step (.movSegment segment r) = .ok ((p.access s (some d)).setSegment segment s) := by
  simp only [step, value, checked, bind, Except.bind, pure, Except.pure]

theorem step_lgdt {r : Reg} {limit : BitVec 16} {base : Word}
    (size : p.machine.mem.load16 (p.machine.regs r) = limit)
    (offset : p.machine.mem.load (p.machine.regs r + 2) = base) (ring : p.cpl = 0)
    (canonical : Canonical base) : p.step (.lgdt r) = .ok { p with gdtr := ⟨limit, base⟩ } := by
  simp only [step, lgdt, size, offset, ring, canonical, ne_eq, not_true_eq_false, or_self, if_false]

theorem step_lretq {rip : Word} (target : p.machine.mem.load p.machine.rsp = rip)
    (selector : (p.machine.mem.load (p.machine.rsp + 8)).setWidth 16 = s) (ring : s.rpl = p.cpl)
    (canonical : Canonical rip)
    (segment : p.codeSegment s (.generalProtection s) = .ok d) :
    p.step .lretq = .ok { p.access s (some d) with machine :=
      { (p.access s (some d)).machine.setReg .rsp (p.machine.rsp + 16) with rip := rip, cs := s } } := by
  simp only [step, lretq, target, selector, ring, canonical, segment, ne_eq, not_true_eq_false,
    if_false, bind, Except.bind, pure, Except.pure]

theorem access_words (held : p.machine.mem.Words p.gdtr.base ds) (fits : 8 * ds.length ≤ 2 ^ 64)
    (inside : s.index < ds.length) (d : Descriptor) :
    (p.access s (some d)).machine.mem.Words p.gdtr.base (ds.set s.index d.accessed) :=
  held.store fits inside d.accessed

theorem access_frame {n : Nat} (s : Selector) (d : Option Descriptor) (fits : 8 * n ≤ 2 ^ 64)
    (inside : s.index < n) (outside : ¬ InRange p.gdtr.base (8 * n) x) :
    (p.access s d).machine.mem x = p.machine.mem x := by
  cases d with
  | none => rfl
  | some d =>
      apply Memory.store_of_not_inRange
      intro within
      apply outside
      unfold InRange slot at *
      have split : x - p.gdtr.base =
          BitVec.ofNat 64 (8 * s.index) + (x - (p.gdtr.base + BitVec.ofNat 64 (8 * s.index))) := by
        bv_omega
      rw [split, BitVec.toNat_add, BitVec.toNat_ofNat,
        Nat.mod_eq_of_lt (by omega : 8 * s.index < 2 ^ 64), Nat.mod_eq_of_lt (by omega)]
      omega

end Processor

end X86

end Lib
