import Mathlib.Logic.Function.Basic
import Sphynx.Lib.Memory

/-!
# A part of x86-64

The machine as far as an interrupt stub sees it: registers, memory, the delivery of an interrupt in
64-bit mode, and the instructions that save and restore registers. Code is a list of instructions;
`rip` is followed only where an interrupt is delivered and returned from.
-/

namespace Lib.X86
open Function

inductive Reg where
  | rax | rbx | rcx | rdx | rsi | rdi | rbp | rsp
  | r8 | r9 | r10 | r11 | r12 | r13 | r14 | r15
deriving DecidableEq, Repr

structure Machine where
  regs : Reg → Word
  mem : Memory
  rip : Word
  rflags : Word
  cs : BitVec 16
  ss : BitVec 16
  ds : BitVec 16
  cr2 : Word
  cr3 : Word

inductive Instr where
  | cli
  | cld
  | push (r : Reg)
  | pushImm (value : Word)
  | pop (r : Reg)
  | movCr2 (r : Reg)
  | movCr3 (r : Reg)
  | movDs (r : Reg)
  | storeReg (address : Word) (r : Reg)
  | addRsp (value : Word)
deriving DecidableEq, Repr

namespace Machine
variable (m : Machine)

abbrev rsp : Word := m.regs .rsp

def setReg (r : Reg) (w : Word) : Machine := { m with regs := update m.regs r w }

def push (w : Word) : Machine :=
  { m with regs := update m.regs .rsp (m.rsp - 8), mem := m.mem.store (m.rsp - 8) w }

def pushAll (ws : List Word) : Machine := ws.foldl push m

def step : Instr → Machine
  | .cli => { m with rflags := m.rflags &&& ~~~((1 : Word) <<< 9) }
  | .cld => { m with rflags := m.rflags &&& ~~~((1 : Word) <<< 10) }
  | .push r => m.push (m.regs r)
  | .pushImm value => m.push value
  | .pop r => { m with regs := update (update m.regs .rsp (m.rsp + 8)) r (m.mem.load m.rsp) }
  | .movCr2 r => m.setReg r m.cr2
  | .movCr3 r => m.setReg r m.cr3
  | .movDs r => m.setReg r (m.ds.setWidth 64)
  | .storeReg address r => { m with mem := m.mem.store address (m.regs r) }
  | .addRsp value => m.setReg .rsp (m.rsp + value)

def run (code : List Instr) : Machine := code.foldl step m

structure Gate where
  offset : Word
  selector : BitVec 16
  masks : Bool

def stackTop : Word := m.rsp &&& ~~~15

def interruptRecord : List Word :=
  [m.ss.setWidth 64, m.rsp, m.rflags, m.cs.setWidth 64, m.rip]

/-- The delivery of an interrupt without a change of stacks. -/
def deliver (gate : Gate) (errorCode : Option Word) : Machine :=
  let pushed := (m.setReg .rsp m.stackTop).pushAll (m.interruptRecord ++ errorCode.toList)
  { pushed with
    rip := gate.offset
    cs := gate.selector
    rflags := if gate.masks then m.rflags &&& ~~~((1 : Word) <<< 9) else m.rflags }

def iretq : Machine :=
  { m with
    regs := update m.regs .rsp (m.mem.load (m.rsp + 24))
    rip := m.mem.load m.rsp
    cs := (m.mem.load (m.rsp + 8)).setWidth 16
    rflags := m.mem.load (m.rsp + 16)
    ss := (m.mem.load (m.rsp + 32)).setWidth 16 }

end Machine

/-! ## Pushing -/

open Machine

variable {m : Machine} {ws old : List Word} {rs : List Reg} {r : Reg} {w x : Word}

@[simp]
theorem rsp_push (m : Machine) (w : Word) : (m.push w).rsp = m.rsp - 8 := by
  simp [rsp, push]

@[simp]
theorem regs_push (m : Machine) (w : Word) (other : r ≠ .rsp) : (m.push w).regs r = m.regs r := by
  simp [push, other]

@[simp]
theorem mem_push (m : Machine) (w : Word) : (m.push w).mem = m.mem.store (m.rsp - 8) w := rfl

theorem pushAll_cons (m : Machine) (w : Word) (ws : List Word) :
    m.pushAll (w :: ws) = (m.push w).pushAll ws :=
  rfl

theorem Machine.pushAll_append (m : Machine) (ws vs : List Word) :
    m.pushAll (ws ++ vs) = (m.pushAll ws).pushAll vs :=
  List.foldl_append

theorem Machine.run_append (m : Machine) (code code' : List Instr) :
    m.run (code ++ code') = (m.run code).run code' :=
  List.foldl_append

theorem regs_pushAll (m : Machine) (ws : List Word) (other : r ≠ .rsp) :
    (m.pushAll ws).regs r = m.regs r := by
  induction ws generalizing m with
  | nil => rfl
  | cons w ws ih => rw [pushAll_cons, ih, regs_push m w other]

theorem rsp_pushAll (m : Machine) (ws : List Word) :
    (m.pushAll ws).rsp = m.rsp - BitVec.ofNat 64 (8 * ws.length) := by
  induction ws generalizing m with
  | nil => simp [pushAll]
  | cons w ws ih =>
      rw [pushAll_cons, ih, rsp_push, List.length_cons, Nat.mul_add, BitVec.ofNat_add]
      bv_omega

theorem pushAll_eq (m : Machine) (ws : List Word) :
    m.pushAll ws = { m with regs := (m.pushAll ws).regs, mem := (m.pushAll ws).mem } := by
  induction ws generalizing m with
  | nil => rfl
  | cons w ws ih =>
      rw [pushAll_cons, ih]
      rfl

@[simp]
theorem rsp_setReg (m : Machine) (w : Word) : (m.setReg .rsp w).rsp = w := by
  simp [rsp, setReg]

@[simp]
theorem mem_setReg (m : Machine) (r : Reg) (w : Word) : (m.setReg r w).mem = m.mem := rfl

theorem run_addRsp (m : Machine) (value : Word) :
    m.run [.addRsp value] = m.setReg .rsp (m.rsp + value) :=
  rfl

theorem regs_setReg (m : Machine) {q r : Reg} (w : Word) (other : q ≠ r) :
    (m.setReg r w).regs q = m.regs q := by
  simp [setReg, other]

/-- Two machines with the same stack pointer and memory. -/
def SameStack (a b : Machine) : Prop := a.mem = b.mem ∧ a.rsp = b.rsp

theorem SameStack.trans {a b c : Machine} (h : SameStack a b) (h' : SameStack b c) :
    SameStack a c :=
  ⟨h.1.trans h'.1, h.2.trans h'.2⟩

theorem SameStack.push {a b : Machine} (h : SameStack a b) (w : Word) :
    SameStack (a.push w) (b.push w) := by
  obtain ⟨mem, rsp⟩ := h
  constructor
  · rw [mem_push, mem_push, mem, rsp]
  · rw [rsp_push, rsp_push, rsp]

theorem SameStack.pushAll {a b : Machine} (h : SameStack a b) (ws : List Word) :
    SameStack (a.pushAll ws) (b.pushAll ws) := by
  induction ws generalizing a b with
  | nil => exact h
  | cons w ws ih => exact ih (h.push w)

theorem sameStack_setReg (m : Machine) (w : Word) (other : r ≠ .rsp) :
    SameStack (m.setReg r w) m :=
  ⟨rfl, update_of_ne other.symm ..⟩

theorem stackTop_eq (m : Machine) : ∃ d ≤ 15, m.stackTop = m.rsp - BitVec.ofNat 64 d := by
  have apart : (m.rsp &&& ~~~15) &&& (m.rsp &&& 15) = 0 := by
    ext i h
    simp only [BitVec.getElem_and, BitVec.getElem_not]
    cases m.rsp[i] <;> simp
  have whole : (m.rsp &&& ~~~15) ||| (m.rsp &&& 15) = m.rsp := by
    ext i h
    simp only [BitVec.getElem_and, BitVec.getElem_or, BitVec.getElem_not]
    cases m.rsp[i] <;> simp
  have sum := BitVec.add_eq_or_of_and_eq_zero _ _ apart
  rw [whole] at sum
  refine ⟨(m.rsp &&& 15).toNat, ?_, ?_⟩
  · rw [BitVec.toNat_and]
    exact Nat.and_le_right
  · rw [BitVec.ofNat_toNat, BitVec.setWidth_eq]
    unfold Machine.stackTop
    generalize m.rsp &&& 15 = d at sum ⊢
    generalize m.rsp &&& ~~~15 = t at sum ⊢
    rw [← sum]
    bv_omega

theorem deliver_sameStack (m : Machine) (gate : Gate) (errorCode : Option Word) :
    SameStack (m.deliver gate errorCode)
      ((m.setReg .rsp m.stackTop).pushAll (m.interruptRecord ++ errorCode.toList)) := by
  unfold deliver
  exact ⟨rfl, rfl⟩

/-- Two machines that agree in what an interrupt stub has to save. -/
structure SameContext (a b : Machine) : Prop where
  regs : ∀ r, r ≠ .rsp → a.regs r = b.regs r
  cr3 : a.cr3 = b.cr3
  cr2 : a.cr2 = b.cr2
  ds : a.ds = b.ds

theorem SameContext.trans {a b c : Machine} (h : SameContext a b) (h' : SameContext b c) :
    SameContext a c where
  regs r other := (h.regs r other).trans (h'.regs r other)
  cr3 := h.cr3.trans h'.cr3
  cr2 := h.cr2.trans h'.cr2
  ds := h.ds.trans h'.ds

theorem sameContext_pushAll (m : Machine) (ws : List Word) : SameContext (m.pushAll ws) m where
  regs _ other := regs_pushAll m ws other
  cr3 := by rw [pushAll_eq]
  cr2 := by rw [pushAll_eq]
  ds := by rw [pushAll_eq]

theorem sameContext_deliver (m : Machine) (gate : Gate) (errorCode : Option Word) :
    SameContext (m.deliver gate errorCode) m := by
  have aligned : SameContext (m.setReg .rsp m.stackTop) m :=
    ⟨fun _ other => update_of_ne other .., rfl, rfl, rfl⟩
  have pushed := (sameContext_pushAll (m.setReg .rsp m.stackTop)
    (m.interruptRecord ++ errorCode.toList)).trans aligned
  unfold deliver
  generalize (m.setReg .rsp m.stackTop).pushAll (m.interruptRecord ++ errorCode.toList) = m'
    at pushed ⊢
  exact ⟨pushed.regs, pushed.cr3, pushed.cr2, pushed.ds⟩

theorem words_pushAll (held : m.mem.Words m.rsp old) (ws : List Word)
    (fits : 8 * (ws.length + old.length) ≤ 2 ^ 64) :
    (m.pushAll ws).mem.Words (m.pushAll ws).rsp (ws.reverse ++ old) := by
  induction ws generalizing m old with
  | nil => exact held
  | cons w ws ih =>
      rw [List.length_cons] at fits
      have pushed := held.push (by omega) w
      rw [pushAll_cons, List.reverse_cons, List.append_assoc]
      refine ih ?_ (by rw [List.length_append, List.length_singleton]; omega)
      rw [rsp_push]
      exact pushed

theorem mem_pushAll (m : Machine) (ws : List Word) (fits : 8 * ws.length ≤ 2 ^ 64)
    (outside : ¬ InRange (m.rsp - BitVec.ofNat 64 (8 * ws.length)) (8 * ws.length) x) :
    (m.pushAll ws).mem x = m.mem x := by
  induction ws generalizing m with
  | nil => rfl
  | cons w ws ih =>
      rw [List.length_cons] at fits outside
      unfold InRange at outside
      have apart : 8 * ws.length + 8 ≤
          (x - (m.rsp - BitVec.ofNat 64 (8 * (ws.length + 1)))).toNat := by omega
      rw [pushAll_cons, ih (m.push w) (by omega)]
      · apply Memory.store_of_not_inRange
        have split : x - (m.rsp - BitVec.ofNat 64 (8 * (ws.length + 1))) =
            BitVec.ofNat 64 (8 * ws.length) + (x - (m.rsp - 8)) := by
          rw [Nat.mul_add, BitVec.ofNat_add]
          bv_omega
        rw [split, BitVec.toNat_add, BitVec.toNat_ofNat] at apart
        unfold InRange
        omega
      · have same : m.rsp - 8 - BitVec.ofNat 64 (8 * ws.length) =
            m.rsp - BitVec.ofNat 64 (8 * (ws.length + 1)) := by
          rw [Nat.mul_add, BitVec.ofNat_add]
          bv_omega
        rw [rsp_push, same]
        unfold InRange
        omega

theorem run_push (m : Machine) (apart : .rsp ∉ rs) :
    m.run (rs.map .push) = m.pushAll (rs.map m.regs) := by
  induction rs generalizing m with
  | nil => rfl
  | cons r rs ih =>
      rw [List.mem_cons, not_or] at apart
      have kept : rs.map (m.push (m.regs r)).regs = rs.map m.regs := by
        apply List.map_congr_left
        intro s member
        apply regs_push m _
        rintro rfl
        exact apart.2 member
      rw [List.map_cons, List.map_cons, pushAll_cons, ← kept, ← ih _ apart.2]
      rfl

/-! ## Popping -/

def assign (regs : Reg → Word) : List Reg → List Word → Reg → Word
  | r :: rs, w :: ws => assign (update regs r w) rs ws
  | _, _ => regs

theorem assign_congr {regs regs' : Reg → Word} (same : regs r = regs' r) (rs : List Reg)
    (ws : List Word) : assign regs rs ws r = assign regs' rs ws r := by
  induction rs generalizing regs regs' ws with
  | nil => exact same
  | cons s rs ih =>
      cases ws with
      | nil => exact same
      | cons w ws =>
          apply ih
          by_cases here : r = s
          · rw [here, update_self, update_self]
          · rw [update_of_ne here, update_of_ne here, same]

theorem assign_map (regs values : Reg → Word) (rs : List Reg) (r : Reg) :
    assign regs rs (rs.map values) r = if r ∈ rs then values r else regs r := by
  induction rs generalizing regs with
  | nil => simp [assign]
  | cons s rs ih =>
      rw [List.map_cons, assign, ih]
      by_cases here : r = s
      · simp [here]
      · simp [here]

theorem words_head (held : m.mem.Words x (w :: ws)) : m.mem.load x = w := by
  have first : m.mem.load (x + BitVec.ofNat 64 (8 * 0)) = w := held 0 (by simp)
  rwa [Nat.mul_zero, BitVec.add_zero] at first

theorem words_tail (held : m.mem.Words x (w :: ws)) : m.mem.Words (x + 8) ws := by
  intro i inside
  have next := held (i + 1) (by simpa using inside)
  rw [Nat.mul_add, BitVec.ofNat_add, List.getElem_cons_succ] at next
  rw [← next]
  congr 1
  bv_omega

theorem step_pop (r : Reg) (value : m.mem.load m.rsp = w) (apart : r ≠ .rsp) :
    (m.step (.pop r)).mem = m.mem ∧ (m.step (.pop r)).rsp = m.rsp + 8 ∧
      ∀ q, q ≠ .rsp → (m.step (.pop r)).regs q = update m.regs r w q := by
  refine ⟨rfl, ?_, fun q other => ?_⟩
  · simp [step, rsp, apart.symm]
  · by_cases here : q = r
    · simp [step, here, value]
    · simp [step, here, other]

theorem run_pop (held : m.mem.Words m.rsp (ws ++ old)) (length : ws.length = rs.length)
    (apart : .rsp ∉ rs) :
    (m.run (rs.map .pop)).mem = m.mem ∧
      (m.run (rs.map .pop)).rsp = m.rsp + BitVec.ofNat 64 (8 * rs.length) ∧
      ∀ q, q ≠ .rsp → (m.run (rs.map .pop)).regs q = assign m.regs rs ws q := by
  induction rs generalizing m ws with
  | nil =>
      obtain rfl : ws = [] := List.length_eq_zero_iff.mp length
      simp [run, assign]
  | cons r rs ih =>
      cases ws with
      | nil => cases length
      | cons w ws =>
          rw [List.mem_cons, not_or] at apart
          obtain ⟨mem, moved, regs⟩ := step_pop r (words_head held) (Ne.symm apart.1)
          have rest : (m.step (.pop r)).mem.Words (m.step (.pop r)).rsp (ws ++ old) := by
            rw [moved, mem]
            exact words_tail held
          obtain ⟨mem', moved', regs'⟩ := ih rest (by simpa using length) apart.2
          refine ⟨mem'.trans mem, ?_, fun q other => ?_⟩
          · change ((m.step (.pop r)).run (rs.map .pop)).rsp = _
            rw [moved', moved, List.length_cons, Nat.mul_add, BitVec.ofNat_add]
            bv_omega
          · change ((m.step (.pop r)).run (rs.map .pop)).regs q = _
            rw [regs' q other]
            exact assign_congr (regs q other) rs ws

theorem iretq_record {interrupted : Machine}
    (held : m.mem.Words m.rsp interrupted.interruptRecord.reverse) :
    m.iretq =
      { m with
        regs := update m.regs .rsp interrupted.rsp
        rip := interrupted.rip
        cs := interrupted.cs
        rflags := interrupted.rflags
        ss := interrupted.ss } := by
  have rip : m.mem.load m.rsp = interrupted.rip := words_head held
  have cs : m.mem.load (m.rsp + 8) = interrupted.cs.setWidth 64 := held 1 (by simp [interruptRecord])
  have rflags : m.mem.load (m.rsp + 16) = interrupted.rflags := held 2 (by simp [interruptRecord])
  have rsp : m.mem.load (m.rsp + 24) = interrupted.rsp := held 3 (by simp [interruptRecord])
  have ss : m.mem.load (m.rsp + 32) = interrupted.ss.setWidth 64 :=
    held 4 (by simp [interruptRecord])
  have selector (b : BitVec 16) : (b.setWidth 64).setWidth 16 = b := by
    rw [BitVec.setWidth_setWidth_of_le _ (by decide), BitVec.setWidth_eq]
  rw [iretq, rip, cs, rflags, rsp, ss, selector, selector]

end Lib.X86
