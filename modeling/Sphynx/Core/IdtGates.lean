import Mathlib.Algebra.Group.Nat.Defs
import Sphynx.Core.Idt
import Sphynx.Lib.LastWrite

/-!
# What the gates decode to (`idt.cpp`)

The processor puts the handler's address together from the three offset fields and reads presence,
privilege and type off the flags byte. `set_gate` splits the one and packs the other.
-/

namespace Sphynx.Core
open Lib

/-! ## A gate as the processor reads it -/

namespace IdtEntry

def offset (gate : IdtEntry) : Nat :=
  gate.offsetLow.toNat + gate.offsetMiddle.toNat * 2 ^ 16 + gate.offsetHigh.toNat * 2 ^ 32

def present (gate : IdtEntry) : Bool := gate.flags >>> 7 = 1

def dpl (gate : IdtEntry) : UInt8 := gate.flags >>> 5 &&& 3

end IdtEntry

inductive GateType where
  | interrupt
  | trap
deriving DecidableEq, Repr

/-- The type of a 64-bit gate, from the low five bits of its flags. -/
def IdtEntry.gateType (gate : IdtEntry) : Option GateType :=
  if gate.flags &&& 0x1F = 0xE then some .interrupt
  else if gate.flags &&& 0x1F = 0xF then some .trap
  else none

/-! ## Calls of `set_gate` -/

structure GateCall where
  interrupt : UInt8
  base : UInt64
  flags : Int8
deriving DecidableEq, Repr

namespace GateCall

def program (call : GateCall) : List Instruction := setGate call.interrupt call.base call.flags

def entry (call : GateCall) : IdtEntry where
  offsetLow := (call.base &&& 0xFFFF).toUInt16
  selector := 0x8
  ist := 0
  flags := call.flags.toUInt8
  offsetMiddle := ((call.base >>> 16) &&& 0xFFFF).toUInt16
  offsetHigh := ((call.base >>> 32) &&& 0xFFFFFFFF).toUInt32
  zero := 0

def written (call : GateCall) (v : UInt8) : Option IdtEntry :=
  if call.interrupt = v then some call.entry else none

end GateCall

variable {s : InterruptState} {call : GateCall} {calls : List GateCall} {v : UInt8}

theorem GateCall.run_idt (call : GateCall) (s : InterruptState) (v : UInt8) :
    (s.run call.program).idt v = (call.written v).getD (s.idt v) := by
  by_cases here : v = call.interrupt
  · subst here
    simp [GateCall.program, setGate, InterruptState.run, InterruptState.step, GateField.assign,
      GateCall.written, GateCall.entry]
  · simp [GateCall.program, setGate, InterruptState.run, InterruptState.step, GateCall.written, here,
      Ne.symm here]

theorem run_calls_idt (calls : List GateCall) (s : InterruptState) (v : UInt8) :
    (s.run (calls.flatMap GateCall.program)).idt v =
      (lastWrite GateCall.written calls v).getD (s.idt v) := by
  have fold : s.run (calls.flatMap GateCall.program) =
      calls.foldl (fun s call => s.run call.program) s := by
    unfold InterruptState.run
    rw [List.foldl_flatMap]
  rw [fold]
  exact view_foldl (fun s : InterruptState => s.idt v) (fun s call _ => call.run_idt s v) s

theorem low_word (base : UInt64) : (base &&& 0xFFFF).toUInt16.toNat = base.toNat % 2 ^ 16 := by
  have mask : (0xFFFF : UInt64).toNat = 2 ^ 16 - 1 := rfl
  rw [UInt64.toNat_toUInt16, UInt64.toNat_and, mask, Nat.and_two_pow_sub_one_eq_mod, Nat.mod_mod]

theorem low_dword (base : UInt64) : (base &&& 0xFFFFFFFF).toUInt32.toNat = base.toNat % 2 ^ 32 := by
  have mask : (0xFFFFFFFF : UInt64).toNat = 2 ^ 32 - 1 := rfl
  rw [UInt64.toNat_toUInt32, UInt64.toNat_and, mask, Nat.and_two_pow_sub_one_eq_mod, Nat.mod_mod]

theorem GateCall.entry_offset (call : GateCall) : call.entry.offset = call.base.toNat := by
  have bound := call.base.toNat_lt
  have middle : (call.base >>> 16).toNat = call.base.toNat / 2 ^ 16 := by
    simp [Nat.shiftRight_eq_div_pow]
  have high : (call.base >>> 32).toNat = call.base.toNat / 2 ^ 32 := by
    simp [Nat.shiftRight_eq_div_pow]
  simp only [IdtEntry.offset, GateCall.entry, low_word, low_dword, middle, high]
  omega

/-! ## The gates of `IDT::init` -/

/-- The flags that `IDT::init` gives to exceptions, and those it gives to all other vectors. -/
def gateFlags (v : UInt8) : Int8 := if v.toNat < 32 then 0b10001111 else 0b10001110

def initCall (isrTable : UInt8 → UInt64) (v : UInt8) : GateCall := ⟨v, isrTable v, gateFlags v⟩

/-- The two loops call `set_gate` once for each vector, in their order. -/
theorem setGates_eq (isrTable : UInt8 → UInt64) :
    setGates isrTable =
      ((List.range idtEntries).map fun i => initCall isrTable i.toUInt8).flatMap GateCall.program := by
  have split : List.range idtEntries = List.range 32 ++ List.range' 32 (idtEntries - 32) := by
    rw [List.range_eq_range', List.range_eq_range', List.range'_append_1]
    rfl
  have small {i : Nat} (inside : i < idtEntries) : i.toUInt8.toNat = i :=
    UInt8.toNat_ofNat_of_lt' inside
  have exceptions : (List.range 32).flatMap
      (fun i => setGate i.toUInt8 (isrTable i.toUInt8) 0b10001111) =
        (List.range 32).flatMap fun i => (initCall isrTable i.toUInt8).program := by
    apply List.flatMap_congr
    intro i member
    have exception : i < 32 := List.mem_range.mp member
    have vector := small (Nat.lt_trans exception (by decide : 32 < idtEntries))
    simp only [GateCall.program, initCall, gateFlags, vector, if_pos exception]
  have others : (List.range' 32 (idtEntries - 32)).flatMap
      (fun i => setGate i.toUInt8 (isrTable i.toUInt8) 0b10001110) =
        (List.range' 32 (idtEntries - 32)).flatMap fun i => (initCall isrTable i.toUInt8).program := by
    apply List.flatMap_congr
    intro i member
    obtain ⟨low, high⟩ := List.mem_range'_1.mp member
    have vector := small (i := i) high
    simp only [GateCall.program, initCall, gateFlags, vector, if_neg (Nat.not_lt.mpr low)]
  rw [split, List.map_append, List.flatMap_append, List.flatMap_map, List.flatMap_map, setGates,
    exceptions, others]

theorem lastWrite_initCalls (isrTable : UInt8 → UInt64) (v : UInt8) :
    lastWrite GateCall.written ((List.range idtEntries).map fun i => initCall isrTable i.toUInt8) v =
      some (initCall isrTable v).entry := by
  apply lastWrite_of_agree
  · refine ⟨initCall isrTable v, ?_, if_pos rfl⟩
    exact List.mem_map.mpr ⟨v.toNat, List.mem_range.mpr v.toNat_lt, by simp⟩
  · intro call member entry wrote
    obtain ⟨i, -, rfl⟩ := List.mem_map.mp member
    unfold GateCall.written at wrote
    split_ifs at wrote with here
    obtain rfl : i.toUInt8 = v := here
    exact (Option.some.inj wrote).symm

theorem idtInit_idt (idtAddress : UInt64) (isrTable : UInt8 → UInt64) (s : InterruptState) (v : UInt8) :
    (s.run (idtInit idtAddress isrTable)).idt v = (initCall isrTable v).entry := by
  have split : idtInit idtAddress isrTable = [.storeLimit 4095, .storeBase idtAddress, .sti] ++
      setGates isrTable ++ [.other, .lidt, .sti, .other, .cli] := by
    simp [idtInit, loadIdt, idtEntrySize, idtEntries]
  have rest (t : InterruptState) : (t.run [.other, .lidt, .sti, .other, .cli]).idt = t.idt := rfl
  rw [split, InterruptState.run_append, InterruptState.run_append, rest, setGates_eq, run_calls_idt,
    lastWrite_initCalls]
  rfl

structure IdtEntry.Decodes (gate : IdtEntry) (v : UInt8) (handler : UInt64) : Prop where
  offset : gate.offset = handler.toNat
  selector : gate.selector = 8
  ist : gate.ist = 0
  zero : gate.zero = 0
  present : gate.present = true
  dpl : gate.dpl = 0
  gateType : gate.gateType = some (if v.toNat < 32 then .trap else .interrupt)

theorem initCall_decodes (isrTable : UInt8 → UInt64) (v : UInt8) :
    (initCall isrTable v).entry.Decodes v (isrTable v) := by
  have offset : (initCall isrTable v).entry.offset = (isrTable v).toNat :=
    (initCall isrTable v).entry_offset
  have flags : (initCall isrTable v).entry.flags = (gateFlags v).toUInt8 := rfl
  by_cases exception : v.toNat < 32
  · rw [gateFlags, if_pos exception] at flags
    refine ⟨offset, rfl, rfl, rfl, ?_, ?_, ?_⟩
    · rw [IdtEntry.present, flags]
      decide
    · rw [IdtEntry.dpl, flags]
      decide
    · rw [IdtEntry.gateType, flags, if_pos exception]
      decide
  · rw [gateFlags, if_neg exception] at flags
    refine ⟨offset, rfl, rfl, rfl, ?_, ?_, ?_⟩
    · rw [IdtEntry.present, flags]
      decide
    · rw [IdtEntry.dpl, flags]
      decide
    · rw [IdtEntry.gateType, flags, if_neg exception]
      decide

theorem idt_decodes (idtAddress : UInt64) (isrTable : UInt8 → UInt64) (s : InterruptState) :
    (∀ v, ((s.run (idtInit idtAddress isrTable)).idt v).Decodes v (isrTable v)) ∧
    (∀ calls v,
      (∀ before call after, calls = before ++ call :: after → call.interrupt = v →
        (∀ later ∈ after, later.interrupt ≠ v) →
        (s.run (calls.flatMap GateCall.program)).idt v = call.entry) ∧
      ((∀ call ∈ calls, call.interrupt ≠ v) →
        (s.run (calls.flatMap GateCall.program)).idt v = s.idt v)) ∧
    ∀ call : GateCall, ∀ v, v ≠ call.interrupt → (s.run call.program).idt v = s.idt v := by
  refine ⟨fun v => ?_, fun calls v => ⟨?_, fun silent => ?_⟩, fun call v other => ?_⟩
  · rw [idtInit_idt]
    exact initCall_decodes isrTable v
  · intro before call after split here silent
    have last : lastWrite GateCall.written calls v = some call.entry :=
      lastWrite_eq_some_iff.mpr
        ⟨before, call, after, split, if_pos here, fun later member => if_neg (silent later member)⟩
    rw [run_calls_idt, last]
    rfl
  · have nothing : lastWrite GateCall.written calls v = none :=
      lastWrite_eq_none_iff.mpr fun call member => if_neg (silent call member)
    rw [run_calls_idt, nothing]
    rfl
  · rw [call.run_idt, GateCall.written, if_neg (Ne.symm other)]
    rfl

end Sphynx.Core
