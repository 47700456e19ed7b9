import Sphynx.Lib.Block
import Sphynx.Lib.Loop

/-!
# Copying and building strings in memory (`string.cpp`)

`strlen`, `strcpy`, `strcat` and `strncpy` on an observed memory. The loops without a count run
under a bound on their turns.
-/

namespace Sphynx.Stdlib
open Lib Memory

/-- `while (*p) ++p;` -/
def scanTurn : Bus × Word → Turn (Bus × Word) (Bus × Word)
  | (bus, p) =>
      let (c, bus) := bus.read p
      if c ≠ 0 then .again (bus, p + 1) else .leave (bus, p)

def strlen (fuel : Nat) (bus : Bus) (s : Word) : Option (Word × Bus) :=
  (runLoop scanTurn fuel (bus, s)).map fun (bus, p) => (p - s, bus)

/-- `while ((*d++ = *src++));` -/
def copyTurn : Bus × Word × Word → Turn (Bus × Word × Word) Bus
  | (bus, d, src) =>
      let (c, bus) := bus.copy d src
      if c ≠ 0 then .again (bus, d + 1, src + 1) else .leave bus

def strcpy (fuel : Nat) (bus : Bus) (dest src : Word) : Option (Word × Bus) :=
  (runLoop copyTurn fuel (bus, dest, src)).map fun bus => (dest, bus)

def strcat (fuel : Nat) (bus : Bus) (dest src : Word) : Option (Word × Bus) := do
  let (bus, d) ← runLoop scanTurn fuel (bus, dest)
  let bus ← runLoop copyTurn fuel (bus, d, src)
  return (dest, bus)

/-- `while (n && (*d++ = *src++)) --n;` with the values of `d` and `n` behind it. -/
def strncpyCopy (bus : Bus) (d src : Word) : Nat → Bus × Word × Nat
  | 0 => (bus, d, 0)
  | n + 1 =>
      let (c, bus) := bus.copy d src
      if c ≠ 0 then strncpyCopy bus (d + 1) (src + 1) n else (bus, d + 1, n + 1)

/-- The turns of `while (--n) *d++ = '\0';`, of which there are `n - 1`. -/
def strncpyPad (bus : Bus) (d : Word) : Nat → Bus
  | 0 => bus
  | turns + 1 => strncpyPad (bus.write d 0) (d + 1) turns

def strncpyFinish : Bus × Word × Nat → Bus
  | (bus, d, n) => if n ≠ 0 then strncpyPad bus d (n - 1) else bus

def strncpy (bus : Bus) (dest src n : Word) : Word × Bus :=
  (dest, strncpyFinish (strncpyCopy bus dest src n.toNat))

variable {bus : Bus} {d dest src : Word} {n : Nat} {text acc bs : List (BitVec 8)}

/-! ## What the loops do -/

/-- The bus after `bs` has been written from `d` on and `read` bytes have been read from `src` on. -/
def placed (bus : Bus) (d : Word) (bs : List (BitVec 8)) (src : Word) (read : Nat) : Bus where
  mem := bus.mem.place d bs
  reads := bus.reads ++ addresses src read
  writes := bus.writes ++ addresses d bs.length

theorem placed_nil (bus : Bus) (d src : Word) : placed bus d [] src 0 = bus := by
  simp only [placed, place_nil, addresses, List.length_nil, List.append_nil]

theorem placed_mem (bus : Bus) (d src : Word) (bs : List (BitVec 8)) (read : Nat) :
    (placed bus d bs src read).mem = bus.mem.place d bs := rfl

theorem placed_writes (bus : Bus) (d src : Word) (bs : List (BitVec 8)) (read : Nat) :
    (placed bus d bs src read).writes = bus.writes ++ addresses d bs.length := rfl

theorem placed_copy (fits : bs.length < 2 ^ 64) (bus : Bus) (d src : Word) (read : Nat) :
    placed (bus.copy d src).2 (d + 1) bs (src + 1) read =
      placed bus d (bus.mem src :: bs) src (read + 1) := by
  unfold placed
  rw [Bus.copy_mem, place_cons fits]
  simp [Bus.copy, Bus.read, Bus.write, addresses]

theorem placed_write (fits : bs.length < 2 ^ 64) (bus : Bus) (d src : Word) (c : BitVec 8) :
    placed (bus.write d c) (d + 1) bs src 0 = placed bus d (c :: bs) src 0 := by
  unfold placed
  simp only [Bus.write, place_cons fits, addresses, List.length_cons, List.append_assoc,
    List.cons_append, List.nil_append]

theorem strncpyPad_eq (fits : n ≤ 2 ^ 64) (src : Word) :
    strncpyPad bus d n = placed bus d (List.replicate n 0) src 0 := by
  induction n generalizing bus d with
  | zero => simp [strncpyPad, placed, addresses]
  | succ n ih =>
      have short : (List.replicate n (0 : BitVec 8)).length < 2 ^ 64 := by
        rw [List.length_replicate]
        omega
      rw [strncpyPad, ih (by omega), placed_write short, List.replicate_succ]

theorem strncpyCopy_finish (source : StringAt bus.mem src text) (fits : n ≤ 2 ^ 64)
    (apart : Apart d n src (text.length + 1)) :
    strncpyFinish (strncpyCopy bus d src n) =
      placed bus d (text.take n ++ List.replicate (n - text.length) 0) src
        (min n (text.length + 1)) := by
  -- Induction on the count; the string shrinks along with it until its terminator is copied.
  induction n generalizing bus d src text with
  | zero => simp [strncpyFinish, strncpyCopy, placed, addresses]
  | succ n ih =>
      cases text with
      | nil =>
          have zero := StringAt.nil_iff.mp source
          have short : (List.replicate n (0 : BitVec 8)).length < 2 ^ 64 := by
            rw [List.length_replicate]
            omega
          simp only [strncpyCopy, Bus.copy_fst, zero, ne_eq, not_true_eq_false, if_false]
          simp only [strncpyFinish, if_pos (Nat.succ_ne_zero n), Nat.add_sub_cancel]
          rw [strncpyPad_eq (by omega) (src + 1), placed_copy short, zero]
          simp [List.replicate_succ]
      | cons c text =>
          obtain ⟨short, nonzero, head, tail⟩ := StringAt.cons_iff.mp source
          have bounded : (text.take n ++ List.replicate (n - text.length) (0 : BitVec 8)).length <
              2 ^ 64 := by
            rw [List.length_append, List.length_take, List.length_replicate]
            omega
          simp only [strncpyCopy, Bus.copy_fst, head, ne_eq, nonzero, not_false_eq_true, if_true]
          rw [ih (source.set_tail apart _) (by omega) (apart.tail (by omega) short),
            placed_copy bounded, head]
          simp only [List.take_succ_cons, List.cons_append, List.length_cons, Nat.add_sub_add_right,
            Nat.add_min_add_right]

theorem scan_yields (string : StringAt bus.mem src text) :
    Yields (runLoop scanTurn · (bus, src))
      ({ bus with reads := bus.reads ++ addresses src (text.length + 1) },
        src + BitVec.ofNat 64 text.length) := by
  induction text generalizing bus src with
  | nil =>
      have zero := StringAt.nil_iff.mp string
      apply yields_leave
      simp [scanTurn, Bus.read, zero, addresses]
  | cons c text ih =>
      obtain ⟨-, nonzero, head, tail⟩ := StringAt.cons_iff.mp string
      have again : scanTurn (bus, src) = .again ((bus.read src).2, src + 1) := by
        simp only [scanTurn, Bus.read, head, ne_eq, nonzero, not_false_eq_true, if_true]
      apply yields_again again
      have later : Yields (runLoop scanTurn · ((bus.read src).2, src + 1)) _ := ih tail
      rw [List.length_cons, add_ofNat_succ, addresses]
      simpa [Bus.read] using later

theorem strlen_yields (string : StringAt bus.mem src text) :
    Yields (strlen · bus src) (BitVec.ofNat 64 text.length,
      { bus with reads := bus.reads ++ addresses src (text.length + 1) }) := by
  have distance : src + BitVec.ofNat 64 text.length - src = BitVec.ofNat 64 text.length := by
    bv_omega
  rw [← distance]
  exact (scan_yields string).map fun (bus, p) => (p - src, bus)

theorem copy_yields (source : StringAt bus.mem src text)
    (apart : Apart d (text.length + 1) src (text.length + 1)) :
    Yields (runLoop copyTurn · (bus, d, src)) (placed bus d (text ++ [0]) src (text.length + 1)) := by
  induction text generalizing bus d src with
  | nil =>
      have zero := StringAt.nil_iff.mp source
      have last : placed (bus.copy d src).2 (d + 1) [] (src + 1) 0 = _ :=
        placed_copy (by decide) bus d src 0
      rw [placed_nil, zero] at last
      apply yields_leave
      simp only [copyTurn, Bus.copy_fst, zero, ne_eq, not_true_eq_false, if_false, last]
      rfl
  | cons c text ih =>
      obtain ⟨short, nonzero, head, tail⟩ := StringAt.cons_iff.mp source
      have again : copyTurn (bus, d, src) = .again ((bus.copy d src).2, d + 1, src + 1) := by
        simp only [copyTurn, Bus.copy_fst, head, ne_eq, nonzero, not_false_eq_true, if_true]
      apply yields_again again
      have tail' : StringAt (bus.copy d src).2.mem (src + 1) text := source.set_tail apart _
      have later := ih tail' (apart.tail short short)
      have bounded : (text ++ [(0 : BitVec 8)]).length < 2 ^ 64 := by
        rw [List.length_append]
        exact short
      rwa [placed_copy bounded, head] at later

/-! ## `strncpy` -/

theorem strncpy_writes (bus : Bus) (dest src n : Word) (text : List (BitVec 8))
    (source : StringAt bus.mem src text) (apart : Apart dest n.toNat src (text.length + 1)) :
    (strncpy bus dest src n).1 = dest ∧
      (∀ i < min n.toNat text.length, (strncpy bus dest src n).2.mem (dest + BitVec.ofNat 64 i) =
        bus.mem (src + BitVec.ofNat 64 i)) ∧
      (∀ i, text.length ≤ i → i < n.toNat →
        (strncpy bus dest src n).2.mem (dest + BitVec.ofNat 64 i) = 0) ∧
      (∀ x, ¬ InRange dest n.toNat x → (strncpy bus dest src n).2.mem x = bus.mem x) ∧
      (strncpy bus dest src n).2.reads =
        bus.reads ++ addresses src (min n.toNat (text.length + 1)) ∧
      (strncpy bus dest src n).2.writes = bus.writes ++ addresses dest n.toNat := by
  have small : n.toNat ≤ 2 ^ 64 := Nat.le_of_lt n.isLt
  have result : (strncpy bus dest src n).2 = _ := strncpyCopy_finish source small apart
  have length : (text.take n.toNat ++ List.replicate (n.toNat - text.length) (0 : BitVec 8)).length =
      n.toNat := by
    rw [List.length_append, List.length_take, List.length_replicate]
    omega
  rw [result]
  refine ⟨rfl, ?_, ?_, ?_, rfl, ?_⟩
  · intro i inside
    have taken : i < (text.take n.toNat).length := by
      rw [List.length_take]
      exact inside
    rw [placed_mem, place_add (by omega) (by omega), List.getElem_append_left taken,
      List.getElem_take, source.getElem]
  · intro i beyond inside
    have behind : (text.take n.toNat).length ≤ i := by
      rw [List.length_take]
      omega
    rw [placed_mem, place_add (by omega) (by omega), List.getElem_append_right behind,
      List.getElem_replicate]
  · intro x outside
    exact place_of_not_inRange (by rwa [length])
  · rw [placed, length]

/-- The string "A" at `0x2000`, and no NUL but its own. -/
def oneLetter : Bus where
  mem := fun a => if a = 0x2000 then 65 else if a = 0x2001 then 0 else 0xff

theorem strncpy_writes_oneLetter : (strncpy oneLetter 0x3000 0x2000 3).2.mem 0x3002 = 0 := by
  have source : StringAt oneLetter.mem 0x2000 [65] := ⟨by decide, by decide, by decide⟩
  have apart : Apart 0x3000 (3 : Word).toNat 0x2000 2 := by
    intro x left right
    unfold InRange at left right
    bv_omega
  obtain ⟨-, -, padded, -⟩ := strncpy_writes oneLetter 0x3000 0x2000 3 [65] source apart
  exact padded 2 (by decide) (by decide)

/-! ## Building a string -/

structure Source where
  pointer : Word
  text : List (BitVec 8)

def buildString (fuel : Nat) (bus : Bus) (dest first : Word) (others : List Word) : Option Bus := do
  let (_, bus) ← strcpy fuel bus dest first
  others.foldlM (fun bus src => (strcat fuel bus dest src).map Prod.snd) bus

/-- How the bus is after strings with the characters `acc` in all have been written to `dest`. -/
structure Built (start : Bus) (dest : Word) (acc : List (BitVec 8)) (bus : Bus) : Prop where
  nonzero : 0 ∉ acc
  mem : bus.mem = start.mem.place dest (acc ++ [0])
  written : ∃ writes, bus.writes = start.writes ++ writes ∧
    ∀ x ∈ writes, InRange dest (acc.length + 1) x

variable {start : Bus}

theorem strcpy_built (source : StringAt start.mem src text)
    (apart : Apart dest (text.length + 1) src (text.length + 1)) :
    ∃ bus, Yields (strcpy · start dest src) (dest, bus) ∧ Built start dest text bus := by
  refine ⟨_, (copy_yields source apart).map (dest, ·), source.nonzero, rfl, _, rfl, ?_⟩
  intro x member
  rw [List.length_append, List.length_singleton] at member
  exact (mem_addresses source.short).mp member

theorem strcat_built (built : Built start dest acc bus) (source : StringAt start.mem src text)
    (apart : Apart dest (acc.length + (text.length + 1)) src (text.length + 1))
    (fits : acc.length + (text.length + 1) ≤ 2 ^ 64) :
    ∃ bus', Yields (fun fuel => (strcat fuel bus dest src).map Prod.snd) bus' ∧
      Built start dest (acc ++ text) bus' := by
  obtain ⟨nonzero, mem, writes, written, within⟩ := built
  have string : StringAt bus.mem dest acc := by
    rw [mem]
    exact stringAt_place nonzero (by omega)
  have source' : StringAt bus.mem src text := by
    rw [mem]
    apply source.place
    rw [List.length_append, List.length_singleton]
    exact apart.mono (by omega) (Nat.le_refl _)
  have apart' : Apart (dest + BitVec.ofNat 64 acc.length) (text.length + 1) src (text.length + 1) :=
    fun x left => apart x (left.of_add fits)
  have scanned := scan_yields string
  have copied : Yields (runLoop copyTurn ·
      ({ bus with reads := bus.reads ++ addresses dest (acc.length + 1) },
        dest + BitVec.ofNat 64 acc.length, src)) _ := copy_yields source' apart'
  refine ⟨_, (scanned.bind (copied.bind (yields_pure (dest, _)))).map Prod.snd, ?_, ?_, ?_⟩
  · rw [List.mem_append, not_or]
    exact ⟨nonzero, source.nonzero⟩
  · rw [placed_mem, List.append_assoc]
    change bus.mem.place _ _ = _
    rw [mem]
    apply place_over
    · simp
    · rw [List.length_append, List.length_singleton]
      exact fits
  · refine ⟨writes ++ addresses (dest + BitVec.ofNat 64 acc.length) (text.length + 1), ?_, ?_⟩
    · rw [placed_writes, List.length_append, List.length_singleton, ← List.append_assoc, ← written]
    · intro x member
      rw [List.length_append, Nat.add_assoc]
      rcases List.mem_append.mp member with earlier | later
      · exact (within x earlier).mono (by omega)
      · exact InRange.of_add ((mem_addresses source.short).mp later) fits

theorem others_built (others : List Source) {region : Nat} (built : Built start dest acc bus)
    (sources : ∀ s ∈ others, StringAt start.mem s.pointer s.text)
    (apart : ∀ s ∈ others, Apart dest region s.pointer (s.text.length + 1))
    (room : acc.length + ((others.flatMap Source.text).length + 1) ≤ region)
    (fits : region ≤ 2 ^ 64) :
    ∃ bus', Yields (fun fuel => (others.map Source.pointer).foldlM
        (fun bus src => (strcat fuel bus dest src).map Prod.snd) bus) bus' ∧
      Built start dest (acc ++ others.flatMap Source.text) bus' := by
  -- Induction on the strings still to be appended; each finds the terminator of those before it.
  induction others generalizing acc bus with
  | nil =>
      refine ⟨bus, yields_pure bus, ?_⟩
      rwa [List.flatMap_nil, List.append_nil]
  | cons s others ih =>
      rw [List.flatMap_cons, List.length_append] at room
      obtain ⟨next, appended, built'⟩ := strcat_built built (sources s List.mem_cons_self)
        ((apart s List.mem_cons_self).mono (by omega) (Nat.le_refl _)) (by omega)
      obtain ⟨bus', run, all⟩ := ih built' (fun s member => sources s (List.mem_cons_of_mem _ member))
        (fun s member => apart s (List.mem_cons_of_mem _ member))
        (by rw [List.length_append]; omega)
      rw [List.append_assoc] at all
      exact ⟨bus', appended.bind run, all⟩

theorem buildString_concatenates (bus : Bus) (dest : Word) (first : Source) (others : List Source)
    (region : Nat) (sources : ∀ s ∈ first :: others, StringAt bus.mem s.pointer s.text)
    (apart : ∀ s ∈ first :: others, Apart dest region s.pointer (s.text.length + 1))
    (room : ((first :: others).flatMap Source.text).length + 1 ≤ region) :
    ∃ bus', Yields (buildString · bus dest first.pointer (others.map Source.pointer)) bus' ∧
      StringAt bus'.mem dest ((first :: others).flatMap Source.text) ∧
      (∃ bus'', Yields (strlen · bus' dest)
        (BitVec.ofNat 64 ((first :: others).flatMap Source.text).length, bus'')) ∧
      (∀ s ∈ first :: others, StringAt bus'.mem s.pointer s.text) ∧
      (∀ x, ¬ InRange dest (((first :: others).flatMap Source.text).length + 1) x →
        bus'.mem x = bus.mem x) ∧
      ∃ writes, bus'.writes = bus.writes ++ writes ∧
        ∀ x ∈ writes, InRange dest (((first :: others).flatMap Source.text).length + 1) x := by
  have fits : region ≤ 2 ^ 64 := Nat.le_of_lt (apart first List.mem_cons_self).lt
  have total := room
  rw [List.flatMap_cons, List.length_append] at total
  obtain ⟨copied, copy, built⟩ := strcpy_built (sources first List.mem_cons_self)
    ((apart first List.mem_cons_self).mono (by omega) (Nat.le_refl _))
  obtain ⟨bus', appended, nonzero, mem, written⟩ := others_built others built
    (fun s member => sources s (List.mem_cons_of_mem _ member))
    (fun s member => apart s (List.mem_cons_of_mem _ member)) (by omega) fits
  rw [← List.flatMap_cons] at nonzero mem written
  have length : ((first :: others).flatMap Source.text ++ [(0 : BitVec 8)]).length =
      ((first :: others).flatMap Source.text).length + 1 := List.length_append
  have string : StringAt bus'.mem dest ((first :: others).flatMap Source.text) := by
    rw [mem]
    exact stringAt_place nonzero (by omega)
  refine ⟨bus', copy.bind appended, string, ⟨_, strlen_yields string⟩, ?_, ?_, written⟩
  · intro s member
    rw [mem]
    apply (sources s member).place
    rw [length]
    exact (apart s member).mono room (Nat.le_refl _)
  · intro x outside
    rw [mem]
    exact place_of_not_inRange (by rwa [length])

theorem buildString_concatenates_oneLetter :
    ∃ bus', Yields (buildString · oneLetter 0x3000 0x2000 [0x2000]) bus' ∧
      StringAt bus'.mem 0x3000 [65, 65] := by
  have source : StringAt oneLetter.mem 0x2000 [65] := ⟨by decide, by decide, by decide⟩
  have apart : Apart 0x3000 3 0x2000 2 := by
    intro x left right
    unfold InRange at left right
    bv_omega
  have each {p : Source → Prop} (holds : p ⟨0x2000, [65]⟩) :
      ∀ s ∈ [(⟨0x2000, [65]⟩ : Source), ⟨0x2000, [65]⟩], p s := by
    intro s member
    simp only [List.mem_cons, List.not_mem_nil, or_self, or_false] at member
    rw [member]
    exact holds
  obtain ⟨bus', built, string, -⟩ := buildString_concatenates oneLetter 0x3000 ⟨0x2000, [65]⟩
    [⟨0x2000, [65]⟩] 3 (each source) (each apart) (by decide)
  exact ⟨bus', built, string⟩

end Sphynx.Stdlib
