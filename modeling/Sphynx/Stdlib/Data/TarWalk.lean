import Mathlib.Algebra.Group.Nat.Defs
import Sphynx.Stdlib.Data.Tar

/-!
# The walk over the headers

Both loops step from header to header by `advance`. The offsets they meet form a chain that depends
on the buffer alone; a chain by unbounded arithmetic is what the loops are meant to follow.
-/

namespace Sphynx.Stdlib
open Lib Dev External Relation

/-- The offsets met from 0 on when each header is stepped over by `step` of its declared size. -/
inductive Chain (step : UInt32 → Nat) (buffer : List UInt8) (size : Nat) : Nat → Prop
  | start : Chain step buffer size 0
  | next {ptr : Nat} {s : UInt32} {t : UInt8} : Chain step buffer size ptr →
      HeaderAt buffer size ptr s t → Chain step buffer size (ptr + step s)

def advanceNat (s : UInt32) : Nat := (advance s).toNat

def exactAdvance (s : UInt32) : Nat := 512 + 512 * ((s.toNat + 511) / 512)

def maxStep : Nat := 2 ^ 32 - 1024

theorem advanceNat_eq (s : UInt32) :
    advanceNat s = (512 + (s.toNat + 511) % 2 ^ 32 / 512 * 512) % 2 ^ 32 := by
  unfold advanceNat advance tarBlockSize
  have bound := s.toNat_lt
  rw [UInt32.toNat_add, UInt32.toNat_mul, UInt32.toNat_div, UInt32.toNat_sub, UInt32.toNat_add]
  simp only [UInt32.reduceToNat]
  omega

theorem advanceNat_eq_exact_iff (s : UInt32) : advanceNat s = exactAdvance s ↔ s.toNat ≤ maxStep := by
  have bound := s.toNat_lt
  rw [advanceNat_eq, exactAdvance, maxStep]
  omega

variable {buffer : List UInt8} {size ptr : Nat} {s : UInt32} {t : UInt8} {logged : List Listed}
  {path : CString} {after : List UInt8}

/-! ## Progress -/

/-- What a loop owes that walks the archive: every further turn moves by the exact step, the offsets
strictly increase and stay out of the contents already passed, and the loop ends after at most
`⌈size / 512⌉` turns inside the archive. -/
structure Progresses {σ ρ : Type} (turn : σ → Except Fault (Turn σ ρ)) (offset : σ → Nat)
    (start : σ) (buffer : List UInt8) (size : Nat) : Prop where
  exact : ∀ a b, Reaches turn start a → Again turn a b →
    ∃ s, octalToDecimal (buffer.drop (offset a + sizeField)) = .ok s ∧
      offset b = offset a + exactAdvance s
  increasing : ∀ n, ((visits turn n start).map offset).Pairwise (· < ·)
  apart : ∀ a b s, Reaches turn start a → TransGen (Again turn) a b →
    octalToDecimal (buffer.drop (offset a + sizeField)) = .ok s →
      ¬ (offset a + 512 ≤ offset b ∧ offset b < offset a + 512 + s.toNat)
  turns : ∀ n, ((visits turn n start).map offset).countP (· < size) ≤ (size + 511) / 512
  ends : ∃ out, Ends turn start out

section
variable {σ ρ : Type} {turn : σ → Except Fault (Turn σ ρ)} {offset : σ → Nat} {start : σ}
  (steps : ∀ a b, Again turn a b →
    ∃ s t, HeaderAt buffer size (offset a) s t ∧ offset b = offset a + advanceNat s)
  (origin : offset start = 0)
  (bounded : ∀ ptr s t, Chain exactAdvance buffer size ptr → HeaderAt buffer size ptr s t →
    s.toNat ≤ maxStep)
include steps origin

theorem reaches_chain {a : σ} (reach : Reaches turn start a) :
    Chain advanceNat buffer size (offset a) := by
  refine reach.invariant (I := fun a => Chain advanceNat buffer size (offset a)) ?_ ?_
  · exact origin ▸ .start
  · intro a b chain again
    obtain ⟨s, t, header, moved⟩ := steps a b again
    rw [moved]
    exact .next chain header

include bounded

theorem reaches_exactChain {a : σ} (reach : Reaches turn start a) :
    Chain exactAdvance buffer size (offset a) := by
  refine reach.invariant (I := fun a => Chain exactAdvance buffer size (offset a)) ?_ ?_
  · exact origin ▸ .start
  · intro a b chain again
    obtain ⟨s, t, header, moved⟩ := steps a b again
    rw [moved, (advanceNat_eq_exact_iff s).mpr (bounded _ s t chain header)]
    exact .next chain header

theorem exact_of_bounded {a b : σ} (reach : Reaches turn start a) (again : Again turn a b) :
    ∃ s t, HeaderAt buffer size (offset a) s t ∧ offset b = offset a + exactAdvance s := by
  obtain ⟨s, t, header, moved⟩ := steps a b again
  have small := bounded _ s t (reaches_exactChain steps origin bounded reach) header
  exact ⟨s, t, header, by rw [moved, (advanceNat_eq_exact_iff s).mpr small]⟩

theorem later_beyond {a b : σ} (reach : Reaches turn start a) (later : TransGen (Again turn) a b)
    (sizeRead : octalToDecimal (buffer.drop (offset a + sizeField)) = .ok s) :
    offset a + exactAdvance s ≤ offset b := by
  induction later with
  | single again =>
      obtain ⟨s', t, header, moved⟩ := exact_of_bounded steps origin bounded reach again
      obtain rfl : s = s' := Except.ok.inj (sizeRead.symm.trans header.sizeRead)
      exact moved.ge
  | tail before again ih =>
      have between := ReflTransGen.trans reach before.to_reflTransGen
      obtain ⟨s', t, -, moved⟩ := exact_of_bounded steps origin bounded between again
      omega

theorem progresses_of_bounded : Progresses turn offset start buffer size := by
  have moves {a b : σ} (reach : Reaches turn start a) (again : Again turn a b) :=
    exact_of_bounded steps origin bounded reach again
  have blocks (a b : σ) (reach : Reaches turn start a) (again : Again turn a b) :
      (size - offset b + 511) / 512 < (size - offset a + 511) / 512 := by
    obtain ⟨s, t, header, moved⟩ := moves reach again
    have inside := header.inside
    rw [moved, exactAdvance]
    omega
  refine ⟨?_, ?_, ?_, ?_, ?_⟩
  · intro a b reach again
    obtain ⟨s, t, header, moved⟩ := moves reach again
    exact ⟨s, header.sizeRead, moved⟩
  · intro n
    have : IsTrans σ (fun a b => offset a < offset b) := ⟨fun _ _ _ => Nat.lt_trans⟩
    rw [List.pairwise_map]
    refine visits_pairwise _ ?_ n
    intro a b reach again
    obtain ⟨s, t, -, moved⟩ := moves reach again
    rw [moved, exactAdvance]
    omega
  · intro a b s reach later sizeRead
    have beyond := later_beyond steps origin bounded reach later sizeRead
    rw [exactAdvance] at beyond
    omega
  · intro n
    rw [List.countP_map]
    have count := countP_visits_le (s := start) ((· < size) ∘ offset)
      (fun a => (size - offset a + 511) / 512) (fun a _ inside => ?_) blocks n
    · simpa [origin] using count
    · have inside : offset a < size := by simpa using inside
      omega
  · have enough := loop_isSome_of_measure (fun a => (size - offset a + 511) / 512) blocks
      (Nat.lt_succ_self _)
    obtain ⟨out, ended⟩ := Option.isSome_iff_exists.mp enough
    exact ⟨out, _, ended⟩

end

theorem listDirTar_steps (a b : Nat × List Listed) (again : Again (listDirTarTurn buffer size) a b) :
    ∃ s t, HeaderAt buffer size a.1 s t ∧ b.1 = a.1 + advanceNat s := by
  obtain ⟨s, t, name, header, -, rfl⟩ := listDirTarTurn_again_iff.mp again
  exact ⟨s, t, header, rfl⟩

theorem getFileTar_steps (path : CString) (after : List UInt8) (a b : Nat)
    (again : Again (getFileTarTurn buffer size (path.stored after)) a b) :
    ∃ s t, HeaderAt buffer size a s t ∧ b = a + advanceNat s := by
  obtain ⟨s, t, header, -, rfl⟩ := getFileTarTurn_again_iff.mp again
  exact ⟨s, t, header, rfl⟩

theorem HeaderAt.listing_again (header : HeaderAt buffer size ptr s t) (logged : List Listed) :
    ∃ entry, Again (listDirTarTurn buffer size) (ptr, logged)
      (ptr + advanceNat s, logged ++ [entry]) := by
  obtain ⟨name, named⟩ := header.name_ok
  exact ⟨Listed.of name s t, listDirTarTurn_header header named logged⟩

theorem chain_reaches (chain : Chain advanceNat buffer size ptr) :
    ∃ logged, Reaches (listDirTarTurn buffer size) (0, []) (ptr, logged) := by
  induction chain with
  | start => exact ⟨[], .refl⟩
  | @next ptr s t _ header ih =>
      obtain ⟨logged, reach⟩ := ih
      obtain ⟨entry, again⟩ := header.listing_again logged
      exact ⟨_, .tail reach again⟩

def WalkProgresses (buffer : List UInt8) (size : Nat) : Prop :=
  Progresses (listDirTarTurn buffer size) Prod.fst (0, []) buffer size ∧
    ∀ (path : CString) (after : List UInt8),
      Progresses (getFileTarTurn buffer size (path.stored after)) id 0 buffer size

theorem Progresses.listing_step {logged : List Listed}
    (exact : Progresses (listDirTarTurn buffer size) Prod.fst (0, []) buffer size)
    (reach : Reaches (listDirTarTurn buffer size) (0, []) (ptr, logged))
    (header : HeaderAt buffer size ptr s t) : advanceNat s = exactAdvance s := by
  obtain ⟨entry, again⟩ := header.listing_again logged
  obtain ⟨s', sizeRead, moved⟩ := exact.exact _ _ reach again
  obtain rfl : s = s' := Except.ok.inj (header.sizeRead.symm.trans sizeRead)
  exact Nat.add_left_cancel moved

theorem exactChain_reaches
    (exact : Progresses (listDirTarTurn buffer size) Prod.fst (0, []) buffer size)
    (chain : Chain exactAdvance buffer size ptr) :
    ∃ logged, Reaches (listDirTarTurn buffer size) (0, []) (ptr, logged) := by
  induction chain with
  | start => exact ⟨[], .refl⟩
  | @next ptr s t _ header ih =>
      obtain ⟨logged, reach⟩ := ih
      obtain ⟨entry, again⟩ := header.listing_again logged
      rw [← exact.listing_step reach header]
      exact ⟨_, .tail reach again⟩

theorem WalkProgresses.bounded (h : WalkProgresses buffer size)
    (chain : Chain exactAdvance buffer size ptr) (header : HeaderAt buffer size ptr s t) :
    s.toNat ≤ maxStep := by
  obtain ⟨logged, reach⟩ := exactChain_reaches h.1 chain
  exact (advanceNat_eq_exact_iff s).mp (h.1.listing_step reach header)

theorem walk_progresses_iff (buffer : List UInt8) (size : Nat) :
    WalkProgresses buffer size ↔
      ∀ ptr s t, Chain exactAdvance buffer size ptr → HeaderAt buffer size ptr s t →
        s.toNat ≤ 2 ^ 32 - 1024 := by
  constructor
  · intro progress ptr s t chain header
    exact progress.bounded chain header
  · intro bounded
    exact ⟨progresses_of_bounded listDirTar_steps rfl bounded,
      fun path after => progresses_of_bounded (getFileTar_steps path after) rfl bounded⟩

def wrappingHeader : List UInt8 :=
  chr 'a' :: List.replicate 123 0 ++ ascii "37777777000" ++ List.replicate 377 0

theorem wrappingHeader_at : HeaderAt wrappingHeader 512 0 (4294966784 : UInt32) 0 :=
  ⟨by decide, ⟨chr 'a', rfl, by decide⟩, by rfl, by rfl⟩

theorem wrappingHeader_chain (chain : Chain advanceNat wrappingHeader 512 ptr) : ptr = 0 := by
  induction chain with
  | start => rfl
  | next _ header ih =>
      subst ih
      obtain ⟨rfl, -⟩ := header.unique wrappingHeader_at
      rw [advanceNat_eq]
      rfl

theorem wrappingHeader_stays :
    (∀ ptr s t, Chain advanceNat wrappingHeader 512 ptr → HeaderAt wrappingHeader 512 ptr s t →
      0 ∈ (wrappingHeader.drop (ptr + sizeField)).take 12) ∧
    ¬ WalkProgresses wrappingHeader 512 := by
  constructor
  · intro ptr s t chain _
    rw [wrappingHeader_chain chain]
    decide
  · intro progress
    have small := progress.bounded .start wrappingHeader_at
    revert small
    decide

/-! ## Reads inside the archive -/

theorem header_whole_iff (present : ¬ NoHeaderAt buffer size ptr) :
    (∃ s t, HeaderAt buffer size ptr s t) ↔
      ptr + typeflagField < buffer.length ∧ 0 ∈ buffer.drop (ptr + sizeField) := by
  constructor
  · rintro ⟨s, t, header⟩
    obtain ⟨inside, -⟩ := List.getElem?_eq_some_iff.mp header.typeRead
    exact ⟨inside, (octalLoop_ok_iff 0 _).mp ⟨s, header.sizeRead⟩⟩
  · rintro ⟨inside, terminated⟩
    obtain ⟨s, sizeRead⟩ := (octalLoop_ok_iff 0 _).mpr terminated
    have before : ptr < size := by
      by_contra outside
      exact present (Or.inl (by omega))
    have mapped : ptr < buffer.length := by omega
    refine ⟨s, buffer[ptr + typeflagField], before, ⟨buffer[ptr], ?_, ?_⟩, sizeRead, ?_⟩
    · exact List.getElem?_eq_getElem mapped
    · intro zero
      exact present (Or.inr (by rw [List.getElem?_eq_getElem mapped, zero]))
    · exact List.getElem?_eq_getElem inside

/-- No read of `list_dir_tar`, nor of `get_file_tar` looking for `path`, leaves a buffer of just the
archive's size, however many turns are run. -/
def ReadsInside (buffer : List UInt8) (path : CString) (after : List UInt8) : Prop :=
  (∀ fuel e, listDirTar fuel buffer buffer.length ≠ some (.error e)) ∧
    ∀ fuel e, getFileTar fuel buffer buffer.length (path.stored after) ≠ some (.error e)

theorem getFileTar_error {fuel : Nat} {e : Fault}
    (failed : getFileTar fuel buffer size (path.stored after) = some (.error e)) :
    Ends (getFileTarTurn buffer size (path.stored after)) 0 (.error e) := by
  refine ⟨fuel, ?_⟩
  unfold getFileTar at failed
  obtain ⟨out, run, exit⟩ := Option.map_eq_some_iff.mp failed
  cases out with
  | error e' =>
      obtain rfl : e' = e := by simpa [bind, Except.bind] using exit
      exact run
  | ok found =>
      cases found with
      | some file => cases exit
      | none =>
          simp only [getFileTarExit, bind, Except.bind, cstr_stored] at exit
          cases exit

theorem cutAt_of_error {σ ρ : Type} {turn : σ → Except Fault (Turn σ ρ)} {offset : σ → Nat}
    {start : σ} {e : Fault} (failed : Ends turn start (.error e))
    (cut : ∀ a e, turn a = .error e → CutAt buffer size (offset a)) :
    ∃ a, Reaches turn start a ∧ CutAt buffer size (offset a) := by
  obtain ⟨a, reach, last⟩ := failed.last_turn
  exact ⟨a, reach, cut a e last⟩

theorem listDirTar_cut (a : Nat × List Listed) (e : Fault)
    (failed : listDirTarTurn buffer size a = .error e) : CutAt buffer size a.1 := by
  obtain ⟨ptr, logged⟩ := a
  rcases header_cases buffer size ptr with none | ⟨s, t, header⟩ | cut
  · rw [listDirTarTurn_none none] at failed
    cases failed
  · obtain ⟨name, named⟩ := header.name_ok
    rw [listDirTarTurn_header header named] at failed
    cases failed
  · exact cut

theorem getFileTar_cut (path : CString) (after : List UInt8) (ptr : Nat) (e : Fault)
    (failed : getFileTarTurn buffer size (path.stored after) ptr = .error e) :
    CutAt buffer size ptr := by
  rcases header_cases buffer size ptr with none | ⟨s, t, header⟩ | cut
  · rw [getFileTarTurn_none none] at failed
    cases failed
  · by_cases named : NamedAt buffer ptr path
    · rw [getFileTarTurn_found header named] at failed
      cases failed
    · rw [getFileTarTurn_other header named] at failed
      cases failed
  · exact cut

theorem ReadsInside.whole {path : CString} {after : List UInt8} (safe : ReadsInside buffer path after)
    (chain : Chain advanceNat buffer buffer.length ptr)
    (present : ¬ NoHeaderAt buffer buffer.length ptr) :
    ∃ s t, HeaderAt buffer buffer.length ptr s t := by
  by_contra torn
  have cut : CutAt buffer buffer.length ptr := ⟨present, fun s t h => torn ⟨s, t, h⟩⟩
  obtain ⟨logged, reach⟩ := chain_reaches chain
  obtain ⟨e, error⟩ := listDirTarTurn_cut cut logged
  obtain ⟨fuel, run⟩ := reach.ends_iff.mpr (ends_error error)
  exact safe.1 fuel e run

theorem reads_inside_iff (buffer : List UInt8) (path : CString) (after : List UInt8) :
    ReadsInside buffer path after ↔
      ∀ ptr, Chain advanceNat buffer buffer.length ptr → ptr < buffer.length →
        buffer[ptr]? ≠ some 0 →
          ptr + typeflagField < buffer.length ∧ 0 ∈ buffer.drop (ptr + sizeField) := by
  constructor
  · intro safe ptr chain inside nonblank
    have present : ¬ NoHeaderAt buffer buffer.length ptr := by
      rintro (outside | blank)
      · omega
      · exact nonblank blank
    exact (header_whole_iff present).mp (safe.whole chain present)
  · intro whole
    have untorn (ptr : Nat) (chain : Chain advanceNat buffer buffer.length ptr) :
        ¬ CutAt buffer buffer.length ptr := by
      intro cut
      have inside : ptr < buffer.length := by
        by_contra outside
        exact cut.1 (Or.inl (by omega))
      have nonblank : buffer[ptr]? ≠ some 0 := fun blank => cut.1 (Or.inr blank)
      obtain ⟨s, t, header⟩ := (header_whole_iff cut.1).mpr (whole ptr chain inside nonblank)
      exact cut.2 s t header
    constructor
    · intro fuel e failed
      obtain ⟨a, reach, cut⟩ := cutAt_of_error ⟨fuel, failed⟩ listDirTar_cut
      exact untorn _ (reaches_chain listDirTar_steps rfl reach) cut
    · intro fuel e failed
      obtain ⟨a, reach, cut⟩ := cutAt_of_error (getFileTar_error failed) (getFileTar_cut path after)
      exact untorn _ (reaches_chain (getFileTar_steps path after) rfl reach) cut

theorem one_byte_reads_outside : ¬ ReadsInside [chr 'a'] ⟨ascii "sys/welcome.txt", by decide⟩ [] := by
  intro safe
  exact safe.1 1 .outOfBounds (by rfl)

end Sphynx.Stdlib
