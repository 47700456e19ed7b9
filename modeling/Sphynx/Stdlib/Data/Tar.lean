import Sphynx.Dev.Tty
import Sphynx.Lib.Loop
import Sphynx.Stdlib.String

/-!
# The tar reader (`tar.hpp`, `tar.cpp`)

`buffer` is the memory from the archive's start on and `size` the length the caller passes with it;
pointers into the archive are offsets from its start. A `%s` argument is read, up to its NUL, where
the logging call is made.
-/

namespace Sphynx.Stdlib
open Lib Dev External

def tarBlockSize : UInt32 := 512

/-! Offsets of the fields of `struct tar_header` that the reader looks at. -/

def sizeField : Nat := 124
def typeflagField : Nat := 156

/-- `File`; `none` is the null pointer. -/
structure File where
  name : Option Nat := none
  size : UInt32 := 0
  data : Option Nat := none
  isDirectory : Bool := false
deriving DecidableEq, Repr

/-- The loop of `octal_to_decimal`. `char` is signed: bytes from 128 on count as negative. -/
def octalLoop (result : UInt32) : List UInt8 → Except Fault UInt32
  | [] => .error .outOfBounds
  | c :: octalStr =>
      if c = 0 then .ok result
      else octalLoop ((result <<< 3) + (c.toInt8.toInt32 - 48).toUInt32) octalStr

def octalToDecimal (octalStr : List UInt8) : Except Fault UInt32 := octalLoop 0 octalStr

def advance (fileSize : UInt32) : UInt32 :=
  tarBlockSize + ((fileSize + tarBlockSize - 1) / tarBlockSize) * tarBlockSize

/-! ## `list_dir_tar` -/

inductive Listed where
  | directory (name : List UInt8)
  | file (name : List UInt8) (bytes : UInt32)
deriving DecidableEq, Repr

def Listed.of (name : List UInt8) (fileSize : UInt32) (typeflag : UInt8) : Listed :=
  if typeflag = chr '5' then .directory name else .file name fileSize

def Listed.name : Listed → List UInt8
  | .directory name | .file name _ => name

def Listed.logCall : Listed → LogCall
  | .directory name => ⟨.ok, ascii "- Directory: %s\n", [.str name]⟩
  | .file name bytes =>
      ⟨.ok, ascii "- File: %s (%u bytes)\n", [.str name, .word bytes.toUInt64]⟩

def listDirTarTurn (buffer : List UInt8) (size : Nat) (state : Nat × List Listed) :
    Except Fault (Turn (Nat × List Listed) (List Listed)) := do
  let (ptr, logged) := state
  if ptr < size then
    let header := buffer.drop ptr
    if (← deref header) = 0 then
      return .leave logged
    let fileSize ← octalToDecimal (header.drop sizeField)
    let typeflag ← deref (header.drop typeflagField)
    let name ← cstr header
    return .again (ptr + (advance fileSize).toNat, logged ++ [Listed.of name fileSize typeflag])
  else
    return .leave logged

def listDirTar (fuel : Nat) (buffer : List UInt8) (size : Nat) :
    Option (Except Fault (List Listed)) :=
  loop (listDirTarTurn buffer size) fuel (0, [])

def listingCalls (entries : List Listed) : List LogCall :=
  [⟨.ok, ascii "---------------\n", []⟩, ⟨.ok, ascii "Listing contents:\n", []⟩] ++
    entries.map Listed.logCall ++ [⟨.ok, ascii "---------------\n", []⟩]

/-! ## `get_file_tar` -/

def tarLogger : Logger := { name := ascii "TarParser" }

def foundFile (ptr : Nat) (fileSize : UInt32) (typeflag : UInt8) : File :=
  { name := some ptr
    size := fileSize
    data := some (ptr + tarBlockSize.toNat)
    isDirectory := typeflag = chr '5' }

/-- One turn of the loop of `get_file_tar`; it leaves with `none` where the source falls out of the
loop. -/
def getFileTarTurn (buffer : List UInt8) (size : Nat) (path : List UInt8) (ptr : Nat) :
    Except Fault (Turn Nat (Option File)) := do
  if ptr < size then
    let header := buffer.drop ptr
    if (← deref header) = 0 then
      return .leave none
    let fileSize ← octalToDecimal (header.drop sizeField)
    let typeflag ← deref (header.drop typeflagField)
    if (← strcmp header path) = 0 then
      return .leave (some (foundFile ptr fileSize typeflag))
    return .again (ptr + (advance fileSize).toNat)
  else
    return .leave none

def failedToFind (path : List UInt8) : LogCall :=
  ⟨.error, ascii "Failed to find \"%s\"\n", [.str path]⟩

def getFileTarExit (path : List UInt8) : Option File → Except Fault (File × List LogCall)
  | some file => .ok (file, [])
  | none => do return ({}, [failedToFind (← cstr path)])

def getFileTar (fuel : Nat) (buffer : List UInt8) (size : Nat) (path : List UInt8) :
    Option (Except Fault (File × List LogCall)) :=
  (loop (getFileTarTurn buffer size path) fuel 0).map (· >>= getFileTarExit path)

/-! ## One turn of either loop -/

/-- A header that a turn reads whole: it lies before the end, is not blank, and its size field and
typeflag can be read. -/
structure HeaderAt (buffer : List UInt8) (size ptr : Nat) (fileSize : UInt32) (typeflag : UInt8) :
    Prop where
  inside : ptr < size
  nonblank : ∃ c, buffer[ptr]? = some c ∧ c ≠ 0
  sizeRead : octalToDecimal (buffer.drop (ptr + sizeField)) = .ok fileSize
  typeRead : buffer[ptr + typeflagField]? = some typeflag

def NoHeaderAt (buffer : List UInt8) (size ptr : Nat) : Prop :=
  size ≤ ptr ∨ buffer[ptr]? = some 0

variable {buffer path name : List UInt8} {size ptr ptr' : Nat} {s s' : UInt32} {t t' : UInt8}
  {logged logged' : List Listed}

theorem HeaderAt.unique (h : HeaderAt buffer size ptr s t) (h' : HeaderAt buffer size ptr s' t') :
    s = s' ∧ t = t' :=
  ⟨Except.ok.inj (h.sizeRead.symm.trans h'.sizeRead),
    Option.some.inj (h.typeRead.symm.trans h'.typeRead)⟩

theorem HeaderAt.not_none (h : HeaderAt buffer size ptr s t) : ¬ NoHeaderAt buffer size ptr := by
  obtain ⟨c, head, nonzero⟩ := h.nonblank
  rintro (outside | blank)
  · exact absurd h.inside (by omega)
  · rw [head, Option.some.injEq] at blank
    exact nonzero blank

theorem octalLoop_ok_iff (result : UInt32) (p : List UInt8) :
    (∃ s, octalLoop result p = .ok s) ↔ 0 ∈ p := by
  induction p generalizing result with
  | nil => simp [octalLoop]
  | cons c p ih =>
      by_cases zero : c = 0
      · simp [octalLoop, zero]
      · simp only [octalLoop, if_neg zero, ih, List.mem_cons, Ne.symm zero, false_or]

theorem HeaderAt.nul_mem (h : HeaderAt buffer size ptr s t) : 0 ∈ buffer.drop ptr := by
  have field : 0 ∈ buffer.drop (ptr + sizeField) := (octalLoop_ok_iff 0 _).mp ⟨s, h.sizeRead⟩
  rw [← List.drop_drop] at field
  exact List.mem_of_mem_drop field

theorem HeaderAt.name_ok (h : HeaderAt buffer size ptr s t) :
    ∃ name, cstr (buffer.drop ptr) = .ok name :=
  cstr_ok_iff.mpr h.nul_mem

/-- A header is there, but the bytes up to its typeflag or up to the NUL of its size field run past
the memory. -/
def CutAt (buffer : List UInt8) (size ptr : Nat) : Prop :=
  ¬ NoHeaderAt buffer size ptr ∧ ∀ s t, ¬ HeaderAt buffer size ptr s t

theorem header_cases (buffer : List UInt8) (size ptr : Nat) :
    NoHeaderAt buffer size ptr ∨ (∃ s t, HeaderAt buffer size ptr s t) ∨ CutAt buffer size ptr := by
  by_cases none : NoHeaderAt buffer size ptr
  · exact Or.inl none
  · by_cases whole : ∃ s t, HeaderAt buffer size ptr s t
    · exact Or.inr (Or.inl whole)
    · exact Or.inr (Or.inr ⟨none, fun s t h => whole ⟨s, t, h⟩⟩)

def readHeader (buffer : List UInt8) (ptr : Nat) : Except Fault (UInt32 × UInt8) := do
  let fileSize ← octalToDecimal ((buffer.drop ptr).drop sizeField)
  let typeflag ← deref ((buffer.drop ptr).drop typeflagField)
  return (fileSize, typeflag)

theorem readHeader_eq_ok : readHeader buffer ptr = .ok (s, t) ↔
    octalToDecimal (buffer.drop (ptr + sizeField)) = .ok s ∧
      buffer[ptr + typeflagField]? = some t := by
  unfold readHeader
  rw [List.drop_drop, List.drop_drop]
  simp [bind_eq_ok, deref_drop_eq_ok, pure, Except.pure]

theorem HeaderAt.readHeader (h : HeaderAt buffer size ptr s t) :
    readHeader buffer ptr = .ok (s, t) :=
  readHeader_eq_ok.mpr ⟨h.sizeRead, h.typeRead⟩

theorem CutAt.readHeader (h : CutAt buffer size ptr) {c : UInt8}
    (head : deref (buffer.drop ptr) = .ok c) : ∃ e, readHeader buffer ptr = .error e := by
  cases read : Stdlib.readHeader buffer ptr with
  | error e => exact ⟨e, rfl⟩
  | ok pair =>
      obtain ⟨s, t⟩ := pair
      obtain ⟨sizeRead, typeRead⟩ := readHeader_eq_ok.mp read
      rw [deref_drop_eq_ok] at head
      have inside : ptr < size := by
        by_contra outside
        exact h.1 (Or.inl (by omega))
      have nonzero : c ≠ 0 := fun zero => h.1 (Or.inr (zero ▸ head))
      exact absurd ⟨inside, ⟨c, head, nonzero⟩, sizeRead, typeRead⟩ (h.2 s t)

theorem listDirTarTurn_eq (buffer : List UInt8) (size ptr : Nat) (logged : List Listed) :
    listDirTarTurn buffer size (ptr, logged) =
      if ptr < size then do
        if (← deref (buffer.drop ptr)) = 0 then return .leave logged
        let (fileSize, typeflag) ← readHeader buffer ptr
        let name ← cstr (buffer.drop ptr)
        return .again (ptr + (advance fileSize).toNat, logged ++ [Listed.of name fileSize typeflag])
      else return .leave logged := by
  unfold listDirTarTurn readHeader
  simp only [bind_assoc, pure_bind]

theorem getFileTarTurn_eq (buffer path : List UInt8) (size ptr : Nat) :
    getFileTarTurn buffer size path ptr =
      if ptr < size then do
        if (← deref (buffer.drop ptr)) = 0 then return .leave none
        let (fileSize, typeflag) ← readHeader buffer ptr
        if (← strcmp (buffer.drop ptr) path) = 0 then
          return .leave (some (foundFile ptr fileSize typeflag))
        return .again (ptr + (advance fileSize).toNat)
      else return .leave none := by
  unfold getFileTarTurn readHeader
  simp only [bind_assoc, pure_bind]

theorem guarded_eq {α : Type} (h : ¬ NoHeaderAt buffer size ptr) (stop : Except Fault α)
    (rest : Except Fault α) :
    (if ptr < size then do
        if (← deref (buffer.drop ptr)) = 0 then stop else rest
      else stop) = deref (buffer.drop ptr) >>= fun _ => rest := by
  have inside : ptr < size := by
    by_contra outside
    exact h (Or.inl (by omega))
  rw [if_pos inside]
  cases head : deref (buffer.drop ptr) with
  | error e => rfl
  | ok c =>
      have nonzero : c ≠ 0 := fun zero => h (Or.inr (deref_drop_eq_ok.mp (zero ▸ head)))
      simp only [bind, Except.bind, if_neg nonzero]

theorem guarded_stop {α : Type} (h : NoHeaderAt buffer size ptr) (stop : Except Fault α)
    (rest : Except Fault α) :
    (if ptr < size then do
        if (← deref (buffer.drop ptr)) = 0 then stop else rest
      else stop) = stop := by
  by_cases inside : ptr < size
  · have blank := deref_drop_eq_ok.mpr (h.resolve_left (by omega))
    rw [if_pos inside, blank]
    rfl
  · rw [if_neg inside]

theorem CutAt.reads_fail {α : Type} (h : CutAt buffer size ptr)
    (rest : UInt32 × UInt8 → Except Fault α) :
    ∃ e, (deref (buffer.drop ptr) >>= fun _ => Stdlib.readHeader buffer ptr >>= rest) =
      .error e := by
  cases head : deref (buffer.drop ptr) with
  | error e => exact ⟨e, rfl⟩
  | ok c =>
      obtain ⟨e, cut⟩ := h.readHeader head
      exact ⟨e, by rw [cut]; rfl⟩

theorem listDirTarTurn_none (h : NoHeaderAt buffer size ptr) (logged : List Listed) :
    listDirTarTurn buffer size (ptr, logged) = .ok (.leave logged) := by
  rw [listDirTarTurn_eq]
  exact guarded_stop h _ _

theorem getFileTarTurn_none (h : NoHeaderAt buffer size ptr) (path : List UInt8) :
    getFileTarTurn buffer size path ptr = .ok (.leave none) := by
  rw [getFileTarTurn_eq]
  exact guarded_stop h _ _

theorem listDirTarTurn_header (h : HeaderAt buffer size ptr s t)
    (named : cstr (buffer.drop ptr) = .ok name) (logged : List Listed) :
    listDirTarTurn buffer size (ptr, logged) =
      .ok (.again (ptr + (advance s).toNat, logged ++ [Listed.of name s t])) := by
  obtain ⟨c, head, -⟩ := h.nonblank
  rw [listDirTarTurn_eq, guarded_eq h.not_none, deref_drop_eq_ok.mpr head, h.readHeader]
  simp only [bind, Except.bind, named]
  rfl

theorem listDirTarTurn_cut (h : CutAt buffer size ptr) (logged : List Listed) :
    ∃ e, listDirTarTurn buffer size (ptr, logged) = .error e := by
  rw [listDirTarTurn_eq, guarded_eq h.1]
  exact h.reads_fail _

def NamedAt (buffer : List UInt8) (ptr : Nat) (path : CString) : Prop :=
  path.chars ++ [0] <+: buffer.drop ptr

section
variable {path : CString} {after : List UInt8}

theorem getFileTarTurn_found (h : HeaderAt buffer size ptr s t) (named : NamedAt buffer ptr path) :
    getFileTarTurn buffer size (path.stored after) ptr =
      .ok (.leave (some (foundFile ptr s t))) := by
  obtain ⟨c, head, -⟩ := h.nonblank
  have equal := (strcmp_eq_zero_iff _ path after).mpr named
  rw [getFileTarTurn_eq, guarded_eq h.not_none, deref_drop_eq_ok.mpr head, h.readHeader]
  simp only [bind, Except.bind, equal]
  rfl

theorem getFileTarTurn_other (h : HeaderAt buffer size ptr s t)
    (other : ¬ NamedAt buffer ptr path) :
    getFileTarTurn buffer size (path.stored after) ptr =
      .ok (.again (ptr + (advance s).toNat)) := by
  obtain ⟨c, head, -⟩ := h.nonblank
  obtain ⟨r, compared⟩ := strcmp_ok _ path after (Or.inl h.nul_mem)
  have differ : r ≠ 0 := by
    rintro rfl
    exact other ((strcmp_eq_zero_iff _ path after).mp compared)
  rw [getFileTarTurn_eq, guarded_eq h.not_none, deref_drop_eq_ok.mpr head, h.readHeader]
  simp only [bind, Except.bind, compared, if_neg differ]
  rfl

theorem getFileTarTurn_cut (h : CutAt buffer size ptr) (path : List UInt8) :
    ∃ e, getFileTarTurn buffer size path ptr = .error e := by
  rw [getFileTarTurn_eq, guarded_eq h.1]
  exact h.reads_fail _

theorem listDirTarTurn_again_iff {state : Nat × List Listed} :
    Again (listDirTarTurn buffer size) (ptr, logged) state ↔
      ∃ s t name, HeaderAt buffer size ptr s t ∧ cstr (buffer.drop ptr) = .ok name ∧
        state = (ptr + (advance s).toNat, logged ++ [Listed.of name s t]) := by
  constructor
  · intro again
    unfold Again at again
    rcases header_cases buffer size ptr with none | ⟨s, t, header⟩ | cut
    · rw [listDirTarTurn_none none] at again
      cases again
    · obtain ⟨name, named⟩ := header.name_ok
      rw [listDirTarTurn_header header named] at again
      cases again
      exact ⟨s, t, name, header, named, rfl⟩
    · obtain ⟨e, error⟩ := listDirTarTurn_cut cut logged
      rw [error] at again
      cases again
  · rintro ⟨s, t, name, header, named, rfl⟩
    exact listDirTarTurn_header header named logged

theorem getFileTarTurn_again_iff :
    Again (getFileTarTurn buffer size (path.stored after)) ptr ptr' ↔
      ∃ s t, HeaderAt buffer size ptr s t ∧ ¬ NamedAt buffer ptr path ∧
        ptr' = ptr + (advance s).toNat := by
  constructor
  · intro again
    unfold Again at again
    rcases header_cases buffer size ptr with none | ⟨s, t, header⟩ | cut
    · rw [getFileTarTurn_none none] at again
      cases again
    · by_cases named : NamedAt buffer ptr path
      · rw [getFileTarTurn_found header named] at again
        cases again
      · rw [getFileTarTurn_other header named] at again
        cases again
        exact ⟨s, t, header, named, rfl⟩
    · obtain ⟨e, error⟩ := getFileTarTurn_cut cut (path.stored after)
      rw [error] at again
      cases again
  · rintro ⟨s, t, header, other, rfl⟩
    exact getFileTarTurn_other header other

end

end Sphynx.Stdlib
