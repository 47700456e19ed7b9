import Mathlib.Tactic.Ring
import Mathlib.Data.Nat.ModEq
import Sphynx.Stdlib.Data.TarListing

/-!
# Archives

The ustar format itself, independent of the reader: headers in the layout of `struct tar_header`,
members with their contents, and archives closed by two zero blocks. The lookup in an archive finds
the first member of the requested name.
-/

namespace Sphynx.Stdlib
open Lib Dev External

/-! ## Headers -/

abbrev Field (n : Nat) := { bytes : List UInt8 // bytes.length = n }

@[simp]
theorem Field.length_val {n : Nat} (f : Field n) : f.val.length = n := f.property

structure TarHeader where
  name : Field 100
  mode : Field 8
  uid : Field 8
  gid : Field 8
  size : Field 12
  mtime : Field 12
  chksum : Field 8
  typeflag : UInt8
  linkname : Field 100
  magic : Field 6
  version : Field 2
  uname : Field 32
  gname : Field 32
  devmajor : Field 8
  devminor : Field 8
  pathPrefix : Field 155
  pad : Field 12

namespace TarHeader
variable (h : TarHeader)

def afterSize : List UInt8 :=
  h.mtime.val ++ h.chksum.val ++ h.typeflag :: h.linkname.val ++ h.magic.val ++ h.version.val ++
    h.uname.val ++ h.gname.val ++ h.devmajor.val ++ h.devminor.val ++ h.pathPrefix.val ++ h.pad.val

def afterName : List UInt8 := h.mode.val ++ h.uid.val ++ h.gid.val ++ h.size.val ++ h.afterSize

def bytes : List UInt8 := h.name.val ++ h.afterName

theorem length_bytes : h.bytes.length = 512 := by
  simp only [bytes, afterName, afterSize, List.length_append, List.length_cons, Field.length_val]

theorem bytes_drop_size : h.bytes.drop sizeField = h.size.val ++ h.afterSize := by
  have front : h.bytes =
      (h.name.val ++ h.mode.val ++ h.uid.val ++ h.gid.val) ++ (h.size.val ++ h.afterSize) := by
    simp only [bytes, afterName, List.append_assoc]
  rw [front]
  apply List.drop_left'
  simp only [List.length_append, Field.length_val, sizeField]

theorem bytes_typeflag : h.bytes[typeflagField]? = some h.typeflag := by
  have front : h.bytes =
      (h.name.val ++ h.mode.val ++ h.uid.val ++ h.gid.val ++ h.size.val ++ h.mtime.val ++
        h.chksum.val) ++ h.typeflag :: (h.linkname.val ++ h.magic.val ++ h.version.val ++
          h.uname.val ++ h.gname.val ++ h.devmajor.val ++ h.devminor.val ++ h.pathPrefix.val ++
          h.pad.val) := by
    simp only [bytes, afterName, afterSize, List.append_assoc, List.cons_append]
  have length : (h.name.val ++ h.mode.val ++ h.uid.val ++ h.gid.val ++ h.size.val ++ h.mtime.val ++
      h.chksum.val).length = typeflagField := by
    simp only [List.length_append, Field.length_val, typeflagField]
  rw [front, List.getElem?_append_right (by rw [length]), length]
  rfl

end TarHeader

/-! ## Octal size fields -/

def octalText : Nat → Nat → List UInt8
  | 0, _ => []
  | digits + 1, n => (chr '0' + (n / 8 ^ digits % 8).toUInt8) :: octalText digits n

@[simp]
theorem length_octalText (digits n : Nat) : (octalText digits n).length = digits := by
  induction digits with
  | zero => rfl
  | succ digits ih => rw [octalText, List.length_cons, ih]

theorem octal_digit (d : Nat) (h : d < 8) :
    chr '0' + d.toUInt8 ≠ 0 ∧
      ((chr '0' + d.toUInt8).toInt8.toInt32 - 48).toUInt32 = d.toUInt32 := by
  have all : ∀ d : Fin 8, chr '0' + d.val.toUInt8 ≠ 0 ∧
      ((chr '0' + d.val.toUInt8).toInt8.toInt32 - 48).toUInt32 = d.val.toUInt32 := by decide
  exact all ⟨d, h⟩

theorem octalLoop_octalText (digits n : Nat) (result : UInt32) (rest : List UInt8) :
    ∃ s, octalLoop result (octalText digits n ++ 0 :: rest) = .ok s ∧
      s.toNat = (result.toNat * 8 ^ digits + n % 8 ^ digits) % 2 ^ 32 := by
  -- The accumulator holds the digits read so far; what is left to read are the lower ones.
  induction digits generalizing result with
  | zero =>
      refine ⟨result, by simp [octalText, octalLoop], ?_⟩
      have := result.toNat_lt
      simp only [pow_zero, Nat.mod_one]
      omega
  | succ digits ih =>
      have small : n / 8 ^ digits % 8 < 8 := Nat.mod_lt _ (by omega)
      obtain ⟨nonzero, value⟩ := octal_digit _ small
      generalize digit : n / 8 ^ digits % 8 = d at small nonzero value
      obtain ⟨s, run, decoded⟩ := ih ((result <<< 3) + d.toUInt32)
      refine ⟨s, ?_, ?_⟩
      · rw [octalText, List.cons_append, octalLoop, digit, if_neg nonzero, value]
        exact run
      · have shifted : ((result <<< 3) + d.toUInt32).toNat = (result.toNat * 8 + d) % 2 ^ 32 := by
          rw [UInt32.toNat_add, UInt32.toNat_shiftLeft, Nat.toUInt32_eq, UInt32.toNat_ofNat']
          simp only [UInt32.reduceToNat, Nat.reduceMod, Nat.shiftLeft_eq]
          omega
        have split : n % 8 ^ (digits + 1) = n % 8 ^ digits + 8 ^ digits * d := by
          rw [Nat.mod_pow_succ, digit]
        rw [decoded, shifted, split]
        have wrap : (result.toNat * 8 + d) % 2 ^ 32 * 8 ^ digits ≡
            (result.toNat * 8 + d) * 8 ^ digits [MOD 2 ^ 32] :=
          (Nat.mod_modEq _ _).mul_right _
        have total := wrap.add_right (n % 8 ^ digits)
        rw [Nat.ModEq] at total
        rw [total]
        congr 1
        ring

theorem octalToDecimal_octalText {digits n : Nat} (h : n < 8 ^ digits) (rest : List UInt8) :
    octalToDecimal (octalText digits n ++ 0 :: rest) = .ok n.toUInt32 := by
  obtain ⟨s, run, decoded⟩ := octalLoop_octalText digits n 0 rest
  have value : s = n.toUInt32 := by
    apply UInt32.toNat_inj.mp
    rw [decoded, Nat.toUInt32_eq, UInt32.toNat_ofNat', Nat.mod_eq_of_lt h]
    simp
  rw [octalToDecimal, run, value]

/-! ## Entries and images -/

def blocks (n : Nat) : Nat := (n + 511) / 512

def paddedContent (content : List UInt8) : List UInt8 :=
  content ++ List.replicate (512 * blocks content.length - content.length) 0

/-- A header and the content it declares: the name is not empty, the size an octal number that a NUL
ends. -/
structure Entry where
  header : TarHeader
  content : List UInt8
  nonblank : header.name.val.head? ≠ some 0
  sized : ∃ digits after, header.size.val = octalText digits content.length ++ 0 :: after ∧
    content.length < 8 ^ digits

namespace Entry
variable (e : Entry)

def name : List UInt8 := e.header.name.val.takeWhile (· ≠ 0)

def bytes : List UInt8 := e.header.bytes ++ paddedContent e.content

def length : Nat := 512 + 512 * blocks e.content.length

theorem length_bytes : e.bytes.length = e.length := by
  simp only [bytes, paddedContent, length, List.length_append, TarHeader.length_bytes,
    List.length_replicate, blocks]
  omega

theorem name_nonzero : 0 ∉ e.name := by
  intro member
  have nonzero := List.all_eq_true.mp List.all_takeWhile 0 member
  simp at nonzero

theorem name_field :
    e.header.name.val = e.name ∨ ∃ after, e.header.name.val = e.name ++ 0 :: after := by
  have split : e.name ++ e.header.name.val.dropWhile (· ≠ 0) = e.header.name.val :=
    List.takeWhile_append_dropWhile
  cases tail : e.header.name.val.dropWhile (· ≠ 0) with
  | nil =>
      rw [tail, List.append_nil] at split
      exact Or.inl split.symm
  | cons c after =>
      have zero : c = 0 := by
        have stop := List.head?_dropWhile_not (· ≠ 0) e.header.name.val
        rw [tail] at stop
        simpa using stop
      rw [tail, zero] at split
      exact Or.inr ⟨after, split.symm⟩

end Entry

def image (entries : List Entry) : List UInt8 :=
  entries.flatMap Entry.bytes ++ List.replicate 1024 0

def offsetBehind (before : List Entry) : Nat := (before.map Entry.length).sum

theorem length_flatMap_bytes (before : List Entry) :
    (before.flatMap Entry.bytes).length = offsetBehind before := by
  induction before with
  | nil => rfl
  | cons e before ih =>
      rw [List.flatMap_cons, List.length_append, e.length_bytes, ih]
      rfl

theorem image_drop (before rest : List Entry) :
    (image (before ++ rest)).drop (offsetBehind before) = image rest := by
  unfold image
  rw [List.flatMap_append, List.append_assoc]
  exact List.drop_left' (length_flatMap_bytes before)

theorem image_cons (e : Entry) (rest : List Entry) : image (e :: rest) = e.bytes ++ image rest := by
  rw [image, List.flatMap_cons, List.append_assoc]
  rfl

/-! ## The walk over an image -/

variable {buffer : List UInt8} {size ptr : Nat} {e : Entry} {rest : List UInt8} {path : CString}
  {after : List UInt8} {entries : List Entry}

theorem drop_of_drop_eq {n : Nat} {front : List UInt8} (here : buffer.drop ptr = front ++ rest)
    (inside : n ≤ front.length) : buffer.drop (ptr + n) = front.drop n ++ rest := by
  rw [← List.drop_drop, here, List.drop_append_of_le_length inside]

theorem Entry.octalToDecimal_size (e : Entry) (rest : List UInt8) :
    octalToDecimal (e.header.size.val ++ rest) = .ok e.content.length.toUInt32 := by
  obtain ⟨digits, after, field, small⟩ := e.sized
  rw [field, List.append_assoc]
  exact octalToDecimal_octalText small _

theorem Entry.headerAt (here : buffer.drop ptr = e.bytes ++ rest) (inside : ptr < size) :
    HeaderAt buffer size ptr e.content.length.toUInt32 e.header.typeflag := by
  have front : buffer.drop ptr = e.header.bytes ++ (paddedContent e.content ++ rest) := by
    rw [here, Entry.bytes, List.append_assoc]
  obtain ⟨c, name, named⟩ : ∃ c name, e.header.name.val = c :: name :=
    List.exists_cons_of_length_pos (by rw [Field.length_val]; decide)
  have nonblank := e.nonblank
  rw [named, List.head?_cons, ne_eq, Option.some.injEq] at nonblank
  refine ⟨inside, ⟨c, ?_, nonblank⟩, ?_, ?_⟩
  · rw [← List.head?_drop, here]
    simp [Entry.bytes, TarHeader.bytes, named]
  · rw [drop_of_drop_eq front (by rw [TarHeader.length_bytes]; decide),
      TarHeader.bytes_drop_size, List.append_assoc]
    exact e.octalToDecimal_size _
  · have flag := e.header.bytes_typeflag
    rw [← List.head?_drop] at flag ⊢
    rw [drop_of_drop_eq front (by rw [TarHeader.length_bytes]; decide), List.head?_append, flag]
    rfl

/-- A path shorter than the name field begins with no whole field. -/
theorem Entry.field_apart (e : Entry) (short : path.chars.length < 100) :
    ¬ e.header.name.val <+: path.chars := by
  intro inPath
  have width : e.header.name.val.length = 100 := Field.length_val _
  have fits := inPath.length_le
  omega

theorem Entry.namedAt_iff (here : buffer.drop ptr = e.bytes ++ rest)
    (field : 0 ∈ e.header.name.val ∨ ¬ e.header.name.val <+: path.chars) :
    NamedAt buffer ptr path ↔ e.name = path.chars := by
  have front : buffer.drop ptr =
      e.header.name.val ++ (e.header.afterName ++ (paddedContent e.content ++ rest)) := by
    rw [here]
    simp only [Entry.bytes, TarHeader.bytes, List.append_assoc]
  unfold NamedAt
  rcases e.name_field with filled | ⟨padding, terminated⟩
  · have unterminated : 0 ∉ e.header.name.val := by
      rw [filled]
      exact e.name_nonzero
    have apart := field.resolve_left unterminated
    constructor
    · intro starts
      rw [front] at starts
      rcases Nat.lt_or_ge path.chars.length e.header.name.val.length with shorter | longer
      · have inName : path.chars ++ [0] <+: e.header.name.val :=
          List.prefix_of_prefix_length_le starts (List.prefix_append _ _)
            (by rw [List.length_append]; exact shorter)
        exact absurd (inName.subset (by simp)) unterminated
      · have inPath : e.header.name.val <+: path.chars :=
          List.prefix_of_prefix_length_le (List.prefix_append _ _)
            ((List.prefix_append _ _).trans starts) longer
        exact absurd inPath apart
    · intro same
      refine absurd ?_ apart
      rw [filled, same]
  · rw [front, terminated, List.append_assoc, List.cons_append,
      terminated_prefix_iff path.nonzero e.name_nonzero]
    exact eq_comm

theorem exactAdvance_eq_length (fits : e.content.length ≤ maxStep) :
    ptr + (advance e.content.length.toUInt32).toNat = ptr + e.length := by
  have value : e.content.length.toUInt32.toNat = e.content.length := by
    rw [Nat.toUInt32_eq, UInt32.toNat_ofNat']
    unfold maxStep at fits
    omega
  have exact : advanceNat e.content.length.toUInt32 = exactAdvance e.content.length.toUInt32 :=
    (advanceNat_eq_exact_iff _).mpr (by rw [value]; exact fits)
  change ptr + advanceNat _ = _
  rw [exact, exactAdvance, value]
  rfl

theorem noHeaderAt_end (here : buffer.drop ptr = image []) : NoHeaderAt buffer size ptr := by
  apply Or.inr
  rw [← List.head?_drop, here]
  rfl

def lookup (path : CString) : Nat → List Entry → Option File
  | _, [] => none
  | ptr, e :: entries =>
      if e.name = path.chars then
        some (foundFile ptr e.content.length.toUInt32 e.header.typeflag)
      else lookup path (ptr + e.length) entries

/-- What the walk asks of an entry it may step over or compare with `path`. -/
structure Entry.Passable (e : Entry) (path : CString) : Prop where
  fits : e.content.length ≤ maxStep
  field : 0 ∈ e.header.name.val ∨ ¬ e.header.name.val <+: path.chars

theorem image_before_end (here : buffer.drop ptr = image entries) (inside : buffer.length ≤ size) :
    ptr < size := by
  have length := congrArg List.length here
  simp only [List.length_drop, image, List.length_append, List.length_replicate] at length
  omega

section
variable (after) (here : buffer.drop ptr = image (e :: entries)) (inside : buffer.length ≤ size)
include here inside

theorem Entry.turn_found (field : 0 ∈ e.header.name.val ∨ ¬ e.header.name.val <+: path.chars)
    (named : e.name = path.chars) :
    getFileTarTurn buffer size (path.stored after) ptr =
      .ok (.leave (some (foundFile ptr e.content.length.toUInt32 e.header.typeflag))) := by
  have before := image_before_end here inside
  rw [image_cons] at here
  exact getFileTarTurn_found (Entry.headerAt here before) ((Entry.namedAt_iff here field).mpr named)

theorem Entry.turn_other (passable : e.Passable path) (other : e.name ≠ path.chars) :
    Again (getFileTarTurn buffer size (path.stored after)) ptr (ptr + e.length) ∧
      buffer.drop (ptr + e.length) = image entries := by
  have before := image_before_end here inside
  rw [image_cons] at here
  obtain ⟨fits, field⟩ := passable
  constructor
  · rw [← exactAdvance_eq_length fits]
    exact getFileTarTurn_other (Entry.headerAt here before)
      (mt (Entry.namedAt_iff here field).mp other)
  · rw [← List.drop_drop, here, List.drop_left' e.length_bytes]

end

theorem lookup_ends (after : List UInt8) (entries : List Entry)
    (here : buffer.drop ptr = image entries) (inside : buffer.length ≤ size)
    (passable : ∀ e ∈ entries, e.Passable path) :
    Ends (getFileTarTurn buffer size (path.stored after)) ptr (.ok (lookup path ptr entries)) := by
  -- Induction on the entries still ahead; the pointer stands at the first of them.
  induction entries generalizing ptr with
  | nil => exact ends_leave (getFileTarTurn_none (noHeaderAt_end here) _)
  | cons e entries ih =>
      unfold lookup
      by_cases same : e.name = path.chars
      · rw [if_pos same]
        exact ends_leave (Entry.turn_found after here inside (passable e (by simp)).field same)
      · rw [if_neg same]
        obtain ⟨again, next⟩ := Entry.turn_other after here inside (passable e (by simp)) same
        exact again.ends_iff.mpr (ih next fun e member => passable e (by simp [member]))

theorem reaches_behind (after : List UInt8) (earlier later : List Entry)
    (here : buffer.drop ptr = image (earlier ++ later)) (inside : buffer.length ≤ size)
    (passable : ∀ b ∈ earlier, b.Passable path) (other : ∀ b ∈ earlier, b.name ≠ path.chars) :
    Reaches (getFileTarTurn buffer size (path.stored after)) ptr (ptr + offsetBehind earlier) := by
  induction earlier generalizing ptr with
  | nil => exact .refl
  | cons b earlier ih =>
      obtain ⟨again, next⟩ := Entry.turn_other after here inside (passable b (by simp))
        (other b (by simp))
      have rest := ih next (fun b member => passable b (by simp [member]))
        fun b member => other b (by simp [member])
      rw [Nat.add_assoc] at rest
      exact .head again rest

theorem lookup_eq_none (other : ∀ e ∈ entries, e.name ≠ path.chars) :
    lookup path ptr entries = none := by
  induction entries generalizing ptr with
  | nil => rfl
  | cons e entries ih =>
      rw [lookup, if_neg (other e (by simp))]
      exact ih fun e member => other e (by simp [member])

/-! ## Members

Entries as `tar` writes them.
-/

structure Attributes where
  mode : Field 8
  uid : Field 8
  gid : Field 8
  mtime : Field 12
  chksum : Field 8
  linkname : Field 100
  magic : Field 6
  version : Field 2
  uname : Field 32
  gname : Field 32
  devmajor : Field 8
  devminor : Field 8
  pad : Field 12

structure Member where
  name : List UInt8
  pathPrefix : List UInt8
  typeflag : UInt8
  content : List UInt8
  attributes : Attributes
  name_pos : 0 < name.length
  name_le : name.length ≤ 100
  name_nonzero : 0 ∉ name
  pathPrefix_le : pathPrefix.length ≤ 155
  pathPrefix_nonzero : 0 ∉ pathPrefix
  content_lt : content.length < 8 ^ 11

def padded (n : Nat) (bytes : List UInt8) (h : bytes.length ≤ n) : Field n :=
  ⟨bytes ++ List.replicate (n - bytes.length) 0, by simp; omega⟩

namespace Member
variable (m : Member)

def header : TarHeader where
  name := padded 100 m.name m.name_le
  mode := m.attributes.mode
  uid := m.attributes.uid
  gid := m.attributes.gid
  size := ⟨octalText 11 m.content.length ++ [0], by simp⟩
  mtime := m.attributes.mtime
  chksum := m.attributes.chksum
  typeflag := m.typeflag
  linkname := m.attributes.linkname
  magic := m.attributes.magic
  version := m.attributes.version
  uname := m.attributes.uname
  gname := m.attributes.gname
  devmajor := m.attributes.devmajor
  devminor := m.attributes.devminor
  pathPrefix := padded 155 m.pathPrefix m.pathPrefix_le
  pad := m.attributes.pad

theorem head_name : m.header.name.val.head? ≠ some 0 := by
  obtain ⟨c, name, named⟩ : ∃ c name, m.name = c :: name :=
    List.exists_cons_of_length_pos m.name_pos
  have clean := m.name_nonzero
  rw [named, List.mem_cons, not_or] at clean
  simp [header, padded, named, Ne.symm clean.1]

def toEntry : Entry where
  header := m.header
  content := m.content
  nonblank := m.head_name
  sized := ⟨11, [], rfl, m.content_lt⟩

@[simp]
theorem name_toEntry : m.toEntry.name = m.name := by
  have clean : ∀ c ∈ m.name, decide (c ≠ 0) = true := by
    intro c member
    have : c ≠ 0 := fun zero => m.name_nonzero (zero ▸ member)
    simpa using this
  unfold Entry.name
  change List.takeWhile _ (m.name ++ List.replicate (100 - m.name.length) 0) = m.name
  rw [List.takeWhile_append_of_pos clean]
  cases 100 - m.name.length <;> simp [List.replicate_succ]

theorem terminated (short : m.name.length ≤ 99) : 0 ∈ m.toEntry.header.name.val := by
  change 0 ∈ m.name ++ List.replicate (100 - m.name.length) 0
  rw [List.mem_append, List.mem_replicate]
  exact Or.inr ⟨by omega, rfl⟩

end Member

def archive (members : List Member) : List UInt8 := image (members.map Member.toEntry)

def offsetAfter (before : List Member) : Nat := offsetBehind (before.map Member.toEntry)

end Sphynx.Stdlib
