import Sphynx.Stdlib.Data.TarArchive

/-!
# Lookup in a written archive

`get_file_tar` undoes writing: it answers with the first member of the name asked for. The name it
goes by is the name field alone; the prefix takes no part.
-/

namespace Sphynx.Stdlib
open Lib Dev External

variable {members before rest : List Member} {m : Member} {path : CString} {after : List UInt8}
  {file : File}

/-- `file` is the answer for the member that starts at `start`. -/
structure Describes (bytes : List UInt8) (start : Nat) (file : File) (m : Member) : Prop where
  name : file.name = some start ∧ cstr (bytes.drop start) = .ok m.name
  size : file.size.toNat = m.content.length
  directory : file.isDirectory = true ↔ m.typeflag = chr '5'
  data : file.data = some (start + 512) ∧
    (bytes.drop (start + 512)).take file.size.toNat = m.content

def FirstNamed (members : List Member) (path : CString) (before : List Member) (m : Member) : Prop :=
  (∃ rest, members = before ++ m :: rest) ∧ m.name = path.chars ∧
    ∀ b ∈ before, b.name ≠ path.chars

section
variable {entries earlier later : List Entry} {e : Entry} (after)

theorem image_content (earlier later : List Entry) (e : Entry) :
    (image (earlier ++ e :: later)).drop (offsetBehind earlier + 512) =
      paddedContent e.content ++ image later := by
  rw [← List.drop_drop, image_drop, image_cons, Entry.bytes, List.append_assoc,
    List.drop_left' (TarHeader.length_bytes _)]

theorem returns_lookup (passable : ∀ e ∈ entries, e.Passable path) :
    Returns (image entries) (image entries).length (path.stored after)
      ((lookup path 0 entries).getD {}) := by
  apply returns_of_ends
  exact lookup_ends after entries List.drop_zero le_rfl passable

theorem returns_entry (passable : ∀ b ∈ earlier, b.Passable path)
    (other : ∀ b ∈ earlier, b.name ≠ path.chars)
    (field : 0 ∈ e.header.name.val ∨ ¬ e.header.name.val <+: path.chars) (named : e.name = path.chars) :
    Returns (image (earlier ++ e :: later)) (image (earlier ++ e :: later)).length (path.stored after)
      (foundFile (offsetBehind earlier) e.content.length.toUInt32 e.header.typeflag) := by
  have reach := reaches_behind after earlier (e :: later) List.drop_zero le_rfl passable other
  rw [Nat.zero_add] at reach
  have found := Entry.turn_found after (image_drop earlier (e :: later)) le_rfl field named
  exact returns_of_ends (reach.ends_iff.mpr (ends_leave found))

end

/-! ## Archives of members -/

theorem describes_foundFile (before rest : List Member) (fits : m.content.length ≤ maxStep)
    (short : m.name.length ≤ 99) :
    Describes (archive (before ++ m :: rest)) (offsetAfter before)
      (foundFile (offsetAfter before) m.content.length.toUInt32 m.typeflag) m := by
  have value : m.content.length.toUInt32.toNat = m.content.length := by
    rw [Nat.toUInt32_eq, UInt32.toNat_ofNat']
    unfold maxStep at fits
    omega
  unfold archive offsetAfter
  rw [List.map_append, List.map_cons]
  refine ⟨⟨rfl, ?_⟩, value, by simp [foundFile], rfl, ?_⟩
  · obtain ⟨padding, terminated⟩ : ∃ padding, m.header.name.val = m.name ++ 0 :: padding := by
      obtain ⟨k, count⟩ : ∃ k, 100 - m.name.length = k + 1 := ⟨99 - m.name.length, by omega⟩
      exact ⟨List.replicate k 0, by simp [Member.header, padded, count, List.replicate_succ]⟩
    have text := cstr_append m.name (padding ++ (m.header.afterName ++
      (paddedContent m.content ++ image (rest.map Member.toEntry)))) m.name_nonzero
    rw [image_drop, image_cons, Entry.bytes, TarHeader.bytes]
    change cstr (m.header.name.val ++ _ ++ _ ++ _) = _
    rw [terminated]
    simpa [Member.toEntry] using text
  · change List.take m.content.length.toUInt32.toNat _ = _
    rw [image_content, value, paddedContent, List.append_assoc]
    exact List.take_left

section
variable (after) (fits : ∀ m ∈ members, m.content.length ≤ maxStep)
  (field : ∀ m ∈ members, m.name.length = 100 → ¬ m.name <+: path.chars)
include fits field

theorem members_passable : ∀ e ∈ members.map Member.toEntry, e.Passable path := by
  intro e member
  obtain ⟨m, inside, rfl⟩ := List.mem_map.mp member
  refine ⟨fits m inside, ?_⟩
  by_cases short : m.name.length ≤ 99
  · exact Or.inl (m.terminated short)
  · have full : m.name.length = 100 := Nat.le_antisymm m.name_le (Nat.lt_of_not_le short)
    have begins : m.name <+: m.toEntry.header.name.val := List.prefix_append _ _
    exact Or.inr fun inPath => field m inside full (begins.trans inPath)

theorem returns_empty (other : ∀ m ∈ members, m.name ≠ path.chars) :
    Returns (archive members) (archive members).length (path.stored after) {} := by
  have answer := returns_lookup after (members_passable fits field)
  rwa [lookup_eq_none (by simpa using other)] at answer

theorem returns_first (first : FirstNamed members path before m) :
    ∃ file, Returns (archive members) (archive members).length (path.stored after) file ∧
      Describes (archive members) (offsetAfter before) file m := by
  obtain ⟨⟨rest, rfl⟩, named, other⟩ := first
  have short : m.name.length ≤ 99 := by
    by_contra long
    refine field m (by simp) (Nat.le_antisymm m.name_le (Nat.lt_of_not_le long)) ?_
    rw [named]
  refine ⟨_, ?_, describes_foundFile before rest (fits m (by simp)) short⟩
  unfold archive
  rw [List.map_append, List.map_cons]
  refine returns_entry after (fun e member => ?_) (by simpa using other) (Or.inl (m.terminated short))
    (by simpa using named)
  apply members_passable fits field e
  rw [List.map_append]
  exact List.mem_append_left _ member

end

/-! ## Plain archives -/

/-- A member as `tar` writes it for a short path: its name leaves room for a NUL, it has no prefix,
and its size can be stepped over. -/
structure PlainMember extends Member where
  name_le_99 : name.length ≤ 99
  noPrefix : pathPrefix = []
  content_le : content.length ≤ 2 ^ 32 - 1024

def plainArchive (members : List PlainMember) : List UInt8 :=
  archive (members.map PlainMember.toMember)

/-- All that the answer may depend on: names, typeflags and lengths of contents. -/
def Member.skeleton (m : Member) : List UInt8 × UInt8 × Nat := (m.name, m.typeflag, m.content.length)

theorem lookup_congr {members' : List Member} (path : CString) (ptr : Nat)
    (same : members'.map Member.skeleton = members.map Member.skeleton) :
    lookup path ptr (members'.map Member.toEntry) = lookup path ptr (members.map Member.toEntry) := by
  induction members' generalizing members ptr with
  | nil =>
      obtain rfl : members = [] := by simpa using same.symm
      rfl
  | cons m' members' ih =>
      cases members with
      | nil => simp at same
      | cons m members =>
          rw [List.map_cons, List.map_cons, List.cons.injEq] at same
          obtain ⟨head, tail⟩ := same
          simp only [Member.skeleton, Prod.mk.injEq] at head
          obtain ⟨name, flag, length⟩ := head
          have name' : m'.toEntry.name = m.toEntry.name := by simpa using name
          have flag' : m'.toEntry.header.typeflag = m.toEntry.header.typeflag := flag
          have length' : m'.toEntry.content.length = m.toEntry.content.length := length
          simp only [List.map_cons, lookup, name', flag', length', Entry.length]
          rw [ih _ tail]

theorem plain_fits (members : List PlainMember) :
    ∀ m ∈ members.map PlainMember.toMember, m.content.length ≤ maxStep := by
  intro m member
  obtain ⟨p, -, rfl⟩ := List.mem_map.mp member
  exact p.content_le

theorem plain_field (members : List PlainMember) (path : CString) :
    ∀ m ∈ members.map PlainMember.toMember, m.name.length = 100 → ¬ m.name <+: path.chars := by
  intro m member full
  obtain ⟨p, -, rfl⟩ := List.mem_map.mp member
  have short := p.name_le_99
  omega

theorem getFileTar_plainArchive (members : List PlainMember) (path : CString) (after : List UInt8) :
    (∀ before m rest, members = before ++ m :: rest → m.name = path.chars →
      (∀ b ∈ before, b.name ≠ path.chars) →
        ∃ file, Returns (plainArchive members) (plainArchive members).length (path.stored after) file ∧
          Describes (plainArchive members) (offsetAfter (before.map PlainMember.toMember)) file
            m.toMember) ∧
    ((∀ m ∈ members, m.name ≠ path.chars) →
      Returns (plainArchive members) (plainArchive members).length (path.stored after) {}) ∧
    ∀ members', members'.map (Member.skeleton ∘ PlainMember.toMember) =
        members.map (Member.skeleton ∘ PlainMember.toMember) →
      ∀ file, Returns (plainArchive members) (plainArchive members).length (path.stored after) file →
        Returns (plainArchive members') (plainArchive members').length (path.stored after) file := by
  refine ⟨?_, ?_, ?_⟩
  · rintro before m rest rfl named other
    refine returns_first after (plain_fits _) (plain_field _ path)
      ⟨⟨rest.map PlainMember.toMember, by simp⟩, named, ?_⟩
    intro b member
    obtain ⟨p, inside, rfl⟩ := List.mem_map.mp member
    exact other p inside
  · intro other
    apply returns_empty after (plain_fits _) (plain_field _ path)
    intro m member
    obtain ⟨p, inside, rfl⟩ := List.mem_map.mp member
    exact other p inside
  · intro members' same file answer
    rw [← List.map_map, ← List.map_map] at same
    have left := returns_lookup after
      (members_passable (plain_fits members) (plain_field members path))
    have right := returns_lookup after
      (members_passable (plain_fits members') (plain_field members' path))
    rw [lookup_congr path 0 same] at right
    rwa [answer.unique left]

/-! ## The name field alone -/

def zeroField (n : Nat) : Field n := ⟨List.replicate n 0, by simp⟩

def zeroAttributes : Attributes where
  mode := zeroField 8
  uid := zeroField 8
  gid := zeroField 8
  mtime := zeroField 12
  chksum := zeroField 8
  linkname := zeroField 100
  magic := zeroField 6
  version := zeroField 2
  uname := zeroField 32
  gname := zeroField 32
  devmajor := zeroField 8
  devminor := zeroField 8
  pad := zeroField 12

def prefixedMember : Member where
  name := ascii "b"
  pathPrefix := ascii "a"
  typeflag := chr '0'
  content := []
  attributes := zeroAttributes
  name_pos := by decide
  name_le := by decide
  name_nonzero := by decide
  pathPrefix_le := by decide
  pathPrefix_nonzero := by decide
  content_lt := by decide

end Sphynx.Stdlib
