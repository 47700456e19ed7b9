import Sphynx.Stdlib.Data.TarWalk

/-!
# Listing and lookup agree

`list_dir_tar` and `get_file_tar` walk in lockstep until the lookup stops at its file.
-/

namespace Sphynx.Stdlib
open Lib Dev External

variable {buffer : List UInt8} {size ptr fuel : Nat} {s : UInt32} {t : UInt8}
  {path : CString} {after name : List UInt8} {logged acc : List Listed}

def Returns (buffer : List UInt8) (size : Nat) (path : List UInt8) (file : File) : Prop :=
  ∃ fuel calls, getFileTar fuel buffer size path = some (.ok (file, calls))

theorem returns_of_ends {found : Option File}
    (ended : Ends (getFileTarTurn buffer size (path.stored after)) 0 (.ok found)) :
    Returns buffer size (path.stored after) (found.getD {}) := by
  obtain ⟨fuel, run⟩ := ended
  unfold Returns getFileTar
  cases found with
  | some file => exact ⟨fuel, [], by rw [run]; rfl⟩
  | none =>
      refine ⟨fuel, [failedToFind path.chars], ?_⟩
      simp [run, bind, Except.bind, getFileTarExit, cstr_stored, pure, Except.pure]

theorem Returns.unique {file file' : File} (h : Returns buffer size (path.stored after) file)
    (h' : Returns buffer size (path.stored after) file') : file = file' := by
  obtain ⟨n, calls, run⟩ := h
  obtain ⟨m, calls', run'⟩ := h'
  obtain ⟨out, loop₁, exit₁⟩ := Option.map_eq_some_iff.mp run
  obtain ⟨out', loop₂, exit₂⟩ := Option.map_eq_some_iff.mp run'
  have same : out = out' := Ends.unique ⟨n, loop₁⟩ ⟨m, loop₂⟩
  have results : (Except.ok (file, calls) : Except Fault _) = .ok (file', calls') := by
    rw [← exit₁, ← exit₂, same]
  exact congrArg Prod.fst (Except.ok.inj results)

theorem Returns.ends {file : File} (h : Returns buffer size (path.stored after) file) :
    ∃ found : Option File, Ends (getFileTarTurn buffer size (path.stored after)) 0 (.ok found) ∧
      file = found.getD {} := by
  obtain ⟨fuel, calls, run⟩ := h
  obtain ⟨out, ended, exit⟩ := Option.map_eq_some_iff.mp run
  cases out with
  | error e => cases exit
  | ok found =>
      refine ⟨found, ⟨fuel, ended⟩, ?_⟩
      have same := (returns_of_ends ⟨fuel, ended⟩).unique ⟨fuel, calls, run⟩
      exact same.symm

theorem getFileTar_matched {file : File} {calls : List LogCall}
    (run : getFileTar fuel buffer size (path.stored after) = some (.ok (file, calls))) :
    ∀ call ∈ calls, call.Matched := by
  obtain ⟨out, -, exit⟩ := Option.map_eq_some_iff.mp run
  cases out with
  | error e => cases exit
  | ok found =>
      cases found with
      | some file =>
          cases exit
          simp
      | none =>
          simp only [bind, Except.bind, getFileTarExit, cstr_stored, pure, Except.pure,
            Except.ok.injEq, Prod.mk.injEq] at exit
          obtain ⟨-, rfl⟩ := exit
          intro call member
          obtain rfl := List.mem_singleton.mp member
          have kinds := npfVpprintf_kinds (ascii "Failed to find \"%s\"\n") [.str path.chars]
            [.str []] rfl
          exact kinds.trans (by decide : _ = true)

theorem Listed.logCall_matched (l : Listed) : l.logCall.Matched := by
  cases l with
  | directory name =>
      have kinds := npfVpprintf_kinds (ascii "- Directory: %s\n") [.str name] [.str []] rfl
      exact kinds.trans (by decide : _ = true)
  | file name bytes =>
      have kinds := npfVpprintf_kinds (ascii "- File: %s (%u bytes)\n")
        [.str name, .word bytes.toUInt64] [.str [], .word 0] rfl
      exact kinds.trans (by decide : _ = true)

theorem listingCalls_matched (entries : List Listed) :
    ∀ call ∈ listingCalls entries, call.Matched := by
  intro call member
  have frame : ∀ line ∈ [ascii "---------------\n", ascii "Listing contents:\n"],
      LogCall.Matched ⟨.ok, line, []⟩ := by decide
  simp only [listingCalls, List.mem_append, List.mem_map, List.mem_cons, List.not_mem_nil,
    or_false] at member
  rcases member with ((rfl | rfl) | ⟨l, -, rfl⟩) | rfl
  · exact frame _ (by simp)
  · exact frame _ (by simp)
  · exact l.logCall_matched
  · exact frame _ (by simp)

theorem listing_emits (entries : List Listed) :
    ∃ text, ∀ tty, tarLogger.logAll (listingCalls entries) tty = some (tty.emit text) :=
  tarLogger.logAll_emits (listingCalls_matched entries)

/-! ## Where the lookup arrives -/

/-- The headers of other names that `get_file_tar` steps over, and the place it comes to then. -/
inductive Passed (buffer : List UInt8) (size : Nat) (path : CString) : Nat → Prop
  | start : Passed buffer size path 0
  | next {ptr : Nat} {s : UInt32} {t : UInt8} : Passed buffer size path ptr →
      HeaderAt buffer size ptr s t → ¬ NamedAt buffer ptr path →
      Passed buffer size path (ptr + advanceNat s)

theorem passed_iff_reaches (after : List UInt8) :
    Passed buffer size path ptr ↔
      Reaches (getFileTarTurn buffer size (path.stored after)) 0 ptr := by
  constructor
  · intro passed
    induction passed with
    | start => exact .refl
    | next _ header other ih => exact .tail ih (getFileTarTurn_other header other)
  · intro reach
    apply reach.invariant .start
    intro a b passed again
    obtain ⟨s, t, header, other, rfl⟩ := getFileTarTurn_again_iff.mp again
    exact .next passed header other

def FoundAt (buffer : List UInt8) (size : Nat) (path : CString) (ptr : Nat) : Prop :=
  Passed buffer size path ptr ∧ (∃ s t, HeaderAt buffer size ptr s t) ∧ NamedAt buffer ptr path

theorem FoundAt.returns_header (found : FoundAt buffer size path ptr)
    (header : HeaderAt buffer size ptr s t) (after : List UInt8) :
    Returns buffer size (path.stored after) (foundFile ptr s t) := by
  obtain ⟨passed, -, named⟩ := found
  have reach := (passed_iff_reaches after).mp passed
  exact returns_of_ends (reach.ends_iff.mpr (ends_leave (getFileTarTurn_found header named)))

theorem FoundAt.returns (found : FoundAt buffer size path ptr) (after : List UInt8) :
    ∃ s t, Returns buffer size (path.stored after) (foundFile ptr s t) := by
  obtain ⟨s, t, header⟩ := found.2.1
  exact ⟨s, t, found.returns_header header after⟩

theorem Returns.data_iff {file : File} (h : Returns buffer size (path.stored after) file)
    {data : Nat} : file.data = some data ↔ ∃ ptr, FoundAt buffer size path ptr ∧ data = ptr + 512 := by
  constructor
  · intro found
    obtain ⟨out, ended, rfl⟩ := h.ends
    obtain ⟨ptr, reach, last⟩ := ended.last_turn
    rcases header_cases buffer size ptr with none | ⟨s, t, header⟩ | cut
    · rw [getFileTarTurn_none none] at last
      cases last
      cases found
    · by_cases named : NamedAt buffer ptr path
      · rw [getFileTarTurn_found header named] at last
        cases last
        cases found
        exact ⟨ptr, ⟨(passed_iff_reaches after).mpr reach, ⟨s, t, header⟩, named⟩, rfl⟩
      · rw [getFileTarTurn_other header named] at last
        cases last
    · obtain ⟨e, error⟩ := getFileTarTurn_cut cut (path.stored after)
      rw [error] at last
      cases last
  · rintro ⟨ptr, found, rfl⟩
    obtain ⟨s, t, returned⟩ := found.returns after
    rw [h.unique returned]
    rfl

/-! ## The listing and the lookup in lockstep -/

@[simp]
theorem Listed.name_of (name : List UInt8) (s : UInt32) (t : UInt8) :
    (Listed.of name s t).name = name := by
  unfold Listed.of
  split_ifs <;> rfl

theorem namedAt_iff (named : cstr (buffer.drop ptr) = .ok name) :
    NamedAt buffer ptr path ↔ name = path.chars := by
  obtain ⟨clean, rest, bytes⟩ := cstr_eq_ok.mp named
  unfold NamedAt
  rw [bytes, terminated_prefix_iff path.nonzero clean]
  exact eq_comm

/-- What the lookup makes of the entries the listing logs from its place on: nothing when none of
them has the name, else the file of the first that has, found where the listing logged it. -/
inductive LookupOf (path : CString) (offsets : List Nat) (tail : List Listed) : Option File → Prop
  | missing : (∀ l ∈ tail, l.name ≠ path.chars) → LookupOf path offsets tail none
  | found {before rest : List Listed} {ptr : Nat} {s : UInt32} {t : UInt8} :
      tail = before ++ Listed.of path.chars s t :: rest →
      (∀ l ∈ before, l.name ≠ path.chars) → offsets[before.length]? = some ptr →
      LookupOf path offsets tail (some (foundFile ptr s t))

theorem LookupOf.cons {offsets : List Nat} {tail : List Listed} {l : Listed} {found : Option File}
    (other : l.name ≠ path.chars) (h : LookupOf path offsets tail found) (offset : Nat) :
    LookupOf path (offset :: offsets) (l :: tail) found := by
  cases h with
  | missing none =>
      apply LookupOf.missing
      intro l' member
      rcases List.mem_cons.mp member with rfl | member
      · exact other
      · exact none l' member
  | @found before rest ptr s t split first offsets =>
      have longer : l :: tail = (l :: before) ++ Listed.of path.chars s t :: rest := by
        rw [split]
        rfl
      refine .found longer ?_ (by simpa)
      intro l' member
      rcases List.mem_cons.mp member with rfl | member
      · exact other
      · exact first l' member

theorem lookup_of_listing (path : CString) (after : List UInt8)
    (listed : loop (listDirTarTurn buffer size) fuel (ptr, acc) = some (.ok logged)) :
    ∃ tail found, logged = acc ++ tail ∧
      Ends (getFileTarTurn buffer size (path.stored after)) ptr (.ok found) ∧
      LookupOf path
        (((visits (listDirTarTurn buffer size) fuel (ptr, acc)).map Prod.fst).filter (· < size))
        tail found := by
  -- Induction on the turns of the listing; the lookup takes the same ones until the names agree.
  induction fuel generalizing ptr acc with
  | zero => cases listed
  | succ fuel ih =>
      rcases header_cases buffer size ptr with stop | ⟨s, t, header⟩ | cut
      · rw [loop_leave (listDirTarTurn_none stop acc)] at listed
        obtain rfl : acc = logged := by simpa using listed
        exact ⟨[], none, by simp, ends_leave (getFileTarTurn_none stop _), .missing (by simp)⟩
      · obtain ⟨name, named⟩ := header.name_ok
        have again : Again (listDirTarTurn buffer size) (ptr, acc) _ :=
          listDirTarTurn_header header named acc
        rw [loop_again again] at listed
        rw [visits_again again, List.map_cons, List.filter_cons_of_pos (by simpa using header.inside)]
        obtain ⟨tail, found, rfl, ended, lookup⟩ := ih listed
        refine ⟨Listed.of name s t :: tail, ?_⟩
        by_cases match_ : name = path.chars
        · have here : getFileTarTurn buffer size (path.stored after) ptr = _ :=
            getFileTarTurn_found header ((namedAt_iff named).mpr match_)
          subst match_
          exact ⟨_, by simp, ends_leave here, .found (List.nil_append _).symm (by simp) rfl⟩
        · have on : Again (getFileTarTurn buffer size (path.stored after)) ptr _ :=
            getFileTarTurn_other header (mt (namedAt_iff named).mp match_)
          exact ⟨found, by simp, on.ends_iff.mpr ended, lookup.cons (by simpa using match_) ptr⟩
      · obtain ⟨e, error⟩ := listDirTarTurn_cut cut acc
        rw [loop_error error] at listed
        cases listed

def listingHeaders (buffer : List UInt8) (size n : Nat) : List Nat :=
  ((visits (listDirTarTurn buffer size) n (0, [])).map Prod.fst).filter (· < size)

def lookupHeaders (buffer : List UInt8) (size : Nat) (path : List UInt8) (n : Nat) : List Nat :=
  (visits (getFileTarTurn buffer size path) n 0).filter (· < size)

theorem lookupHeaders_prefix (buffer : List UInt8) (size : Nat) (path : CString)
    (after : List UInt8) (n : Nat) :
    lookupHeaders buffer size (path.stored after) n <+: listingHeaders buffer size n := by
  apply List.IsPrefix.filter
  refine visits_prefix Prod.fst ?_ n (0, [])
  rintro ⟨ptr, logged⟩ ptr' again
  obtain ⟨s, t, header, -, rfl⟩ := getFileTarTurn_again_iff.mp again
  obtain ⟨entry, follows⟩ := header.listing_again logged
  exact ⟨_, follows, rfl⟩

def firstNamed (logged : List Listed) (path : CString) : Option Listed :=
  logged.find? (·.name = path.chars)

def firstIndex (logged : List Listed) (path : CString) : Nat :=
  logged.findIdx (·.name = path.chars)

theorem first_of_split {before rest : List Listed} {l : Listed} (named : l.name = path.chars)
    (other : ∀ l ∈ before, l.name ≠ path.chars) :
    firstNamed (before ++ l :: rest) path = some l ∧
      firstIndex (before ++ l :: rest) path = before.length := by
  have none : before.find? (·.name = path.chars) = none := by
    simpa [List.find?_eq_none] using other
  constructor
  · simp [firstNamed, List.find?_append, none, named]
  · rw [firstIndex, List.findIdx_append, if_neg (by simpa using other)]
    simp [List.findIdx_cons, named]

theorem listing_lookup_agree (buffer : List UInt8) (size : Nat) (path : CString)
    (after : List UInt8) (fuel : Nat) (logged : List Listed)
    (listed : listDirTar fuel buffer size = some (.ok logged)) :
    (∃ file, Returns buffer size (path.stored after) file ∧
      (file.data ≠ none ↔ path.chars ∈ logged.map Listed.name) ∧
      ∀ l, firstNamed logged path = some l →
        file.name = (listingHeaders buffer size fuel)[firstIndex logged path]? ∧
        (file.isDirectory = true ↔ l = .directory path.chars) ∧
        ∀ bytes, l = .file path.chars bytes → file.size = bytes) ∧
    (∀ n, lookupHeaders buffer size (path.stored after) n <+: listingHeaders buffer size n) ∧
    ∃ text, ∀ tty, tarLogger.logAll (listingCalls logged) tty = some (tty.emit text) := by
  refine ⟨?_, lookupHeaders_prefix buffer size path after, listing_emits logged⟩
  obtain ⟨tail, found, split, ended, lookup⟩ := lookup_of_listing path after listed
  rw [List.nil_append] at split
  subst split
  refine ⟨_, returns_of_ends ended, ?_⟩
  cases lookup with
  | missing other =>
      have none : firstNamed logged path = none := by
        simpa [firstNamed, List.find?_eq_none] using other
      refine ⟨by simpa using other, fun l first => ?_⟩
      rw [none] at first
      cases first
  | @found before rest ptr s t split other place =>
      have member : path.chars ∈ logged.map Listed.name := by simp [split]
      obtain ⟨first, index⟩ : firstNamed logged path = some (Listed.of path.chars s t) ∧
          firstIndex logged path = before.length := by
        rw [split]
        exact first_of_split (Listed.name_of path.chars s t) other
      refine ⟨by simpa [foundFile] using member, fun l same => ?_⟩
      obtain rfl : Listed.of path.chars s t = l := Option.some.inj (first.symm.trans same)
      refine ⟨by rw [index]; exact place.symm, ?_, ?_⟩
      · by_cases directory : t = chr '5' <;> simp [foundFile, Listed.of, directory]
      · intro bytes logged
        by_cases directory : t = chr '5'
        · simp [Listed.of, directory] at logged
        · simpa [foundFile, Listed.of, directory] using logged

/-- A header with its data behind it: a name, a size as eleven digits, a type. -/
def sampleEntry (name digits : List UInt8) (t : UInt8) (data : List UInt8) : List UInt8 :=
  name ++ List.replicate (124 - name.length) 0 ++ digits ++ List.replicate 21 0 ++ [t] ++
    List.replicate 355 0 ++ data

/-- A directory, a file with three bytes in it, and a second file of the same name. -/
def threeEntries : List UInt8 :=
  sampleEntry (ascii "d/") (ascii "00000000000") (chr '5') [] ++
    sampleEntry (ascii "a") (ascii "00000000003") (chr '0') (ascii "xyz" ++ List.replicate 509 0) ++
    sampleEntry (ascii "a") (ascii "00000000000") (chr '0') []

theorem listing_lookup_agree_threeEntries :
    ∃ file, Returns threeEntries 2048 (ascii "a" ++ [0]) file ∧ file.data ≠ none ∧
      file.name = some 512 ∧ file.size = 3 := by
  obtain ⟨⟨file, returned, found, first⟩, -⟩ := listing_lookup_agree threeEntries 2048
    ⟨ascii "a", by decide⟩ [] 4 [.directory (ascii "d/"), .file (ascii "a") 3, .file (ascii "a") 0]
    (by decide +kernel)
  obtain ⟨name, -, size⟩ := first (.file (ascii "a") 3) (by decide)
  exact ⟨file, returned, found.mpr (by decide), name.trans (by rfl), size 3 rfl⟩

end Sphynx.Stdlib
