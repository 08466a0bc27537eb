/-
  Lantern.Proofs.Testing.Discovered — which files are found, and in which order.

  A file is found if its name has the extension of sources, nothing on its path starts
  with a point and no directory on it is called `target` (`IsWanted`); the directory the
  search starts at is not on the path. Files come in the order in which a walk meets
  them and are sorted by their paths, part by part. No two files have one path, so there
  is one way only to sort them, and the order in which a directory lists its entries is
  lost (`Source.listed_perm`, `Source.discover_eq`).

  - `discovery_exact`: exactly the files that are wanted, each once, in ascending order,
    however the directories are listed.
-/

import Mathlib.Data.List.Nodup
import Lantern.Testing.Discovery

namespace Lantern

/-! ## Directory trees -/

/-- A file stands below a directory: its path is the names on the way to it, its own
    last. -/
inductive FileAt : List Child → List String → ByteArray → Prop
  | here {children : List Child} {name : String} {contents : ByteArray} (listed : ⟨name, .file contents⟩ ∈ children) :
      FileAt children [name] contents
  | inside {children inner : List Child} {name : String} {parts : List String} {contents : ByteArray}
      (listed : ⟨name, .directory inner⟩ ∈ children) (below : FileAt inner parts contents) :
      FileAt children (name :: parts) contents

/-- What a file system guarantees of a directory and of those below it: no two entries
    have one name, and a name is not empty and has no slash. -/
inductive WellNamed : List Child → Prop
  | intro {children : List Child} (distinct : (children.map (·.name)).Nodup)
      (names : ∀ child ∈ children, child.name ≠ "" ∧ '/' ∉ child.name.toList)
      (inner : ∀ name inner, ⟨name, .directory inner⟩ ∈ children → WellNamed inner) : WellNamed children

namespace WellNamed

variable {child : Child} {more inner : List Child} {name : String}

theorem head_not_mem (named : WellNamed (child :: more)) : child.name ∉ more.map (·.name) := by
  obtain ⟨distinct, -, -⟩ := named
  exact (List.nodup_cons.1 distinct).1

theorem tail (named : WellNamed (child :: more)) : WellNamed more := by
  obtain ⟨distinct, names, inner⟩ := named
  exact ⟨(List.nodup_cons.1 distinct).2, fun child here => names child (List.mem_cons_of_mem _ here),
    fun name below here => inner name below (List.mem_cons_of_mem _ here)⟩

theorem head (named : WellNamed (⟨name, .directory inner⟩ :: more)) : WellNamed inner := by
  obtain ⟨-, -, below⟩ := named
  exact below name inner List.mem_cons_self

end WellNamed

/-- The same directory, listed in another order, and each directory below it too. -/
inductive Relisted : List Child → List Child → Prop
  | nil : Relisted [] []
  | file (name : String) (contents : ByteArray) {more more' : List Child} (rest : Relisted more more') :
      Relisted (⟨name, .file contents⟩ :: more) (⟨name, .file contents⟩ :: more')
  | directory (name : String) {inner inner' more more' : List Child} (below : Relisted inner inner')
      (rest : Relisted more more') : Relisted (⟨name, .directory inner⟩ :: more) (⟨name, .directory inner'⟩ :: more')
  | swap (first second : Child) (more : List Child) : Relisted (first :: second :: more) (second :: first :: more)
  | trans {children between children' : List Child} (h : Relisted children between) (h' : Relisted between children') :
      Relisted children children'

/-! ## Names -/

/-- The extension of a name is what stands behind its last point, if anything stands in
    front of the point. -/
def HasExtension (name extension : String) : Prop :=
  ∃ stem, stem ≠ "" ∧ '.' ∉ extension.toList ∧ name = stem ++ "." ++ extension

/-- The path of a file that is to be found. -/
structure IsWanted (parts : List String) : Prop where
  source : ∃ name, parts.getLast? = some name ∧ HasExtension name "fn"
  shown : ∀ name ∈ parts, name.toList.head? ≠ some '.'
  kept : "target" ∉ parts.dropLast

theorem endsWith_iff {text ending : String} :
    text.endsWith ending ↔ ending.toList <:+ text.toList := by
  rw [String.endsWith_eq_endsWith_toSlice, String.Slice.endsWith_string_iff, String.copy_toSlice]

theorem isSourceName_iff {name : String} : isSourceName name ↔ HasExtension name "fn" := by
  rw [isSourceName, Bool.and_eq_true, bne_iff_ne, endsWith_iff, sourceExtension]
  constructor
  · rintro ⟨⟨stem, ends⟩, more⟩
    have split : name = String.ofList stem ++ "." ++ "fn" := by
      rw [← String.toList_inj, ← ends]
      simp
    refine ⟨String.ofList stem, fun none => more ?_, by decide, split⟩
    rw [split, none]
    rfl
  · rintro ⟨stem, some_, -, rfl⟩
    refine ⟨⟨stem.toList, by simp⟩, fun none => some_ ?_⟩
    have empty : stem.toList ++ ['.', 'f', 'n'] = ['.', 'f', 'n'] := by simpa using congrArg String.toList none
    exact String.toList_inj.1 (List.append_left_eq_self.1 empty)

theorem isHidden_iff {name : String} : isHidden name ↔ name.toList.head? = some '.' := by
  rw [isHidden, String.startsWith_string_iff]
  cases name.toList <;> simp [List.cons_prefix_iff]

/-! ## What a walk meets -/

theorem isWanted_singleton {name : String} :
    IsWanted [name] ↔ ¬ isHidden name ∧ isSourceName name := by
  constructor
  · rintro ⟨⟨last, isLast, source⟩, shown, -⟩
    cases isLast
    exact ⟨mt isHidden_iff.1 (shown name (List.mem_singleton_self name)), isSourceName_iff.2 source⟩
  · rintro ⟨shown, source⟩
    refine ⟨⟨name, rfl, isSourceName_iff.1 source⟩, fun other isName => ?_, by simp⟩
    rw [List.mem_singleton.1 isName]
    exact mt isHidden_iff.2 shown

theorem isWanted_cons {name : String} {parts : List String} (further : parts ≠ []) :
    IsWanted (name :: parts) ↔ (¬ isHidden name ∧ name ≠ "target") ∧ IsWanted parts := by
  obtain ⟨first, more, rfl⟩ := List.exists_cons_of_ne_nil further
  constructor
  · rintro ⟨source, shown, kept⟩
    rw [List.dropLast_cons_cons, List.mem_cons, not_or] at kept
    refine ⟨⟨mt isHidden_iff.1 (shown name List.mem_cons_self), fun isTarget => kept.1 isTarget.symm⟩, ?_⟩
    exact ⟨by rwa [List.getLast?_cons_cons] at source, fun part here => shown part (List.mem_cons_of_mem name here), kept.2⟩
  · rintro ⟨⟨shown, notTarget⟩, wanted⟩
    refine ⟨by rw [List.getLast?_cons_cons]; exact wanted.source, fun part here => ?_, ?_⟩
    · rcases List.mem_cons.1 here with rfl | later
      · exact mt isHidden_iff.2 shown
      · exact wanted.shown part later
    · rw [List.dropLast_cons_cons, List.mem_cons, not_or]
      exact ⟨fun isTarget => notTarget isTarget.symm, wanted.kept⟩

section

variable {name : String} {more inner : List Child} {parts : List String} {contents other : ByteArray}

theorem fileAt_nil : ¬ FileAt [] parts contents := by
  rintro (⟨⟨⟩⟩ | ⟨⟨⟩, -⟩)

/-- A file below a directory is at its first entry or at one of the others. -/
theorem fileAt_cons {child : Child} :
    FileAt (child :: more) parts contents ↔ FileAt [child] parts contents ∨ FileAt more parts contents := by
  constructor
  · rintro (listed | ⟨listed, below⟩)
    · rcases List.mem_cons.1 listed with rfl | later
      · exact .inl (.here (List.mem_singleton_self _))
      · exact .inr (.here later)
    · rcases List.mem_cons.1 listed with rfl | later
      · exact .inl (.inside (List.mem_singleton_self _) below)
      · exact .inr (.inside later below)
  · rintro ((listed | ⟨listed, below⟩) | listed | ⟨listed, below⟩)
    · exact .here (List.mem_cons.2 (.inl (List.mem_singleton.1 listed)))
    · exact .inside (List.mem_cons.2 (.inl (List.mem_singleton.1 listed))) below
    · exact .here (List.mem_cons_of_mem _ listed)
    · exact .inside (List.mem_cons_of_mem _ listed) below

theorem fileAt_file :
    FileAt (⟨name, .file contents⟩ :: more) parts other ↔ (parts = [name] ∧ other = contents) ∨ FileAt more parts other := by
  refine fileAt_cons.trans (or_congr_left ⟨?_, ?_⟩)
  · rintro (listed | ⟨listed, -⟩) <;> cases List.mem_singleton.1 listed
    exact ⟨rfl, rfl⟩
  · rintro ⟨rfl, rfl⟩
    exact .here (List.mem_singleton_self _)

theorem fileAt_directory :
    FileAt (⟨name, .directory inner⟩ :: more) parts contents ↔
      (∃ below, parts = name :: below ∧ FileAt inner below contents) ∨ FileAt more parts contents := by
  refine fileAt_cons.trans (or_congr_left ⟨?_, ?_⟩)
  · rintro (listed | ⟨listed, below⟩) <;> cases List.mem_singleton.1 listed
    exact ⟨_, rfl, below⟩
  · rintro ⟨below, rfl, file⟩
    exact .inside (List.mem_singleton_self _) file

theorem FileAt.ne_nil {children : List Child} (file : FileAt children parts contents) :
    parts ≠ [] := by
  cases file <;> exact List.cons_ne_nil _ _

/-- The first name on the path of a file is listed. -/
theorem FileAt.head_mem {children : List Child} (file : FileAt children (name :: parts) contents) :
    name ∈ children.map (·.name) := by
  cases file with
  | here listed => exact List.mem_map_of_mem listed
  | inside listed _ => exact List.mem_map_of_mem listed

end

namespace Source

/-- A walk meets the files that are wanted, and no others. -/
theorem mem_listed_iff (children : List Child) (parts : List String) (contents : ByteArray) :
    ⟨parts, contents⟩ ∈ listed children ↔ FileAt children parts contents ∧ IsWanted parts := by
  induction children using listed.induct generalizing parts contents with
  | case1 =>
    rw [listed]
    exact ⟨fun none => absurd none List.not_mem_nil, fun file => absurd file.1 fileAt_nil⟩
  | case2 name held more counts ih =>
    have wanted : IsWanted [name] := by
      rw [isWanted_singleton]
      simpa using counts
    rw [listed, if_pos counts, List.mem_cons, ih, fileAt_file, Source.mk.injEq, or_and_right]
    exact or_congr_left (and_iff_left_of_imp fun here => here.1 ▸ wanted).symm
  | case3 name held more passed ih =>
    have unwanted : ¬ IsWanted [name] := by
      rw [isWanted_singleton]
      simpa using passed
    rw [listed, if_neg passed, ih, fileAt_file, or_and_right, or_iff_right]
    rintro ⟨⟨rfl, -⟩, wanted⟩
    exact unwanted wanted
  | case4 name inner more passed ih =>
    rw [listed, if_pos passed, ih, fileAt_directory, or_and_right, or_iff_right]
    rintro ⟨⟨below, rfl, file⟩, wanted⟩
    obtain ⟨⟨shown, notTarget⟩, -⟩ := (isWanted_cons file.ne_nil).1 wanted
    rcases Bool.or_eq_true_iff.1 passed with hidden | isTarget
    · exact shown hidden
    · exact notTarget (beq_iff_eq.1 isTarget)
  | case5 name inner more entered ihInner ih =>
    have walked : ¬ isHidden name ∧ name ≠ "target" := by simpa using entered
    rw [listed, if_neg entered, List.mem_append, ih, fileAt_directory, or_and_right]
    refine or_congr_left ⟨fun here => ?_, ?_⟩
    · obtain ⟨⟨below, held⟩, found, same⟩ := List.mem_map.1 here
      cases same
      obtain ⟨file, wanted⟩ := (ihInner below held).1 found
      exact ⟨⟨below, rfl, file⟩, (isWanted_cons file.ne_nil).2 ⟨walked, wanted⟩⟩
    · rintro ⟨⟨below, rfl, file⟩, wanted⟩
      exact List.mem_map.2 ⟨⟨below, contents⟩, (ihInner below contents).2 ⟨file, ((isWanted_cons file.ne_nil).1 wanted).2⟩, rfl⟩

theorem head_of_listed {children : List Child} {name : String} {parts : List String}
    (found : name :: parts ∈ (listed children).map (·.parts)) : name ∈ children.map (·.name) := by
  obtain ⟨source, here, same⟩ := List.mem_map.1 found
  have file := ((mem_listed_iff children source.parts source.contents).1 here).1
  rw [same] at file
  exact file.head_mem

/-- A walk meets no two files with one path, as the names in a directory are different. -/
theorem nodup_listed {children : List Child} (named : WellNamed children) :
    ((listed children).map (·.parts)).Nodup := by
  induction children using listed.induct with
  | case1 => rw [listed]; exact List.nodup_nil
  | case2 name held more counts ih =>
    rw [listed, if_pos counts, List.map_cons, List.nodup_cons]
    exact ⟨fun again => named.head_not_mem (head_of_listed again), ih named.tail⟩
  | case3 name held more passed ih =>
    rw [listed, if_neg passed]
    exact ih named.tail
  | case4 name inner more passed ih =>
    rw [listed, if_pos passed]
    exact ih named.tail
  | case5 name inner more entered ihInner ih =>
    have parts_below : ((listed inner).map (below name)).map (·.parts) = ((listed inner).map (·.parts)).map (name :: ·) := by
      rw [List.map_map, List.map_map]
      rfl
    rw [listed, if_neg entered, List.map_append, parts_below, List.nodup_append]
    refine ⟨List.Nodup.map List.cons_injective (ihInner named.head), ih named.tail, ?_⟩
    rintro parts here _ there rfl
    obtain ⟨below, -, rfl⟩ := List.mem_map.1 here
    exact named.head_not_mem (head_of_listed there)

/-- Each entry adds what it adds alone. -/
theorem listed_cons (child : Child) (more : List Child) :
    listed (child :: more) = listed [child] ++ listed more := by
  obtain ⟨name, _ | _⟩ := child
  all_goals
    rw [listed, listed]
    split <;> simp [listed]

/-- Another order of listing makes a walk meet the same files in another order. -/
theorem listed_perm {children children' : List Child} (h : Relisted children children') :
    (listed children).Perm (listed children') := by
  induction h with
  | nil => exact .refl _
  | file name contents rest ih =>
    rw [listed, listed]
    split
    · exact ih.cons _
    · exact ih
  | directory name below rest ihBelow ih =>
    rw [listed, listed]
    split
    · exact ih
    · exact (ihBelow.map _).append ih
  | swap first second more =>
    rw [listed_cons first, listed_cons second, listed_cons second (first :: more), listed_cons first more]
    exact List.perm_append_comm_assoc _ _ _
  | trans _ _ ih ih' => exact ih.trans ih'

end Source

/-! ## The order -/

/-- Names are compared one by one, and a path comes before those that go on behind it. -/
theorem pathLe_iff (as bs : List String) : pathLe as bs ↔ as < bs ∨ as = bs := by
  induction as generalizing bs with
  | nil => cases bs <;> simp [pathLe]
  | cons a as ih =>
    cases bs with
    | nil => simp [pathLe]
    | cons b bs =>
      rw [pathLe, Bool.or_eq_true, Bool.and_eq_true, decide_eq_true_eq, beq_iff_eq, ih, List.cons_lt_cons_iff, List.cons.injEq,
        and_or_left, or_assoc]

theorem pathLe_trans (as bs cs : List String) (h : pathLe as bs) (h' : pathLe bs cs) :
    pathLe as cs := by
  rw [pathLe_iff] at h h' ⊢
  rcases h with before | rfl
  · rcases h' with before' | rfl
    · exact .inl (List.lt_trans before before')
    · exact .inl before
  · exact h'

theorem pathLe_total (as bs : List String) : pathLe as bs || pathLe bs as := by
  rw [Bool.or_eq_true, pathLe_iff, pathLe_iff]
  rcases Std.lt_trichotomy as bs with before | same | behind
  · exact .inl (.inl before)
  · exact .inl (.inr same)
  · exact .inr (.inl behind)

theorem pathLe_antisymm (as bs : List String) (h : pathLe as bs) (h' : pathLe bs as) : as = bs := by
  rw [pathLe_iff] at h h'
  refine h.resolve_left fun before => ?_
  rcases h' with behind | rfl
  · exact List.lt_asymm before behind
  · exact List.lt_irrefl _ before

namespace Source

theorem discover_perm (children : List Child) : (discover children).Perm (listed children) :=
  List.mergeSort_perm _ _

theorem discover_sorted (children : List Child) :
    (discover children).Pairwise fun a b => pathLe a.parts b.parts :=
  List.pairwise_mergeSort (fun a b c => pathLe_trans a.parts b.parts c.parts) (fun a b => pathLe_total a.parts b.parts) _

section

variable {children children' : List Child} (named : WellNamed children)

include named

theorem nodup_discover : ((discover children).map (·.parts)).Nodup :=
  ((discover_perm children).map _).nodup_iff.2 (nodup_listed named)

/-- Sorted files with different paths come in strictly ascending order. -/
theorem discover_ascending : ((discover children).map (·.parts)).Pairwise (· < ·) := by
  have distinct : (discover children).Pairwise fun a b => a.parts ≠ b.parts := List.pairwise_map.1 (nodup_discover named)
  rw [List.pairwise_map]
  refine ((discover_sorted children).and distinct).imp ?_
  rintro a b ⟨le, ne⟩
  exact ((pathLe_iff a.parts b.parts).1 le).resolve_right ne

/-- However the directories are listed, the same files are found in the same order. -/
theorem discover_eq (h : Relisted children children') : discover children' = discover children := by
  have perm : (discover children').Perm (discover children) :=
    (discover_perm children').trans ((listed_perm h).symm.trans (discover_perm children).symm)
  refine perm.eq_of_pairwise (fun a b here there le ge => ?_) (discover_sorted children') (discover_sorted children)
  exact List.inj_on_of_nodup_map (nodup_discover named) (perm.mem_iff.1 here) there (pathLe_antisymm _ _ le ge)

end

end Source

/-! ## Paths written out -/

def pathParts (path : String) : List String := ((path.toList.splitOn '/').filter (· ≠ [])).map String.ofList

theorem pathParts_slash (front behind : String) : pathParts (front ++ "/" ++ behind) = pathParts front ++ pathParts behind := by
  have split : (front ++ "/" ++ behind).toList.splitOn '/' = front.toList.splitOn '/' ++ behind.toList.splitOn '/' := by
    simp [List.splitOn, List.splitOnP_append_cons]
  rw [pathParts, split, List.filter_append, List.map_append]
  rfl

theorem pathParts_name {name : String} (some_ : name ≠ "") (whole : '/' ∉ name.toList) : pathParts name = [name] := by
  have one : name.toList.splitOn '/' = [name.toList] := List.splitOnP_eq_singleton fun c here => by
    rw [beq_eq_false_iff_ne]
    rintro rfl
    exact whole here
  simp [pathParts, one, some_]

theorem pathParts_joinPath (path : String) {name : String} (some_ : name ≠ "") (whole : '/' ∉ name.toList) :
    pathParts (joinPath path name) = pathParts path ++ [name] := by
  rw [← pathParts_name some_ whole, joinPath]
  split
  · next ends =>
    rw [Bool.or_eq_true, decide_eq_true_eq, endsWith_iff] at ends
    rcases ends with rfl | ⟨front, ends⟩
    · rw [String.empty_append]
      rfl
    · have slash : path = String.ofList front ++ "/" := by
        rw [← String.toList_inj, ← ends]
        simp
      have closed := pathParts_slash (String.ofList front) ""
      rw [String.append_empty, ← slash] at closed
      rw [closed, slash, pathParts_slash]
      simp [pathParts]
  · exact pathParts_slash path name

/-- A file below a directory has the parts of the directory's path, and then its own. -/
theorem pathParts_foldl (root : String) {parts : List String} (names : ∀ name ∈ parts, name ≠ "" ∧ '/' ∉ name.toList) :
    pathParts (parts.foldl joinPath root) = pathParts root ++ parts := by
  induction parts generalizing root with
  | nil => rw [List.foldl_nil, List.append_nil]
  | cons name more ih =>
    obtain ⟨some_, whole⟩ := names name List.mem_cons_self
    rw [List.foldl_cons, ih _ fun other here => names other (List.mem_cons_of_mem name here),
      pathParts_joinPath root some_ whole, List.append_assoc, List.singleton_append]

theorem FileAt.names {children : List Child} {parts : List String} {contents : ByteArray}
    (file : FileAt children parts contents)
    (named : WellNamed children) : ∀ name ∈ parts, name ≠ "" ∧ '/' ∉ name.toList := by
  induction file with
  | here listed =>
    obtain ⟨-, names, -⟩ := named
    intro name isName
    rw [List.mem_singleton.1 isName]
    exact names _ listed
  | inside listed _ ih =>
    obtain ⟨-, names, inner⟩ := named
    intro name here
    rcases List.mem_cons.1 here with rfl | later
    · exact names _ listed
    · exact ih (inner _ _ listed) name later

/-! ## Discovery -/

/-- The files found at a directory are those that are wanted, whatever its entries are
    and whatever it is called: they come in strictly ascending order of their paths,
    each of them once, and in the same order however the directories are listed. -/
theorem discovery_exact (root : String) (children : List Child) (named : WellNamed children) :
    ((discoverAt root (.directory children)).map fun file => pathParts file.1).Pairwise (· < ·) ∧
    (∀ path contents, (path, contents) ∈ discoverAt root (.directory children) ↔
      ∃ parts, path = parts.foldl joinPath root ∧ FileAt children parts contents ∧ IsWanted parts) ∧
    ∀ children', Relisted children children' →
      discoverAt root (.directory children') = discoverAt root (.directory children) := by
  have found (parts : List String) (contents : ByteArray) :
      ⟨parts, contents⟩ ∈ Source.discover children ↔ FileAt children parts contents ∧ IsWanted parts := by
    rw [(Source.discover_perm children).mem_iff, Source.mem_listed_iff]
  refine ⟨?_, fun path contents => ?_, fun children' h => ?_⟩
  · have ascending := List.pairwise_map.1 (Source.discover_ascending named)
    rw [discoverAt, List.map_map, List.pairwise_map]
    refine ascending.imp_of_mem fun {a b} here there before => ?_
    have names := ((found a.parts a.contents).1 here).1.names named
    have names' := ((found b.parts b.contents).1 there).1.names named
    rw [Function.comp_apply, Function.comp_apply, pathParts_foldl root names, pathParts_foldl root names']
    exact List.append_left_lt before
  · rw [discoverAt, List.mem_map]
    constructor
    · rintro ⟨⟨parts, held⟩, here, same⟩
      cases same
      exact ⟨parts, rfl, (found parts held).1 here⟩
    · rintro ⟨parts, rfl, wanted⟩
      exact ⟨⟨parts, contents⟩, (found parts contents).2 wanted, rfl⟩
  · rw [discoverAt, discoverAt, Source.discover_eq named h]

def builtOnce : List Child :=
  [⟨"target", .directory [⟨"built.fn", .file .empty⟩]⟩,
   ⟨"lib.fn", .directory [⟨"target", .file .empty⟩, ⟨"b.fn", .file .empty⟩]⟩,
   ⟨"a.fn", .file .empty⟩]

def builtAgain : List Child :=
  [⟨"a.fn", .file .empty⟩,
   ⟨"lib.fn", .directory [⟨"b.fn", .file .empty⟩, ⟨"target", .file .empty⟩]⟩,
   ⟨"target", .directory [⟨"built.fn", .file .empty⟩]⟩]

theorem discovery_exact_builtOnce :
    WellNamed builtOnce ∧ ("src/lib.fn/b.fn", .empty) ∈ discoverAt "src" (.directory builtOnce) ∧
      discoverAt "src" (.directory builtAgain) = discoverAt "src" (.directory builtOnce) := by
  have named : WellNamed builtOnce := by
    refine .intro (by decide) (by decide) fun name inner here => ?_
    simp only [builtOnce, List.mem_cons, Child.mk.injEq, Entry.directory.injEq, reduceCtorEq, and_false, List.not_mem_nil,
      or_false] at here
    rcases here with ⟨-, rfl⟩ | ⟨-, rfl⟩
    · exact .intro (by decide) (by decide) (by simp)
    · exact .intro (by decide) (by decide) (by simp)
  have relisted : Relisted builtOnce builtAgain := by
    -- the files of the second directory change places, then the directories with each
    -- other, and then both with the file
    refine .trans (.directory _ (.file _ _ .nil) (.directory _ (.swap _ _ _) (.file _ _ .nil))) ?_
    refine .trans (.swap _ _ _) (.trans ?_ (.swap _ _ _))
    exact .directory _ (.file _ _ (.file _ _ .nil)) (.swap _ _ _)
  obtain ⟨-, found, relist⟩ := discovery_exact "src" builtOnce named
  refine ⟨named, (found _ _).2 ⟨["lib.fn", "b.fn"], by decide +kernel, ?_, ?_⟩, relist builtAgain relisted⟩
  · exact .inside (.tail _ (.head _)) (.here (.tail _ (.head _)))
  · exact ⟨⟨"b.fn", rfl, "b", by decide, by decide, by decide⟩, by decide, by decide⟩

end Lantern
