import MalloyPublisher.Duckdb.DatabaseFiles
import MalloyPublisher.Foundations.PagedListing
import Mathlib.Data.List.TakeWhile

/-!
# Downloading a directory of a bucket

A package can be fetched from a directory of an object store. Both providers list the keys that
begin with the location's prefix, empty the target directory, and write each object under what its
key has behind the prefix.

The listing selects by characters, so that a prefix without a slash at its end selects the
directories beside it whose names begin alike. The S3 client asks for one page only, and empties the
target before it looks whether there is anything.

The writes run at once and end in any order; the last one to a path is what the path holds. A name
that is a directory to one object and a file to another fails the call.

## Main definitions

* `downloadGcsDirectory`, `downloadS3Directory` — the two downloads
* `LiesAt` — the file that an object of the directory is
* `Meets` — both leave the directory's files and no others, and do nothing where there is none
* `Faithful` — what is listed stands for the directory

## Main results

* `writes_exact_iff` — writes in any order leave the files of a relation
* `meets_iff` — where the downloads do so
-/

namespace MalloyPublisher.Environments.Downloads

open Foundations Duckdb

abbrev Text := List Char

variable {β : Type*}

/-- The buckets of a store, and the bytes of each object. -/
structure ObjectStore (β : Type*) where
  bucket : Text → ObjectBucket
  content : Text → Text → β

/-! ## The downloads -/

/-- What a download leaves: the files under the target, or the target as it was or emptied before
the call failed. -/
inductive Outcome (β : Type*)
  | returned (files : Path → Option β)
  | threw (emptied : Bool)

/-- The bucket's name and the prefix: `[bucketName, ...prefixParts]`, joined again. -/
def locationOf (location : Text) : Text × Text :=
  let parts := (location.drop 5).splitOn '/'
  (parts.headD [], ['/'].intercalate parts.tail)

/-- `String.prototype.replace` of a text by nothing: its first occurrence goes. -/
def removeFirst (text : Text) : Text → Text
  | [] => []
  | c :: rest =>
    if text.isPrefixOf (c :: rest) then (c :: rest).drop text.length else c :: removeFirst text rest

/-- What a key has behind the prefix, without slashes in front. -/
def relativeFilePath (location key : Text) : Text :=
  (removeFirst (locationOf location).2 key).dropWhile (· = '/')

def endsWithSlash (text : Text) : Bool := text.getLast? = some '/'

/-- What is done with one object: it is refused, left out or written. -/
inductive Target (β : Type*)
  | refused
  | left
  | file (path : Path) (content : β)

/-- The files once all writes are done, in the order in which they end. -/
def filesOf (writes : List (Path × β)) (path : Path) : Option β :=
  (writes.reverse.find? fun write => write.1 = path).map Prod.snd

def Target.write? : Target β → Option (Path × β)
  | .file path content => some (path, content)
  | _ => none

def Target.isRefused : Target β → Bool
  | .refused => true
  | _ => false

/-- A file that is a directory as well. -/
def clashes (root : Path) (writes : List (Path × β)) : Bool :=
  writes.any fun write => write.1 = root ||
    writes.any fun other => decide (other.1 ≠ write.1 ∧ write.1 <+: other.1)

/-- `Promise.all` over the objects, in the order in which their writes end. -/
def writeAll (root : Path) (target : Text → Target β) (keys : List Text) : Outcome β :=
  if keys.any fun key => (target key).isRefused then .threw true
  else
    let writes := keys.filterMap fun key => (target key).write?
    if clashes root writes then .threw true else .returned (filesOf writes)

/-- The keys that begin with the prefix. -/
def prefixQuery (location : Text) : KeyQuery := ⟨(locationOf location).2, none⟩

section Providers

variable (store : ObjectStore β) (location : Text) (absoluteDirPath : Path)

def gcsTarget (key : Text) : Target β :=
  match safeJoinUnderRoot absoluteDirPath (relativeFilePath location key) with
  | none => .refused
  | some path =>
    if endsWithSlash key then .left else .file path (store.content (locationOf location).1 key)

/-- `getFiles` reads all pages. -/
def gcsFiles : List Text :=
  collect (fun _ => true) ((store.bucket (locationOf location).1).responses (prefixQuery location))

def downloadGcsDirectory (order : List Text → List Text) : Outcome β :=
  let files := gcsFiles store location
  if files = [] then .threw false
  else writeAll absoluteDirPath (gcsTarget store location absoluteDirPath) (order files)

def s3Target (key : Text) : Target β :=
  if key = [] then .left
  else
    let relativeFilePath := relativeFilePath location key
    if relativeFilePath = [] ∨ endsWithSlash relativeFilePath then .left
    else
      match safeJoinUnderRoot absoluteDirPath relativeFilePath with
      | none => .refused
      | some path => .file path (store.content (locationOf location).1 key)

/-- One call of `listObjectsV2`. -/
def s3Contents : List Text :=
  match (store.bucket (locationOf location).1).responses (prefixQuery location) with
  | [] => []
  | response :: _ => response.contents

def downloadS3Directory (order : List Text → List Text) : Outcome β :=
  let contents := s3Contents store location
  if contents = [] then .threw true
  else writeAll absoluteDirPath (s3Target store location absoluteDirPath) (order contents)

end Providers

/-! ## What it is for -/

/-- What the keys of the directory begin with. -/
def directoryOf (location : Text) : Text :=
  let start := (locationOf location).2
  if start = [] ∨ endsWithSlash start then start else start ++ ['/']

section Purpose

variable (store : ObjectStore β) (location : Text) (root : Path)

def keysOf : List Text := (store.bucket (locationOf location).1).keys

/-- The file that an object of the directory is: its key has a path behind the directory's name,
which does not end in a slash. -/
structure LiesAt (key : Text) (path : Path) (content : β) : Prop where
  inBucket : key ∈ keysOf store location
  behind : ∃ rest, key = directoryOf location ++ rest ∧ rest ≠ [] ∧ endsWithSlash rest = false ∧
    safeJoinUnderRoot root (rest.dropWhile (· = '/')) = some path
  content : content = store.content (locationOf location).1 key

/-- What a download is to do. -/
structure Downloads (outcome : Outcome β) : Prop where
  exact : ∀ files, outcome = .returned files → ∀ path content,
    files path = some content ↔ ∃ key, LiesAt store location root key path content
  nothing : (∀ key ∈ keysOf store location, ¬directoryOf location <+: key) → outcome = .threw false

end Purpose

/-- The orders in which writes can end. -/
def IsOrder (order : List Text → List Text) : Prop := ∀ keys, (order keys).Perm keys

/-- Both providers download a directory of a bucket, and leave the same tree. -/
structure Meets (store : ObjectStore β) (address : Text) (root : Path) : Prop where
  gcs : ∀ order, IsOrder order → Downloads store ("gs://".toList ++ address) root
    (downloadGcsDirectory store ("gs://".toList ++ address) root order)
  s3 : ∀ order, IsOrder order → Downloads store ("s3://".toList ++ address) root
    (downloadS3Directory store ("s3://".toList ++ address) root order)
  same : ∀ order order', IsOrder order → IsOrder order' → ∀ files files',
    downloadGcsDirectory store ("gs://".toList ++ address) root order = .returned files →
    downloadS3Directory store ("s3://".toList ++ address) root order' = .returned files' → files = files'

/-- What is listed stands for the directory: objects of one path have the same bytes, what is listed
beside the directory is a file of the directory too, and so is what is not listed of one that is. -/
structure Faithful (store : ObjectStore β) (location : Text) (root : Path) (target : Text → Target β)
    (listed : List Text) : Prop where
  agree : ∀ key ∈ listed, ∀ other ∈ listed, ∀ path content content', target key = .file path content →
    target other = .file path content' → content = content'
  beside : ∀ key ∈ listed, ¬directoryOf location <+: key → ∀ path content,
    target key = .file path content → ∃ other, LiesAt store location root other path content
  complete : ∀ key, key ∉ listed → ∀ path content, LiesAt store location root key path content →
    ∃ other ∈ listed, target other = .file path content

/-- The call fails after it has emptied the target. -/
def Fails (root : Path) (target : Text → Target β) (listed : List Text) : Prop :=
  listed = [] ∨ (∃ key ∈ listed, target key = .refused) ∨
    clashes root (listed.filterMap fun key => (target key).write?) = true

/-! ## The writes -/

section Writes

variable {root : Path} {target : Text → Target β} {listed : List Text} {path : Path} {content : β}
  {writes : List (Path × β)}

theorem Target.write?_eq_some_iff {target : Target β} :
    target.write? = some (path, content) ↔ target = .file path content := by
  cases target with
  | refused => exact iff_of_false (fun same => by cases same) fun same => by cases same
  | left => exact iff_of_false (fun same => by cases same) fun same => by cases same
  | file own bytes => rw [Target.write?, Option.some_inj, Prod.mk.injEq, Target.file.injEq]

theorem mem_writes : (path, content) ∈ (listed.filterMap fun key => (target key).write?) ↔
    ∃ key ∈ listed, target key = .file path content := by
  rw [List.mem_filterMap]
  exact exists_congr fun key => and_congr_right fun _ => Target.write?_eq_some_iff

/-- What a path holds was written to it. -/
theorem mem_of_filesOf (holds : filesOf writes path = some content) : (path, content) ∈ writes := by
  obtain ⟨⟨own, bytes⟩, found, rfl⟩ := Option.map_eq_some_iff.mp holds
  have same : own = path := by simpa using List.find?_some found
  rw [← same]
  exact List.mem_reverse.mp (List.mem_of_find?_eq_some found)

/-- A path that was written to holds something. -/
theorem exists_filesOf (written : (path, content) ∈ writes) : ∃ bytes, filesOf writes path = some bytes := by
  cases found : writes.reverse.find? fun write => write.1 = path with
  | none =>
    have absent := List.find?_eq_none.mp found (path, content) (List.mem_reverse.mpr written)
    simp at absent
  | some write => exact ⟨write.2, by rw [filesOf, found, Option.map_some]⟩

/-- The last write to a path is what it holds. -/
theorem filesOf_append (writes : List (Path × β)) (path : Path) (content : β) :
    filesOf (writes ++ [(path, content)]) path = some content := by
  rw [filesOf, List.reverse_append]
  simp

theorem clashes_congr {others : List (Path × β)} (same : ∀ write, write ∈ writes ↔ write ∈ others) :
    clashes root writes = clashes root others := by
  unfold clashes
  rw [Bool.eq_iff_iff, List.any_eq_true, List.any_eq_true]
  refine exists_congr fun write => and_congr (same write) ?_
  rw [Bool.or_eq_true, Bool.or_eq_true, List.any_eq_true, List.any_eq_true]
  exact or_congr_right (exists_congr fun other => and_congr_left fun _ => same other)

/-- A call that returns has written every object. -/
theorem writeAll_eq_returned_iff {keys : List Text} (perm : keys.Perm listed) {files : Path → Option β}
    (nonempty : listed ≠ []) : writeAll root target keys = .returned files ↔
      ¬Fails root target listed ∧
        files = filesOf (keys.filterMap fun key => (target key).write?) := by
  have refused : (keys.any fun key => (target key).isRefused) = true ↔
      ∃ key ∈ listed, target key = .refused := by
    rw [List.any_eq_true]
    refine exists_congr fun key => and_congr perm.mem_iff ?_
    cases target key with
    | refused => exact iff_of_true rfl rfl
    | left => exact iff_of_false (fun same => by cases same) fun same => by cases same
    | file path content => exact iff_of_false (fun same => by cases same) fun same => by cases same
  have clash : clashes root (keys.filterMap fun key => (target key).write?) =
      clashes root (listed.filterMap fun key => (target key).write?) :=
    clashes_congr fun write => (perm.filterMap _).mem_iff
  unfold writeAll Fails
  dsimp only
  split_ifs with isRefused isClash
  · refine iff_of_false (fun same => by cases same) fun both => both.1 (.inr (.inl ?_))
    exact refused.mp isRefused
  · refine iff_of_false (fun same => by cases same) fun both => both.1 (.inr (.inr ?_))
    rw [← clash]
    exact isClash
  · rw [Outcome.returned.injEq]
    constructor
    · intro same
      refine ⟨?_, same.symm⟩
      rintro (empty | isRefused' | isClash')
      · exact nonempty empty
      · exact isRefused (refused.mpr isRefused')
      · exact isClash (clash.trans isClash')
    · exact fun both => both.2.symm

/-- An order in which the write of an object ends last. -/
theorem exists_order_last {key : Text} (member : key ∈ listed) :
    ∃ order, IsOrder order ∧ ∃ before, order listed = before ++ [key] := by
  classical
  refine ⟨fun keys => if key ∈ keys then keys.erase key ++ [key] else keys, ?_, listed.erase key,
    if_pos member⟩
  intro keys
  dsimp only
  split_ifs with inKeys
  · exact (List.perm_append_comm.trans (List.perm_cons_erase inKeys).symm)
  · exact List.Perm.refl keys

/-- Whatever the order, the files are those of a relation exactly if the call fails or the writes
agree and are those of the relation. -/
theorem writes_exact_iff (nonempty : listed ≠ []) (spec : Path → β → Prop) :
    (∀ order, IsOrder order → ∀ files, writeAll root target (order listed) = .returned files →
        ∀ path content, files path = some content ↔ spec path content) ↔
      Fails root target listed ∨
        (∀ key ∈ listed, ∀ other ∈ listed, ∀ path content content', target key = .file path content →
          target other = .file path content' → content = content') ∧
        ∀ path content, (∃ key ∈ listed, target key = .file path content) ↔ spec path content := by
  constructor
  · intro exact
    refine or_iff_not_imp_left.mpr fun succeeds => ?_
    -- A write that ends last is what its path holds.
    have last : ∀ key ∈ listed, ∀ path content, target key = .file path content →
        ∃ order, IsOrder order ∧ ∃ files, writeAll root target (order listed) = .returned files ∧
          files path = some content := by
      intro key member path content isFile
      obtain ⟨order, isOrder, before, ends⟩ := exists_order_last member
      refine ⟨order, isOrder, _, (writeAll_eq_returned_iff (isOrder listed) nonempty).mpr
        ⟨succeeds, rfl⟩, ?_⟩
      have write : (target key).write? = some (path, content) := Target.write?_eq_some_iff.mpr isFile
      rw [ends, List.filterMap_append, List.filterMap_cons, write, List.filterMap_nil]
      exact filesOf_append _ _ _
    have specified : ∀ key ∈ listed, ∀ path content, target key = .file path content →
        spec path content := by
      intro key member path content isFile
      obtain ⟨order, isOrder, files, returned, holds⟩ := last key member path content isFile
      exact (exact order isOrder files returned path content).mp holds
    refine ⟨?_, fun path content => ⟨?_, ?_⟩⟩
    · intro key member other member' path content content' isFile isFile'
      obtain ⟨order, isOrder, files, returned, holds⟩ := last key member path content isFile
      have holds' := (exact order isOrder files returned path content').mpr
        (specified other member' path content' isFile')
      exact Option.some.inj (holds.symm.trans holds')
    · rintro ⟨key, member, isFile⟩
      exact specified key member path content isFile
    · intro isSpec
      have returned := (writeAll_eq_returned_iff (List.Perm.refl listed) nonempty).mpr ⟨succeeds, rfl⟩
      have holds := (exact id (fun keys => List.Perm.refl keys) _ returned path content).mpr isSpec
      exact mem_writes.mp (mem_of_filesOf holds)
  · rintro (fails | ⟨agree, writes⟩) order isOrder files returned path content
    · exact absurd fails ((writeAll_eq_returned_iff (isOrder listed) nonempty).mp returned).1
    · obtain ⟨-, rfl⟩ := (writeAll_eq_returned_iff (isOrder listed) nonempty).mp returned
      have written : ∀ bytes, (path, bytes) ∈ ((order listed).filterMap fun key => (target key).write?) ↔
          spec path bytes := by
        intro bytes
        rw [((isOrder listed).filterMap _).mem_iff, mem_writes]
        exact writes path bytes
      constructor
      · exact fun holds => (written content).mp (mem_of_filesOf holds)
      · intro isSpec
        obtain ⟨bytes, holds⟩ := exists_filesOf ((written content).mpr isSpec)
        obtain ⟨key, member, isFile⟩ := (writes path bytes).mpr ((written bytes).mp (mem_of_filesOf holds))
        obtain ⟨other, member', isFile'⟩ := (writes path content).mpr isSpec
        rw [holds, agree key member other member' path bytes content isFile isFile']

end Writes

/-! ## The objects of the directory -/

section Directory

variable {store : ObjectStore β} {location : Text} {root : Path} {key : Text} {path : Path} {content : β}

theorem removeFirst_append (text rest : Text) : removeFirst text (text ++ rest) = rest := by
  cases whole : text ++ rest with
  | nil =>
    rw [removeFirst]
    exact (List.append_eq_nil_iff.mp whole).2.symm
  | cons c later =>
    have isPrefix : text.isPrefixOf (c :: later) = true := by
      rw [← whole, List.isPrefixOf_iff_prefix]
      exact List.prefix_append _ _
    rw [removeFirst, if_pos isPrefix, ← whole, List.drop_left]

/-- What is behind the directory's name is the relative path. -/
theorem relativeFilePath_append (location rest : Text) :
    relativeFilePath location (directoryOf location ++ rest) = rest.dropWhile (· = '/') := by
  unfold directoryOf relativeFilePath
  dsimp only
  split_ifs with whole
  · rw [removeFirst_append]
  · rw [List.append_assoc, removeFirst_append, List.singleton_append]
    rfl

/-- The directory's name begins with the prefix. -/
theorem start_of_directory (inside : directoryOf location <+: key) : (locationOf location).2 <+: key := by
  refine List.IsPrefix.trans ?_ inside
  unfold directoryOf
  dsimp only
  split_ifs with whole
  · exact List.prefix_refl _
  · exact List.prefix_append _ _

theorem endsWithSlash_append {text rest : Text} (nonempty : rest ≠ []) :
    endsWithSlash (text ++ rest) = endsWithSlash rest := by
  rw [endsWithSlash, endsWithSlash, List.getLast?_append_of_ne_nil _ nonempty]

/-- A directory's name is empty or ends with a slash. -/
theorem endsWithSlash_directoryOf (nonempty : directoryOf location ≠ []) :
    endsWithSlash (directoryOf location) = true := by
  unfold directoryOf at nonempty ⊢
  dsimp only at nonempty ⊢
  split_ifs at nonempty ⊢ with whole
  · exact whole.resolve_left nonempty
  · rw [endsWithSlash_append (List.cons_ne_nil _ _)]
    rfl

/-- A path that does not end in a slash has something behind the slashes it begins with. -/
theorem dropWhile_slash {rest : Text} (nonempty : rest ≠ []) (noSlash : endsWithSlash rest = false) :
    rest.dropWhile (· = '/') ≠ [] ∧ endsWithSlash (rest.dropWhile (· = '/')) = false := by
  have behind : rest.dropWhile (· = '/') ≠ [] := by
    intro empty
    rw [List.dropWhile_eq_nil_iff] at empty
    have last := empty _ (List.getLast_mem nonempty)
    rw [endsWithSlash, List.getLast?_eq_some_getLast nonempty] at noSlash
    simp at noSlash last
    exact noSlash last
  refine ⟨behind, ?_⟩
  have split := List.takeWhile_append_dropWhile (p := fun c => decide (c = '/')) (l := rest)
  rw [← split, endsWithSlash_append behind] at noSlash
  exact noSlash

/-- A path that ends in a slash still does behind the slashes it begins with. -/
theorem dropWhile_endsWithSlash {rest : Text} (slash : endsWithSlash rest = true) :
    rest.dropWhile (· = '/') = [] ∨ endsWithSlash (rest.dropWhile (· = '/')) = true := by
  refine or_iff_not_imp_left.mpr fun behind => ?_
  have split := List.takeWhile_append_dropWhile (p := fun c => decide (c = '/')) (l := rest)
  rw [← split, endsWithSlash_append behind] at slash
  exact slash

theorem liesAt_append_iff {rest : Text} (inBucket : directoryOf location ++ rest ∈ keysOf store location) :
    LiesAt store location root (directoryOf location ++ rest) path content ↔
      rest ≠ [] ∧ endsWithSlash rest = false ∧
        safeJoinUnderRoot root (rest.dropWhile (· = '/')) = some path ∧
          content = store.content (locationOf location).1 (directoryOf location ++ rest) := by
  constructor
  · rintro ⟨-, ⟨other, same, nonempty, noSlash, joined⟩, isContent⟩
    rw [← List.append_cancel_left same] at nonempty noSlash joined
    exact ⟨nonempty, noSlash, joined, isContent⟩
  · rintro ⟨nonempty, noSlash, joined, isContent⟩
    exact ⟨inBucket, ⟨rest, rfl, nonempty, noSlash, joined⟩, isContent⟩

/-- Google's download writes an object of the directory where it lies. -/
theorem gcsTarget_eq_file_iff (inBucket : key ∈ keysOf store location)
    (inside : directoryOf location <+: key) :
    gcsTarget store location root key = .file path content ↔
      LiesAt store location root key path content := by
  obtain ⟨rest, rfl⟩ := inside
  rw [liesAt_append_iff inBucket, gcsTarget, relativeFilePath_append]
  by_cases nothing : rest = []
  · subst nothing
    have nonempty : directoryOf location ≠ [] := by
      intro empty
      rw [empty] at inBucket
      exact (store.bucket _).named inBucket
    have slash : endsWithSlash (directoryOf location ++ []) = true := by
      rw [List.append_nil]
      exact endsWithSlash_directoryOf nonempty
    refine iff_of_false ?_ fun lies => lies.1 rfl
    cases safeJoinUnderRoot root (([] : Text).dropWhile (· = '/')) with
    | none => exact fun same => by cases same
    | some own =>
      dsimp only
      rw [if_pos slash]
      exact fun same => by cases same
  · rw [endsWithSlash_append nothing]
    cases safeJoinUnderRoot root (rest.dropWhile (· = '/')) with
    | none => exact iff_of_false (fun same => by cases same) fun lies => by cases lies.2.2.1
    | some own =>
      dsimp only
      split_ifs with slash
      · exact iff_of_false (fun same => by cases same) fun lies => by
          rw [lies.2.1] at slash
          cases slash
      · rw [Target.file.injEq, Option.some_inj]
        constructor
        · rintro ⟨same, isContent⟩
          exact ⟨nothing, by simpa using slash, same, isContent.symm⟩
        · rintro ⟨-, -, same, isContent⟩
          exact ⟨same, isContent.symm⟩

/-- The S3 download writes an object of the directory where it lies. -/
theorem s3Target_eq_file_iff (inBucket : key ∈ keysOf store location)
    (inside : directoryOf location <+: key) :
    s3Target store location root key = .file path content ↔
      LiesAt store location root key path content := by
  obtain ⟨rest, rfl⟩ := inside
  have named : directoryOf location ++ rest ≠ [] := fun empty =>
    (store.bucket _).named (empty ▸ inBucket)
  rw [liesAt_append_iff inBucket, s3Target, if_neg named]
  dsimp only
  rw [relativeFilePath_append]
  by_cases nothing : rest = []
  · subst nothing
    rw [if_pos (.inl rfl)]
    exact iff_of_false (fun same => by cases same) fun lies => lies.1 rfl
  · by_cases slash : endsWithSlash rest = true
    · rw [if_pos (dropWhile_endsWithSlash slash)]
      refine iff_of_false (fun same => by cases same) fun lies => ?_
      rw [lies.2.1] at slash
      cases slash
    · have noSlash : endsWithSlash rest = false := by simpa using slash
      obtain ⟨behind, behindNoSlash⟩ := dropWhile_slash nothing noSlash
      rw [if_neg (by simp [behind, behindNoSlash])]
      cases safeJoinUnderRoot root (rest.dropWhile (· = '/')) with
      | none => exact iff_of_false (fun same => by cases same) fun lies => by cases lies.2.2.1
      | some own =>
        dsimp only
        rw [Target.file.injEq, Option.some_inj]
        constructor
        · rintro ⟨same, isContent⟩
          exact ⟨nothing, noSlash, same, isContent.symm⟩
        · rintro ⟨-, -, same, isContent⟩
          exact ⟨same, isContent.symm⟩

/-! ## The listings -/

theorem mem_gcsFiles : key ∈ gcsFiles store location ↔
    key ∈ keysOf store location ∧ (locationOf location).2 <+: key := by
  rw [gcsFiles, mem_collect]
  simp [prefixQuery, KeyQuery.selects, keysOf]

theorem mem_keysOf_of_mem_s3Contents (member : key ∈ s3Contents store location) :
    key ∈ keysOf store location := by
  have served := (store.bucket (locationOf location).1).served (prefixQuery location)
  have first : key ∈ ((store.bucket (locationOf location).1).pages (prefixQuery location)).flatten := by
    unfold s3Contents ObjectBucket.responses at member
    cases pages : (store.bucket (locationOf location).1).pages (prefixQuery location) with
    | nil =>
      rw [pages] at member
      cases member
    | cons page later =>
      rw [pages] at member
      rw [List.flatten_cons, List.mem_append]
      cases later with
      | nil => exact .inl member
      | cons next later => exact .inl member
  exact (List.mem_filter.mp (served.mem_iff.mp first)).1

/-- Writes that are those of the directory, by object. -/
theorem faithful_iff {target : Text → Target β} {listed : List Text}
    (inside : ∀ key ∈ listed, directoryOf location <+: key → ∀ path content,
      target key = .file path content ↔ LiesAt store location root key path content) :
    Faithful store location root target listed ↔
      (∀ key ∈ listed, ∀ other ∈ listed, ∀ path content content', target key = .file path content →
          target other = .file path content' → content = content') ∧
        ∀ path content, (∃ key ∈ listed, target key = .file path content) ↔
          ∃ key, LiesAt store location root key path content := by
  constructor
  · rintro ⟨agree, beside, complete⟩
    refine ⟨agree, fun path content => ⟨?_, ?_⟩⟩
    · rintro ⟨key, member, isFile⟩
      by_cases isInside : directoryOf location <+: key
      · exact ⟨key, (inside key member isInside path content).mp isFile⟩
      · exact beside key member isInside path content isFile
    · rintro ⟨key, lies⟩
      by_cases member : key ∈ listed
      · obtain ⟨rest, isKey, -⟩ := lies.behind
        have isInside : directoryOf location <+: key := ⟨rest, isKey.symm⟩
        exact ⟨key, member, (inside key member isInside path content).mpr lies⟩
      · exact complete key member path content lies
  · rintro ⟨agree, writes⟩
    exact ⟨agree, fun key member _ path content isFile => (writes path content).mp ⟨key, member, isFile⟩,
      fun key _ path content lies => (writes path content).mpr ⟨key, lies⟩⟩

/-! ## Both downloads -/

/-- Google's download, of a directory that holds something. -/
theorem downloads_gcs_iff (some : ∃ key ∈ keysOf store location, directoryOf location <+: key) :
    (∀ order, IsOrder order → Downloads store location root
        (downloadGcsDirectory store location root order)) ↔
      Fails root (gcsTarget store location root) (gcsFiles store location) ∨
        Faithful store location root (gcsTarget store location root) (gcsFiles store location) := by
  obtain ⟨key, inBucket, isInside⟩ := some
  have listed : key ∈ gcsFiles store location := mem_gcsFiles.mpr ⟨inBucket, start_of_directory isInside⟩
  have nonempty : gcsFiles store location ≠ [] := List.ne_nil_of_mem listed
  rw [faithful_iff fun key member isInside path content =>
      gcsTarget_eq_file_iff (mem_gcsFiles.mp member).1 isInside, ← writes_exact_iff nonempty]
  refine forall₂_congr fun order _ => ?_
  rw [downloadGcsDirectory, if_neg nonempty]
  exact ⟨fun downloads => downloads.exact,
    fun exact => ⟨exact, fun none => absurd isInside (none key inBucket)⟩⟩

/-- The S3 download, of a directory that holds something. -/
theorem downloads_s3_iff (some : ∃ key ∈ keysOf store location, directoryOf location <+: key) :
    (∀ order, IsOrder order → Downloads store location root
        (downloadS3Directory store location root order)) ↔
      Fails root (s3Target store location root) (s3Contents store location) ∨
        Faithful store location root (s3Target store location root) (s3Contents store location) := by
  obtain ⟨key, inBucket, isInside⟩ := some
  have nothing : ∀ outcome : Outcome β, (∀ key ∈ keysOf store location, ¬directoryOf location <+: key) →
      outcome = .threw false := fun outcome none => absurd isInside (none key inBucket)
  by_cases empty : s3Contents store location = []
  · refine iff_of_true (fun order _ => ⟨fun files returned => ?_, nothing _⟩) (.inl (.inl empty))
    rw [downloadS3Directory, if_pos empty] at returned
    cases returned
  · rw [faithful_iff fun key member isInside path content =>
        s3Target_eq_file_iff (mem_keysOf_of_mem_s3Contents member) isInside, ← writes_exact_iff empty]
    refine forall₂_congr fun order _ => ?_
    rw [downloadS3Directory, if_neg empty]
    exact ⟨fun downloads => downloads.exact, fun exact => ⟨exact, nothing _⟩⟩

/-- The S3 download of a directory that holds nothing does not leave the target as it was. -/
theorem exists_of_downloads_s3 (downloads : Downloads store location root
    (downloadS3Directory store location root id)) :
    ∃ key ∈ keysOf store location, directoryOf location <+: key := by
  by_contra none
  push Not at none
  have untouched := downloads.nothing none
  unfold downloadS3Directory writeAll at untouched
  dsimp only at untouched
  split_ifs at untouched <;> cases untouched

end Directory

/-- An address is one directory with either provider. -/
theorem liesAt_scheme {store : ObjectStore β} {address : Text} {root : Path} {key : Text} {path : Path}
    {content : β} : LiesAt store ("gs://".toList ++ address) root key path content ↔
      LiesAt store ("s3://".toList ++ address) root key path content :=
  ⟨fun ⟨inBucket, behind, isContent⟩ => ⟨inBucket, behind, isContent⟩,
    fun ⟨inBucket, behind, isContent⟩ => ⟨inBucket, behind, isContent⟩⟩

/-- Both downloads leave the files of a directory and no others exactly if it holds something, and
what each lists stands for it or fails the call. -/
theorem meets_iff (store : ObjectStore β) (address : Text) (root : Path) :
    Meets store address root ↔
      (∃ key ∈ keysOf store ("gs://".toList ++ address),
        directoryOf ("gs://".toList ++ address) <+: key) ∧
      (Fails root (gcsTarget store ("gs://".toList ++ address) root)
          (gcsFiles store ("gs://".toList ++ address)) ∨
        Faithful store ("gs://".toList ++ address) root
          (gcsTarget store ("gs://".toList ++ address) root) (gcsFiles store ("gs://".toList ++ address))) ∧
      (Fails root (s3Target store ("s3://".toList ++ address) root)
          (s3Contents store ("s3://".toList ++ address)) ∨
        Faithful store ("s3://".toList ++ address) root
          (s3Target store ("s3://".toList ++ address) root)
          (s3Contents store ("s3://".toList ++ address))) := by
  constructor
  · intro meets
    have some := exists_of_downloads_s3 (meets.s3 id fun keys => List.Perm.refl keys)
    have someGcs : ∃ key ∈ keysOf store ("gs://".toList ++ address),
        directoryOf ("gs://".toList ++ address) <+: key := some
    exact ⟨someGcs, (downloads_gcs_iff someGcs).mp meets.gcs, (downloads_s3_iff some).mp meets.s3⟩
  · rintro ⟨someGcs, gcs, s3⟩
    have some : ∃ key ∈ keysOf store ("s3://".toList ++ address),
        directoryOf ("s3://".toList ++ address) <+: key := someGcs
    have ofGcs := (downloads_gcs_iff someGcs).mpr gcs
    have ofS3 := (downloads_s3_iff some).mpr s3
    refine ⟨ofGcs, ofS3, fun order order' isOrder isOrder' files files' returned returned' => ?_⟩
    funext path
    refine Option.ext fun content => ?_
    rw [(ofGcs order isOrder).exact files returned, (ofS3 order' isOrder').exact files' returned']
    exact exists_congr fun key => liesAt_scheme

/-- A directory whose name begins alike is downloaded too. -/
theorem not_meets_beside :
    ¬∀ (store : ObjectStore ℕ) (address : Text) (root : Path), Meets store address root := by
  intro all
  let keys : List Text := ["sales/a.malloy".toList, "sales-old/b.malloy".toList]
  let store : ObjectStore ℕ :=
    { bucket := fun _ =>
        { keys := keys
          distinct := by decide
          named := by decide
          pages := fun query => [keys.filter query.selects]
          served := fun query => by rw [List.flatten_singleton] }
      content := fun _ key => key.length }
  let location : Text := "s3://".toList ++ "packages/sales".toList
  let old : Path := ["srv".toList, "-old".toList, "b.malloy".toList]
  have downloads := (all store "packages/sales".toList ["srv".toList]).s3 id fun _ => List.Perm.refl _
  have holds : (match downloadS3Directory store location ["srv".toList] id with
      | .returned files => files old
      | .threw _ => none) = some 18 := by decide +kernel
  cases outcome : downloadS3Directory store location ["srv".toList] id with
  | threw emptied =>
    rw [outcome] at holds
    cases holds
  | returned files =>
    rw [outcome] at holds
    obtain ⟨key, inBucket, ⟨rest, isKey, -, -, joined⟩, -⟩ := (downloads.exact files outcome old 18).mp holds
    have directory : directoryOf location = "sales/".toList := by decide +kernel
    rw [directory] at isKey
    rcases List.mem_pair.mp inBucket with isFirst | isSecond
    · have isRest : rest = "a.malloy".toList := List.append_cancel_left (isKey.symm.trans isFirst)
      rw [isRest] at joined
      exact absurd joined (by decide +kernel)
    · have inside : "sales/".toList <+: "sales-old/b.malloy".toList := ⟨rest, isKey.symm.trans isSecond⟩
      exact absurd inside (by decide)

end MalloyPublisher.Environments.Downloads
