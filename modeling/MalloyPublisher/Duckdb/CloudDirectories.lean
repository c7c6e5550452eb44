import MalloyPublisher.Foundations.PagedListing
import MalloyPublisher.Foundations.Text
import Mathlib.Data.List.Dedup
import Mathlib.Data.List.Sort

/-!
# The directories of a bucket

A bucket is browsed by directory. One scan over all keys finds the directories that hold data files,
and names each by a URI; to open one, its URI is parsed back and its keys are listed with a
delimiter. The directory of a key is what is before its last slash.

The two scans disagree in two places. A slash at the front of a key that has no other counts as none
in the first scan, but not in the second; and a URI whose directory has a line terminator in it does
not parse.

## Main definitions

* `listDirectorySchemas`, `parseCloudUri`, `listDataFilesInDirectory` — the scans and the URI
  between them
* `ReachesFiles` — browsing reaches every data file, under one directory
* `Browsable` — what is before the last slash of a key is neither empty nor more than one line

## Main results

* `reachesFiles_iff` — browsing reaches every file when every data file is browsable
-/

namespace MalloyPublisher.Duckdb.Cloud

open Foundations

abbrev Text := List Char

/-! ## The scans -/

inductive CloudStorageType
  | gcs
  | s3
  deriving DecidableEq

def CloudStorageType.scheme : CloudStorageType → Text
  | .gcs => ['g', 's']
  | .s3 => ['s', '3']

/-- A bucket's name has a character and no slash. -/
structure CloudBucket extends ObjectBucket where
  type : CloudStorageType
  name : Text
  name_ne_nil : name ≠ []
  slash_notMem : '/' ∉ name

/-- The name ends in one of the suffixes in lower case. No other letter than an ASCII one has one of
theirs as its lower case. -/
def isDataFile (key : Text) : Bool :=
  [".csv", ".parquet", ".json", ".jsonl", ".ndjson"].any fun suffix =>
    suffix.toList.isSuffixOf (key.map Char.toLower)

def lastIndexOfSlash (key : Text) : Option ℕ :=
  (key.reverse.idxOf? '/').map fun back => key.length - 1 - back

def directoryOf (key : Text) : Text :=
  match lastIndexOfSlash key with
  | some index => if 0 < index then key.take index else []
  | none => []

/-- A listing of all keys, without those that are empty. -/
def listAllCloudFiles (bucket : CloudBucket) : List Text :=
  collect (fun key => key ≠ []) (bucket.responses ⟨[], none⟩)

def uriOf (bucket : CloudBucket) (dir : Text) : Text :=
  if dir ≠ [] then bucket.type.scheme ++ "://".toList ++ bucket.name ++ '/' :: dir
  else bucket.type.scheme ++ "://".toList ++ bucket.name

/-- The directories in the order of their code units. -/
def sortedDirs (dirs : List Text) : List Text :=
  dirs.insertionSort fun dir other => dir.flatMap codeUnits ≤ other.flatMap codeUnits

def listDirectorySchemas (bucket : CloudBucket) : List Text :=
  let directories := (((listAllCloudFiles bucket).filter isDataFile).map directoryOf).dedup
  (sortedDirs directories).map (uriOf bucket)

/-- What `.` does not match. -/
def endsLine (c : Char) : Bool := c.toNat ∈ [0xA, 0xD, 0x2028, 0x2029]

structure CloudUri where
  type : CloudStorageType
  bucket : Text
  path : Text
  deriving DecidableEq

/-- `/^scheme:\/\/([^/]+)(?:\/(.*))?$/` -/
def matchUri (type : CloudStorageType) (uri : Text) : Option CloudUri :=
  let start := type.scheme ++ "://".toList
  if start.isPrefixOf uri then
    let bucket := (uri.drop start.length).takeWhile (· ≠ '/')
    if bucket = [] then none
    else
      match (uri.drop start.length).dropWhile (· ≠ '/') with
      | [] => some ⟨type, bucket, []⟩
      | _ :: path => if path.any endsLine then none else some ⟨type, bucket, path⟩
  else none

def parseCloudUri (uri : Text) : Option CloudUri :=
  (matchUri .gcs uri).or (matchUri .s3 uri)

def listDataFilesInDirectory (bucket : CloudBucket) (directoryPath : Text) : List Text :=
  let startsWith := if directoryPath ≠ [] then directoryPath ++ ['/'] else []
  collect (fun key => key ≠ [] && isDataFile key) (bucket.responses ⟨startsWith, some '/'⟩)

/-! ## What it is for -/

/-- The files that are listed under a directory's URI. -/
def filesUnder (bucket : CloudBucket) (uri : Text) : List Text :=
  match parseCloudUri uri with
  | some parsed => listDataFilesInDirectory bucket parsed.path
  | none => []

/-- Browsing reaches every data file, under exactly one directory. -/
structure ReachesFiles (bucket : CloudBucket) : Prop where
  distinct : (listDirectorySchemas bucket).Nodup
  parsed : ∀ uri ∈ listDirectorySchemas bucket, ∃ path,
    parseCloudUri uri = some ⟨bucket.type, bucket.name, path⟩ ∧
      ∀ key, key ∈ listDataFilesInDirectory bucket path ↔
        key ∈ bucket.keys ∧ isDataFile key = true ∧ uriOf bucket (directoryOf key) = uri
  reached : ((listDirectorySchemas bucket).flatMap (filesUnder bucket)).Perm
    (bucket.keys.filter isDataFile)

/-- What is before the last slash of a key, if it has one, is neither empty nor more than one line.
-/
def Browsable (key : Text) : Prop :=
  ∀ before name, key = before ++ '/' :: name → '/' ∉ name →
    before ≠ [] ∧ ∀ c ∈ before, endsLine c = false

/-! ## The directory of a key -/

variable {bucket : CloudBucket} {key dir before name : Text}

theorem isDataFile_nil : isDataFile [] = false := by decide

theorem exists_last_slash (slash : '/' ∈ key) :
    ∃ before name, key = before ++ '/' :: name ∧ '/' ∉ name := by
  induction key with
  | nil => cases slash
  | cons c key ih =>
    by_cases later : '/' ∈ key
    · obtain ⟨before, name, rfl, noSlash⟩ := ih later
      exact ⟨c :: before, name, rfl, noSlash⟩
    · rcases List.mem_cons.mp slash with rfl | inKey
      · exact ⟨[], key, rfl, later⟩
      · exact absurd inKey later

theorem lastIndexOfSlash_append (noSlash : '/' ∉ name) :
    lastIndexOfSlash (before ++ '/' :: name) = some before.length := by
  have back : (before ++ '/' :: name).reverse.idxOf? '/' = some name.length := by
    rw [List.reverse_append, List.reverse_cons, List.append_assoc, List.singleton_append,
      List.idxOf?_eq_some_iff]
    refine ⟨by simp, by simp, fun place before => ?_⟩
    rw [List.getElem_append_left (by simpa using before), List.getElem_reverse]
    intro same
    exact noSlash (same ▸ List.getElem_mem _)
  rw [lastIndexOfSlash, back, Option.map_some, List.length_append, List.length_cons]
  congr 1
  omega

theorem directoryOf_append (noSlash : '/' ∉ name) : directoryOf (before ++ '/' :: name) = before := by
  rw [directoryOf, lastIndexOfSlash_append noSlash]
  dsimp only
  split_ifs with inside
  · exact List.take_left
  · exact (List.length_eq_zero_iff.mp (Nat.eq_zero_of_not_pos inside)).symm

theorem directoryOf_eq_nil (noSlash : '/' ∉ key) : directoryOf key = [] := by
  have none : lastIndexOfSlash key = none := by
    rw [lastIndexOfSlash, List.idxOf?_eq_none_iff.mpr (by simpa using noSlash), Option.map_none]
  rw [directoryOf, none]

/-! ## The URI of a directory -/

theorem scheme_append_inj (type other : CloudStorageType) (text : Text) :
    (other.scheme ++ "://".toList).isPrefixOf (type.scheme ++ "://".toList ++ text) = true ↔
      other = type := by
  cases type <;> cases other <;> simp [CloudStorageType.scheme]

theorem matchUri_other {type other : CloudStorageType} (differ : other ≠ type) (text : Text) :
    matchUri other (type.scheme ++ "://".toList ++ text) = none := by
  rw [matchUri, if_neg]
  rw [scheme_append_inj]
  exact differ

theorem parseCloudUri_eq (type : CloudStorageType) (text : Text) :
    parseCloudUri (type.scheme ++ "://".toList ++ text) =
      matchUri type (type.scheme ++ "://".toList ++ text) := by
  unfold parseCloudUri
  cases type with
  | gcs => rw [matchUri_other (by decide : CloudStorageType.s3 ≠ .gcs), Option.or_none]
  | s3 => rw [matchUri_other (by decide : CloudStorageType.gcs ≠ .s3), Option.none_or]

theorem matchUri_append (type : CloudStorageType) (text : Text) :
    matchUri type (type.scheme ++ "://".toList ++ text) =
      if text.takeWhile (· ≠ '/') = [] then none
      else match text.dropWhile (· ≠ '/') with
        | [] => some ⟨type, text.takeWhile (· ≠ '/'), []⟩
        | _ :: path =>
          if path.any endsLine then none else some ⟨type, text.takeWhile (· ≠ '/'), path⟩ := by
  have isPrefix : (type.scheme ++ "://".toList).isPrefixOf (type.scheme ++ "://".toList ++ text) = true :=
    (scheme_append_inj type type text).mpr rfl
  rw [matchUri]
  simp only [isPrefix, if_true, List.drop_left]

theorem takeWhile_name (bucket : CloudBucket) (rest : Text) :
    (bucket.name ++ rest).takeWhile (· ≠ '/') = bucket.name ++ rest.takeWhile (· ≠ '/') ∧
      (bucket.name ++ rest).dropWhile (· ≠ '/') = rest.dropWhile (· ≠ '/') := by
  have inName : ∀ c ∈ bucket.name, decide (c ≠ '/') = true := fun c member =>
    decide_eq_true fun same => bucket.slash_notMem (same ▸ member)
  exact ⟨List.takeWhile_append_of_pos inName, List.dropWhile_append_of_pos inName⟩

/-- A directory's URI is parsed back exactly if the directory has no line terminator. -/
theorem parseCloudUri_uriOf (bucket : CloudBucket) (dir : Text) :
    parseCloudUri (uriOf bucket dir) =
      if dir.any endsLine then none else some ⟨bucket.type, bucket.name, dir⟩ := by
  cases dir with
  | nil =>
    obtain ⟨taken, dropped⟩ := takeWhile_name bucket []
    rw [List.append_nil] at taken dropped
    rw [uriOf, if_neg (by simp), parseCloudUri_eq, matchUri_append, taken, dropped]
    simp [bucket.name_ne_nil]
  | cons c dir =>
    obtain ⟨taken, dropped⟩ := takeWhile_name bucket ('/' :: c :: dir)
    have here : ('/' :: c :: dir).takeWhile (· ≠ '/') = [] ∧
        ('/' :: c :: dir).dropWhile (· ≠ '/') = '/' :: c :: dir := by simp
    rw [here.1, List.append_nil] at taken
    rw [here.2] at dropped
    rw [uriOf, if_pos (List.cons_ne_nil _ _), List.append_assoc, parseCloudUri_eq, matchUri_append, taken,
      dropped, if_neg bucket.name_ne_nil]

theorem uriOf_inj {bucket : CloudBucket} {dir other : Text} (same : uriOf bucket dir = uriOf bucket other) :
    dir = other := by
  unfold uriOf at same
  split_ifs at same with first second second
  · exact (List.cons.inj (List.append_cancel_left same)).2
  · have lengths := congrArg List.length same
    simp at lengths
  · have lengths := congrArg List.length same
    simp at lengths
  · exact (not_not.mp first).trans (not_not.mp second).symm

/-! ## What the scans list -/

theorem mem_listDirectorySchemas {uri : Text} : uri ∈ listDirectorySchemas bucket ↔
    ∃ key ∈ bucket.keys, isDataFile key = true ∧ uriOf bucket (directoryOf key) = uri := by
  have scanned : ∀ key, key ∈ (listAllCloudFiles bucket).filter isDataFile ↔
      key ∈ bucket.keys ∧ isDataFile key = true := by
    intro key
    rw [List.mem_filter, listAllCloudFiles, mem_collect]
    constructor
    · rintro ⟨⟨member, -, -⟩, isFile⟩
      exact ⟨member, isFile⟩
    · rintro ⟨member, isFile⟩
      have nonempty : key ≠ [] := by
        rintro rfl
        rw [isDataFile_nil] at isFile
        cases isFile
      exact ⟨⟨member, by simp [KeyQuery.selects], decide_eq_true nonempty⟩, isFile⟩
  rw [listDirectorySchemas, List.mem_map]
  constructor
  · rintro ⟨dir, isDir, rfl⟩
    rw [sortedDirs, (List.perm_insertionSort _ _).mem_iff, List.mem_dedup, List.mem_map] at isDir
    obtain ⟨key, member, rfl⟩ := isDir
    exact ⟨key, ((scanned key).mp member).1, ((scanned key).mp member).2, rfl⟩
  · rintro ⟨key, member, isFile, rfl⟩
    refine ⟨directoryOf key, ?_, rfl⟩
    rw [sortedDirs, (List.perm_insertionSort _ _).mem_iff, List.mem_dedup, List.mem_map]
    exact ⟨key, (scanned key).mpr ⟨member, isFile⟩, rfl⟩

theorem nodup_listDirectorySchemas (bucket : CloudBucket) : (listDirectorySchemas bucket).Nodup := by
  have dirs := (List.perm_insertionSort (fun dir other : Text =>
    dir.flatMap codeUnits ≤ other.flatMap codeUnits) _).nodup_iff.mpr
      (List.nodup_dedup (((listAllCloudFiles bucket).filter isDataFile).map directoryOf))
  exact dirs.map fun dir other => uriOf_inj

/-- What the listing of a directory selects. -/
def InDirectory (path key : Text) : Prop :=
  if path = [] then '/' ∉ key else ∃ name, key = path ++ '/' :: name ∧ '/' ∉ name

theorem mem_listDataFilesInDirectory {path : Text} : key ∈ listDataFilesInDirectory bucket path ↔
    key ∈ bucket.keys ∧ isDataFile key = true ∧ InDirectory path key := by
  have kept : ∀ key : Text, (decide (key ≠ []) && isDataFile key) = true ↔ isDataFile key = true := by
    intro key
    rw [Bool.and_eq_true]
    refine ⟨And.right, fun isFile => ⟨decide_eq_true ?_, isFile⟩⟩
    rintro rfl
    rw [isDataFile_nil] at isFile
    cases isFile
  have selected : (KeyQuery.mk (if path ≠ [] then path ++ ['/'] else []) (some '/')).selects key = true ↔
      InDirectory path key := by
    unfold InDirectory KeyQuery.selects
    rw [Bool.and_eq_true, List.isPrefixOf_iff_prefix]
    by_cases root : path = []
    · simp [root]
    · rw [if_pos root, if_neg root]
      constructor
      · rintro ⟨⟨name, rfl⟩, noSlash⟩
        rw [List.drop_left] at noSlash
        exact ⟨name, by rw [List.append_assoc, List.singleton_append], by simpa using noSlash⟩
      · rintro ⟨name, rfl, noSlash⟩
        have split : path ++ '/' :: name = (path ++ ['/']) ++ name := by
          rw [List.append_assoc, List.singleton_append]
        rw [split, List.drop_left]
        exact ⟨List.prefix_append _ _, by simpa using noSlash⟩
  rw [listDataFilesInDirectory, mem_collect, kept, selected]
  tauto

/-- The scans agree on the directory of a browsable key. -/
theorem inDirectory_iff {path : Text} (browsable : Browsable key) :
    InDirectory path key ↔ directoryOf key = path := by
  unfold InDirectory
  by_cases slash : '/' ∈ key
  · obtain ⟨before, name, rfl, noSlash⟩ := exists_last_slash slash
    rw [directoryOf_append noSlash]
    have nonempty := (browsable before name rfl noSlash).1
    split_ifs with root
    · exact iff_of_false (fun absent => absent slash) fun same => nonempty (same.trans root)
    · constructor
      · rintro ⟨other, same, noSlash'⟩
        have dirs : directoryOf (before ++ '/' :: name) = before := directoryOf_append noSlash
        rw [same, directoryOf_append noSlash'] at dirs
        exact dirs.symm
      · rintro rfl
        exact ⟨name, rfl, noSlash⟩
  · rw [directoryOf_eq_nil slash]
    split_ifs with root
    · exact iff_of_true slash root.symm
    · refine iff_of_false ?_ (Ne.symm root)
      rintro ⟨name, rfl, -⟩
      simp at slash

/-! ## Browsing -/

theorem filesUnder_uriOf {path : Text} (oneLine : ∀ c ∈ path, endsLine c = false) :
    parseCloudUri (uriOf bucket path) = some ⟨bucket.type, bucket.name, path⟩ ∧
      filesUnder bucket (uriOf bucket path) = listDataFilesInDirectory bucket path := by
  have parsed : parseCloudUri (uriOf bucket path) = some ⟨bucket.type, bucket.name, path⟩ := by
    rw [parseCloudUri_uriOf, if_neg]
    rw [List.any_eq_true]
    rintro ⟨c, member, ends⟩
    rw [oneLine c member] at ends
    cases ends
  exact ⟨parsed, by rw [filesUnder, parsed]⟩

/-- A file that is reached is browsable. -/
theorem browsable_of_reachesFiles (reaches : ReachesFiles bucket) (member : key ∈ bucket.keys)
    (isFile : isDataFile key = true) : Browsable key := by
  rintro before name rfl noSlash
  have directory : directoryOf (before ++ '/' :: name) = before := directoryOf_append noSlash
  have listed := mem_listDirectorySchemas.mpr ⟨_, member, isFile, rfl⟩
  obtain ⟨path, parsed, files⟩ := reaches.parsed _ listed
  rw [directory, parseCloudUri_uriOf] at parsed
  split_ifs at parsed with many
  obtain rfl : before = path := congrArg CloudUri.path (Option.some.inj parsed)
  have inDirectory := (mem_listDataFilesInDirectory.mp ((files _).mpr ⟨member, isFile, rfl⟩)).2.2
  constructor
  · rintro rfl
    rw [InDirectory, if_pos rfl] at inDirectory
    exact inDirectory List.mem_cons_self
  · intro c inBefore
    rw [Bool.not_eq_true, List.any_eq_false] at many
    simpa using many c inBefore

/-- Browsing reaches every file when every data file is browsable. -/
theorem reachesFiles_of_browsable (browsable : ∀ key ∈ bucket.keys, isDataFile key = true → Browsable key) :
    ReachesFiles bucket := by
  have oneLine : ∀ key ∈ bucket.keys, isDataFile key = true → ∀ c ∈ directoryOf key, endsLine c = false := by
    intro key member isFile
    by_cases slash : '/' ∈ key
    · obtain ⟨before, name, rfl, noSlash⟩ := exists_last_slash slash
      rw [directoryOf_append noSlash]
      exact (browsable _ member isFile before name rfl noSlash).2
    · rw [directoryOf_eq_nil slash]
      exact fun c member => by cases member
  have files : ∀ key ∈ bucket.keys, isDataFile key = true → ∀ other,
      other ∈ listDataFilesInDirectory bucket (directoryOf key) ↔ other ∈ bucket.keys ∧
        isDataFile other = true ∧ uriOf bucket (directoryOf other) = uriOf bucket (directoryOf key) := by
    intro key member isFile other
    rw [mem_listDataFilesInDirectory]
    refine and_congr_right fun inBucket => and_congr_right fun isFile' => ?_
    rw [inDirectory_iff (browsable other inBucket isFile')]
    exact ⟨congrArg _, uriOf_inj⟩
  refine ⟨nodup_listDirectorySchemas bucket, ?_, ?_⟩
  · intro uri listed
    obtain ⟨key, member, isFile, rfl⟩ := mem_listDirectorySchemas.mp listed
    exact ⟨directoryOf key, (filesUnder_uriOf (oneLine key member isFile)).1, files key member isFile⟩
  · have under : ∀ uri ∈ listDirectorySchemas bucket, ∀ other, other ∈ filesUnder bucket uri ↔
        other ∈ bucket.keys ∧ isDataFile other = true ∧ uriOf bucket (directoryOf other) = uri := by
      intro uri listed
      obtain ⟨key, member, isFile, rfl⟩ := mem_listDirectorySchemas.mp listed
      rw [(filesUnder_uriOf (oneLine key member isFile)).2]
      exact files key member isFile
    refine (List.perm_ext_iff_of_nodup ?_ (bucket.distinct.filter _)).mpr fun key => ?_
    · rw [List.nodup_flatMap]
      constructor
      · intro uri listed
        obtain ⟨key, member, isFile, rfl⟩ := mem_listDirectorySchemas.mp listed
        rw [(filesUnder_uriOf (oneLine key member isFile)).2]
        exact nodup_collect _ _ _
      · refine (nodup_listDirectorySchemas bucket).imp_of_mem ?_
        intro uri other listed listed' differ key member member'
        have first := ((under uri listed key).mp member).2.2
        have second := ((under other listed' key).mp member').2.2
        exact differ (first.symm.trans second)
    · rw [List.mem_flatMap, List.mem_filter]
      constructor
      · rintro ⟨uri, listed, member⟩
        have file := (under uri listed key).mp member
        exact ⟨file.1, file.2.1⟩
      · rintro ⟨member, isFile⟩
        have listed := mem_listDirectorySchemas.mpr ⟨key, member, isFile, rfl⟩
        exact ⟨_, listed, (under _ listed key).mpr ⟨member, isFile, rfl⟩⟩

/-- Browsing reaches every file of a bucket, under one directory, exactly when every data file is
browsable. -/
theorem reachesFiles_iff (bucket : CloudBucket) :
    ReachesFiles bucket ↔ ∀ key ∈ bucket.keys, isDataFile key = true → Browsable key :=
  ⟨fun reaches _ member isFile => browsable_of_reachesFiles reaches member isFile,
    reachesFiles_of_browsable⟩

/-- A file at the root whose key begins with a slash. -/
theorem not_reachesFiles_slash : ¬∀ bucket : CloudBucket, ReachesFiles bucket := by
  intro all
  let bucket : CloudBucket :=
    { keys := ["/orders.csv".toList]
      distinct := List.nodup_singleton _
      named := by decide
      pages := fun query => [["/orders.csv".toList].filter query.selects]
      served := fun query => by rw [List.flatten_singleton]
      type := .s3
      name := ['b']
      name_ne_nil := List.cons_ne_nil _ _
      slash_notMem := by decide }
  have browsable : Browsable "/orders.csv".toList :=
    browsable_of_reachesFiles (all bucket) (List.mem_singleton_self _) (by decide)
  exact (browsable [] "orders.csv".toList (by decide) (by decide)).1 rfl

end MalloyPublisher.Duckdb.Cloud
